import FluxGuard.Data.Bytes
import FluxGuard.Data.Numeral
import FluxGuard.Model.Maps

/-!
# Addresses as text

The texts of `ipaddress` that userspace uses for map keys: `key_to_ip`, `ip_to_key`
and their IPv6 forms, with the functions of Python's `ipaddress` module they rest on,
under its names.
-/

namespace FluxGuard

/-! ## IPv4 -/

/-- The bytes of a key as they lie in memory. -/
def Ip4.bytes (k : Ip4) : List UInt8 := leBytes 4 k.toNat

/-- The key of four bytes in network order, as the kernel loads it. -/
def Ip4.ofBytes (bytes : List UInt8) : Ip4 := .ofNat (leNat bytes)

/-- `str(IPv4Address(bytes))`. -/
def ipv4Str (bytes : List UInt8) : Text := ['.'].intercalate (bytes.map fun b => Nat.toDigits 10 b.toNat)

/-- `IPv4Address._parse_octet`. -/
def parseOctet (octetStr : Text) : Option UInt8 :=
  if octetStr = [] then none
  else if octetStr.all Char.isDigit = false then none
  else if 3 < octetStr.length then none
  else if octetStr ≠ ['0'] ∧ octetStr.head? = some '0' then none
  else
    let octetInt := Nat.ofDigitChars 10 octetStr 0
    if 255 < octetInt then none else some (.ofNat octetInt)

/-- `IPv4Address(ip_str).packed`. -/
def ipv4Packed (ipStr : Text) : Option (List UInt8) :=
  if '/' ∈ ipStr then none
  else
    let octets := ipStr.splitOn '.'
    if octets.length ≠ 4 then none else octets.mapM parseOctet

/-- `key_to_ip`. -/
def keyToIp (k : Ip4) : Text := ipv4Str k.bytes

/-- `ip_to_key`. -/
def ipToKey (ipStr : Text) : Option Ip4 := (ipv4Packed ipStr).map Ip4.ofBytes

/-! ## IPv6 -/

/-- The 16-bit groups of an address. -/
def hextetsOf : List UInt8 → List ℕ
  | a :: b :: bytes => (a.toNat * 256 + b.toNat) :: hextetsOf bytes
  | _ => []

/-- The two bytes of a hextet. -/
def hextetBytes (h : ℕ) : List UInt8 := [.ofNat (h / 256), .ofNat h]

/-- The loop state of `_compress_hextets`: the longest run of zero groups so far and
the run that is open, if any. -/
structure Doublecolon where
  bestStart : ℕ
  bestLen : ℕ
  start : Option ℕ
  len : ℕ

/-- One pass of the loop of `_compress_hextets`. -/
def Doublecolon.scan (d : Doublecolon) (index : ℕ) (hextet : Text) : Doublecolon :=
  if hextet = ['0'] then
    let len := d.len + 1
    let start := d.start.getD index
    if len > d.bestLen then ⟨start, len, some start, len⟩ else { d with start := some start, len := len }
  else { d with start := none, len := 0 }

/-- `IPv6Address._compress_hextets`. -/
def compressHextets (hextets : List Text) : List Text :=
  let d : Doublecolon := hextets.zipIdx.foldl (fun d p => Doublecolon.scan d p.2 p.1) ⟨0, 0, none, 0⟩
  if d.bestLen > 1 then
    let bestEnd := d.bestStart + d.bestLen
    -- for zeros at the end of the address
    let hextets := if bestEnd = hextets.length then hextets ++ [[]] else hextets
    let hextets := hextets.take d.bestStart ++ [[]] ++ hextets.drop bestEnd
    -- for zeros at the beginning of the address
    if d.bestStart = 0 then [] :: hextets else hextets
  else hextets

/-- `str(IPv6Address(bytes))`. -/
def ipv6Str (bytes : List UInt8) : Text :=
  [':'].intercalate (compressHextets ((hextetsOf bytes).map (Nat.toDigits 16)))

/-- `IPv6Address._parse_hextet`. -/
def parseHextet (hextetStr : Text) : Option ℕ :=
  if hextetStr = [] then none
  else if 4 < hextetStr.length then none
  else readHex hextetStr

/-- The parts of a text that ends in an IPv4 address, that address as two groups. -/
def expandIpv4Suffix (parts : List Text) : Option (List Text) :=
  if '.' ∈ parts.getLastD [] then
    (ipv4Packed (parts.getLastD [])).map fun bytes =>
      parts.dropLast ++ (hextetsOf bytes).map (Nat.toDigits 16)
  else some parts

/-- The groups of the parts between colons. The empty part that is neither first nor last
is the `::`. -/
def partsHextets (parts : List Text) : Option (List ℕ) :=
  if 9 < parts.length then none
  else
    let middle := parts.tail.dropLast
    if 1 < middle.count [] then none -- can't have more than one '::'
    else if middle.count [] = 1 then
      let skipIndex := 1 + middle.idxOf []
      let partsHi := skipIndex
      let partsLo := parts.length - skipIndex - 1
      if parts.headD [] = [] ∧ partsHi ≠ 1 then none -- ^: requires ^::
      else if parts.getLastD [] = [] ∧ partsLo ≠ 1 then none -- :$ requires ::$
      else
        let partsHi := if parts.headD [] = [] then 0 else partsHi
        let partsLo := if parts.getLastD [] = [] then 0 else partsLo
        if 8 ≤ partsHi + partsLo then none
        else do
          let hi ← (parts.take partsHi).mapM parseHextet
          let lo ← (parts.drop (parts.length - partsLo)).mapM parseHextet
          some (hi ++ List.replicate (8 - (partsHi + partsLo)) 0 ++ lo)
    else if parts.length ≠ 8 then none
    else if parts.headD [] = [] then none
    else if parts.getLastD [] = [] then none
    else parts.mapM parseHextet

/-- `IPv6Address._ip_int_from_string`, as groups. -/
def ipIntFromString (ipStr : Text) : Option (List ℕ) :=
  if ipStr = [] then none
  else
    let parts := ipStr.splitOn ':'
    if parts.length < 3 then none else (expandIpv4Suffix parts).bind partsHextets

/-- `IPv6Address._split_scope_id`, without the scope. -/
def splitScopeId (ipStr : Text) : Option Text :=
  if '%' ∈ ipStr then
    let scopeId := ipStr.drop (ipStr.idxOf '%' + 1)
    if scopeId = [] ∨ '%' ∈ scopeId then none else some (ipStr.take (ipStr.idxOf '%'))
  else some ipStr

/-- `IPv6Address(ip_str).packed`. -/
def ipv6Packed (ipStr : Text) : Option (List UInt8) :=
  if '/' ∈ ipStr then none
  else (splitScopeId ipStr).bind fun addr => (ipIntFromString addr).map fun hs => hs.flatMap hextetBytes

/-- The key of sixteen bytes. -/
def Ip6.ofBytes (bytes : List UInt8) : Ip6 := Vector.ofFn fun i => bytes.getD i 0

/-- `key_to_ip_v6`. -/
def keyToIpV6 (k : Ip6) : Text := ipv6Str k.toList

/-- `ip_to_key_v6`. -/
def ipToKeyV6 (ipStr : Text) : Option Ip6 := (ipv6Packed ipStr).map Ip6.ofBytes

end FluxGuard
