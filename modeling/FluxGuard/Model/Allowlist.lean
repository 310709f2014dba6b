import FluxGuard.Data.Json
import FluxGuard.Model.Brain
import FluxGuard.Model.Dump
import FluxGuard.Model.Metrics

/-!
# The allowlist tools

The handler `allowlist` of `fluxguard_api.py` and `main` of `fluxguard_allow.py`, on the
allowlist maps of the kernel.

An address comes as a JSON value or as a Python string; `IPv4Address` and `IPv6Address` take
strings and integers. The zone of a scoped address is not part of its key.
-/

namespace FluxGuard.Allowlist

/-! ## Addresses -/

/-- What the parsers see of a string: a lone surrogate is no part of any address, as NUL is none. -/
def readable (s : PyStr) : Text := s.map fun c => Char.ofNat c.val

/-- `bool` is a subclass of `int`. -/
def intOf : Json → Option ℤ
  | .int z => some z
  | .bool b => some b.toNat
  | _ => none

/-- The bytes of an address given as a number. -/
def packedInt (n : ℕ) (z : ℤ) : Option (List UInt8) :=
  if 0 ≤ z ∧ z < 256 ^ n then some (leBytes n z.toNat).reverse else none

/-- `IPv4Address(ip)`, as a key. What is no string and no integer is never the text of an address. -/
def ipv4Address : Json → Option Ip4
  | .str s => ipToKey (readable s)
  | ip => ((intOf ip).bind (packedInt 4)).map Ip4.ofBytes

/-- `IPv6Address(ip)`, as a key. The zone is not part of it. -/
def ipv6Address : Json → Option Ip6
  | .str s => ipToKeyV6 (readable s)
  | ip => ((intOf ip).bind (packedInt 16)).map Ip6.ofBytes

/-- `ipaddress.ip_address(ip)`. -/
def ipAddress (ip : Json) : Option Source :=
  match ipv4Address ip with
  | some a => some (.v4 a)
  | none => (ipv6Address ip).map .v6

/-- The character before a zone. -/
def percent : CodePoint := .ofChar '%'

/-- The `%` of a scoped address and its zone. -/
def zone : Json → PyStr
  | .str s => if percent ∈ s then s.drop (s.idxOf percent) else []
  | _ => []

/-- `_canonical_v6`. -/
def canonicalV6 (ip : Json) : Option PyStr := (ipv6Address ip).map fun a => pyStr (keyToIpV6 a) ++ zone ip

/-! ## System calls -/

/-- What `fluxguard_bpf.py` raises. -/
inductive Exc
  | value
  | os (errno : ℕ)

/-- What an update of a full map fails with. -/
def E2BIG : ℕ := 7

section Maps

variable {α : Type} [DecidableEq α] {n m : ℕ}

/-- `BPF_MAP_UPDATE_ELEM` on an allowlist; the call fails with `fail`, or when the map is full. -/
def updateElem (fail : Option ℕ) (maps : IpMaps α n m) (a : α) (v : UInt32) : Except Exc (IpMaps α n m) :=
  match fail, maps.allowlistMap.updateElem a v with
  | some errno, _ => .error (.os errno)
  | none, some list => .ok { maps with allowlistMap := list }
  | none, none => .error (.os E2BIG)

/-- `BPF_MAP_DELETE_ELEM`. -/
def deleteElem (fail : Option ℕ) (maps : IpMaps α n m) (a : α) : Except Exc (IpMaps α n m) :=
  match fail, maps.allowlistMap.deleteElem a with
  | some errno, _ => .error (.os errno)
  | none, some list => .ok { maps with allowlistMap := list }
  | none, none => .error (.os Dump.ENOENT)

/-- A dump of a map, whose calls fail as `fail` says. -/
def dump (text : α → Text) (zero : α) (list : Dict α UInt32) (fail : ℕ → Option ℕ) : Except Exc (Dict Text UInt32) :=
  match (Dump.run (Dump.frozen list fail) text zero 0 (2 * list.size + 1)).2 with
  | .returned res => .ok res
  | .raised errno => .error (.os errno)
  -- it has ended by then
  | _ => .error .value

end Maps

/-- `set_map_u32` on the IPv4 allowlist. -/
def setMapU32 (fail : Option ℕ) (k : Kernel) (ip : Json) (v : UInt32) : Except Exc Kernel :=
  match ipv4Address ip with
  | none => .error .value
  | some a => (updateElem fail k.v4 a v).map fun maps => { k with v4 := maps }

/-- `set_map_u32_v6` on the IPv6 allowlist. -/
def setMapU32V6 (fail : Option ℕ) (k : Kernel) (ip : Json) (v : UInt32) : Except Exc Kernel :=
  match ipv6Address ip with
  | none => .error .value
  | some a => (updateElem fail k.v6 a v).map fun maps => { k with v6 := maps }

/-- `del_map_u32` on the IPv4 allowlist. -/
def delMapU32 (fail : Option ℕ) (k : Kernel) (ip : Json) : Except Exc Kernel :=
  match ipv4Address ip with
  | none => .error .value
  | some a => (deleteElem fail k.v4 a).map fun maps => { k with v4 := maps }

/-- `del_map_u32_v6` on the IPv6 allowlist. -/
def delMapU32V6 (fail : Option ℕ) (k : Kernel) (ip : Json) : Except Exc Kernel :=
  match ipv6Address ip with
  | none => .error .value
  | some a => (deleteElem fail k.v6 a).map fun maps => { k with v6 := maps }

/-- What one request or call finds: the descriptors of the two maps, and the system calls that fail. -/
structure Env where
  fdV4 : Option ℕ
  fdV6 : Option ℕ
  /-- The update or the delete. -/
  fail : Option ℕ
  /-- The calls of the two dumps. -/
  failV4 : ℕ → Option ℕ
  failV6 : ℕ → Option ℕ

/-- `dump_map_u32` of the IPv4 allowlist. -/
def dumpV4 (e : Env) (k : Kernel) : Except Exc (Dict Text UInt32) := dump keyToIp 0 k.v4.allowlistMap.entries e.failV4

/-- `dump_map_u32_v6` of the IPv6 allowlist. -/
def dumpV6 (e : Env) (k : Kernel) : Except Exc (Dict Text UInt32) :=
  dump keyToIpV6 (Vector.replicate 16 0) k.v6.allowlistMap.entries e.failV6

/-! ## The API -/

/-- The methods that the route accepts. -/
inductive Method
  | get
  | post
  | delete
deriving DecidableEq

/-- A request to `/api/v1/allowlist`; no body is one that is no JSON. -/
structure ApiRequest where
  authorized : Bool
  method : Method
  body : Option Json

/-- What `allowlist` answers: a JSON object, or an `abort`. -/
inductive Response
  | added (ip : Json)
  | deleted (ip : Json)
  | lists (ipv4 ipv6 : List Text)
  | abort (status : ℕ)

/-- The status code of the answer. -/
def Response.status : Response → ℕ
  | .added _ => 201
  | .deleted _ => 200
  | .lists _ _ => 200
  | .abort status => status

/-- Python's truth of a value. -/
def truthy : Json → Bool
  | .null => false
  | .bool b => b
  | .int z => decide (z ≠ 0)
  | .float (.finite x) => decide (x.mant ≠ 0)
  | .float _ => true
  | .str s => decide (s ≠ [])
  | .arr items => !items.isEmpty
  | .obj members => !members.isEmpty

/-- `data.get("ip")` of the body; only an object has a `get`. -/
def getIp (body : Option Json) : Option Json :=
  match body.filter truthy with
  | none => some .null
  | some (.obj members) => some (((Dict.ofItems members).get? (pyStr "ip".toList)).getD .null)
  | some _ => none

/-- The answer to an operation: an `OSError` is answered with 500, and so is what is not caught. -/
def reply (k : Kernel) (result : Except Exc Kernel) (done : Response) : Kernel × Response :=
  match result with
  | .ok k' => (k', done)
  | .error _ => (k, .abort 500)

/-- `GET`: both lists, sorted. -/
def getAllowlist (e : Env) (k : Kernel) : Response :=
  match e.fdV4 with
  | none => .abort 503
  | some _ =>
    -- the truth of the descriptor, where the operations below ask for `None`
    match dumpV4 e k, if opened e.fdV6 then dumpV6 e k else .ok Dict.empty with
    | .ok v4, .ok v6 => .lists (sortedSet v4.keys) (sortedSet v6.keys)
    | _, _ => .abort 500

/-- The handler `allowlist`, behind the check of the token. -/
def allowlist (e : Env) (r : ApiRequest) (k : Kernel) : Kernel × Response :=
  if r.authorized = false then (k, .abort 401)
  else if r.method = .get then (k, getAllowlist e k)
  else
    match getIp r.body with
    | none => (k, .abort 500)
    | some ip =>
      if truthy ip = false then (k, .abort 400)
      else match ipAddress ip with
        | none => (k, .abort 400)
        | some (.v6 _) =>
          match e.fdV6, canonicalV6 ip with
          | none, _ => (k, .abort 503)
          | some _, none => (k, .abort 500)
          | some _, some canon =>
            if r.method = .post then reply k (setMapU32V6 e.fail k (.str canon) 1) (.added (.str canon))
            else reply k (delMapU32V6 e.fail k (.str canon)) (.deleted (.str canon))
        | some (.v4 _) =>
          match e.fdV4 with
          | none => (k, .abort 503)
          | some _ =>
            if r.method = .post then reply k (setMapU32 e.fail k ip 1) (.added ip)
            else reply k (delMapU32 e.fail k ip) (.deleted ip)

/-! ## The command line -/

/-- The subcommands of `fluxguard_allow.py`. -/
inductive Action
  | add
  | del
  | list
deriving DecidableEq

/-- What a call prints to stdout, and its exit code. -/
structure Exit where
  lines : List PyStr
  code : ℕ

/-- A lone surrogate has no encoding. -/
def printable (line : PyStr) : Bool := line.all fun c => decide (c.val < 0xd800 ∨ 0xdfff < c.val)

/-- `_is_ipv6`. -/
def isIpv6 (addr : PyStr) : Bool := (ipv6Address (.str addr)).isSome

/-- The end of an operation. The `UnicodeEncodeError` of a `print` is a `ValueError`, which is
caught after the map has changed. -/
def report (k : Kernel) (result : Except Exc Kernel) (line : PyStr) : Kernel × Exit :=
  match result with
  | .ok k' => if printable line then (k', ⟨[line], 0⟩) else (k', ⟨[], 1⟩)
  | .error _ => (k, ⟨[], 1⟩)

/-- The lines about one map. -/
def sectionLines (family : Text) (d : Dict Text UInt32) : List Text :=
  if d.size = 0 then [family ++ " allowlist: (empty)".toList]
  else (family ++ " allowlist:".toList) :: (sortedSet d.keys).map (' ' :: ' ' :: ·)

/-- `list`: what it prints, and its exit code. -/
def listAllowlist (e : Env) (k : Kernel) : List Text × ℕ :=
  match dumpV4 e k with
  | .error _ => ([], 1)
  | .ok v4 =>
    if opened e.fdV6 then
      match dumpV6 e k with
      | .error _ => (sectionLines "IPv4".toList v4, 1)
      | .ok v6 => (sectionLines "IPv4".toList v4 ++ sectionLines "IPv6".toList v6, 0)
    else (sectionLines "IPv4".toList v4 ++ ["IPv6 allowlist: (map not loaded)".toList], 0)

/-- `main`, after its arguments. -/
def main (e : Env) (action : Action) (ip : Option PyStr) (k : Kernel) : Kernel × Exit :=
  match e.fdV4 with
  | none => (k, ⟨[], 1⟩)
  | some _ =>
    match action with
    | .list => (k, ⟨(listAllowlist e k).1.map pyStr, (listAllowlist e k).2⟩)
    | .add =>
      match ip.filter (decide <| · ≠ []) with
      | none => (k, ⟨[], 1⟩)
      | some ip =>
        if isIpv6 ip then
          match e.fdV6 with
          | none => (k, ⟨[], 1⟩)
          | some _ => report k (setMapU32V6 e.fail k (.str ip) 1) (pyStr "[ALLOW] Added IPv6 ".toList ++ ip)
        else report k (setMapU32 e.fail k (.str ip) 1) (pyStr "[ALLOW] Added IPv4 ".toList ++ ip)
    | .del =>
      match ip.filter (decide <| · ≠ []) with
      | none => (k, ⟨[], 1⟩)
      | some ip =>
        if isIpv6 ip then
          match e.fdV6 with
          | none => (k, ⟨[], 1⟩)
          | some _ => report k (delMapU32V6 e.fail k (.str ip)) (pyStr "[ALLOW] Removed IPv6 ".toList ++ ip)
        else report k (delMapU32 e.fail k (.str ip)) (pyStr "[ALLOW] Removed IPv4 ".toList ++ ip)

/-! ## Runs -/

/-- One use of either tool. -/
inductive Request
  | api (r : ApiRequest)
  | cli (action : Action) (ip : Option PyStr)

/-- The kernel after a request, and whether it succeeded. -/
def serve (e : Env) (k : Kernel) : Request → Kernel × Bool
  | .api r => ((allowlist e r k).1, decide ((allowlist e r k).2.status = 200 ∨ (allowlist e r k).2.status = 201))
  | .cli action ip => ((main e action ip k).1, decide ((main e action ip k).2.code = 0))

/-- What a request asks to be done. -/
def Request.adds : Request → Option Bool
  | .api r => match r.method with
    | .get => none
    | .post => some true
    | .delete => some false
  | .cli action _ => match action with
    | .list => none
    | .add => some true
    | .del => some false

/-- The value that a request names its address with. -/
def Request.ip : Request → Option Json
  | .api r => getIp r.body
  | .cli _ ip => ip.map .str

/-- The source that the request names. -/
def Request.address (r : Request) : Option Source := r.ip.bind ipAddress

/-- The kernel after some requests. -/
def served (k : Kernel) (rs : List (Env × Request)) : Kernel := rs.foldl (fun k r => (serve r.1 k r.2).1) k

/-- What a request has written, if it succeeded. -/
def written (k : Kernel) (r : Env × Request) : List (Source × Bool) :=
  if (serve r.1 k r.2).2 then
    match r.2.address, r.2.adds with
    | some s, some b => [(s, b)]
    | _, _ => []
  else []

end FluxGuard.Allowlist
