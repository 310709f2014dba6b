import FluxGuard.Model.IpText

/-!
# The dashboard's ring-buffer reader

`drain_ringbuf` on the bytes of the mapping, and what the kernel leaves there: records
of a header and an `attack_event`, the consumer position in page 0 and the producer
position in page 1.
-/

namespace FluxGuard

/-- The size of the data area. -/
def RINGBUF_DEFAULT_SIZE : ℕ := 256 * 1024

/-- The size of a record's header. -/
def RB_RECORD_HDR_SIZE : ℕ := 8

/-- The header bit of a record that is being written. -/
def RB_BUSY_FLAG : ℕ := 2 ^ 31

/-- The header bit of a record that was discarded. -/
def RB_DISCARD_FLAG : ℕ := 2 ^ 30

/-! ## Memory -/

/-- A mapped region. -/
structure Mmap where
  size : ℕ
  byte : ℕ → UInt8

namespace Mmap

/-- The `n` bytes at an offset. -/
def slice (buf : Mmap) (off n : ℕ) : List UInt8 := (List.range n).map fun k => buf.byte (off + k)

/-- `struct.unpack_from` of an unsigned little-endian field of `n` bytes; `none` is `struct.error`. -/
def unpackFrom (buf : Mmap) (n off : ℕ) : Option ℕ :=
  if off + n ≤ buf.size then some (leNat (buf.slice off n)) else none

/-- `struct.pack_into` of an unsigned little-endian field of `n` bytes; `none` is `struct.error`. -/
def packInto (buf : Mmap) (n off v : ℕ) : Option Mmap :=
  if off + n ≤ buf.size ∧ v < 256 ^ n then
    some { buf with
      byte := fun i => if off ≤ i ∧ i < off + n then (leBytes n v).getD (i - off) 0 else buf.byte i }
  else none

/-- `buf[lo:hi]`. -/
def getSlice (buf : Mmap) (lo hi : ℕ) : List UInt8 := buf.slice lo (min hi buf.size - lo)

end Mmap

/-! ## The reader -/

/-- A tuple `(ip_str, reason, timestamp_ns)`. -/
abbrev RbEvent := Text × ℕ × ℕ

/-- The payload of a record as a tuple; `none` is an exception, which the caller drops. -/
def decodePayload (buf : Mmap) (payloadAbs : ℕ) : Option RbEvent := do
  let af ← buf.unpackFrom 1 payloadAbs
  let reason ← buf.unpackFrom 1 (payloadAbs + 1)
  let srcV4 ← buf.unpackFrom 4 (payloadAbs + 4)
  let srcV6Bytes := buf.getSlice (payloadAbs + 8) (payloadAbs + 24)
  let tsNs ← buf.unpackFrom 8 (payloadAbs + 24)
  let ipStr ←
    if af = 4 then some (ipv4Str (leBytes 4 srcV4).reverse)
    else if af = 6 then if srcV6Bytes.length = 16 then some (ipv6Str srcV6Bytes) else none
    else some ("unknown(af=".toList ++ Nat.toDigits 10 af ++ ")".toList)
  some (ipStr, reason, tsNs)

/-- A length rounded up to eight bytes. -/
def recordSize (dataLen : ℕ) : ℕ :=
  (dataLen + RB_RECORD_HDR_SIZE - 1) / RB_RECORD_HDR_SIZE * RB_RECORD_HDR_SIZE

/-- What one pass of the loop does: `break`, or move the consumer position on and
append at most one tuple. -/
inductive Pass
  | stop
  | advance (size : ℕ) (event : Option RbEvent)

/-- One pass of the loop of `drain_ringbuf`, up to the store of the new position. -/
def readRecord (buf : Mmap) (dataOffset rbSize cons : ℕ) : Pass :=
  let pos := cons &&& (rbSize - 1)
  let hdrAbs := dataOffset + pos
  if hdrAbs + 4 > buf.size then .stop
  else match buf.unpackFrom 4 hdrAbs with
    | none => .stop
    | some hdrLen =>
      let dataLen := hdrLen &&& 0x0FFFFFFF
      if hdrLen &&& (RB_BUSY_FLAG ||| RB_DISCARD_FLAG) ≠ 0 then
        if recordSize dataLen = 0 then .stop else .advance (recordSize dataLen) none
      else
        let payloadAbs := hdrAbs + RB_RECORD_HDR_SIZE
        if payloadAbs + 32 > buf.size then .stop
        else .advance (if recordSize dataLen = 0 then RB_RECORD_HDR_SIZE else recordSize dataLen)
          (decodePayload buf payloadAbs)

/-- A pass that advances does so by a positive multiple of 8. -/
theorem size_of_advance {buf : Mmap} {dataOffset rbSize cons size : ℕ} {ev : Option RbEvent}
    (h : readRecord buf dataOffset rbSize cons = .advance size ev) : 0 < size ∧ size % 8 = 0 := by
  have hround : ∀ n, recordSize n % 8 = 0 := fun n => Nat.mul_mod_left _ _
  unfold readRecord at h
  dsimp only at h
  split at h
  · cases h
  · split at h
    · cases h
    · split at h
      · split at h
        · cases h
        · cases h
          exact ⟨by omega, hround _⟩
      · split at h
        · cases h
        · cases h
          split
          · decide
          · exact ⟨by omega, hround _⟩

/-- The loop; `none` is a `struct.error` that leaves the function. -/
def drainLoop (dataOffset rbSize prod : ℕ) (buf : Mmap) (cons : ℕ) (events : List RbEvent) :
    Option (List RbEvent × Mmap) :=
  if _h : cons < prod then
    match _hr : readRecord buf dataOffset rbSize cons with
    | .stop => some (events, buf)
    | .advance size event =>
      match buf.packInto 8 0 (cons + size) with
      | none => none
      | some buf' => drainLoop dataOffset rbSize prod buf' (cons + size) (events ++ event.toList)
  else some (events, buf)
termination_by prod - cons
decreasing_by have := (size_of_advance _hr).1; omega

/-- `drain_ringbuf`: the tuples and the memory afterwards. -/
def drainRingbuf (pageSize : ℕ) (buf : Mmap) (dataOffset rbSize : ℕ) : Option (List RbEvent × Mmap) :=
  match buf.unpackFrom 8 0, buf.unpackFrom 8 pageSize with
  | some cons, some prod =>
    -- if producer - consumer > rb_size something is corrupt
    if prod < cons ∨ prod - cons > rbSize then some ([], buf)
    else drainLoop dataOffset rbSize prod buf cons []
  | _, _ => some ([], buf)

/-! ## What the kernel writes -/

/-- `struct attack_event` in memory. -/
def AttackEvent.bytes (ev : AttackEvent) : List UInt8 :=
  [ev.af, ev.reason] ++ leBytes 2 ev.pad.toNat ++ leBytes 4 ev.srcV4.toNat ++ ev.srcV6.toList ++
    leBytes 8 ev.timestamp.toNat

/-- A committed record: the header, whose second word is the kernel's page offset, and
the payload. -/
structure Record where
  pgOff : UInt32
  event : AttackEvent

/-- The record as it lies in the ring: header, page offset, event. -/
def Record.bytes (r : Record) : List UInt8 := leBytes 4 32 ++ leBytes 4 r.pgOff.toNat ++ r.event.bytes

/-- The size of a record of an `attack_event`. -/
def RECORD : ℕ := 40

/-- One of the two mappings `open_ringbuf` can return. -/
structure Mapping where
  pageSize : ℕ
  pageSize_ge : 8 ≤ pageSize
  /-- The data pages are mapped twice. -/
  double : Bool

/-- Where the data pages begin: behind the two pages of the positions. -/
def Mapping.dataOffset (m : Mapping) : ℕ := 2 * m.pageSize

/-- The size of the mapping, with the data pages once or twice. -/
def Mapping.size (m : Mapping) : ℕ :=
  2 * m.pageSize + (if m.double then 2 else 1) * RINGBUF_DEFAULT_SIZE

/-- The mapping holds the records `recs`, written one after another from consumer position `c`. -/
structure Placed (m : Mapping) (c : ℕ) (recs : List Record) (buf : Mmap) : Prop where
  size : buf.size = m.size
  cons : leNat (buf.slice 0 8) = c
  prod : leNat (buf.slice m.pageSize 8) = (c + RECORD * recs.length) % 2 ^ 64
  data : ∀ i (hi : i < recs.length) k, k < RECORD →
    buf.byte (m.dataOffset + (c + RECORD * i + k) % RINGBUF_DEFAULT_SIZE) = recs[i].bytes.getD k 0
  /-- The second copy of the data pages is the first. -/
  mirror : m.double = true → ∀ j < RINGBUF_DEFAULT_SIZE,
    buf.byte (m.dataOffset + RINGBUF_DEFAULT_SIZE + j) = buf.byte (m.dataOffset + j)

/-- One call returns one tuple per record, in order, with its reason and timestamp, and leaves
the consumer position at the producer position. -/
def Drained (m : Mapping) (recs : List Record) (buf : Mmap) : Prop :=
  ∃ events buf', drainRingbuf m.pageSize buf m.dataOffset RINGBUF_DEFAULT_SIZE = some (events, buf') ∧
    events.map Prod.snd = recs.map (fun r => (r.event.reason.toNat, r.event.timestamp.toNat)) ∧
    buf'.slice 0 8 = buf'.slice m.pageSize 8

end FluxGuard
