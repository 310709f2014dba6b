import FluxGuard.Model.Ringbuf

/-!
# The ring buffer in motion

The kernel's side of `event_ringbuf` beside the dashboard's calls of `drain_ringbuf`. A
producer reserves a record, whose header has the busy bit, fills it, and submits or discards
it. A call of the reader looks at the two positions and then makes one pass of its loop at a
time, so that the producers may act between any two passes.
-/

namespace FluxGuard

/-- What has become of a reserved record. -/
inductive RecordState
  | busy
  | committed
  | discarded
deriving DecidableEq

/-- The header word of a record of an `attack_event`. -/
def RecordState.header : RecordState → ℕ
  | .busy => 32 + RB_BUSY_FLAG
  | .committed => 32
  | .discarded => 32 + RB_DISCARD_FLAG

/-! ## Shared pages -/

/-- The pages that the kernel and the reader share: the two positions and the data pages. -/
structure Shared where
  consumerPos : ℕ
  producerPos : ℕ
  data : ℕ → UInt8

namespace Shared

/-- The data pages after bytes are written from a ring position on. -/
def put (data : ℕ → UInt8) (q : ℕ) : List UInt8 → ℕ → UInt8
  | [], j => data j
  | b :: bytes, j => if j = q % RINGBUF_DEFAULT_SIZE then b else put data (q + 1) bytes j

/-- The pages after a write of the kernel. -/
def write (r : Shared) (q : ℕ) (bytes : List UInt8) : Shared := { r with data := put r.data q bytes }

/-- The little-endian word at a ring position. -/
def word (r : Shared) (q : ℕ) : ℕ := leNat ((List.range 4).map fun k => r.data ((q + k) % RINGBUF_DEFAULT_SIZE))

/-- The kernel's check, in 64 bits, that a record of an `attack_event` fits before the consumer position. -/
def room (r : Shared) : Bool :=
  decide (((r.producerPos : ℤ) + RECORD - r.consumerPos) % 2 ^ 64 ≤ RINGBUF_DEFAULT_SIZE - 1)

end Shared

/-- What the reader sees of the shared pages. -/
def Mapping.view (m : Mapping) (r : Shared) : Mmap where
  size := m.size
  byte i :=
    if i < 8 then (leBytes 8 r.consumerPos).getD i 0
    else if m.pageSize ≤ i ∧ i < m.pageSize + 8 then (leBytes 8 r.producerPos).getD (i - m.pageSize) 0
    else if m.dataOffset ≤ i then r.data ((i - m.dataOffset) % RINGBUF_DEFAULT_SIZE)
    else 0

/-! ## Steps -/

/-- A call of `drain_ringbuf` under way, with its local variables. -/
inductive Reader
  | idle
  | reading (prod cons : ℕ) (events : List RbEvent)

/-- The ring with its records and its reader. -/
structure Ring where
  mem : Shared
  /-- The records reserved so far, oldest first. -/
  records : List RecordState
  reader : Reader

/-- A new ring, with no record and no reader. -/
def Ring.init : Ring := ⟨⟨0, 0, fun _ => 0⟩, [], .idle⟩

/-- What the kernel's producers and the reader do. -/
inductive RingAct
  | reserve (pgOff : UInt32)
  | fill (i : ℕ) (payload : Vector UInt8 32)
  | submit (i : ℕ)
  | discard (i : ℕ)
  | call
  | pass

namespace Ring

/-- `bpf_ringbuf_reserve`: the header goes in with the busy bit, and the producer position moves on. -/
def reserve (σ : Ring) (pgOff : UInt32) : Ring :=
  if σ.mem.room then
    { σ with
      mem := { σ.mem.write σ.mem.producerPos (leBytes 4 RecordState.busy.header ++ leBytes 4 pgOff.toNat) with
        producerPos := σ.mem.producerPos + RECORD }
      records := σ.records ++ [.busy] }
  else σ

/-- A producer writes the payload of its record. -/
def fill (σ : Ring) (i : ℕ) (payload : Vector UInt8 32) : Ring :=
  if σ.records[i]? = some .busy then
    { σ with mem := σ.mem.write (RECORD * i + RB_RECORD_HDR_SIZE) payload.toList }
  else σ

/-- `bpf_ringbuf_submit` and `bpf_ringbuf_discard`: a new header word without the busy bit. -/
def release (σ : Ring) (i : ℕ) (s : RecordState) : Ring :=
  if σ.records[i]? = some .busy then
    { σ with mem := σ.mem.write (RECORD * i) (leBytes 4 s.header), records := σ.records.set i s }
  else σ

/-- `drain_ringbuf` up to its loop. -/
def call (m : Mapping) (σ : Ring) : Ring :=
  match σ.reader with
  | .reading .. => σ
  | .idle =>
    match (m.view σ.mem).unpackFrom 8 0, (m.view σ.mem).unpackFrom 8 m.pageSize with
    | some cons, some prod =>
      -- positions that cannot be right end the call
      if prod < cons ∨ prod - cons > RINGBUF_DEFAULT_SIZE then σ else { σ with reader := .reading prod cons [] }
    | _, _ => σ

/-- One pass of the loop of `drain_ringbuf`. The call ends with the loop, or with a `struct.error`. -/
def pass (m : Mapping) (σ : Ring) : Ring :=
  match σ.reader with
  | .idle => σ
  | .reading prod cons events =>
    if cons < prod then
      match readRecord (m.view σ.mem) m.dataOffset RINGBUF_DEFAULT_SIZE cons with
      -- past the end of the mapping, or a flagged record of length 0
      | .stop => { σ with reader := .idle }
      | .advance size event =>
        if ((m.view σ.mem).packInto 8 0 (cons + size)).isSome then
          { σ with
            mem := { σ.mem with consumerPos := cons + size }
            reader := .reading prod (cons + size) (events ++ event.toList) }
        else { σ with reader := .idle }
    else { σ with reader := .idle }

/-- One act. -/
def step (m : Mapping) (σ : Ring) : RingAct → Ring
  | .reserve pgOff => σ.reserve pgOff
  | .fill i payload => σ.fill i payload
  | .submit i => σ.release i .committed
  | .discard i => σ.release i .discarded
  | .call => σ.call m
  | .pass => σ.pass m

end Ring

/-- The ring after the first `n` acts. -/
def ringAt (m : Mapping) (acts : List RingAct) (n : ℕ) : Ring := (acts.take n).foldl (Ring.step m) Ring.init

@[simp] theorem ringAt_zero (m : Mapping) (acts : List RingAct) : ringAt m acts 0 = Ring.init := by simp [ringAt]

/-- One action more is one step more. -/
theorem ringAt_succ (m : Mapping) {acts : List RingAct} {n : ℕ} (hn : n < acts.length) :
    ringAt m acts (n + 1) = (ringAt m acts n).step m acts[n] := by
  simp only [ringAt]
  rw [List.take_add_one, List.getElem?_eq_getElem hn, Option.toList_some, List.foldl_append]
  rfl

end FluxGuard
