import FluxGuard.Model.Ringbuf

/-!
# Draining the ring buffer

The reader moves on by `round_up(len, 8)`, without the 8-byte header: after each record it
reads the record's own timestamp as a header.
-/

namespace FluxGuard

/-! ## The consumer word -/

namespace Mmap

/-- The memory with another consumer position. -/
def setCons (buf : Mmap) (cons : ℕ) : Mmap :=
  { buf with byte := fun i => if i < 8 then (leBytes 8 cons).getD i 0 else buf.byte i }

/-- The consumer's position can be stored when it is a 64-bit value. -/
theorem packInto_cons (buf : Mmap) (v : ℕ) :
    buf.packInto 8 0 v = if 8 ≤ buf.size ∧ v < 2 ^ 64 then some (buf.setCons v) else none := by
  unfold packInto setCons
  simp

@[simp] theorem setCons_setCons (buf : Mmap) (x y : ℕ) : (buf.setCons x).setCons y = buf.setCons y := by
  unfold setCons
  simp only [mk.injEq, true_and]
  funext i
  split <;> rfl

@[simp] theorem size_setCons (buf : Mmap) (x : ℕ) : (buf.setCons x).size = buf.size := rfl

/-- A store of it leaves the rest of the memory alone. -/
theorem slice_setCons (buf : Mmap) (x : ℕ) {off : ℕ} (h : 8 ≤ off) (n : ℕ) :
    (buf.setCons x).slice off n = buf.slice off n := by
  unfold slice setCons
  refine List.map_congr_left fun k _ => if_neg (by omega)

theorem slice_cons (buf : Mmap) (x : ℕ) : (buf.setCons x).slice 0 8 = leBytes 8 x := by
  refine List.ext_getElem (by simp [slice]) fun k h _ => ?_
  have hk : k < 8 := by simpa [slice] using h
  simp [slice, setCons, hk]

theorem setCons_self {buf : Mmap} {c : ℕ} (h : leNat (buf.slice 0 8) = c) : buf.setCons c = buf := by
  have hslice : leBytes 8 c = buf.slice 0 8 := by
    have := leBytes_leNat (buf.slice 0 8)
    rwa [h, show (buf.slice 0 8).length = 8 by simp [slice]] at this
  unfold setCons
  rw [hslice]
  cases buf with
  | mk size byte =>
    simp only [mk.injEq, true_and]
    funext i
    split
    · rename_i hi; simp [slice, hi]
    · rfl

theorem unpackFrom_setCons (buf : Mmap) (x n : ℕ) {off : ℕ} (h : 8 ≤ off) :
    (buf.setCons x).unpackFrom n off = buf.unpackFrom n off := by
  unfold unpackFrom; rw [size_setCons, slice_setCons buf x h]

end Mmap

/-- So a record is read alike before and after it. -/
theorem readRecord_setCons (buf : Mmap) (x : ℕ) {dataOffset : ℕ} (h : 8 ≤ dataOffset) (rbSize cons : ℕ) :
    readRecord (buf.setCons x) dataOffset rbSize cons = readRecord buf dataOffset rbSize cons := by
  have hdecode : ∀ off, 8 ≤ off → decodePayload (buf.setCons x) off = decodePayload buf off := by
    intro off hoff
    unfold decodePayload Mmap.getSlice
    rw [Mmap.size_setCons, Mmap.unpackFrom_setCons _ _ _ hoff, Mmap.unpackFrom_setCons _ _ _ (by omega),
      Mmap.unpackFrom_setCons _ _ _ (by omega), Mmap.unpackFrom_setCons _ _ _ (by omega),
      Mmap.slice_setCons _ _ (by omega)]
  unfold readRecord
  simp only [Mmap.size_setCons]
  rw [Mmap.unpackFrom_setCons _ _ _ (by omega), hdecode _ (by omega)]
  rfl

/-! ## The loop -/

section Loop

variable {buf : Mmap} {dataOffset rbSize prod : ℕ}

/-- The loop when the memory agrees with the local variable `cons`. -/
def loopAt (buf : Mmap) (dataOffset rbSize prod cons : ℕ) (events : List RbEvent) : Option (List RbEvent × Mmap) :=
  drainLoop dataOffset rbSize prod (buf.setCons cons) cons events

/-- At the producer's position the loop ends. -/
theorem loopAt_done {cons : ℕ} (h : prod ≤ cons) (events : List RbEvent) :
    loopAt buf dataOffset rbSize prod cons events = some (events, buf.setCons cons) := by
  unfold loopAt; rw [drainLoop, dif_neg (by omega)]

/-- So does it where a record stops it. -/
theorem loopAt_stop (hd : 8 ≤ dataOffset) {cons : ℕ} (h : cons < prod)
    (hr : readRecord buf dataOffset rbSize cons = .stop) (events : List RbEvent) :
    loopAt buf dataOffset rbSize prod cons events = some (events, buf.setCons cons) := by
  unfold loopAt
  rw [drainLoop, dif_pos h]
  split
  · rfl
  · rename_i he; rw [readRecord_setCons _ _ hd, hr] at he; cases he

/-- Otherwise it goes on after the record. -/
theorem loopAt_advance (hd : 8 ≤ dataOffset) (hs : 8 ≤ buf.size) {cons size : ℕ} {event : Option RbEvent}
    (h : cons < prod) (hr : readRecord buf dataOffset rbSize cons = .advance size event) (events : List RbEvent) :
    loopAt buf dataOffset rbSize prod cons events =
      if cons + size < 2 ^ 64 then loopAt buf dataOffset rbSize prod (cons + size) (events ++ event.toList)
      else none := by
  unfold loopAt
  rw [drainLoop, dif_pos h]
  split
  · rename_i he; rw [readRecord_setCons _ _ hd, hr] at he; cases he
  · rename_i he
    rw [readRecord_setCons _ _ hd, hr] at he
    cases he
    rw [Mmap.packInto_cons, Mmap.size_setCons, Mmap.setCons_setCons]
    -- `pack_into` raises on a position that needs more than 64 bits
    by_cases hlt : cons + size < 2 ^ 64
    · rw [if_pos ⟨hs, hlt⟩, if_pos hlt]
    · rw [if_neg (fun h => hlt h.2), if_neg hlt]

end Loop

/-! ## Reading at a ring position -/

theorem flags_eq_zero_iff {h : ℕ} (hh : h < 2 ^ 32) :
    h &&& (RB_BUSY_FLAG ||| RB_DISCARD_FLAG) = 0 ↔ h < 2 ^ 30 := by
  have hmask : ∀ i, (RB_BUSY_FLAG ||| RB_DISCARD_FLAG).testBit i = decide (i = 31 ∨ i = 30) := by
    intro i
    rw [Nat.testBit_or, RB_BUSY_FLAG, RB_DISCARD_FLAG, Nat.testBit_two_pow, Nat.testBit_two_pow, Bool.decide_or]
    simp only [eq_comm]
  have hbit : ∀ i, (h &&& (RB_BUSY_FLAG ||| RB_DISCARD_FLAG)).testBit i =
      (h.testBit i && decide (i = 31 ∨ i = 30)) := fun i => by rw [Nat.testBit_and, hmask]
  constructor
  · intro h0
    have h30 := hbit 30
    have h31 := hbit 31
    rw [h0, Nat.zero_testBit] at h30 h31
    simp only [Nat.testBit_eq_decide_div_mod_eq] at h30 h31
    simp at h30 h31
    omega
  · intro hlt
    refine Nat.eq_of_testBit_eq fun i => ?_
    rw [hbit, Nat.zero_testBit, Bool.and_eq_false_iff]
    by_cases hi : i = 31 ∨ i = 30
    · left
      rcases hi with rfl | rfl <;> exact Nat.testBit_lt_two_pow (by omega)
    · right; exact decide_eq_false hi

variable {m : Mapping} {buf : Mmap}

/-- The byte at a position of the ring, in the first copy of the data pages. -/
def ringByte (m : Mapping) (buf : Mmap) (q : ℕ) : UInt8 := buf.byte (m.dataOffset + q % RINGBUF_DEFAULT_SIZE)

/-- `n` bytes of the ring from a position on. -/
def ringBytes (m : Mapping) (buf : Mmap) (q n : ℕ) : List UInt8 := (List.range n).map fun k => ringByte m buf (q + k)

/-- A record at `p` lies in the mapping. -/
def Fits (m : Mapping) (p : ℕ) : Prop := m.double = true ∨ p % RINGBUF_DEFAULT_SIZE + RECORD ≤ RINGBUF_DEFAULT_SIZE

instance (m : Mapping) (p : ℕ) : Decidable (Fits m p) := inferInstanceAs (Decidable (_ ∨ _))

/-- The mapping is one that `open_ringbuf` returns, of data pages mapped twice if asked for. -/
structure Mapped (m : Mapping) (buf : Mmap) : Prop where
  size : buf.size = m.size
  mirror : m.double = true → ∀ j < RINGBUF_DEFAULT_SIZE,
    buf.byte (m.dataOffset + RINGBUF_DEFAULT_SIZE + j) = buf.byte (m.dataOffset + j)

theorem Mapped.size_ge (h : Mapped m buf) : m.dataOffset + RINGBUF_DEFAULT_SIZE ≤ buf.size := by
  rw [h.size, Mapping.size, Mapping.dataOffset]
  split <;> omega

theorem ring_add_mod {p k : ℕ} (hk : k < RECORD) :
    (p + k) % RINGBUF_DEFAULT_SIZE =
      if p % RINGBUF_DEFAULT_SIZE + k < RINGBUF_DEFAULT_SIZE then p % RINGBUF_DEFAULT_SIZE + k
      else p % RINGBUF_DEFAULT_SIZE + k - RINGBUF_DEFAULT_SIZE := by
  unfold RINGBUF_DEFAULT_SIZE RECORD at *
  split <;> omega

theorem ring_mod_lt (p : ℕ) : p % RINGBUF_DEFAULT_SIZE < RINGBUF_DEFAULT_SIZE := Nat.mod_lt _ (by decide)

theorem Mapped.byte_eq (h : Mapped m buf) {p k : ℕ} (hk : k < RECORD)
    (hf : p % RINGBUF_DEFAULT_SIZE + k < RINGBUF_DEFAULT_SIZE ∨ Fits m p) :
    buf.byte (m.dataOffset + p % RINGBUF_DEFAULT_SIZE + k) = ringByte m buf (p + k) := by
  unfold ringByte
  rw [ring_add_mod hk]
  have hlt := ring_mod_lt p
  split
  · rw [Nat.add_assoc]
  · rename_i hge
    have hdouble : m.double = true := by
      rcases hf with hf | hf | hf
      · exact absurd hf hge
      · exact hf
      · omega
    have hR : RECORD ≤ RINGBUF_DEFAULT_SIZE := by decide
    rw [← h.mirror hdouble (p % RINGBUF_DEFAULT_SIZE + k - RINGBUF_DEFAULT_SIZE) (by omega)]
    exact congrArg buf.byte (by omega)

/-- A record is read as if the data area went on around its end. -/
theorem Mapped.slice_eq (h : Mapped m buf) {p j n : ℕ} (hj : j + n ≤ RECORD)
    (hf : p % RINGBUF_DEFAULT_SIZE + j + n ≤ RINGBUF_DEFAULT_SIZE ∨ Fits m p) :
    buf.slice (m.dataOffset + p % RINGBUF_DEFAULT_SIZE + j) n = ringBytes m buf (p + j) n := by
  unfold Mmap.slice ringBytes
  refine List.map_congr_left fun k hk => ?_
  rw [List.mem_range] at hk
  rw [Nat.add_assoc _ j k, Nat.add_assoc p j k]
  refine h.byte_eq (by omega) ?_
  rcases hf with hf | hf
  · left; omega
  · exact Or.inr hf

theorem Fits.bound (h : Mapped m buf) (p : ℕ) :
    Fits m p ↔ m.dataOffset + p % RINGBUF_DEFAULT_SIZE + RECORD ≤ buf.size := by
  have hlt := ring_mod_lt p
  have hR : RECORD ≤ RINGBUF_DEFAULT_SIZE := by decide
  rw [h.size, Mapping.size, Mapping.dataOffset, Fits]
  cases m.double
  · simp only [Bool.false_eq_true, false_or, if_false]; omega
  · simp only [true_or, if_true, true_iff]; omega

/-- The address that the reader shows for the fields of an event: the bytes of an IPv4 address backwards. -/
def shownIp (af : ℕ) (srcV4 srcV6 : List UInt8) : Text :=
  if af = 4 then ipv4Str srcV4.reverse
  else if af = 6 then ipv6Str srcV6
  else "unknown(af=".toList ++ Nat.toDigits 10 af ++ ")".toList

/-- A payload in the mapping is decoded. -/
theorem decodePayload_eq (h : Mapped m buf) {p : ℕ} (hf : Fits m p) :
    decodePayload buf (m.dataOffset + p % RINGBUF_DEFAULT_SIZE + 8) =
      some (shownIp (ringByte m buf (p + 8)).toNat (ringBytes m buf (p + 12) 4) (ringBytes m buf (p + 16) 16),
        (ringByte m buf (p + 9)).toNat, leNat (ringBytes m buf (p + 32) 8)) := by
  have hb := (Fits.bound h p).1 hf
  unfold RECORD at hb
  have hbyte : ∀ j, j + 1 ≤ RECORD →
      leNat (buf.slice (m.dataOffset + p % RINGBUF_DEFAULT_SIZE + j) 1) = (ringByte m buf (p + j)).toNat := by
    intro j hj
    rw [h.slice_eq hj (Or.inr hf)]
    simp [ringBytes, leNat]
  have haf := hbyte 8 (by decide)
  have hreason := hbyte 9 (by decide)
  have hv4 := h.slice_eq (p := p) (j := 12) (n := 4) (by decide) (Or.inr hf)
  have hv6 := h.slice_eq (p := p) (j := 16) (n := 16) (by decide) (Or.inr hf)
  have hts := h.slice_eq (p := p) (j := 32) (n := 8) (by decide) (Or.inr hf)
  set off := m.dataOffset + p % RINGBUF_DEFAULT_SIZE with hoff
  have hget : buf.getSlice (off + 16) (off + 32) = ringBytes m buf (p + 16) 16 := by
    rw [← hv6]
    unfold Mmap.getSlice
    rw [show min (off + 32) buf.size - (off + 16) = 16 by omega]
  have hlen4 : (ringBytes m buf (p + 12) 4).length = 4 := by simp [ringBytes]
  have hlen6 : (ringBytes m buf (p + 16) 16).length = 16 := by simp [ringBytes]
  have hv4' : leBytes 4 (leNat (ringBytes m buf (p + 12) 4)) = ringBytes m buf (p + 12) 4 := by
    have := leBytes_leNat (ringBytes m buf (p + 12) 4)
    rwa [hlen4] at this
  have hfield : ∀ j n, j + n ≤ 40 → buf.unpackFrom n (off + j) = some (leNat (buf.slice (off + j) n)) :=
    fun j n hj => if_pos (by omega)
  unfold decodePayload shownIp
  rw [Nat.add_assoc off 8 1, Nat.add_assoc off 8 4, Nat.add_assoc off 8 8, Nat.add_assoc off 8 24]
  simp only [Nat.reduceAdd]
  rw [hfield 8 1 (by omega), hfield 9 1 (by omega), hfield 12 4 (by omega), hfield 32 8 (by omega), haf, hreason,
    hv4, hts, hget]
  simp only [Option.bind_eq_bind, Option.bind_some, hv4', hlen6, if_pos]
  split_ifs
  · rfl
  · rfl
  · rfl

/-- The word that the reader takes for a header. -/
def ringWord (m : Mapping) (buf : Mmap) (q : ℕ) : ℕ := leNat (ringBytes m buf q 4)

/-- **One pass of the loop**, by the word at the consumer position. -/
theorem readRecord_eq (h : Mapped m buf) {p : ℕ} (hp : p % 8 = 0) :
    readRecord buf m.dataOffset RINGBUF_DEFAULT_SIZE p =
      if ringWord m buf p < 2 ^ 30 then
        if Fits m p then
          .advance (if recordSize (ringWord m buf p % 2 ^ 28) = 0 then 8 else recordSize (ringWord m buf p % 2 ^ 28))
            (decodePayload buf (m.dataOffset + p % RINGBUF_DEFAULT_SIZE + 8))
        else .stop
      else if recordSize (ringWord m buf p % 2 ^ 28) = 0 then .stop
      else .advance (recordSize (ringWord m buf p % 2 ^ 28)) none := by
  have hpos : p &&& (RINGBUF_DEFAULT_SIZE - 1) = p % RINGBUF_DEFAULT_SIZE := Nat.and_two_pow_sub_one_eq_mod p 18
  -- positions are multiples of 8, so a header never wraps
  have hroom : p % RINGBUF_DEFAULT_SIZE + 8 ≤ RINGBUF_DEFAULT_SIZE := by
    unfold RINGBUF_DEFAULT_SIZE; omega
  have hsize := h.size_ge
  have hword : buf.unpackFrom 4 (m.dataOffset + p % RINGBUF_DEFAULT_SIZE) = some (ringWord m buf p) := by
    have := h.slice_eq (p := p) (j := 0) (n := 4) (by decide) (Or.inl (by omega))
    rw [Nat.add_zero, Nat.add_zero] at this
    unfold Mmap.unpackFrom ringWord
    rw [if_pos (by omega), this]
  have hlt : ringWord m buf p < 2 ^ 32 := by
    have := leNat_lt (ringBytes m buf p 4)
    simpa [ringBytes, ringWord] using this
  have hmask : ringWord m buf p &&& 0x0FFFFFFF = ringWord m buf p % 2 ^ 28 := Nat.and_two_pow_sub_one_eq_mod _ 28
  have hbound := Fits.bound h p
  unfold RECORD at hbound
  unfold readRecord
  simp only [hpos, hword, hmask, ne_eq, flags_eq_zero_iff hlt, RB_RECORD_HDR_SIZE]
  rw [if_neg (by omega)]
  -- busy or discarded, or committed
  by_cases hflag : ringWord m buf p < 2 ^ 30
  · rw [if_neg (not_not.2 hflag), if_pos hflag]
    by_cases hf : Fits m p
    · rw [if_pos hf, if_neg (by have := hbound.1 hf; omega)]
    · rw [if_neg hf, if_pos (by have := mt hbound.2 hf; omega)]
  · rw [if_pos hflag, if_neg hflag]

/-! ## The records -/

variable {c : ℕ} {recs : List Record}

theorem Placed.mapped (h : Placed m c recs buf) : Mapped m buf := ⟨h.size, h.mirror⟩

theorem length_record (r : Record) : r.bytes.length = RECORD := by
  simp [Record.bytes, AttackEvent.bytes, RECORD]

/-! The bytes of a record from its first address on, from the second and from the timestamp. -/

theorem drop_srcV4 (r : Record) : r.bytes.drop 12 =
    leBytes 4 r.event.srcV4.toNat ++ (r.event.srcV6.toList ++ leBytes 8 r.event.timestamp.toNat) := by
  have hsplit : r.bytes = (leBytes 4 32 ++ leBytes 4 r.pgOff.toNat ++ ([r.event.af, r.event.reason] ++
      leBytes 2 r.event.pad.toNat)) ++ (leBytes 4 r.event.srcV4.toNat ++ (r.event.srcV6.toList ++
      leBytes 8 r.event.timestamp.toNat)) := by
    simp [Record.bytes, AttackEvent.bytes]
  rw [hsplit, List.drop_left' (by simp)]

theorem drop_srcV6 (r : Record) : r.bytes.drop 16 = r.event.srcV6.toList ++ leBytes 8 r.event.timestamp.toNat := by
  have hdrop : r.bytes.drop 16 = (r.bytes.drop 12).drop 4 := by rw [List.drop_drop]
  rw [hdrop, drop_srcV4, List.drop_left' (by simp)]

theorem drop_record (r : Record) : r.bytes.drop 32 = leBytes 8 r.event.timestamp.toNat := by
  have hdrop : r.bytes.drop 32 = (r.bytes.drop 16).drop 16 := by rw [List.drop_drop]
  rw [hdrop, drop_srcV6, List.drop_left' (by simp)]

/-- The bytes of a placed record are where the producer put them. -/
theorem Placed.bytes_eq (h : Placed m c recs buf) {i k n : ℕ} (hi : i < recs.length) (hk : k + n ≤ RECORD) :
    ringBytes m buf (c + RECORD * i + k) n = (recs[i].bytes.drop k).take n := by
  refine List.ext_getElem ?_ fun j hj hj' => ?_
  · simp [ringBytes, length_record]; omega
  · have hjn : j < n := by simpa [ringBytes] using hj
    have hdata := h.data i hi (k + j) (by omega)
    rw [List.getD_eq_getElem?_getD, List.getElem?_eq_getElem (by rw [length_record]; omega), Option.getD_some,
      ← Nat.add_assoc] at hdata
    simpa [ringBytes, ringByte] using hdata

/-- Its header word is its length. -/
theorem Placed.header (h : Placed m c recs buf) {i : ℕ} (hi : i < recs.length) :
    ringWord m buf (c + RECORD * i) = 32 := by
  have := h.bytes_eq (k := 0) (n := 4) hi (by decide)
  rw [Nat.add_zero, List.drop_zero] at this
  unfold ringWord
  rw [this]
  simp [Record.bytes, leBytes, leNat]

theorem Placed.byte_eq (h : Placed m c recs buf) {i k : ℕ} (hi : i < recs.length) (hk : k < RECORD) :
    ringByte m buf (c + RECORD * i + k) = recs[i].bytes.getD k 0 := by
  unfold ringByte
  exact h.data i hi k hk

theorem Placed.reason (h : Placed m c recs buf) {i : ℕ} (hi : i < recs.length) :
    ringByte m buf (c + RECORD * i + 9) = recs[i].event.reason := by
  rw [h.byte_eq hi (by decide)]
  simp [Record.bytes, AttackEvent.bytes, leBytes]

theorem Placed.af (h : Placed m c recs buf) {i : ℕ} (hi : i < recs.length) :
    ringByte m buf (c + RECORD * i + 8) = recs[i].event.af := by
  rw [h.byte_eq hi (by decide)]
  simp [Record.bytes, AttackEvent.bytes, leBytes]

theorem Placed.srcV4 (h : Placed m c recs buf) {i : ℕ} (hi : i < recs.length) :
    ringBytes m buf (c + RECORD * i + 12) 4 = leBytes 4 recs[i].event.srcV4.toNat := by
  rw [h.bytes_eq hi (by decide), drop_srcV4, List.take_left' (by simp)]

theorem Placed.srcV6 (h : Placed m c recs buf) {i : ℕ} (hi : i < recs.length) :
    ringBytes m buf (c + RECORD * i + 16) 16 = recs[i].event.srcV6.toList := by
  rw [h.bytes_eq hi (by decide), drop_srcV6, List.take_left' (by simp)]

theorem Placed.timestamp (h : Placed m c recs buf) {i : ℕ} (hi : i < recs.length) :
    leNat (ringBytes m buf (c + RECORD * i + 32) 8) = recs[i].event.timestamp.toNat := by
  rw [h.bytes_eq hi (by decide), drop_record, List.take_of_length_le (by simp),
    leNat_leBytes_of_lt recs[i].event.timestamp.toNat_lt]

/-- After a record the reader finds the low word of its timestamp. -/
theorem Placed.misread (h : Placed m c recs buf) {i : ℕ} (hi : i < recs.length) :
    ringWord m buf (c + RECORD * i + 32) = recs[i].event.timestamp.toNat % 2 ^ 32 := by
  unfold ringWord
  rw [h.bytes_eq hi (by decide), drop_record, take_leBytes (by decide), leNat_leBytes]
  rfl

/-! ## A run that stays in step -/

/-- The low word of a timestamp that the reader, taking it for a header, skips as one
discarded record of eight bytes. -/
structure Skippable (t : UInt64) : Prop where
  flagged : 2 ^ 30 ≤ t.toNat % 2 ^ 32
  pos : 1 ≤ t.toNat % 2 ^ 28
  le : t.toNat % 2 ^ 28 ≤ 8

theorem recordSize_eq_eight_iff {n : ℕ} : recordSize n = 8 ↔ 1 ≤ n ∧ n ≤ 8 := by
  unfold recordSize RB_RECORD_HDR_SIZE; omega

theorem low_bits (t : ℕ) : t % 2 ^ 32 % 2 ^ 28 = t % 2 ^ 28 := Nat.mod_mod_of_dvd t (by decide)

/-- The address that the reader shows for an event. -/
def AttackEvent.shown (ev : AttackEvent) : Text := shownIp ev.af.toNat (leBytes 4 ev.srcV4.toNat) ev.srcV6.toList

/-- The pass that reads record `i`. -/
theorem Placed.read (h : Placed m c recs buf) (hc : c % 8 = 0) {i : ℕ} (hi : i < recs.length)
    (hf : Fits m (c + RECORD * i)) :
    readRecord buf m.dataOffset RINGBUF_DEFAULT_SIZE (c + RECORD * i) =
      .advance 32 (some (recs[i].event.shown, recs[i].event.reason.toNat, recs[i].event.timestamp.toNat)) := by
  have hp : (c + RECORD * i) % 8 = 0 := by unfold RECORD; omega
  have hflag : 32 < 2 ^ 30 := by decide
  rw [readRecord_eq h.mapped hp, h.header hi, if_pos hflag, if_pos hf, decodePayload_eq h.mapped hf,
    h.af hi, h.reason hi,
    h.srcV4 hi, h.srcV6 hi, h.timestamp hi]
  rfl

/-- The only timestamps that keep the reader in step. -/
theorem Placed.skippable (h : Placed m c recs buf) (hc : c % 8 = 0) {i : ℕ} (hi : i < recs.length)
    (hr : readRecord buf m.dataOffset RINGBUF_DEFAULT_SIZE (c + RECORD * i + 32) = .advance 8 none) :
    Skippable recs[i].event.timestamp := by
  have hp : (c + RECORD * i + 32) % 8 = 0 := by unfold RECORD; omega
  rw [readRecord_eq h.mapped hp, h.misread hi, low_bits] at hr
  split at hr
  · split at hr
    · rename_i hf
      rw [decodePayload_eq h.mapped hf] at hr
      injection hr with _ hnone
      cases hnone
    · cases hr
  · rename_i hflag
    split at hr
    · cases hr
    · have h8 : recordSize (recs[i].event.timestamp.toNat % 2 ^ 28) = 8 := by injection hr
      have := recordSize_eq_eight_iff.1 h8
      exact ⟨by omega, this.1, this.2⟩

/-- A single mapping ends before the payload of a record that wraps around. -/
theorem Placed.read_stop (h : Placed m c recs buf) (hc : c % 8 = 0) {i : ℕ} (hi : i < recs.length)
    (hf : ¬ Fits m (c + RECORD * i)) :
    readRecord buf m.dataOffset RINGBUF_DEFAULT_SIZE (c + RECORD * i) = .stop := by
  have hp : (c + RECORD * i) % 8 = 0 := by unfold RECORD; omega
  have hflag : 32 < 2 ^ 30 := by decide
  rw [readRecord_eq h.mapped hp, h.header hi, if_pos hflag, if_neg hf]

/-- The pass that reads the timestamp of record `i`. -/
theorem Placed.skip (h : Placed m c recs buf) (hc : c % 8 = 0) {i : ℕ} (hi : i < recs.length)
    (hs : Skippable recs[i].event.timestamp) :
    readRecord buf m.dataOffset RINGBUF_DEFAULT_SIZE (c + RECORD * i + 32) = .advance 8 none := by
  have hp : (c + RECORD * i + 32) % 8 = 0 := by unfold RECORD; omega
  have h8 := recordSize_eq_eight_iff.2 ⟨hs.pos, hs.le⟩
  have := hs.flagged
  rw [readRecord_eq h.mapped hp, h.misread hi, low_bits, h8, if_neg (by omega), if_neg (by decide)]

theorem Mapping.dataOffset_ge (m : Mapping) : 8 ≤ m.dataOffset := by
  have := m.pageSize_ge
  unfold Mapping.dataOffset
  omega

/-- From record `i` on the loop returns the remaining records. -/
theorem Placed.loop (h : Placed m c recs buf) (hc : c % 8 = 0) (hprod : c + RECORD * recs.length < 2 ^ 64)
    (hfit : ∀ i < recs.length, Fits m (c + RECORD * i)) (hskip : ∀ r ∈ recs, Skippable r.event.timestamp)
    (k : ℕ) : ∀ i, i + k = recs.length → ∀ events, ∃ evs,
      loopAt buf m.dataOffset RINGBUF_DEFAULT_SIZE (c + RECORD * recs.length) (c + RECORD * i) events =
        some (events ++ evs, buf.setCons (c + RECORD * recs.length)) ∧
      evs.map Prod.snd = (recs.drop i).map fun r => (r.event.reason.toNat, r.event.timestamp.toNat) := by
  have hsize := h.mapped.size_ge
  have hd := m.dataOffset_ge
  unfold RECORD at hprod
  -- by induction on the records that are left; each takes two passes
  induction k with
  | zero =>
    intro i hi events
    rw [Nat.add_zero] at hi
    subst hi
    exact ⟨[], by rw [loopAt_done le_rfl, List.append_nil], by rw [List.drop_length]; rfl⟩
  | succ k ih =>
    intro i hi events
    have hlt : i < recs.length := by omega
    have hread := h.read hc hlt (hfit i hlt)
    obtain ⟨evs, hloop, hevs⟩ := ih (i + 1) (by omega)
      (events ++ [(recs[i].event.shown, recs[i].event.reason.toNat, recs[i].event.timestamp.toNat)])
    refine ⟨(recs[i].event.shown, recs[i].event.reason.toNat, recs[i].event.timestamp.toNat) :: evs, ?_, ?_⟩
    · have hskip := h.skip hc hlt (hskip _ (List.getElem_mem hlt))
      rw [loopAt_advance hd (by omega) (by unfold RECORD; omega) hread, if_pos (by unfold RECORD; omega),
        loopAt_advance hd (by omega) (by unfold RECORD; omega) hskip, if_pos (by unfold RECORD; omega),
        Option.toList_some, Option.toList_none, List.append_nil,
        show c + RECORD * i + 32 + 8 = c + RECORD * (i + 1) by unfold RECORD; omega, hloop, List.append_assoc]
      rfl
    · rw [List.map_cons, hevs, List.drop_eq_getElem_cons hlt, List.map_cons]

/-- A drain of placed records is the loop from the consumer to the producer. -/
theorem Placed.drainRingbuf_eq (h : Placed m c recs buf) (hprod : c + RECORD * recs.length < 2 ^ 64)
    (hroom : RECORD * recs.length ≤ RINGBUF_DEFAULT_SIZE) :
    drainRingbuf m.pageSize buf m.dataOffset RINGBUF_DEFAULT_SIZE =
      loopAt buf m.dataOffset RINGBUF_DEFAULT_SIZE (c + RECORD * recs.length) c [] := by
  have hsize := h.mapped.size_ge
  have hd := m.dataOffset_ge
  have hpage : m.pageSize + 8 ≤ buf.size := by
    have := m.pageSize_ge
    unfold Mapping.dataOffset at hsize
    omega
  have hcons : buf.unpackFrom 8 0 = some c := by unfold Mmap.unpackFrom; rw [if_pos (by omega), h.cons]
  have hprod' : buf.unpackFrom 8 m.pageSize = some (c + RECORD * recs.length) := by
    unfold Mmap.unpackFrom; rw [if_pos hpage, h.prod, Nat.mod_eq_of_lt hprod]
  unfold drainRingbuf loopAt
  rw [hcons, hprod', Mmap.setCons_self h.cons]
  simp only
  rw [if_neg (by omega)]

/-- It has drained them when the loop ends at the producer. -/
theorem Placed.drained_iff (h : Placed m c recs buf) (hprod : c + RECORD * recs.length < 2 ^ 64) (y : ℕ)
    (hy : y < 2 ^ 64) :
    (buf.setCons y).slice 0 8 = (buf.setCons y).slice m.pageSize 8 ↔ y = c + RECORD * recs.length := by
  have hword : leNat (buf.slice m.pageSize 8) = c + RECORD * recs.length := by
    rw [h.prod, Nat.mod_eq_of_lt hprod]
  rw [Mmap.slice_cons, Mmap.slice_setCons _ _ m.pageSize_ge]
  constructor
  · intro he
    have := congrArg leNat he
    rwa [leNat_leBytes_of_lt hy, hword] at this
  · rintro rfl
    rw [← hword]
    have := leBytes_leNat (buf.slice m.pageSize 8)
    rwa [show (buf.slice m.pageSize 8).length = 8 by simp [Mmap.slice]] at this

/-- In step, one call drains the buffer. -/
theorem Placed.drained (h : Placed m c recs buf) (hc : c % 8 = 0) (hprod : c + RECORD * recs.length < 2 ^ 64)
    (hroom : RECORD * recs.length ≤ RINGBUF_DEFAULT_SIZE) (hfit : ∀ i < recs.length, Fits m (c + RECORD * i))
    (hskip : ∀ r ∈ recs, Skippable r.event.timestamp) : Drained m recs buf := by
  obtain ⟨evs, hloop, hevs⟩ := h.loop hc hprod hfit hskip recs.length 0 (by omega) []
  rw [Nat.mul_zero, Nat.add_zero, List.nil_append] at hloop
  rw [List.drop_zero] at hevs
  exact ⟨evs, _, (h.drainRingbuf_eq hprod hroom).trans hloop, hevs, (h.drained_iff hprod _ hprod).2 rfl⟩

/-! ## What a run that falls out of step returns -/

/-- The loop from a consumer position and the tuples so far, to the tuples and the consumer
position at its end. -/
inductive Final (buf : Mmap) (dataOffset rbSize prod : ℕ) : ℕ → List RbEvent → List RbEvent → ℕ → Prop
  | done {cons : ℕ} (events : List RbEvent) : prod ≤ cons → Final buf dataOffset rbSize prod cons events events cons
  | stop {cons : ℕ} (events : List RbEvent) : cons < prod → readRecord buf dataOffset rbSize cons = .stop →
      Final buf dataOffset rbSize prod cons events events cons
  | advance {cons size y : ℕ} {event : Option RbEvent} {events evs : List RbEvent} : cons < prod →
      readRecord buf dataOffset rbSize cons = .advance size event → cons + size < 2 ^ 64 →
      Final buf dataOffset rbSize prod (cons + size) (events ++ event.toList) evs y →
      Final buf dataOffset rbSize prod cons events evs y

section Final

variable {dataOffset rbSize prod cons y : ℕ} {events evs : List RbEvent}

theorem Final.le (h : Final buf dataOffset rbSize prod cons events evs y) : cons ≤ y := by
  induction h with
  | done | stop => exact le_rfl
  | advance hlt hr hsize hfinal ih => omega

/-- A tuple once appended stays. -/
theorem Final.subset (h : Final buf dataOffset rbSize prod cons events evs y) : ∀ e ∈ events, e ∈ evs := by
  induction h with
  | done | stop => exact fun e he => he
  | advance hlt hr hsize hfinal ih => exact fun e he => ih e (List.mem_append_left _ he)

theorem Final.cases (h : Final buf dataOffset rbSize prod cons events evs y) (hlt : cons < prod) :
    (readRecord buf dataOffset rbSize cons = .stop ∧ y = cons) ∨
      ∃ size event, readRecord buf dataOffset rbSize cons = .advance size event ∧
        Final buf dataOffset rbSize prod (cons + size) (events ++ event.toList) evs y := by
  cases h with
  | done _ hge => omega
  | stop _ _ hr => exact Or.inl ⟨hr, rfl⟩
  | advance _ hr _ hfinal => exact Or.inr ⟨_, _, hr, hfinal⟩

/-- What the loop ends with, it ends with from the next record on. -/
theorem Final.of_advance {size : ℕ} {event : Option RbEvent} (h : Final buf dataOffset rbSize prod cons events evs y)
    (hlt : cons < prod) (hr : readRecord buf dataOffset rbSize cons = .advance size event) :
    Final buf dataOffset rbSize prod (cons + size) (events ++ event.toList) evs y := by
  rcases h.cases hlt with ⟨hr', -⟩ | ⟨_, _, hr', hfinal⟩
  · rw [hr] at hr'; cases hr'
  · rw [hr] at hr'; cases hr'; exact hfinal

end Final

/-- The loop ends where its passes lead. -/
theorem final_of_loopAt {dataOffset rbSize prod : ℕ} (hd : 8 ≤ dataOffset) (hs : 8 ≤ buf.size) (n : ℕ) :
    ∀ {cons : ℕ} {events evs : List RbEvent} {buf' : Mmap}, prod - cons = n → cons < 2 ^ 64 →
      loopAt buf dataOffset rbSize prod cons events = some (evs, buf') →
      ∃ y < 2 ^ 64, Final buf dataOffset rbSize prod cons events evs y ∧ buf' = buf.setCons y := by
  -- by induction on the distance to the producer position, which every pass shortens
  induction n using Nat.strong_induction_on with
  | _ n ih =>
    intro cons events evs buf' hn hcons hloop
    rcases Nat.lt_or_ge cons prod with hlt | hge
    · cases hr : readRecord buf dataOffset rbSize cons with
      | stop =>
        rw [loopAt_stop hd hlt hr] at hloop
        cases hloop
        exact ⟨cons, hcons, .stop _ hlt hr, rfl⟩
      | advance size event =>
        have hpos := (size_of_advance hr).1
        rw [loopAt_advance hd hs hlt hr] at hloop
        by_cases hsize : cons + size < 2 ^ 64
        · rw [if_pos hsize] at hloop
          obtain ⟨y, hy, hfinal, hbuf⟩ := ih (prod - (cons + size)) (by omega) rfl hsize hloop
          exact ⟨y, hy, .advance hlt hr hsize hfinal, hbuf⟩
        · rw [if_neg hsize] at hloop; cases hloop
    · rw [loopAt_done hge] at hloop
      cases hloop
      exact ⟨cons, hcons, .done _ hge, rfl⟩

theorem Placed.final (h : Placed m c recs buf) (hprod : c + RECORD * recs.length < 2 ^ 64)
    (hroom : RECORD * recs.length ≤ RINGBUF_DEFAULT_SIZE) (hdrained : Drained m recs buf) :
    ∃ evs, Final buf m.dataOffset RINGBUF_DEFAULT_SIZE (c + RECORD * recs.length) c [] evs
        (c + RECORD * recs.length) ∧
      evs.map Prod.snd = recs.map fun r => (r.event.reason.toNat, r.event.timestamp.toNat) := by
  have hsize := h.mapped.size_ge
  have hd := m.dataOffset_ge
  obtain ⟨evs, buf', hdrain, hevs, hpos⟩ := hdrained
  rw [h.drainRingbuf_eq hprod hroom] at hdrain
  obtain ⟨y, hy, hfinal, rfl⟩ := final_of_loopAt hd (by omega) _ rfl (by omega) hdrain
  rw [h.drained_iff hprod y hy] at hpos
  subst hpos
  exact ⟨evs, hfinal, hevs⟩

/-! ## Records that tell a run out of step -/

/-- An address field that stops a reader that takes its words for headers. -/
def trapV6 : Ip6 := Vector.ofFn fun i => if i = 3 ∨ i = 11 then 0x80 else 0

/-- An event of the kernel, with bytes before its timestamp that a reader out of step
does not take for a tuple of reason 1. -/
def trapEvent (t : UInt64) : AttackEvent where
  af := 4
  reason := 1
  pad := 0
  srcV4 := 0
  srcV6 := trapV6
  timestamp := t

/-- Records whose timestamps the reader may take for headers. -/
def trap (ts : List UInt64) : List Record := ts.map fun t => ⟨0, trapEvent t⟩

/-- A mapping filled with records from position `c`, and zeros elsewhere. -/
def fillRing (m : Mapping) (c : ℕ) (recs : List Record) : Mmap where
  size := m.size
  byte i :=
    if i < 8 then (leBytes 8 c).getD i 0
    else if m.dataOffset ≤ i then
      (recs.flatMap Record.bytes).getD
        ((i - m.dataOffset + (RINGBUF_DEFAULT_SIZE - c % RINGBUF_DEFAULT_SIZE)) % RINGBUF_DEFAULT_SIZE) 0
    else if m.pageSize ≤ i then (leBytes 8 (c + RECORD * recs.length)).getD (i - m.pageSize) 0
    else 0

theorem getD_flatMap_bytes (recs : List Record) : ∀ {i k : ℕ} (hi : i < recs.length), k < RECORD →
    (recs.flatMap Record.bytes).getD (RECORD * i + k) 0 = recs[i].bytes.getD k 0 := by
  induction recs with
  | nil => intro i k hi; cases hi
  | cons r recs ih =>
    intro i k hi hk
    have hlen := length_record r
    rw [List.flatMap_cons]
    cases i with
    | zero =>
      rw [Nat.mul_zero, Nat.zero_add, List.getElem_cons_zero]
      simp only [List.getD_eq_getElem?_getD, List.getElem?_append_left (show k < r.bytes.length by omega)]
    | succ i =>
      rw [List.getElem_cons_succ, ← ih (by simpa using hi) hk]
      simp only [List.getD_eq_getElem?_getD]
      rw [List.getElem?_append_right (by rw [hlen]; unfold RECORD; omega), hlen]
      congr 2
      unfold RECORD
      omega

theorem length_flatMap_bytes (recs : List Record) : (recs.flatMap Record.bytes).length = RECORD * recs.length := by
  induction recs with
  | nil => rfl
  | cons r recs ih => rw [List.flatMap_cons, List.length_append, length_record, ih, List.length_cons]; ring

/-- Every byte of the filled ring: a record's, or zero. -/
theorem ringByte_fillRing {d : ℕ}
    (hd : d < RINGBUF_DEFAULT_SIZE) :
    ringByte m (fillRing m c recs) (c + d) = (recs.flatMap Record.bytes).getD d 0 := by
  have hlt := ring_mod_lt (c + d)
  have hoff := m.dataOffset_ge
  unfold ringByte fillRing
  simp only
  rw [if_neg (by omega), if_pos (by omega)]
  congr 1
  unfold RINGBUF_DEFAULT_SIZE at *
  omega

/-- A ring filled with records has them placed. -/
theorem placed_fillRing (hc : c < 2 ^ 64) (hroom : RECORD * recs.length ≤ RINGBUF_DEFAULT_SIZE) :
    Placed m c recs (fillRing m c recs) where
  size := rfl
  cons := by
    have : (fillRing m c recs).slice 0 8 = leBytes 8 c := by
      refine List.ext_getElem (by simp [Mmap.slice]) fun k h _ => ?_
      have hk : k < 8 := by simpa [Mmap.slice] using h
      simp [Mmap.slice, fillRing, hk]
    rw [this, leNat_leBytes_of_lt hc]
  prod := by
    have : (fillRing m c recs).slice m.pageSize 8 = leBytes 8 (c + RECORD * recs.length) := by
      refine List.ext_getElem (by simp [Mmap.slice]) fun k h _ => ?_
      have hk : k < 8 := by simpa [Mmap.slice] using h
      have hp := m.pageSize_ge
      have h1 : ¬ m.pageSize + k < 8 := by omega
      have h2 : ¬ m.dataOffset ≤ m.pageSize + k := by unfold Mapping.dataOffset; omega
      simp [Mmap.slice, fillRing, hk, h1, h2]
    rw [this, leNat_leBytes]; norm_num
  data i hi k hk := by
    have : ringByte m (fillRing m c recs) (c + (RECORD * i + k)) = _ := ringByte_fillRing (by unfold RECORD at *; omega)
    rw [getD_flatMap_bytes recs hi hk, ← Nat.add_assoc] at this
    exact this
  mirror _ j hj := by
    have hoff := m.dataOffset_ge
    unfold fillRing
    simp only
    rw [if_neg (by omega), if_pos (by omega), if_neg (by omega), if_pos (by omega)]
    congr 1
    unfold RINGBUF_DEFAULT_SIZE
    omega

/-- The bytes of a trap record before its timestamp. -/
def trapHead : List UInt8 :=
  [32, 0, 0, 0, 0, 0, 0, 0, 4, 1, 0, 0, 0, 0, 0, 0, 0, 0, 0, 0x80, 0, 0, 0, 0, 0, 0, 0, 0x80, 0, 0, 0, 0]

theorem bytes_trap (t : UInt64) : (Record.mk 0 (trapEvent t)).bytes = trapHead ++ leBytes 8 t.toNat := by
  have hhead : leBytes 4 32 ++ leBytes 4 (0 : UInt32).toNat ++ ([4, 1] ++ leBytes 2 (0 : UInt16).toNat ++
      leBytes 4 (0 : UInt32).toNat ++ trapV6.toList) = trapHead := by decide
  rw [← hhead]
  simp only [Record.bytes, AttackEvent.bytes, trapEvent, List.append_assoc]

section Trap

variable {ts : List UInt64}

theorem getElem_trap {i : ℕ} (hi : i < (trap ts).length) :
    (trap ts)[i] = ⟨0, trapEvent (ts.get ⟨i, by simpa [trap] using hi⟩)⟩ := by simp [trap]

theorem trap_word (h : Placed m c (trap ts) buf) {i k : ℕ} (hi : i < (trap ts).length) (hk : k + 4 ≤ 32) :
    ringWord m buf (c + RECORD * i + k) = leNat ((trapHead.drop k).take 4) := by
  have hlen : trapHead.length = 32 := rfl
  unfold ringWord
  rw [h.bytes_eq hi (by unfold RECORD; omega), getElem_trap hi, bytes_trap,
    List.drop_append_of_le_length (by omega), List.take_append_of_le_length (by rw [List.length_drop]; omega)]

theorem trap_byte (h : Placed m c (trap ts) buf) {i k : ℕ} (hi : i < (trap ts).length) (hk : k < 32) :
    ringByte m buf (c + RECORD * i + k) = trapHead.getD k 0 := by
  have hlen : trapHead.length = 32 := rfl
  have hdata := h.data i hi k (by unfold RECORD; omega)
  unfold ringByte
  rw [hdata, getElem_trap hi, bytes_trap, List.getD_eq_getElem?_getD, List.getElem?_append_left (by omega),
    List.getD_eq_getElem?_getD]

/-- The byte after the length byte of the next header, or of the free space. -/
theorem trap_next (hroom : RECORD * (trap ts).length ≤ RINGBUF_DEFAULT_SIZE) (hc : c < 2 ^ 64) {i : ℕ}
    (hi : i < (trap ts).length) : ringByte m (fillRing m c (trap ts)) (c + RECORD * i + 32 + 9) = 0 := by
  rcases Nat.lt_or_ge (i + 1) (trap ts).length with hlt | hge
  · have := trap_byte (m := m) (placed_fillRing hc hroom) hlt (k := 1) (by decide)
    rw [show c + RECORD * i + 32 + 9 = c + RECORD * (i + 1) + 1 by unfold RECORD; omega, this]
    rfl
  · have hd : RECORD * i + 41 < RINGBUF_DEFAULT_SIZE := by
      unfold RECORD RINGBUF_DEFAULT_SIZE at *; omega
    rw [show c + RECORD * i + 32 + 9 = c + (RECORD * i + 41) by omega, ringByte_fillRing hd,
      List.getD_eq_getElem?_getD, List.getElem?_eq_none (by rw [length_flatMap_bytes]; unfold RECORD; omega)]
    rfl

/-- **What one pass does on a trap**, `40 * i + o` bytes into it: it stops, or reads record `i`, or skips,
or returns a tuple with the reason 0. -/
theorem trap_advance (hroom : RECORD * (trap ts).length ≤ RINGBUF_DEFAULT_SIZE) (hc : c < 2 ^ 64) (hc8 : c % 8 = 0)
    {i o : ℕ} (hi : i < (trap ts).length) (ho : o < RECORD) (ho8 : o % 8 = 0) {size : ℕ} {event : Option RbEvent}
    (hr : readRecord (fillRing m c (trap ts)) m.dataOffset RINGBUF_DEFAULT_SIZE (c + RECORD * i + o) =
      .advance size event) :
    (∃ e, event = some e ∧ e.2.1 = 0) ∨ (o = 0 ∧ size = 32 ∧ event.isSome) ∨ (o = 32 ∧ event = none) := by
  have h := placed_fillRing (m := m) hc hroom
  have hp : (c + RECORD * i + o) % 8 = 0 := by unfold RECORD; omega
  have hplain : ∀ {p}, Fits m p → ringByte m (fillRing m c (trap ts)) (p + 9) = 0 →
      ∃ e, decodePayload (fillRing m c (trap ts)) (m.dataOffset + p % RINGBUF_DEFAULT_SIZE + 8) = some e ∧
        e.2.1 = 0 := by
    intro p hf h0
    exact ⟨_, decodePayload_eq h.mapped hf, by rw [h0]; rfl⟩
  rw [readRecord_eq h.mapped hp] at hr
  -- five words of a record at which a pass can begin
  have hcases : o = 0 ∨ o = 8 ∨ o = 16 ∨ o = 24 ∨ o = 32 := by unfold RECORD at ho; omega
  rcases hcases with rfl | rfl | rfl | rfl | rfl
  · right; left
    rw [Nat.add_zero] at hr
    rw [h.header hi, if_pos (by decide)] at hr
    split at hr
    · rename_i hf
      rw [decodePayload_eq h.mapped hf] at hr
      cases hr
      exact ⟨rfl, rfl, rfl⟩
    · cases hr
  · left
    rw [trap_word h hi (by decide), if_pos (by decide)] at hr
    split at hr
    · rename_i hf
      obtain ⟨e, hd, he⟩ := hplain hf (trap_byte h hi (k := 17) (by decide))
      rw [hd] at hr
      cases hr
      exact ⟨e, rfl, he⟩
    · cases hr
  · rw [trap_word h hi (by decide), if_neg (by decide), if_pos (by decide)] at hr
    cases hr
  · rw [trap_word h hi (by decide), if_neg (by decide), if_pos (by decide)] at hr
    cases hr
  · split at hr
    · left
      split at hr
      · rename_i hf
        obtain ⟨e, hd, he⟩ := hplain hf (trap_next hroom hc hi)
        rw [hd] at hr
        cases hr
        exact ⟨e, rfl, he⟩
      · cases hr
    · right; right
      split at hr
      · cases hr
      · cases hr
        exact ⟨rfl, rfl⟩

/-- No tuple that is read has the reason of a block. -/
theorem trap_reason {evs : List RbEvent}
    (hevs : evs.map Prod.snd = (trap ts).map fun r => (r.event.reason.toNat, r.event.timestamp.toNat)) :
    ∀ e ∈ evs, e.2.1 ≠ 0 := by
  intro e he
  have hmem : e.2 ∈ evs.map Prod.snd := List.mem_map_of_mem he
  rw [hevs] at hmem
  obtain ⟨r, hr, heq⟩ := List.mem_map.1 hmem
  obtain ⟨t, -, rfl⟩ := List.mem_map.1 hr
  rw [← heq]
  exact (by decide : (1 : UInt8).toNat ≠ 0)

/-- A tuple of reason 1 costs a whole record: only at the start of one does the reader return it. -/
theorem Final.length_le (hroom : RECORD * (trap ts).length ≤ RINGBUF_DEFAULT_SIZE) (hc : c < 2 ^ 64) (hc8 : c % 8 = 0)
    {cons y : ℕ} {events evs : List RbEvent}
    (h : Final (fillRing m c (trap ts)) m.dataOffset RINGBUF_DEFAULT_SIZE (c + RECORD * (trap ts).length)
      cons events evs y) (hge : c ≤ cons) (h8 : cons % 8 = 0) (hreason : ∀ e ∈ evs, e.2.1 ≠ 0) :
    evs.length ≤ events.length + (c + RECORD * (trap ts).length - cons) / RECORD := by
  induction h with
  | done events hdone => exact Nat.le_add_right _ _
  | stop events hlt hr => exact Nat.le_add_right _ _
  | @advance cons size y event events evs hlt hr hsize hfinal ih =>
    have hsize8 := (size_of_advance hr).2
    have hpos := (size_of_advance hr).1
    have hih := ih (by omega) (by omega) hreason
    rw [List.length_append] at hih
    -- the record that the consumer position is in, and the offset there
    have hcons : cons = c + RECORD * ((cons - c) / RECORD) + (cons - c) % RECORD := by
      have := Nat.div_add_mod (cons - c) RECORD
      omega
    rw [hcons] at hr
    have hcase := trap_advance hroom hc hc8 (by unfold RECORD at *; omega) (Nat.mod_lt _ (by decide))
      (by unfold RECORD at *; omega) hr
    rcases hcase with ⟨e, rfl, he⟩ | ⟨ho, rfl, hsome⟩ | ⟨ho, rfl⟩
    · exact absurd he (hreason e (hfinal.subset e (by simp)))
    · obtain ⟨e, rfl⟩ := Option.isSome_iff_exists.1 hsome
      rw [Option.toList_some, List.length_singleton] at hih
      unfold RECORD at *
      omega
    · rw [Option.toList_none, List.length_nil] at hih
      have := Nat.div_le_div_right (c := RECORD)
        (show c + RECORD * (trap ts).length - (cons + size) ≤ c + RECORD * (trap ts).length - cons by omega)
      omega

/-- **A run that returns every record of a trap and ends at the producer position is in step.** -/
theorem Final.in_step (hroom : RECORD * (trap ts).length ≤ RINGBUF_DEFAULT_SIZE) (hc : c < 2 ^ 64) (hc8 : c % 8 = 0)
    {evs : List RbEvent} (hreason : ∀ e ∈ evs, e.2.1 ≠ 0) (hlen : evs.length = (trap ts).length) (k : ℕ) :
    ∀ (i : ℕ) (events : List RbEvent), i + k = (trap ts).length → events.length = i →
      Final (fillRing m c (trap ts)) m.dataOffset RINGBUF_DEFAULT_SIZE (c + RECORD * (trap ts).length)
        (c + RECORD * i) events evs (c + RECORD * (trap ts).length) →
      ∀ j (hj : j < (trap ts).length), i ≤ j → Fits m (c + RECORD * j) ∧ Skippable (trap ts)[j].event.timestamp := by
  have h := placed_fillRing (m := m) hc hroom
  -- by induction on the records that are left
  induction k with
  | zero => intro i events hi _ _ j hj hij; omega
  | succ k ih =>
    intro i events hi hevents hfinal j hj hij
    have hilt : i < (trap ts).length := by omega
    have hlt : c + RECORD * i < c + RECORD * (trap ts).length := by unfold RECORD; omega
    have hlt' : c + RECORD * i + 32 < c + RECORD * (trap ts).length := by unfold RECORD; omega
    have hp : (c + RECORD * i + 32) % 8 = 0 := by unfold RECORD; omega
    by_cases hfit : Fits m (c + RECORD * i)
    · -- record `i` is returned, and its timestamp is read as a header
      have hread := h.read hc8 hilt hfit
      have hfinal' := hfinal.of_advance hlt hread
      rw [Option.toList_some] at hfinal'
      rcases hfinal'.cases hlt' with ⟨-, hy⟩ | ⟨size, event, hr, hfinal''⟩
      · omega
      have hsize8 := (size_of_advance hr).2
      have hpos := (size_of_advance hr).1
      have hle := hfinal''.le
      have hlength := hfinal''.length_le hroom hc hc8 (by omega) (by omega) hreason
      rcases trap_advance hroom hc hc8 hilt (by decide) (by decide) hr with ⟨e, rfl, he⟩ | ⟨ho, -⟩ | ⟨-, rfl⟩
      · exact absurd he (hreason e (hfinal''.subset e (by simp)))
      · cases ho
      rw [Option.toList_none, List.append_nil] at hlength hfinal''
      rw [List.length_append, List.length_singleton] at hlength
      -- a longer skip leaves fewer records than there are tuples to come
      have hsize : size = 8 := by unfold RECORD at *; omega
      subst hsize
      have hskip : Skippable (trap ts)[i].event.timestamp := h.skippable hc8 hilt hr
      rcases Nat.eq_or_lt_of_le hij with rfl | hlt
      · exact ⟨hfit, hskip⟩
      · rw [show c + RECORD * i + 32 + 8 = c + RECORD * (i + 1) by unfold RECORD; omega] at hfinal''
        exact ih (i + 1) _ (by omega) (by simp [hevents]) hfinal'' j hj hlt
    · rcases hfinal.cases hlt with ⟨-, hy⟩ | ⟨size, event, hr, -⟩
      · omega
      · rw [h.read_stop hc8 hilt hfit] at hr; cases hr

end Trap

/-! ## Framing -/

/-- The ring positions, mapping and timestamps that keep the reader in step. -/
structure InStep (m : Mapping) (c : ℕ) (ts : List UInt64) : Prop where
  no_overflow : c + RECORD * ts.length < 2 ^ 64
  fits : ∀ i < ts.length, Fits m (c + RECORD * i)
  skippable : ∀ t ∈ ts, Skippable t

/-- What is asked of the reader: whatever else the records hold, one call drains them. -/
def Drains (m : Mapping) (c : ℕ) (ts : List UInt64) : Prop :=
  ∀ recs : List Record, recs.map (·.event.timestamp) = ts → ∀ buf, Placed m c recs buf → Drained m recs buf

/-- A producer position below the consumer position reads as corruption. -/
theorem Placed.not_drained (h : Placed m c recs buf) (hc : c < 2 ^ 64) (hlen : recs ≠ [])
    (hroom : RECORD * recs.length ≤ RINGBUF_DEFAULT_SIZE) (hwrap : 2 ^ 64 ≤ c + RECORD * recs.length) :
    ¬ Drained m recs buf := by
  rintro ⟨events, buf', hdrain, hevents, -⟩
  have hsize := h.mapped.size_ge
  have hoff : m.dataOffset = 2 * m.pageSize := rfl
  have hpage := m.pageSize_ge
  have hprod : (c + RECORD * recs.length) % 2 ^ 64 < c := by
    unfold RINGBUF_DEFAULT_SIZE at *
    omega
  have hcons : buf.unpackFrom 8 0 = some c := by unfold Mmap.unpackFrom; rw [if_pos (by omega), h.cons]
  have hprod' : buf.unpackFrom 8 m.pageSize = some ((c + RECORD * recs.length) % 2 ^ 64) := by
    unfold Mmap.unpackFrom; rw [if_pos (by omega), h.prod]
  unfold drainRingbuf at hdrain
  rw [hcons, hprod'] at hdrain
  simp only at hdrain
  rw [if_pos (Or.inl hprod)] at hdrain
  cases hdrain
  exact hlen (List.map_eq_nil_iff.1 hevents.symm)

/-- A drain that works is in step. -/
theorem inStep_of_drains {ts : List UInt64} (hc8 : c % 8 = 0) (hc : c < 2 ^ 64)
    (hroom : RECORD * ts.length ≤ RINGBUF_DEFAULT_SIZE) (h : Drains m c ts) : InStep m c ts := by
  have hts : (trap ts).map (·.event.timestamp) = ts := by
    unfold trap; rw [List.map_map]; exact List.map_id ts
  have hlen : (trap ts).length = ts.length := List.length_map _
  rw [← hlen] at hroom
  have hplaced := placed_fillRing (m := m) hc hroom
  have hdrained := h _ hts _ hplaced
  have hover : c + RECORD * (trap ts).length < 2 ^ 64 := by
    by_contra hge
    refine hplaced.not_drained hc (fun hnil => hge ?_) hroom (by omega) hdrained
    rw [hnil]
    exact hc
  obtain ⟨evs, hfinal, hevs⟩ := hplaced.final hover hroom hdrained
  have hall := Final.in_step hroom hc hc8 (trap_reason hevs)
    (by simpa using congrArg List.length hevs) (trap ts).length 0 [] (by omega) rfl hfinal
  refine ⟨hlen ▸ hover, fun i hi => (hall i (by omega) (Nat.zero_le i)).1, fun t ht => ?_⟩
  obtain ⟨i, hi, rfl⟩ := List.getElem_of_mem ht
  have := (hall i (by omega) (Nat.zero_le i)).2
  rwa [getElem_trap] at this

/-- A drain in step works. -/
theorem InStep.drains {ts : List UInt64} (h : InStep m c ts) (hc8 : c % 8 = 0)
    (hroom : RECORD * ts.length ≤ RINGBUF_DEFAULT_SIZE) : Drains m c ts := by
  rintro recs rfl buf hplaced
  have hlen : (recs.map (·.event.timestamp)).length = recs.length := List.length_map _
  have hover := h.no_overflow
  have hfits := h.fits
  rw [hlen] at hroom hover hfits
  exact hplaced.drained hc8 hover hroom hfits fun r hr => h.skippable _ (List.mem_map_of_mem hr)

/-- **Framing.** One call returns one tuple per record, in order, and leaves the consumer at the
producer, exactly when no record wraps around a single mapping and the low word of every timestamp
reads as the header of a discarded record of one to eight bytes. -/
theorem drains_iff_inStep (m : Mapping) (c : ℕ) (ts : List UInt64) (hc8 : c % 8 = 0) (hc : c < 2 ^ 64)
    (hroom : RECORD * ts.length ≤ RINGBUF_DEFAULT_SIZE) : Drains m c ts ↔ InStep m c ts :=
  ⟨inStep_of_drains hc8 hc hroom, fun h => h.drains hc8 hroom⟩

/-- The double mapping of pages of 4096 bytes. -/
def doubleMapping : Mapping := ⟨4096, by decide, true⟩

theorem drains_iff_inStep_wrapping :
    (262128 % 8 = 0 ∧ 262128 < 2 ^ 64) ∧
      (Drains doubleMapping 262128 [0x40000008, 0x80000001] ↔ InStep doubleMapping 262128 [0x40000008, 0x80000001]) :=
  ⟨by decide, drains_iff_inStep doubleMapping 262128 [0x40000008, 0x80000001] (by decide) (by decide) (by decide)⟩

/-- One event, five seconds after boot, is not drained. -/
theorem one_event_not_drained :
    ¬ ∀ (m : Mapping) (c : ℕ) (recs : List Record) (buf : Mmap), c % 8 = 0 → c < 2 ^ 64 →
      RECORD * recs.length ≤ RINGBUF_DEFAULT_SIZE → Placed m c recs buf → Drained m recs buf := by
  intro h
  have hdrains : Drains doubleMapping 0 [5000000000] := fun recs hts buf hplaced => by
    have hlen : recs.length = 1 := by simpa using congrArg List.length hts
    exact h _ 0 recs buf rfl (by decide) (by rw [hlen]; decide) hplaced
  have hstep := inStep_of_drains rfl (by decide) (by decide) hdrains
  have hskip := hstep.skippable 5000000000 (List.mem_singleton_self _)
  exact absurd hskip.flagged (by decide)

end FluxGuard
