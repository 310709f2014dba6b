import FluxGuard.Model.Producers
import FluxGuard.Proof.Ringbuf

/-!
# Records that are still being written

A reader of the ring buffer has to stop at a record whose busy bit is set: the event in it is
not there yet, and a consumer position that has moved on never comes back. `drain_ringbuf`
steps over it as over a discarded one.

* `calls_drain`: a call that nobody disturbs is `drain_ringbuf`.
* `lossless_iff`: in any run of producers and calls whose reader stays in step, no event is lost
  to a busy record exactly when no pass meets one.
* `busy_record_lost`: a call between a reserve and its submit loses the event.
-/

namespace FluxGuard

/-! ## Writes to the data pages -/

namespace Shared

variable {r : Shared} {q p : ℕ} {bytes : List UInt8}

/-- What a byte of the data area is after a write. -/
theorem put_at (data : ℕ → UInt8) {q k : ℕ} {bytes : List UInt8} (hlen : bytes.length ≤ RINGBUF_DEFAULT_SIZE)
    (hk : k < RINGBUF_DEFAULT_SIZE) :
    put data q bytes ((q + k) % RINGBUF_DEFAULT_SIZE) =
      if k < bytes.length then bytes.getD k 0 else data ((q + k) % RINGBUF_DEFAULT_SIZE) := by
  induction bytes generalizing q k with
  | nil => rfl
  | cons b bytes ih =>
    rw [List.length_cons] at hlen
    unfold put
    cases k with
    | zero =>
      rw [Nat.add_zero, if_pos rfl, if_pos (by rw [List.length_cons]; omega)]
      rfl
    | succ k =>
      have hne : (q + (k + 1)) % RINGBUF_DEFAULT_SIZE ≠ q % RINGBUF_DEFAULT_SIZE := by
        unfold RINGBUF_DEFAULT_SIZE at *
        omega
      rw [if_neg hne, show q + (k + 1) = q + 1 + k by omega, ih (by omega) (by omega), List.length_cons,
        List.getD_cons_succ]
      exact if_congr Nat.succ_lt_succ_iff.symm rfl rfl

/-- The same in the shared memory. -/
theorem write_data (r : Shared) (q : ℕ) {k : ℕ} {bytes : List UInt8} (hlen : bytes.length ≤ RINGBUF_DEFAULT_SIZE)
    (hk : k < RINGBUF_DEFAULT_SIZE) :
    (r.write q bytes).data ((q + k) % RINGBUF_DEFAULT_SIZE) =
      if k < bytes.length then bytes.getD k 0 else r.data ((q + k) % RINGBUF_DEFAULT_SIZE) := put_at r.data hlen hk

/-- The word that a write begins with. -/
theorem word_write_self (r : Shared) (q : ℕ) {v : ℕ} (hv : v < 2 ^ 32) {rest : List UInt8} (hrest : rest.length ≤ 36) :
    (r.write q (leBytes 4 v ++ rest)).word q = v := by
  have hbytes : ((List.range 4).map fun k => (r.write q (leBytes 4 v ++ rest)).data ((q + k) % RINGBUF_DEFAULT_SIZE)) =
      leBytes 4 v := by
    refine List.ext_getElem (by simp) fun k hk hk' => ?_
    rw [length_leBytes] at hk'
    have hlen : (leBytes 4 v ++ rest).length ≤ RINGBUF_DEFAULT_SIZE := by
      rw [List.length_append, length_leBytes]
      unfold RINGBUF_DEFAULT_SIZE
      omega
    rw [List.getElem_map, List.getElem_range, write_data _ _ hlen (by unfold RINGBUF_DEFAULT_SIZE; omega),
      if_pos (by rw [List.length_append, length_leBytes]; omega), List.getD_eq_getElem?_getD,
      List.getElem?_append_left (by rw [length_leBytes]; exact hk'),
        List.getElem?_eq_getElem (by rw [length_leBytes]; exact hk')]
    rfl
  unfold word
  rw [hbytes, leNat_leBytes_of_lt (by simpa using hv)]

/-- A write beside a word, within one lap of the ring. -/
theorem word_write_of_disjoint (h : p + 4 ≤ q ∧ q + bytes.length ≤ p + RINGBUF_DEFAULT_SIZE ∨
    q + bytes.length ≤ p ∧ p + 4 ≤ q + RINGBUF_DEFAULT_SIZE) : (r.write q bytes).word p = r.word p := by
  unfold word
  congr 1
  refine List.map_congr_left fun k hk => ?_
  rw [List.mem_range] at hk
  -- the word is before the write, maybe one lap on, or behind it
  rcases h with h | h
  · have hat : (p + k) % RINGBUF_DEFAULT_SIZE = (q + (p + RINGBUF_DEFAULT_SIZE + k - q)) % RINGBUF_DEFAULT_SIZE := by
      rw [show q + (p + RINGBUF_DEFAULT_SIZE + k - q) = p + k + RINGBUF_DEFAULT_SIZE by omega, Nat.add_mod_right]
    rw [hat, write_data _ _ (by omega) (by omega), if_neg (by omega)]
  · have hat : p + k = q + (p + k - q) := by omega
    rw [hat, write_data _ _ (by omega) (by omega), if_neg (by omega)]

@[simp] theorem write_consumerPos (r : Shared) (q : ℕ) (bytes : List UInt8) :
    (r.write q bytes).consumerPos = r.consumerPos := rfl

@[simp] theorem write_producerPos (r : Shared) (q : ℕ) (bytes : List UInt8) :
    (r.write q bytes).producerPos = r.producerPos := rfl

end Shared

/-! ## What the reader sees -/

section View

variable (m : Mapping) (r : Shared)

/-- The consumer reads the data area modulo its size, through either mapping. -/
theorem view_data (j : ℕ) : (m.view r).byte (m.dataOffset + j) = r.data (j % RINGBUF_DEFAULT_SIZE) := by
  have hpage := m.pageSize_ge
  unfold Mapping.view Mapping.dataOffset
  dsimp only
  rw [if_neg (by omega), if_neg (by omega), if_pos (by omega), Nat.add_sub_cancel_left]

/-- What is mapped twice reads alike in both places. -/
theorem view_mapped : Mapped m (m.view r) where
  size := rfl
  mirror _ j _ := by
    rw [Nat.add_assoc, view_data, view_data, Nat.add_mod_left]

/-- A header word is read as it lies in memory. -/
theorem view_word (q : ℕ) : ringWord m (m.view r) q = r.word q := by
  unfold ringWord ringBytes ringByte Shared.word
  congr 1
  refine List.map_congr_left fun k _ => ?_
  rw [view_data, Nat.mod_mod]

/-- A store of the consumer's position changes that word alone. -/
theorem view_setCons (y : ℕ) : (m.view r).setCons y = m.view { r with consumerPos := y } := by
  unfold Mmap.setCons Mapping.view
  congr 1
  funext i
  by_cases hi : i < 8
  · rw [if_pos hi, if_pos hi]
  · dsimp only
    rw [if_neg hi, if_neg hi, if_neg hi]

theorem view_byte_prod {k : ℕ} (hk : k < 8) :
    (m.view r).byte (m.pageSize + k) = (leBytes 8 r.producerPos).getD k 0 := by
  have hpage := m.pageSize_ge
  unfold Mapping.view
  dsimp only
  rw [if_neg (by omega), if_pos (by omega), Nat.add_sub_cancel_left]

/-- The first word of the first page is the consumer's position. -/
theorem view_consumerPos : (m.view r).unpackFrom 8 0 = some (r.consumerPos % 2 ^ 64) := by
  have hsize := (view_mapped m r).size_ge
  have hpage := m.pageSize_ge
  have hslice : (m.view r).slice 0 8 = leBytes 8 r.consumerPos := by
    have heq : (m.view r).setCons r.consumerPos = m.view r := view_setCons m r r.consumerPos
    rw [← heq, Mmap.slice_cons]
  unfold Mmap.unpackFrom
  rw [if_pos (by unfold Mapping.dataOffset at hsize; omega), hslice, leNat_leBytes]
  rfl

/-- The first word of the second page is the producer's. -/
theorem view_producerPos : (m.view r).unpackFrom 8 m.pageSize = some (r.producerPos % 2 ^ 64) := by
  have hsize := (view_mapped m r).size_ge
  have hpage := m.pageSize_ge
  have hslice : (m.view r).slice m.pageSize 8 = leBytes 8 r.producerPos := by
    unfold Mmap.slice
    refine List.ext_getElem (by simp) fun k hk hk' => ?_
    rw [length_leBytes] at hk'
    rw [List.getElem_map, List.getElem_range, view_byte_prod m r hk', List.getD_eq_getElem?_getD,
      List.getElem?_eq_getElem (by rw [length_leBytes]; exact hk')]
    rfl
  unfold Mmap.unpackFrom
  rw [if_pos (by unfold Mapping.dataOffset at hsize; omega), hslice, leNat_leBytes]
  rfl

/-- `pack_into` takes every 64-bit value and no other. -/
theorem view_packInto (v : ℕ) : ((m.view r).packInto 8 0 v).isSome = true ↔ v < 2 ^ 64 := by
  have hsize := (view_mapped m r).size_ge
  have hpage := m.pageSize_ge
  rw [Mmap.packInto_cons]
  by_cases hv : v < 2 ^ 64
  · rw [if_pos ⟨by unfold Mapping.dataOffset at hsize; omega, hv⟩]
    exact ⟨fun _ => hv, fun _ => rfl⟩
  · rw [if_neg fun h => hv h.2]
    exact ⟨fun h => (nomatch h), fun h => absurd h hv⟩

end View

/-! ## One pass -/

namespace Ring

variable {m : Mapping} {σ : Ring} {prod cons : ℕ} {events : List RbEvent}

/-- A pass at the producer's position is the end of the drain. -/
theorem pass_of_ge (hr : σ.reader = .reading prod cons events) (h : prod ≤ cons) :
    σ.pass m = { σ with reader := .idle } := by
  unfold pass
  rw [hr]
  exact if_neg (by omega)

/-- Before it, a pass reads one record. -/
theorem pass_of_lt (hr : σ.reader = .reading prod cons events) (h : cons < prod) :
    σ.pass m = match readRecord (m.view σ.mem) m.dataOffset RINGBUF_DEFAULT_SIZE cons with
      | .stop => { σ with reader := .idle }
      | .advance size event =>
        if ((m.view σ.mem).packInto 8 0 (cons + size)).isSome then
          { σ with
            mem := { σ.mem with consumerPos := cons + size }
            reader := .reading prod (cons + size) (events ++ event.toList) }
        else { σ with reader := .idle } := by
  unfold pass
  rw [hr]
  exact if_pos h

/-- A record that stops it ends the drain. -/
theorem pass_of_stop (hr : σ.reader = .reading prod cons events) (h : cons < prod)
    (hread : readRecord (m.view σ.mem) m.dataOffset RINGBUF_DEFAULT_SIZE cons = .stop) :
    σ.pass m = { σ with reader := .idle } := by
  rw [pass_of_lt hr h, hread]

/-- Any other record moves the consumer past it. -/
theorem pass_of_advance (hr : σ.reader = .reading prod cons events) (h : cons < prod) {size : ℕ}
    {event : Option RbEvent}
    (hread : readRecord (m.view σ.mem) m.dataOffset RINGBUF_DEFAULT_SIZE cons = .advance size event) :
    σ.pass m = if ((m.view σ.mem).packInto 8 0 (cons + size)).isSome then
        { σ with
          mem := { σ.mem with consumerPos := cons + size }
          reader := .reading prod (cons + size) (events ++ event.toList) }
      else { σ with reader := .idle } := by
  rw [pass_of_lt hr h, hread]

/-- A pass ends the call, or moves the consumer position on by the size it read. -/
theorem pass_cases (hr : σ.reader = .reading prod cons events) (h : cons < prod) :
    (σ.pass m = { σ with reader := .idle } ∧ ∀ size event,
        readRecord (m.view σ.mem) m.dataOffset RINGBUF_DEFAULT_SIZE cons = .advance size event → 2 ^ 64 ≤ cons + size) ∨
      ∃ size event, readRecord (m.view σ.mem) m.dataOffset RINGBUF_DEFAULT_SIZE cons = .advance size event ∧
        cons + size < 2 ^ 64 ∧
        σ.pass m = { σ with
          mem := { σ.mem with consumerPos := cons + size }
          reader := .reading prod (cons + size) (events ++ event.toList) } := by
  cases hread : readRecord (m.view σ.mem) m.dataOffset RINGBUF_DEFAULT_SIZE cons with
  | stop => exact Or.inl ⟨pass_of_stop hr h hread, fun size event h => nomatch h⟩
  | advance size event =>
    have hpass := pass_of_advance hr h hread
    by_cases hfit : cons + size < 2 ^ 64
    · exact Or.inr ⟨size, event, rfl, hfit, hpass.trans (if_pos ((view_packInto m σ.mem _).2 hfit))⟩
    · refine Or.inl ⟨hpass.trans (if_neg (mt (view_packInto m σ.mem _).1 hfit)), fun size' event' h => ?_⟩
      cases h
      omega

/-- The consumer changes no record. -/
theorem pass_records (σ : Ring) : (σ.pass m).records = σ.records := by
  cases hr : σ.reader with
  | idle => unfold pass; rw [hr]
  | reading prod cons events =>
    by_cases h : cons < prod
    · rcases pass_cases (m := m) hr h with ⟨heq, -⟩ | ⟨size, event, -, -, heq⟩
      · rw [heq]
      · rw [heq]
    · rw [pass_of_ge hr (by omega)]

/-- A call begins with the positions that it finds. -/
theorem call_of_idle (hidle : σ.reader = .idle) (hcons : σ.mem.consumerPos < 2 ^ 64) :
    σ.call m =
      if σ.mem.producerPos % 2 ^ 64 < σ.mem.consumerPos ∨
          σ.mem.producerPos % 2 ^ 64 - σ.mem.consumerPos > RINGBUF_DEFAULT_SIZE then σ
      else { σ with reader := .reading (σ.mem.producerPos % 2 ^ 64) σ.mem.consumerPos [] } := by
  unfold call
  rw [hidle, view_consumerPos, view_producerPos, Nat.mod_eq_of_lt hcons]

/-! ## A call is `drain_ringbuf` -/

/-- Passes alone, with nobody else at work. -/
def passes (m : Mapping) (k : ℕ) (σ : Ring) : Ring := (pass m)^[k] σ

/-- What a call under way comes to, if nobody disturbs it. -/
theorem passes_loopAt (n : ℕ) : ∀ {σ : Ring} {prod cons : ℕ} {events : List RbEvent}, prod - cons = n →
    σ.reader = .reading prod cons events → σ.mem.consumerPos = cons →
    ∃ k, (passes m k σ).reader = .idle ∧ ∀ evs buf',
      loopAt (m.view σ.mem) m.dataOffset RINGBUF_DEFAULT_SIZE prod cons events = some (evs, buf') →
      m.view (passes m k σ).mem = buf' := by
  have hd := m.dataOffset_ge
  -- by induction on the distance to the producer position that the call read
  induction n using Nat.strong_induction_on with
  | _ n ih =>
    intro σ prod cons events hn hr hcons
    have hsize : 8 ≤ (m.view σ.mem).size := by
      have := (view_mapped m σ.mem).size_ge
      omega
    have hself : (m.view σ.mem).setCons cons = m.view σ.mem := by
      rw [view_setCons, ← hcons]
    by_cases h : cons < prod
    -- the pass ends the call, as the loop does, or both move on alike
    · rcases pass_cases (m := m) hr h with ⟨heq, hover⟩ | ⟨size, event, hread, hfit, heq⟩
      · refine ⟨1, by show (σ.pass m).reader = _; rw [heq], fun evs buf' hloop => ?_⟩
        show m.view (σ.pass m).mem = buf'
        rw [heq]
        cases hread : readRecord (m.view σ.mem) m.dataOffset RINGBUF_DEFAULT_SIZE cons with
        | stop =>
          rw [loopAt_stop hd h hread, hself] at hloop
          cases hloop
          rfl
        | advance size event =>
          rw [loopAt_advance hd hsize h hread, if_neg (by have := hover size event hread; omega)] at hloop
          cases hloop
      · have hpos := (size_of_advance hread).1
        obtain ⟨k, hidle, hview⟩ := ih (prod - (cons + size)) (by omega) (σ := σ.pass m) rfl (by rw [heq]) (by rw [heq])
        refine ⟨k + 1, hidle, fun evs buf' hloop => hview evs buf' ?_⟩
        rw [loopAt_advance hd hsize h hread, if_pos hfit] at hloop
        rw [heq]
        dsimp only
        rw [← view_setCons]
        unfold loopAt at hloop ⊢
        rw [Mmap.setCons_setCons]
        exact hloop
    · refine ⟨1, by show (σ.pass m).reader = _; rw [pass_of_ge hr (by omega)], fun evs buf' hloop => ?_⟩
      show m.view (σ.pass m).mem = buf'
      rw [pass_of_ge hr (by omega)]
      rw [loopAt_done (by omega), hself] at hloop
      cases hloop
      rfl

/-- The drain, once both positions are read. -/
theorem drainRingbuf_of {pageSize dataOffset rbSize : ℕ} {buf : Mmap} (hc : buf.unpackFrom 8 0 = some cons)
    (hp : buf.unpackFrom 8 pageSize = some prod) :
    drainRingbuf pageSize buf dataOffset rbSize =
      if prod < cons ∨ prod - cons > rbSize then some ([], buf) else drainLoop dataOffset rbSize prod buf cons [] := by
  unfold drainRingbuf
  rw [hc, hp]

/-- **A call that nobody disturbs is `drain_ringbuf`**: it leaves the shared pages as the function does. -/
theorem calls_drain (hidle : σ.reader = .idle) (hcons : σ.mem.consumerPos < 2 ^ 64) :
    ∃ k, (passes m k (σ.call m)).reader = .idle ∧ ∀ evs buf',
      drainRingbuf m.pageSize (m.view σ.mem) m.dataOffset RINGBUF_DEFAULT_SIZE = some (evs, buf') →
      m.view (passes m k (σ.call m)).mem = buf' := by
  have hc : (m.view σ.mem).unpackFrom 8 0 = some σ.mem.consumerPos := by
    rw [view_consumerPos, Nat.mod_eq_of_lt hcons]
  rw [call_of_idle hidle hcons, drainRingbuf_of hc (view_producerPos m σ.mem)]
  by_cases hsane : σ.mem.producerPos % 2 ^ 64 < σ.mem.consumerPos ∨
      σ.mem.producerPos % 2 ^ 64 - σ.mem.consumerPos > RINGBUF_DEFAULT_SIZE
  · rw [if_pos hsane, if_pos hsane]
    refine ⟨0, hidle, fun evs buf' h => ?_⟩
    cases h
    rfl
  · rw [if_neg hsane, if_neg hsane]
    obtain ⟨k, hk, hview⟩ := passes_loopAt (m := m) _ (σ := { σ with
      reader := .reading (σ.mem.producerPos % 2 ^ 64) σ.mem.consumerPos [] }) rfl rfl rfl
    refine ⟨k, hk, fun evs buf' h => hview evs buf' ?_⟩
    unfold loopAt
    rw [view_setCons]
    exact h

/-! ## Staying in step -/

/-- Every record that is still being written is ahead of the consumer position. -/
def Kept (σ : Ring) : Prop := ∀ i, σ.records[i]? = some .busy → σ.mem.consumerPos ≤ RECORD * i

/-- The next pass reads the header of a record that is still being written, and the position after it can be stored. -/
def MeetsBusy (σ : Ring) : Prop :=
  ∃ prod i events, σ.reader = .reading prod (RECORD * i) events ∧ RECORD * i < prod ∧ σ.records[i]? = some .busy ∧
    RECORD * i + 32 < 2 ^ 64

/-- If the next pass reads the last eight bytes of a record, where the reader's stride takes it, the
length there leads no further than the next record. -/
def InStep (σ : Ring) : Prop :=
  ∀ prod i events, σ.reader = .reading prod (RECORD * i + 32) events → RECORD * i + 32 < prod →
    σ.mem.word (RECORD * i + 32) % 2 ^ 28 ≤ 8

/-- What holds while the reader is in step and every busy record is kept. -/
structure Inv (σ : Ring) : Prop where
  producer : σ.mem.producerPos = RECORD * σ.records.length
  small : σ.mem.consumerPos < 2 ^ 64
  le : σ.mem.consumerPos ≤ σ.mem.producerPos
  lap : σ.mem.producerPos ≤ σ.mem.consumerPos + RINGBUF_DEFAULT_SIZE
  /-- The consumer position is the start of a record, or the last eight bytes of one. -/
  place : ∃ i, σ.mem.consumerPos = RECORD * i ∨ σ.mem.consumerPos = RECORD * i + 32
  /-- The headers from the consumer position on are as the kernel wrote them. -/
  header : ∀ i s, σ.records[i]? = some s → σ.mem.consumerPos ≤ RECORD * i → σ.mem.word (RECORD * i) = s.header
  kept : σ.Kept
  reader : ∀ prod cons events, σ.reader = .reading prod cons events →
    cons = σ.mem.consumerPos ∧ prod ≤ σ.mem.producerPos

/-- An empty ring is in order. -/
theorem inv_init : Inv init where
  producer := rfl
  small := by decide
  le := le_rfl
  lap := Nat.zero_le _
  place := ⟨0, Or.inl rfl⟩
  header i s hs := nomatch hs
  kept i hi := nomatch hi
  reader prod cons events hr := nomatch hr

theorem header_lt (s : RecordState) : s.header < 2 ^ 32 := by cases s <;> decide

theorem Inv.lt_length (_h : Inv σ) {i : ℕ} {s : RecordState} (hs : σ.records[i]? = some s) : i < σ.records.length :=
  (List.getElem?_eq_some_iff.1 hs).1

/-- A reservation writes behind all other records. -/
theorem Inv.reserve (h : Inv σ) (pgOff : UInt32) : Inv (σ.reserve pgOff) := by
  have hprod := h.producer
  have hle := h.le
  have hlap := h.lap
  unfold Ring.reserve
  -- without room the kernel writes nothing
  by_cases hroom : σ.mem.room = true
  · rw [if_pos hroom]
    unfold Shared.room at hroom
    rw [decide_eq_true_iff] at hroom
    have hfits : σ.mem.producerPos + RECORD < σ.mem.consumerPos + RINGBUF_DEFAULT_SIZE := by
      unfold RINGBUF_DEFAULT_SIZE RECORD at *
      omega
    unfold RECORD at hprod hfits
    refine ⟨?_, h.small, ?_, ?_, h.place, fun i s hs hi => ?_, fun i hi => ?_, fun prod cons events hr => ?_⟩
    · simp only [List.length_append, List.length_singleton]
      unfold RECORD
      omega
    · exact le_trans hle (Nat.le_add_right _ _)
    · dsimp only [Shared.write_consumerPos]
      unfold RECORD
      omega
    · dsimp only at hs hi ⊢
      show (σ.mem.write σ.mem.producerPos _).word (RECORD * i) = s.header
      rw [List.getElem?_append] at hs
      -- an old header is not touched, the new one is as written
      by_cases hlt : i < σ.records.length
      · rw [if_pos hlt] at hs
        rw [Shared.word_write_of_disjoint (Or.inl ?_), h.header i s hs hi]
        rw [Shared.write_consumerPos] at hi
        simp only [List.length_append, length_leBytes]
        unfold RECORD at *
        omega
      · rw [if_neg hlt] at hs
        obtain ⟨hi0, hs0⟩ := List.getElem?_eq_some_iff.1 hs
        rw [List.length_singleton] at hi0
        have hiN : i = σ.records.length := by omega
        simp only [hiN, Nat.sub_self, List.getElem_cons_zero] at hs0
        rw [← hs0, hiN, ← h.producer, Shared.word_write_self _ _ (header_lt _) (by rw [length_leBytes]; decide)]
    · dsimp only at hi ⊢
      rw [Shared.write_consumerPos]
      rw [List.getElem?_append] at hi
      by_cases hlt : i < σ.records.length
      · rw [if_pos hlt] at hi
        exact h.kept i hi
      · unfold RECORD
        omega
    · obtain ⟨hcons, hle'⟩ := h.reader prod cons events hr
      exact ⟨hcons, le_trans hle' (Nat.le_add_right _ _)⟩
  · rw [if_neg hroom]
    exact h

/-- A write to a record that is still being written, beside all headers but its own. -/
theorem Inv.word_write (h : Inv σ) {i j : ℕ} {s : RecordState} (hi : σ.records[i]? = some .busy)
    (hj : σ.records[j]? = some s)
    (hcons : σ.mem.consumerPos ≤ RECORD * j) {k : ℕ} {bytes : List UInt8} (hk : k + bytes.length ≤ RECORD)
    (hne : j ≠ i ∨ 4 ≤ k) : (σ.mem.write (RECORD * i + k) bytes).word (RECORD * j) = σ.mem.word (RECORD * j) := by
  have hkept := h.kept i hi
  have hilen := h.lt_length hi
  have hjlen := h.lt_length hj
  have hprod := h.producer
  have hlap := h.lap
  refine Shared.word_write_of_disjoint ?_
  unfold RECORD at *
  -- records do not overlap within one lap
  by_cases hle : j ≤ i
  · refine Or.inl ⟨?_, ?_⟩
    · omega
    · omega
  · refine Or.inr ⟨?_, ?_⟩
    · omega
    · omega

/-- Filling a record keeps the ring in order. -/
theorem Inv.fill (h : Inv σ) (i : ℕ) (payload : Vector UInt8 32) : Inv (σ.fill i payload) := by
  unfold Ring.fill
  by_cases hi : σ.records[i]? = some .busy
  · rw [if_pos hi]
    refine ⟨h.producer, h.small, h.le, h.lap, h.place, fun j s hs hj => ?_, h.kept, h.reader⟩
    dsimp only at hs hj ⊢
    rw [h.word_write hi hs hj (by rw [Vector.length_toList]; decide) (Or.inr (by decide)), h.header j s hs hj]
  · rw [if_neg hi]
    exact h

/-- So does committing or discarding it. -/
theorem Inv.release (h : Inv σ) (i : ℕ) {s : RecordState} (hs : s ≠ .busy) : Inv (σ.release i s) := by
  unfold Ring.release
  by_cases hi : σ.records[i]? = some .busy
  · rw [if_pos hi]
    have hilen := h.lt_length hi
    refine ⟨?_, h.small, h.le, h.lap, h.place, fun j s' hs' hj => ?_, fun j hj => ?_, h.reader⟩
    · dsimp only [Shared.write_producerPos]
      rw [List.length_set]
      exact h.producer
    · dsimp only at hs' hj ⊢
      -- the header of the record itself, or of another one
      by_cases hji : j = i
      · subst hji
        rw [List.getElem?_set_self hilen, Option.some.injEq] at hs'
        rw [← hs', ← List.append_nil (leBytes 4 s.header), Shared.word_write_self _ _ (header_lt s) (by decide)]
      · rw [List.getElem?_set_ne (Ne.symm hji)] at hs'
        have hfits : 0 + (leBytes 4 s.header).length ≤ RECORD := by rw [length_leBytes]; decide
        have hword := h.word_write hi hs' hj hfits (Or.inl hji)
        rw [Nat.add_zero] at hword
        rw [hword, h.header j s' hs' hj]
    · dsimp only at hj ⊢
      by_cases hji : j = i
      · subst hji
        rw [List.getElem?_set_self hilen, Option.some.injEq] at hj
        exact absurd hj hs
      · rw [List.getElem?_set_ne (Ne.symm hji)] at hj
        exact h.kept j hj
  · rw [if_neg hi]
    exact h

/-- So does the start of a drain. -/
theorem Inv.call (h : Inv σ) : Inv (σ.call m) := by
  cases hr : σ.reader with
  | reading prod cons events =>
    unfold Ring.call
    rw [hr]
    exact h
  | idle =>
    rw [call_of_idle hr h.small]
    split
    · exact h
    · refine ⟨h.producer, h.small, h.le, h.lap, h.place, h.header, h.kept, fun prod cons events hr => ?_⟩
      cases hr
      exact ⟨rfl, Nat.mod_le _ _⟩

/-! ## A pass in step -/

/-- What a pass reads at the start of a record. -/
theorem read_header (h : Inv σ) {i : ℕ} {s : RecordState} (hs : σ.records[i]? = some s)
    (hcons : σ.mem.consumerPos = RECORD * i) :
    (s = .busy → readRecord (m.view σ.mem) m.dataOffset RINGBUF_DEFAULT_SIZE (RECORD * i) = .advance 32 none) ∧
      ∀ size event, readRecord (m.view σ.mem) m.dataOffset RINGBUF_DEFAULT_SIZE (RECORD * i) = .advance size event →
        size = 32 := by
  have hp : RECORD * i % 8 = 0 := by unfold RECORD; omega
  rw [readRecord_eq (view_mapped m σ.mem) hp, view_word, h.header i s hs hcons.le]
  cases s with
  | busy =>
    rw [if_neg (by decide), if_neg (by decide)]
    refine ⟨fun _ => rfl, fun size event heq => ?_⟩
    cases heq
    rfl
  | committed =>
    rw [if_pos (by decide)]
    refine ⟨fun hbusy => (nomatch hbusy), fun size event heq => ?_⟩
    by_cases hf : Fits m (RECORD * i)
    · rw [if_pos hf] at heq
      cases heq
      rfl
    · rw [if_neg hf] at heq
      cases heq
  | discarded =>
    rw [if_neg (by decide), if_neg (by decide)]
    refine ⟨fun hbusy => (nomatch hbusy), fun size event heq => ?_⟩
    cases heq
    rfl

/-- What a pass reads at the end of a record, when it is in step. -/
theorem read_rest (σ : Ring) {i size : ℕ} {event : Option RbEvent} (hlen : σ.mem.word (RECORD * i + 32) % 2 ^ 28 ≤ 8)
    (hread : readRecord (m.view σ.mem) m.dataOffset RINGBUF_DEFAULT_SIZE (RECORD * i + 32) = .advance size event) :
    size = 8 := by
  have hp : (RECORD * i + 32) % 8 = 0 := by unfold RECORD; omega
  have hround : recordSize (σ.mem.word (RECORD * i + 32) % 2 ^ 28) = 0 ∨
      recordSize (σ.mem.word (RECORD * i + 32) % 2 ^ 28) = 8 := by
    unfold recordSize RB_RECORD_HDR_SIZE
    omega
  rw [readRecord_eq (view_mapped m σ.mem) hp, view_word] at hread
  split at hread
  · split at hread
    · cases hread
      split
      · rfl
      · exact hround.resolve_left ‹_›
    · cases hread
  · split at hread
    · cases hread
    · cases hread
      exact hround.resolve_left ‹_›

/-- **A pass in step** that meets no busy record keeps them all. -/
theorem Inv.pass (h : Inv σ) (hstep : σ.InStep) (hbusy : ¬ σ.MeetsBusy) : Inv (σ.pass m) := by
  have hidle : Inv { σ with reader := .idle } :=
    ⟨h.producer, h.small, h.le, h.lap, h.place, h.header, h.kept, fun prod cons events hr => nomatch hr⟩
  cases hr : σ.reader with
  | idle =>
    have hsame : σ.pass m = σ := by unfold Ring.pass; rw [hr]
    rw [hsame]
    exact h
  | reading prod cons events =>
    obtain ⟨hcons, hprod⟩ := h.reader prod cons events hr
    by_cases hlt : cons < prod
    · rcases pass_cases (m := m) hr hlt with ⟨heq, -⟩ | ⟨size, event, hread, hfit, heq⟩
      · rw [heq]
        exact hidle
      · rw [heq]
        have hproducer := h.producer
        have hlap := h.lap
        -- the position after the pass is in the same record or at the next
        have hmove : ∃ i, σ.records[i]? ≠ some .busy ∧ i < σ.records.length ∧
            (cons = RECORD * i ∧ size = 32 ∨ cons = RECORD * i + 32 ∧ size = 8) := by
          obtain ⟨i, hi | hi⟩ := h.place
          · have hilen : i < σ.records.length := by unfold RECORD at *; omega
            obtain ⟨hadv, hsize⟩ := read_header (m := m) h (List.getElem?_eq_getElem hilen) hi
            rw [← hi, ← hcons] at hadv hsize
            have hsize32 := hsize size event hread
            refine ⟨i, fun hbusyi => hbusy ⟨prod, i, events, ?_, ?_, hbusyi, ?_⟩, hilen,
              Or.inl ⟨hcons.trans hi, hsize32⟩⟩
            · rw [hr, hcons, hi]
            · omega
            · omega
          · have hilen : i < σ.records.length := by unfold RECORD at *; omega
            refine ⟨i, fun hbusyi => ?_, hilen, Or.inr ⟨hcons.trans hi, ?_⟩⟩
            · have hkept := h.kept i hbusyi
              omega
            · rw [hcons, hi] at hread
              exact read_rest σ (hstep prod i events (by rw [hr, hcons, hi]) (by omega)) hread
        obtain ⟨i, hnot, hilen, hpos⟩ := hmove
        refine ⟨hproducer, hfit, ?_, ?_, ?_, fun j s hs hj => ?_, fun j hj => ?_, fun prod' cons' events' hr' => ?_⟩
        · dsimp only
          unfold RECORD at *
          omega
        · dsimp only
          omega
        · rcases hpos with ⟨hpos, hsize⟩ | ⟨hpos, hsize⟩
          · exact ⟨i, Or.inr (by dsimp only; omega)⟩
          · exact ⟨i + 1, Or.inl (by dsimp only; unfold RECORD at *; omega)⟩
        · exact h.header j s hs (by dsimp only at hj; omega)
        · have hkept := h.kept j hj
          have hji : j ≠ i := fun he => hnot (he ▸ hj)
          dsimp only
          unfold RECORD at *
          omega
        · cases hr'
          exact ⟨rfl, hprod⟩
    · rw [pass_of_ge hr (by omega)]
      exact hidle

/-- **A pass that meets a busy record loses it.** -/
theorem not_kept_of_meetsBusy (h : Inv σ) (hbusy : σ.MeetsBusy) : ¬ (σ.pass m).Kept := by
  obtain ⟨prod, i, events, hr, hlt, hi, hfit⟩ := hbusy
  have hcons := (h.reader prod _ events hr).1
  have hread := (read_header (m := m) h hi hcons.symm).1 rfl
  rcases pass_cases (m := m) hr hlt with ⟨-, hover⟩ | ⟨size, event, hread', -, heq⟩
  · have := hover 32 none hread
    omega
  · rw [hread] at hread'
    cases hread'
    intro hkept
    have hle := hkept i (by rw [pass_records]; exact hi)
    rw [heq] at hle
    dsimp only at hle
    omega

end Ring

/-! ## Runs -/

section Runs

variable {m : Mapping} {acts : List RingAct}

/-- **No event is lost to a busy record**: a pass at a busy record leaves the consumer position where it
is, and at all times every record that is still being written is ahead of it. -/
structure Lossless (m : Mapping) (acts : List RingAct) : Prop where
  stays : ∀ n (hn : n < acts.length), acts[n] = .pass → ∀ prod i events,
    (ringAt m acts n).reader = .reading prod (RECORD * i) events → (ringAt m acts n).records[i]? = some .busy →
      (ringAt m acts (n + 1)).mem.consumerPos = (ringAt m acts n).mem.consumerPos
  kept : ∀ n, n ≤ acts.length → (ringAt m acts n).Kept

/-- Every action keeps the ring in order, a pass when it is in step and not at a busy record. -/
theorem Ring.Inv.step {σ : Ring} (h : σ.Inv) {a : RingAct} (hpass : a = .pass → σ.InStep ∧ ¬ σ.MeetsBusy) :
    (σ.step m a).Inv := by
  cases a with
  | reserve pgOff => exact h.reserve pgOff
  | fill i payload => exact h.fill i payload
  | submit i => exact h.release i fun hs => nomatch hs
  | discard i => exact h.release i fun hs => nomatch hs
  | call => exact h.call
  | pass => exact h.pass (hpass rfl).1 (hpass rfl).2

/-- A run in step keeps the invariant up to the first pass that meets a busy record. -/
theorem inv_at (hstep : ∀ n (hn : n < acts.length), acts[n] = .pass → (ringAt m acts n).InStep) {n : ℕ}
    (hn : n ≤ acts.length)
    (hbusy : ∀ k (hk : k < acts.length), k < n → acts[k] = .pass → ¬ (ringAt m acts k).MeetsBusy) :
    (ringAt m acts n).Inv := by
  induction n with
  | zero =>
    rw [ringAt_zero]
    exact Ring.inv_init
  | succ n ih =>
    have hinv := ih (by omega) fun k hk hkn => hbusy k hk (by omega)
    rw [ringAt_succ m (by omega)]
    exact hinv.step fun ha => ⟨hstep n (by omega) ha, hbusy n (by omega) (Nat.lt_succ_self n) ha⟩

/-- **No event is lost to a busy record, exactly when no pass meets one.** The producers may act between
any two passes of a call, and the reader has to stay in step with the records. -/
theorem lossless_iff (hstep : ∀ n (hn : n < acts.length), acts[n] = .pass → (ringAt m acts n).InStep) :
    Lossless m acts ↔ ∀ n (hn : n < acts.length), acts[n] = .pass → ¬ (ringAt m acts n).MeetsBusy := by
  constructor
  · intro hloss n
    -- the first pass that meets a busy record loses it
    induction n using Nat.strong_induction_on with
    | _ n ih =>
      intro hn ha hmeets
      have hinv := inv_at hstep hn.le fun k hk hkn => ih k hkn hk
      have hkept := hloss.kept (n + 1) hn
      rw [ringAt_succ m hn, ha] at hkept
      exact Ring.not_kept_of_meetsBusy hinv hmeets hkept
  · intro hbusy
    have hinv : ∀ n, n ≤ acts.length → (ringAt m acts n).Inv := fun n hn => inv_at hstep hn fun k hk _ => hbusy k hk
    refine ⟨fun n hn ha prod i events hr hi => ?_, fun n hn => (hinv n hn).kept⟩
    -- such a pass ends the call
    have hcons := ((hinv n hn.le).reader prod _ events hr).1
    rw [ringAt_succ m hn, ha]
    show ((ringAt m acts n).pass m).mem.consumerPos = _
    by_cases hlt : RECORD * i < prod
    · rcases Ring.pass_cases (m := m) hr hlt with ⟨heq, -⟩ | ⟨size, event, hread, hfit, -⟩
      · rw [heq]
      · have hsize := (Ring.read_header (m := m) (hinv n hn.le) hi hcons.symm).2 size event hread
        exact absurd ⟨prod, i, events, hr, hlt, hi, by omega⟩ (hbusy n hn ha)
    · rw [Ring.pass_of_ge hr (by omega)]

end Runs

/-- A record is submitted before it is read, and a second one is reserved between the two passes over
the first: the second pass reads its last eight bytes. -/
def reservedBetween : List RingAct := [.reserve 0, .submit 0, .call, .pass, .reserve 0, .pass, .pass]

/-- The position at which the call under way reads next. -/
def Ring.readsAt (σ : Ring) : Option ℕ :=
  match σ.reader with
  | .idle => none
  | .reading _ cons _ => some cons

theorem lossless_iff_reservedBetween :
    Lossless doubleMapping reservedBetween ↔ ∀ n (hn : n < reservedBetween.length), reservedBetween[n] = .pass →
      ¬ (ringAt doubleMapping reservedBetween n).MeetsBusy := by
  refine lossless_iff fun n hn ha prod i events hr hlt => ?_
  have hat : (ringAt doubleMapping reservedBetween n).readsAt = some (RECORD * i + 32) := by
    unfold Ring.readsAt
    rw [hr]
  have hn7 : n < 7 := hn
  -- the three passes read at the header, at the last eight bytes, and behind the record
  interval_cases n
  · exact nomatch ha
  · exact nomatch ha
  · exact nomatch ha
  · have h : (ringAt doubleMapping reservedBetween 3).readsAt = some 0 := by decide +kernel
    rw [h, Option.some_inj] at hat
    omega
  · exact nomatch ha
  · have h : (ringAt doubleMapping reservedBetween 5).readsAt = some 32 := by decide +kernel
    rw [h, Option.some_inj] at hat
    obtain rfl : i = 0 := by
      unfold RECORD at hat
      omega
    decide +kernel
  · have h : (ringAt doubleMapping reservedBetween 6).readsAt = some 40 := by decide +kernel
    rw [h, Option.some_inj] at hat
    unfold RECORD at hat
    omega

/-- A call falls between the reservation of a record and its submission. -/
def submittedLate : List RingAct := [.reserve 0, .call, .pass, .submit 0]

/-- **The event of a busy record is lost**: when it is submitted, the consumer position is past it. -/
theorem busy_record_lost : ¬ Lossless doubleMapping submittedLate := by
  have hcall : (Ring.init.reserve 0).call doubleMapping = { Ring.init.reserve 0 with reader := .reading 40 0 [] } :=
    Ring.call_of_idle rfl (by decide)
  have hinv : ((Ring.init.reserve 0).call doubleMapping).Inv := (Ring.inv_init.reserve 0).call
  have hmeets : ((Ring.init.reserve 0).call doubleMapping).MeetsBusy := by
    rw [hcall]
    exact ⟨40, 0, [], rfl, by decide, rfl, by decide⟩
  intro hloss
  have hthree : ringAt doubleMapping submittedLate 3 =
      ((Ring.init.reserve 0).call doubleMapping).pass doubleMapping := rfl
  have hkept := hloss.kept 3 (by decide)
  rw [hthree] at hkept
  exact Ring.not_kept_of_meetsBusy hinv hmeets hkept

end FluxGuard
