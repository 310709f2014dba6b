import FluxGuard.Model.Smp
import FluxGuard.Proof.Sane

/-!
# Token buckets under reordering

* `sequential`: a packet that is alone in the filter does what `fluxguard_filter` does.
* `lawful_iff_inOrder`: over whole runs, no bucket step mints tokens or moves a clock
  backwards exactly when every bucket step is in order.
* `late_packet_mints_tokens`: two packets charged in the other order are enough.
-/

namespace FluxGuard

open Bucket

namespace Smp

theorem chargeGlobal_eq (k : Kernel) (p : InFlight) :
    chargeGlobal k p = if p.data.length < 14 then (k, false)
      else (charged k p.now p.host, !k.overloaded p.now) := rfl

/-- A packet that enters, is charged and finishes with no other step in between does what
`fluxguard_filter` does. -/
theorem sequential (m : Smp) (host : Host) (data : List UInt8) :
    (((m.step (.enter host data)).step (.charge m.entered.length)).step (.finish m.admitted.length)).kern =
      (fluxguardFilter m.kern m.clock host data).1 := by
  have hnone : m.admitted[m.admitted.length]? = none := by simp
  by_cases hl : data.length < 14
  · simp [step, chargeGlobal_eq, fluxguardFilter_eq, hl]
  · cases ho : m.kern.overloaded m.clock with
    | true => simp [step, chargeGlobal_eq, fluxguardFilter_eq, hl, ho]
    | false => simp [step, chargeGlobal_eq, fluxguardFilter_eq, hl, ho]

variable {cpus : ℕ} {es : List SmpEvent} {m : Smp}

/-- In order at the aggregate bucket: not before the last refill, or the difference wraps to 100 ms at most. -/
theorem globalInOrder_iff (k : Kernel) (now : UInt64) :
    GlobalInOrder k now ↔
      k.globalRateMap.lastTime ≤ now ∨ (now - k.globalRateMap.lastTime).toNat ≤ 100000000 := by
  have := k.globalRateMap.lastTime.toNat_lt
  have := now.toNat_lt
  rw [UInt64.le_iff_toNat_le, toNat_sub_wrap]
  unfold GlobalInOrder
  omega

/-- Nothing is earned while the product with the rate, in its 64 bits, is short of a second. -/
theorem refill_eq_zero_iff (last now : UInt64) :
    refill perSource last.toNat now.toNat = 0 ↔ (now - last).toNat * 1000 % 2 ^ 64 < 1000000000 := by
  rw [toNat_sub_wrap]
  exact Nat.div_eq_zero_iff_lt (by decide)

/-- **A global bucket step** obeys the law exactly when it is in order. -/
theorem globalLaw_iff {k : Kernel} {c : ℕ} (h : k.Sane c) (now : UInt64) :
    GlobalLaw k.globalRateMap (globalBucketCheck k.globalRateMap now).1 now ↔ GlobalInOrder k now := by
  obtain ⟨heq, -⟩ := h.global_eq now
  have htok := congrArg State.tokens heq
  have hlast := congrArg State.last heq
  simp only [TokenBucket.toState_tokens, TokenBucket.toState_last] at htok hlast
  have hl := k.globalRateMap.lastTime.toNat_lt
  have hn := now.toNat_lt
  constructor
  -- a late frame that refills sets the clock back to its own time
  · rintro ⟨hclock, -⟩
    by_contra ho
    unfold GlobalInOrder at ho
    rw [UInt64.le_iff_toNat_le, hlast, last_globalTake, TokenBucket.toState_last, if_pos (by omega)] at hclock
    omega
  · intro ho
    constructor
    · rw [UInt64.le_iff_toNat_le, hlast]
      exact (globalTake_credit (s := k.globalRateMap.toState) h.lo ho hl hn).1
    · rw [htok]
      exact globalTake_le (s := k.globalRateMap.toState) hl hn ho

/-- **A source's bucket step** obeys the law exactly when it is in order. -/
theorem sourceLaw_iff {k : Kernel} {c : ℕ} (h : k.Sane c) {s : Source} {tb : TokenBucket}
    (hb : (k.view s).bucket = some tb) (now : UInt64) :
    SourceLaw tb (tokenBucketCheck tb now).1 now ↔ SourceInOrder tb.lastTime now := by
  obtain ⟨heq, -⟩ := h.check_eq hb now
  have htok := congrArg State.tokens heq
  have hlast := congrArg State.last heq
  simp only [TokenBucket.toState_tokens, TokenBucket.toState_last] at htok hlast
  rw [last_take, TokenBucket.toState_last] at hlast
  unfold SourceInOrder
  rw [← refill_eq_zero_iff, UInt64.le_iff_toNat_le]
  constructor
  · rintro ⟨hclock, -⟩
    rw [UInt64.le_iff_toNat_le, hlast] at hclock
    -- without a refill the clock stands, however late the packet is
    by_cases h0 : refill perSource tb.lastTime.toNat now.toNat = 0
    · exact Or.inr h0
    · rw [if_neg h0] at hclock; exact Or.inl hclock
  · intro ho
    constructor
    · rw [UInt64.le_iff_toNat_le, hlast]
      rcases ho with ho | ho
      · split <;> omega
      · rw [if_pos ho]
    · rcases ho with ho | ho
      · have := tokens_take_le (P := perSource) (s := tb.toState) ho now.toNat_lt
        rw [← htok] at this
        simp only [TokenBucket.toState_tokens, TokenBucket.toState_last, perSource_rate, perSource_unit] at this
        unfold earned
        omega
      · rw [htok, tokens_take, TokenBucket.toState_last, if_pos ho, TokenBucket.toState_tokens]
        omega

/-! ## Runs -/

/-- The levels are in range; every admitted packet is a frame that the global bucket was
charged for. -/
structure Ranged (m : Smp) : Prop where
  kern : m.kern.Sane m.admitted.length
  frames : ∀ p ∈ m.admitted, ¬ p.data.length < 14

/-- The first half of a frame is its charge. -/
theorem kern_charge {i : ℕ} {p : InFlight} (hp : m.entered[i]? = some p) :
    (m.step (.charge i)).kern = (chargeGlobal m.kern p).1 ∧
      (m.step (.charge i)).admitted =
        if (chargeGlobal m.kern p).2 then m.admitted ++ [p] else m.admitted := by
  simp only [step, hp]
  exact ⟨trivial, trivial⟩

/-- The second half is its source's path. -/
theorem kern_finish {i : ℕ} {p : InFlight} (hp : m.admitted[i]? = some p) :
    (m.step (.finish i)).kern = (dispatch m.kern p.now p.host p.data).1 ∧
      (m.step (.finish i)).admitted = m.admitted.eraseIdx i := by
  simp only [step, hp]
  exact ⟨trivial, trivial⟩

/-- A frame enters with the clock's time. -/
theorem entered_step (e : SmpEvent) {p : InFlight} (hp : p ∈ (m.step e).entered) : p ∈ m.entered ∨ p.now = m.clock := by
  cases e with
  | tick t =>
    simp only [Smp.step] at hp
    split at hp <;> exact Or.inl hp
  | enter host data =>
    rcases List.mem_append.1 hp with hp | hp
    · exact Or.inl hp
    · rw [List.mem_singleton.1 hp]
      exact Or.inr rfl
  | op e =>
    simp only [Smp.step] at hp
    split at hp <;> exact Or.inl hp
  | charge i =>
    simp only [Smp.step] at hp
    split at hp
    · exact Or.inl (List.mem_of_mem_eraseIdx hp)
    · exact Or.inl hp
  | finish i =>
    simp only [Smp.step] at hp
    split at hp <;> exact Or.inl hp

/-- A packet is admitted once it has entered, and a frame that is too short is not. -/
theorem admitted_step (e : SmpEvent) {p : InFlight} (hp : p ∈ (m.step e).admitted) :
    p ∈ m.admitted ∨ p ∈ m.entered ∧ ¬ p.data.length < 14 := by
  cases e with
  | tick t =>
    simp only [Smp.step] at hp
    split at hp <;> exact Or.inl hp
  | enter host data => exact Or.inl hp
  | op e =>
    simp only [Smp.step] at hp
    split at hp <;> exact Or.inl hp
  | charge i =>
    cases hi : m.entered[i]? with
    | none =>
      simp only [Smp.step, hi] at hp
      exact Or.inl hp
    | some q =>
      rw [(kern_charge hi).2, chargeGlobal_eq] at hp
      by_cases hl : q.data.length < 14
      · rw [if_pos hl] at hp
        exact Or.inl hp
      · rw [if_neg hl] at hp
        split at hp
        · rcases List.mem_append.1 hp with hp | hp
          · exact Or.inl hp
          · rw [List.mem_singleton.1 hp]
            exact Or.inr ⟨List.mem_of_getElem? hi, hl⟩
        · exact Or.inl hp
  | finish i =>
    simp only [Smp.step] at hp
    split at hp
    · exact Or.inl (List.mem_of_mem_eraseIdx hp)
    · exact Or.inl hp

/-- The bucket of a source after a packet that reaches it. -/
theorem bucket_finish {i : ℕ} {p : InFlight} (hp : m.admitted[i]? = some p) {s : Source} {tb : TokenBucket}
    (hr : Reaches m.kern p s tb) :
    ((m.step (.finish i)).kern.view s).bucket = some (tokenBucketCheck tb p.now).1 := by
  obtain ⟨hs, hb, hreach⟩ := hr
  have hbs := View.stage_eq_bucketStage rfl hreach
  rw [(kern_finish hp).1, view_dispatch _ _ _ (length_of_source hs), if_pos hs, ← hbs, hb, bucketStage]
  split <;> simp [View.packet, hb]

/-- **Each step is lawful exactly when it is in order.** -/
theorem lawfulStep_iff (h : m.Ranged) (e : SmpEvent) : m.LawfulStep e ↔ m.InOrder e := by
  cases e with
  | tick t => exact Iff.rfl
  | enter host data => exact Iff.rfl
  | op e => exact Iff.rfl
  | charge i =>
    unfold LawfulStep InOrder
    refine forall_congr' fun p => forall_congr' fun hp => forall_congr' fun hl => ?_
    rw [(kern_charge hp).1, chargeGlobal_eq, if_neg hl, ← globalInOrder_iff]
    exact globalLaw_iff h.kern p.now
  | finish i =>
    constructor
    · intro hlaw p s tb hp hr
      exact (sourceLaw_iff h.kern hr.2.1 p.now).1 (hlaw p s tb _ hp hr (bucket_finish hp hr))
    · intro ho p s tb tb' hp hr hb'
      rw [bucket_finish hp hr] at hb'
      cases hb'
      exact (sourceLaw_iff h.kern hr.2.1 p.now).2 (ho p s tb hp hr)

/-- A step in order keeps the ranges. -/
theorem Ranged.step (h : m.Ranged) {e : SmpEvent} (ho : m.InOrder e) : (m.step e).Ranged := by
  refine ⟨?_, fun p hp => (admitted_step e hp).elim (h.frames p) And.right⟩
  cases e with
  | tick t =>
    simp only [Smp.step]
    split <;> exact h.kern
  | enter host data => exact h.kern
  | op e =>
    simp only [Smp.step]
    split
    · rename_i he
      exact h.kern.op he
    · exact h.kern
  | charge i =>
    cases hp : m.entered[i]? with
    | none => simpa only [Smp.step, hp] using h.kern
    | some p =>
      obtain ⟨hk, ha⟩ := kern_charge hp
      rw [chargeGlobal_eq] at hk ha
      by_cases hl : p.data.length < 14
      · rw [if_pos hl] at hk ha
        rw [hk, ha]
        exact h.kern
      · rw [if_neg hl] at hk ha
        have hc := h.kern.charge ((globalInOrder_iff _ _).2 (ho p hp hl)) p.host
        cases hd : m.kern.overloaded p.now with
        | true =>
          rw [hd] at ha hc
          rw [hk, ha]
          exact hc
        | false =>
          rw [hd] at ha hc
          rw [hk, ha]
          simpa using hc
  | finish i =>
    cases hp : m.admitted[i]? with
    | none => simpa only [Smp.step, hp] using h.kern
    | some p =>
      obtain ⟨hk, ha⟩ := kern_finish hp
      have hi : i < m.admitted.length := by
        by_contra hi
        rw [List.getElem?_eq_none (not_lt.1 hi)] at hp
        cases hp
      -- the packet that finishes is one of those counted in the range
      have hlen : m.admitted.length = (m.admitted.eraseIdx i).length + 1 := by
        rw [List.length_eraseIdx_of_lt hi]
        omega
      have hsane := h.kern
      rw [hlen] at hsane
      rw [hk, ha]
      exact hsane.dispatch p.now p.host (h.frames p (List.mem_of_getElem? hp))

theorem ranged_init : (init cpus).Ranged := ⟨init_sane cpus, fun p hp => by cases hp⟩

theorem sAt_succ {n : ℕ} (hn : n < es.length) : sAt cpus es (n + 1) = (sAt cpus es n).step es[n] := by
  unfold sAt
  rw [List.take_add_one, List.getElem?_eq_getElem hn, Option.toList_some, List.foldl_append]
  rfl

/-- While every frame is in order the machine is in range. -/
theorem ranged_at {n : ℕ} (hn : n ≤ es.length) (ho : ∀ l (_ : l < es.length), l < n → (sAt cpus es l).InOrder es[l]) :
    (sAt cpus es n).Ranged := by
  induction n with
  | zero => exact ranged_init
  | succ n ih =>
    rw [sAt_succ (by omega)]
    exact (ih (by omega) fun l hl hln => ho l hl (by omega)).step (ho n (by omega) (by omega))

/-- **No step of a run mints tokens or moves a clock backwards** exactly when every bucket
step of the run is in order. -/
theorem lawful_iff_inOrder :
    (∀ n (hn : n < es.length), (sAt cpus es n).LawfulStep es[n]) ↔
      ∀ n (hn : n < es.length), (sAt cpus es n).InOrder es[n] := by
  constructor
  · intro hlaw n
    -- the ranges hold up to the first unlawful step
    induction n using Nat.strong_induction_on with
    | _ n ih =>
      intro hn
      exact (lawfulStep_iff (ranged_at hn.le fun l hl hln => ih l hln hl) _).1 (hlaw n hn)
  · intro ho n hn
    exact (lawfulStep_iff (ranged_at hn.le fun l hl _ => ho l hl) _).2 (ho n hn)

/-! ## A packet that is overtaken -/

/-- A packet enters 200 ms after boot, the next one 200 ms later; the later one is handled
first. -/
def overtaken : List SmpEvent :=
  [.tick 200000000, .enter quiet (ip4Frame 10 0 1 5 6), .tick 400000000, .enter quiet (ip4Frame 10 0 1 5 6),
    .charge 1, .finish 0, .charge 0, .finish 0]

/-- **A late packet mints tokens**: the last two steps refill the global bucket and the source's
bucket, and move their clocks from 400 ms back to 200 ms. -/
theorem late_packet_mints_tokens :
    ¬ (sAt 1 overtaken 6).LawfulStep (.charge 0) ∧ ¬ (sAt 1 overtaken 7).LawfulStep (.finish 0) := by
  constructor
  · intro h
    have hlaw := h ⟨200000000, quiet, ip4Frame 10 0 1 5 6⟩ rfl (by decide)
    exact absurd hlaw.clock (by decide)
  · intro h
    have hlaw := h ⟨200000000, quiet, ip4Frame 10 0 1 5 6⟩ victim ⟨400000000, 999⟩ ⟨200000000, 999⟩ rfl
      ⟨by decide, by decide, by decide⟩ (by decide)
    exact absurd hlaw.clock (by decide)

end Smp

end FluxGuard
