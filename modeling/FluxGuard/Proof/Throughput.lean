import FluxGuard.Proof.Global
import FluxGuard.Proof.Overtaken

/-!
# The global bucket on several CPUs

What the global bucket still guarantees when frames overtake each other between reading the clock and being
charged.

* `Smp.global_step`: a frame that is charged late opens one more account with the global bucket; any other event
  keeps to the account that is open.
* `Smp.global_cap_late`: so of the frames from the times `t₁ … t₂`, with `r` late ones among them, at most
  `(r + 1) * (550000 + ⌊(t₂ - t₁) / 2 µs⌋)` are let through. With none it is the bound of a single CPU.
-/

namespace FluxGuard

open Bucket

/-! ## One frame -/

/-- The bucket is in its range. -/
structure Filled (s : State) : Prop where
  lo : -100000 ≤ s.tokens
  hi : s.tokens < 500000
  last : s.last < 2 ^ 64

section Frame

variable {s : State} {t₁ t₂ now w : ℕ}

/-- The tokens after a frame and the one it was granted were in the bucket. -/
theorem globalTake_paid (hs : Filled s) (now : ℕ) :
    (if 0 ≤ (globalTake s now).tokens then 1 else 0) + (globalTake s now).tokens ≤ (globalFill s now).tokens := by
  obtain ⟨hlo, -⟩ := globalFill_range now hs.lo hs.hi.le
  rw [globalTake_eq]
  dsimp only
  split <;> omega

/-- A frame in order is paid for by what the time up to the last refill earns. -/
theorem spent_globalTake (h : Spent quantum t₁ t₂ w s) (hs : Filled s) (ht : t₁ ≤ now) (ht' : now ≤ t₂)
    (hn : now < 2 ^ 64)
    (ho : s.last ≤ now ∨ now + (2 ^ 64 - 10 ^ 8) ≤ s.last) :
    Spent quantum t₁ t₂ (w + if 0 ≤ (globalTake s now).tokens then 1 else 0) (globalTake s now) := by
  have hlast := hs.last
  have hhi := hs.hi
  have hlt : (globalTake s now).tokens < quantum.cap := (globalTake_lt hhi now).trans (by decide)
  have hpaid := globalTake_paid hs now
  apply Spent.next (ht.trans ht') h.count_le hlt
  rw [last_globalTake]
  unfold globalFill at hpaid
  by_cases hgap : 10 ^ 8 < (now + (2 ^ 64 - s.last)) % 2 ^ 64
  · have hl : s.last ≤ now := by omega
    rw [if_pos hgap] at hpaid
    dsimp only at hpaid
    rw [if_pos hgap, gain_of_le ht']
    rcases h.potential_le with rfl | hp
    -- a full bucket at most, whatever the time before the window earned
    · have hfull := min_le_right (s.tokens + refill aggregate s.last now) 500000
      simp only [quantum_rate, quantum_unit, quantum_cap]
      push_cast
      omega
    · have hearned := (unit_mul_refill_le (P := aggregate) s.last now).trans (phase_le hl hn)
      have hcredit := min_le_left (s.tokens + refill aggregate s.last now) 500000
      rw [gain_of_le (hl.trans ht')] at hp
      simp only [quantum_rate, quantum_unit, quantum_cap, aggregate_rate, aggregate_unit] at hp hearned ⊢
      push_cast at hp ⊢
      omega
  · rw [if_neg hgap] at hpaid
    rw [if_neg hgap]
    rcases h.potential_le with rfl | hp
    -- the first frame finds the clock at most a quantum before the window
    · have hgain : -(500000 * 10 ^ 8) ≤ gain quantum t₁ t₂ s.last := by
        rcases Nat.lt_or_ge s.last t₁ with hl | hl
        · rw [gain_of_le (by omega), quantum_rate]
          push_cast
          omega
        · have hnonneg := gain_nonneg (P := quantum) (ht.trans ht') hl
          omega
      simp only [quantum_unit, quantum_cap]
      push_cast
      omega
    · simp only [quantum_unit, quantum_cap] at hp ⊢
      push_cast at hp ⊢
      omega

/-- A late frame sets the clock back to its own time. -/
theorem spent_globalTake_late (hs : Filled s) (ht : t₁ ≤ now) (ht' : now ≤ t₂)
    (ho : ¬ (s.last ≤ now ∨ now + (2 ^ 64 - 10 ^ 8) ≤ s.last)) :
    Spent quantum t₁ t₂ (if 0 ≤ (globalTake s now).tokens then 1 else 0) (globalTake s now) := by
  have hlast := hs.last
  apply Spent.restart (ht.trans ht') (by decide) ((globalTake_lt hs.hi now).trans (by decide))
  rw [last_globalTake, if_pos (by omega)]
  exact ht

/-- **One frame**, late or not. -/
theorem overrun_globalTake {late : ℕ} (h : Overrun quantum t₁ t₂ late w s) (hs : Filled s) (ht : t₁ ≤ now)
    (ht' : now ≤ t₂)
    (hn : now < 2 ^ 64) :
    Overrun quantum t₁ t₂ (late + if ¬ (s.last ≤ now ∨ now + (2 ^ 64 - 10 ^ 8) ≤ s.last) then 1 else 0)
      (w + if 0 ≤ (globalTake s now).tokens then 1 else 0) (globalTake s now) := by
  apply h.next
  · intro ho v hv
    exact spent_globalTake hv hs ht ht' hn (not_not.1 ho)
  · exact spent_globalTake_late hs ht ht'

end Frame

namespace Smp

/-! ## What is counted -/

/-- The frame that an event charges to the global bucket. -/
def charging (m : Smp) : SmpEvent → Option InFlight
  | .charge i => m.entered[i]?.filter fun p => !decide (p.data.length < 14)
  | .tick _ | .enter _ _ | .finish _ | .op _ => none

/-- An event charges a frame, and the global bucket lets it through. -/
def lets (m : Smp) (e : SmpEvent) : Bool :=
  match m.charging e with
  | some p => (chargeGlobal m.kern p).2
  | none => false

/-- An event charges a frame to the global bucket, and not in order. -/
def lateFrame (m : Smp) (e : SmpEvent) : Bool :=
  match m.charging e with
  | some p => !decide (GlobalInOrder m.kern p.now)
  | none => false

/-- The global bucket is in its range, and what it let through is charged. -/
structure Leveled (m : Smp) : Prop where
  lo : -100000 ≤ m.kern.globalRateMap.tokens.toInt
  hi : m.kern.globalRateMap.tokens.toInt ≤ 499999
  frames : ∀ p ∈ m.admitted, ¬ p.data.length < 14

variable {cpus : ℕ} {es : List SmpEvent} {m : Smp} {e : SmpEvent}

/-- A frame that is charged is one check of the aggregate bucket. -/
theorem of_charging {p : InFlight} (hp : m.charging e = some p) :
    ¬ p.data.length < 14 ∧ (m.step e).kern.globalRateMap = (globalBucketCheck m.kern.globalRateMap p.now).1 := by
  cases e with
  | charge i =>
    obtain ⟨hi, hl⟩ := Option.filter_eq_some_iff.1 hp
    have hl : ¬ p.data.length < 14 := by simpa using hl
    refine ⟨hl, ?_⟩
    rw [(kern_charge hi).1, chargeGlobal_eq, if_neg hl]
    rfl
  | tick t => cases hp
  | enter host data => cases hp
  | finish i => cases hp
  | op e => cases hp

/-- An event that charges no frame. -/
theorem globalRateMap_of_not_charging (h : ∀ p ∈ m.admitted, ¬ p.data.length < 14) (hp : m.charging e = none) :
    (m.step e).kern.globalRateMap = m.kern.globalRateMap := by
  cases e with
  | tick t =>
    simp only [Smp.step]
    split <;> rfl
  | enter host data => rfl
  | op e =>
    simp only [Smp.step]
    split
    · rename_i hop
      apply Kernel.globalRateMap_of_none
      cases hch : e.charge with
      | none => rfl
      | some now =>
        rw [Event.now_of_charge hch] at hop
        cases hop
    · rfl
  | charge i =>
    cases hi : m.entered[i]? with
    | none => simp only [Smp.step, hi]
    | some p =>
      have hl : p.data.length < 14 := by
        by_contra hl
        simp [charging, hi, hl] at hp
      rw [(kern_charge hi).1, chargeGlobal_eq, if_pos hl]
  | finish i =>
    cases hi : m.admitted[i]? with
    | none => simp only [Smp.step, hi]
    | some p => rw [(kern_finish hi).1, dispatch_globalRateMap _ _ _ (h p (List.mem_of_getElem? hi))]

theorem leveled_init : (init cpus).Leveled := by
  refine ⟨by simp [init, Kernel.init], by simp [init, Kernel.init], fun p hp => ?_⟩
  cases hp

/-- A step keeps the bucket in its range and paid for. -/
theorem Leveled.step (h : m.Leveled) : (m.step e).Leveled := by
  have hrange : -100000 ≤ (m.step e).kern.globalRateMap.tokens.toInt ∧
      (m.step e).kern.globalRateMap.tokens.toInt ≤ 499999 := by
    cases hp : m.charging e with
    | none =>
      rw [globalRateMap_of_not_charging h.frames hp]
      exact ⟨h.lo, h.hi⟩
    | some p =>
      rw [(of_charging hp).2]
      exact globalBucketCheck_range h.lo h.hi p.now
  exact ⟨hrange.1, hrange.2, fun p hp => (admitted_step e hp).elim (h.frames p) And.right⟩

/-- So it is at every step. -/
theorem leveled_at {n : ℕ} (hn : n ≤ es.length) : (sAt cpus es n).Leveled := by
  induction n with
  | zero => exact leveled_init
  | succ n ih =>
    rw [sAt_succ (by omega)]
    exact (ih (by omega)).step

theorem Leveled.filled (h : m.Leveled) : Filled m.kern.globalRateMap.toState :=
  ⟨h.lo, Int.lt_add_one_iff.2 h.hi, m.kern.globalRateMap.lastTime.toNat_lt⟩

/-! ## The accounts with the global bucket -/

/-- **One event** opens one more account with the global bucket exactly if it charges a frame late. -/
theorem global_step (h : m.Leveled) {t₁ t₂ : UInt64}
    (ht : ∀ p, m.charging e = some p → t₁ ≤ p.now ∧ p.now ≤ t₂) {r w : ℕ}
    (hacc : Overrun quantum t₁.toNat t₂.toNat r w m.kern.globalRateMap.toState) :
    Overrun quantum t₁.toNat t₂.toNat (r + if m.lateFrame e then 1 else 0) (w + if m.lets e then 1 else 0)
      (m.step e).kern.globalRateMap.toState := by
  cases hp : m.charging e with
  | none =>
    have hlate : m.lateFrame e = false := by
      unfold lateFrame
      rw [hp]
    have hlets : m.lets e = false := by
      unfold lets
      rw [hp]
    rw [hlate, hlets, globalRateMap_of_not_charging h.frames hp]
    exact hacc
  | some p =>
    obtain ⟨hl, hmap⟩ := of_charging hp
    obtain ⟨hfirst, hlast⟩ := ht p hp
    have hhi := h.hi
    obtain ⟨heq, hdrop⟩ := globalBucketCheck_eq m.kern.globalRateMap p.now h.lo (by omega)
    have hlate : m.lateFrame e = decide (¬ GlobalInOrder m.kern p.now) := by
      unfold lateFrame
      rw [hp, decide_not]
    have hlets : m.lets e = decide (0 ≤ (globalTake m.kern.globalRateMap.toState p.now.toNat).tokens) := by
      unfold lets
      rw [hp]
      show (chargeGlobal m.kern p).2 = _
      rw [chargeGlobal_eq, if_neg hl]
      show (!(globalBucketCheck m.kern.globalRateMap p.now).2) = _
      rw [hdrop, ← decide_not]
      simp only [not_lt]
    rw [hlate, hlets, hmap]
    simp only [decide_eq_true_eq]
    rw [heq]
    exact overrun_globalTake hacc h.filled (UInt64.le_iff_toNat_le.1 hfirst)
      (UInt64.le_iff_toNat_le.1 hlast) p.now.toNat_lt

theorem budget_quantum (t₁ t₂ : ℕ) : budget quantum t₁ t₂ = (550000 + (t₂ - t₁) / 2000 : ℕ) := by
  unfold budget
  rw [quantum_cap, quantum_rate, quantum_unit, show 10 ^ 9 = 2000 * 500000 by norm_num,
    Nat.mul_div_mul_right _ _ (by decide)]
  push_cast
  rfl

/-- **Global cap on several CPUs.** In the events `i … j - 1` let all frames that are charged have entered the filter
from `t₁` to `t₂`, and `r` of them be charged late. Then the global bucket lets at most
`(r + 1) * (550000 + ⌊(t₂ - t₁) / 2000⌋)` of them through. -/
theorem global_cap_late (cpus : ℕ) {i j : ℕ} (hij : i ≤ j) (hj : j ≤ es.length) {t₁ t₂ : UInt64}
    (htimes : ∀ n e p, es[n]? = some e → i ≤ n → n < j → (sAt cpus es n).charging e = some p →
      t₁ ≤ p.now ∧ p.now ≤ t₂) :
    tally cpus es lets i j ≤ (tally cpus es lateFrame i j + 1) * (550000 + (t₂.toNat - t₁.toNat) / 2000) := by
  have hrun : ∀ n, i ≤ n → n ≤ j →
      Overrun quantum t₁.toNat t₂.toNat (tally cpus es lateFrame i n) (tally cpus es lets i n)
        (sAt cpus es n).kern.globalRateMap.toState := by
    intro n hin hnj
    induction n, hin using Nat.le_induction with
    | base =>
      simp only [tally, Finset.Ico_self, Finset.filter_empty, Finset.card_empty]
      apply Overrun.start
      · exact (leveled_at (by omega)).filled.hi.trans (by decide)
      · decide
    | succ n hin ih =>
      have hn : n < es.length := by omega
      rw [sAt_succ hn, tally_succ _ hin hn, tally_succ _ hin hn]
      apply global_step (leveled_at hn.le)
      · intro p hp
        exact htimes n es[n] p (List.getElem?_eq_getElem hn) hin (by omega) hp
      · exact ih (by omega)
  have hbound := (hrun j hij le_rfl).bound
  rw [budget_quantum] at hbound
  exact_mod_cast hbound

/-- Of the two frames the overtaken one is charged late. -/
theorem global_cap_late_overtaken :
    tally 1 overtaken lateFrame 0 8 = 1 ∧
      tally 1 overtaken lets 0 8 ≤
        (1 + 1) * (550000 + ((400000000 : UInt64).toNat - (200000000 : UInt64).toNat) / 2000) := by
  have hlate : tally 1 overtaken lateFrame 0 8 = 1 := by decide +kernel
  have hbound : tally 1 overtaken lets 0 8 ≤ (tally 1 overtaken lateFrame 0 8 + 1) *
      (550000 + ((400000000 : UInt64).toNat - (200000000 : UInt64).toNat) / 2000) := by
    apply global_cap_late 1 (by decide) (by decide)
    intro n e p he h0 h8 hp
    interval_cases n
    all_goals cases he
    all_goals cases hp
    all_goals decide
  rw [hlate] at hbound
  exact ⟨hlate, hbound⟩

end Smp

end FluxGuard
