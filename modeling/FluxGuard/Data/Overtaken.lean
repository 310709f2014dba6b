import FluxGuard.Data.Bucket

/-!
# Token buckets under requests out of order

Requests come in any order of their times. One that is older than the last refill and earns tokens all the
same, as the difference of the clocks wraps, sets the bucket's clock back: it is overtaken.

* `Spent.take`: requests that are not overtaken are paid for by a full bucket and the credit of the window
  that their times lie in.
* `Overrun.next`, `Overrun.take`: an overtaken one opens another such account, so `Overrun.bound` counts the accounts.
-/

namespace FluxGuard.Bucket

variable (P : Params) (t₁ t₂ : ℕ)

/-- The clock of the bucket is ahead of `now`, and the wrapped difference is worth a token. -/
def Overtaken (s : State) (now : ℕ) : Prop := now < s.last ∧ refill P s.last now ≠ 0

instance (s : State) (now : ℕ) : Decidable (Overtaken P s now) := inferInstanceAs (Decidable (_ ∧ _))

/-- What the time from `t₁` to the last refill earns, negative if that was before; it counts up to `t₂`. -/
def gain (last : ℕ) : ℤ := P.rate * ((min last t₂ : ℕ) - t₁)

/-- The requests that a full bucket and the credit of a window pay. -/
def budget : ℤ := P.cap + ((t₂ - t₁) * P.rate / P.unit : ℕ)

/-- `w` requests from the times `t₁ … t₂` were granted and none of them overtaken: they and the tokens that
are left came out of a full bucket and the gain up to the last refill. -/
structure Spent (w : ℕ) (s : State) : Prop where
  tokens_lt : s.tokens < P.cap
  potential_le : w = 0 ∨ P.unit * (w + s.tokens) ≤ P.unit * P.cap + gain P t₁ t₂ s.last
  count_le : w ≤ budget P t₁ t₂

/-- `w` requests were granted and `late` were overtaken; each of these opened another account. -/
def Overrun (late w : ℕ) (s : State) : Prop := ∃ v, Spent P t₁ t₂ v s ∧ (w : ℤ) ≤ late * budget P t₁ t₂ + v

variable {P t₁ t₂} {w late now : ℕ} {s : State}

theorem gain_nonneg {last : ℕ} (ht : t₁ ≤ t₂) (h : t₁ ≤ last) : 0 ≤ gain P t₁ t₂ last := by
  have hmin : t₁ ≤ min last t₂ := le_min h ht
  exact mul_nonneg (Int.natCast_nonneg _) (by omega)

/-- The gain is never more than the whole window earns. -/
theorem gain_le {last : ℕ} (ht : t₁ ≤ t₂) : gain P t₁ t₂ last ≤ ((t₂ - t₁) * P.rate : ℕ) := by
  have hmin : min last t₂ ≤ t₂ := min_le_right _ _
  unfold gain
  rw [Nat.mul_comm]
  push_cast [ht]
  exact mul_le_mul_of_nonneg_left (by omega) (Int.natCast_nonneg _)

/-- Up to `t₂` the gain is the time since `t₁`. -/
theorem gain_of_le {last : ℕ} (h : last ≤ t₂) : gain P t₁ t₂ last = P.rate * (last - t₁) := by
  unfold gain
  rw [min_eq_left h]

theorem budget_nonneg (hcap : 0 ≤ P.cap) : 0 ≤ budget P t₁ t₂ := add_nonneg hcap (Int.natCast_nonneg _)

namespace Spent

theorem start (h : s.tokens < P.cap) (hcap : 0 ≤ P.cap) : Spent P t₁ t₂ 0 s :=
  ⟨h, Or.inl rfl, budget_nonneg hcap⟩

/-- What was granted is paid for, if tokens are left. -/
theorem of_potential (ht : t₁ ≤ t₂) (hs : s.tokens < P.cap) (h0 : 0 ≤ s.tokens)
    (hp : P.unit * (w + s.tokens) ≤ P.unit * P.cap + gain P t₁ t₂ s.last) : Spent P t₁ t₂ w s := by
  refine ⟨hs, Or.inr hp, ?_⟩
  have hu : (0 : ℤ) < P.unit := by exact_mod_cast P.unit_pos
  have hgain : gain P t₁ t₂ s.last ≤ ((t₂ - t₁) * P.rate : ℕ) := gain_le ht
  have hcost : (P.unit * w : ℤ) ≤ P.unit * (w + s.tokens) := mul_le_mul_of_nonneg_left (by omega) hu.le
  have hle : w - P.cap ≤ ((t₂ - t₁) * P.rate : ℕ) / (P.unit : ℤ) := by
    apply (Int.le_ediv_iff_mul_le hu).2
    linarith
  rw [← Int.natCast_ediv] at hle
  unfold budget
  omega

/-- A request after which the tokens, and the one it was granted, are paid for. -/
theorem next {s' : State} (ht : t₁ ≤ t₂) (hcount : w ≤ budget P t₁ t₂) (hs : s'.tokens < P.cap)
    (hp : P.unit * (w + (if 0 ≤ s'.tokens then 1 else 0) + s'.tokens) ≤ P.unit * P.cap + gain P t₁ t₂ s'.last) :
    Spent P t₁ t₂ (w + if 0 ≤ s'.tokens then 1 else 0) s' := by
  by_cases h0 : 0 ≤ s'.tokens
  · rw [if_pos h0] at hp ⊢
    apply of_potential ht hs h0
    push_cast
    exact hp
  · rw [if_neg h0] at hp ⊢
    rw [add_zero] at hp
    exact ⟨hs, Or.inr hp, hcount⟩

/-- A request that finds no bucket. -/
theorem fresh (ht : t₁ ≤ now) (ht' : now ≤ t₂) (hcap : 1 ≤ P.cap) : Spent P t₁ t₂ 1 ⟨P.cap - 1, now⟩ := by
  apply of_potential (ht.trans ht')
  · show P.cap - 1 < P.cap
    omega
  · show 0 ≤ P.cap - 1
    omega
  · have hgain := gain_nonneg (P := P) (ht.trans ht') ht
    push_cast
    rw [add_sub_cancel]
    linarith

/-- The first request of an account that credits nothing finds the clock less than a token before `t₁`. -/
theorem unit_add_gain_nonneg (ht : t₁ ≤ now) (ht' : now ≤ t₂) (hm : now < P.modulus) (hr : now * P.rate < P.modulus)
    (h0 : refill P s.last now = 0) : 0 ≤ P.unit + gain P t₁ t₂ s.last := by
  rcases Nat.lt_or_ge s.last t₁ with hl | hl
  · have hphase := phase_lt_unit h0
    rw [phase_eq (by omega) hm ((Nat.mul_le_mul_right _ (Nat.sub_le _ _)).trans_lt hr)] at hphase
    have hle : (t₁ - s.last) * P.rate ≤ (now - s.last) * P.rate := Nat.mul_le_mul_right _ (by omega)
    have hlt : (((t₁ - s.last) * P.rate : ℕ) : ℤ) < P.unit := by exact_mod_cast hle.trans_lt hphase
    push_cast [hl.le] at hlt
    rw [gain_of_le (by omega)]
    linarith
  · have hgain := gain_nonneg (P := P) (ht.trans ht') hl
    have hu : (0 : ℤ) ≤ P.unit := Int.natCast_nonneg _
    linarith

/-- The tokens after a request that is not overtaken, with what was granted before. -/
theorem potential_take_le (h : Spent P t₁ t₂ w s) (ht : t₁ ≤ now) (ht' : now ≤ t₂) (hm : now < P.modulus)
    (hr : now * P.rate < P.modulus) (ho : ¬ Overtaken P s now) :
    P.unit * (w + 1 + (take P s now).tokens) ≤ P.unit * P.cap + gain P t₁ t₂ (take P s now).last := by
  have hu : (0 : ℤ) ≤ P.unit := Int.natCast_nonneg _
  have hlt := h.tokens_lt
  rw [tokens_take, last_take]
  by_cases h0 : refill P s.last now = 0
  · rw [if_pos h0, if_pos h0, show (w + 1 + (s.tokens - 1) : ℤ) = w + s.tokens by ring]
    rcases h.potential_le with rfl | hp
    · have hgain := unit_add_gain_nonneg (s := s) ht ht' hm hr h0
      have hcost : P.unit * s.tokens ≤ P.unit * (P.cap - 1) := mul_le_mul_of_nonneg_left (by omega) hu
      push_cast
      linarith
    · exact hp
  · rw [if_neg h0, if_neg h0]
    have hl : s.last ≤ now := by
      by_contra hl
      exact ho ⟨by omega, h0⟩
    rcases h.potential_le with rfl | hp
    -- a full bucket at most, whatever the time before the window earned
    · have hgain := gain_nonneg (P := P) (ht.trans ht') ht
      have hcost := mul_le_mul_of_nonneg_left (min_le_right (s.tokens + refill P s.last now) P.cap) hu
      push_cast
      linarith
    · have hearned := unit_mul_refill_le (P := P) s.last now
      rw [phase_eq hl hm ((Nat.mul_le_mul_right _ (Nat.sub_le _ _)).trans_lt hr)] at hearned
      have hearned' : (P.unit : ℤ) * refill P s.last now ≤ ((now - s.last) * P.rate : ℕ) := by exact_mod_cast hearned
      have hcost := mul_le_mul_of_nonneg_left (min_le_left (s.tokens + refill P s.last now) P.cap) hu
      rw [gain_of_le (hl.trans ht')] at hp
      rw [gain_of_le ht']
      push_cast [hl] at hearned'
      linarith

/-- A request that is not overtaken. -/
theorem take (h : Spent P t₁ t₂ w s) (ht : t₁ ≤ now) (ht' : now ≤ t₂) (hm : now < P.modulus)
    (hr : now * P.rate < P.modulus) (ho : ¬ Overtaken P s now) :
    Spent P t₁ t₂ (w + if 0 ≤ (take P s now).tokens then 1 else 0) (take P s now) := by
  have hp := h.potential_take_le ht ht' hm hr ho
  have hu : (0 : ℤ) ≤ P.unit := Int.natCast_nonneg _
  apply next (ht.trans ht') h.count_le (tokens_take_lt h.tokens_lt now)
  split
  · exact hp
  · linarith

/-- A request that sets the clock to a time since `t₁` may leave the bucket full. -/
theorem restart {s' : State} (ht : t₁ ≤ t₂) (hcap : 0 ≤ P.cap) (hs : s'.tokens < P.cap) (hl : t₁ ≤ s'.last) :
    Spent P t₁ t₂ (if 0 ≤ s'.tokens then 1 else 0) s' := by
  have hu : (0 : ℤ) ≤ P.unit := Int.natCast_nonneg _
  have hgain := gain_nonneg (P := P) ht hl
  have hle : (((0 : ℕ) : ℤ) + (if 0 ≤ s'.tokens then 1 else 0) + s'.tokens) ≤ P.cap := by
    split <;> push_cast <;> omega
  have hcost := mul_le_mul_of_nonneg_left hle hu
  have hnext := next (w := 0) ht (budget_nonneg hcap) hs (by linarith)
  rwa [Nat.zero_add] at hnext

end Spent

namespace Overrun

theorem start (h : s.tokens < P.cap) (hcap : 0 ≤ P.cap) : Overrun P t₁ t₂ 0 0 s :=
  ⟨0, Spent.start h hcap, by simp⟩

/-- After a request in the window the bucket is not full. -/
theorem tokens_lt (h : Overrun P t₁ t₂ late w s) : s.tokens < P.cap := by
  obtain ⟨v, hv, -⟩ := h
  exact hv.tokens_lt

/-- **One request** keeps to the account that is open, or opens another. -/
theorem next {s' : State} {granted : ℕ} {o : Prop} [Decidable o] (h : Overrun P t₁ t₂ late w s)
    (hkeep : ¬ o → ∀ v, Spent P t₁ t₂ v s → Spent P t₁ t₂ (v + granted) s') (hopen : o → Spent P t₁ t₂ granted s') :
    Overrun P t₁ t₂ (late + if o then 1 else 0) (w + granted) s' := by
  obtain ⟨v, hv, hw⟩ := h
  by_cases ho : o
  · refine ⟨granted, hopen ho, ?_⟩
    have hcount := hv.count_le
    rw [if_pos ho]
    push_cast
    linarith
  · refine ⟨v + granted, hkeep ho v hv, ?_⟩
    rw [if_neg ho]
    push_cast
    linarith

/-- A request of the window, granted or not, late or not. -/
theorem take (h : Overrun P t₁ t₂ late w s) (hcap : 0 ≤ P.cap) (ht : t₁ ≤ now) (ht' : now ≤ t₂) (hm : now < P.modulus)
    (hr : now * P.rate < P.modulus) :
    Overrun P t₁ t₂ (late + if Overtaken P s now then 1 else 0)
      (w + if 0 ≤ (Bucket.take P s now).tokens then 1 else 0) (Bucket.take P s now) := by
  apply h.next
  · intro ho v hv
    exact hv.take ht ht' hm hr ho
  · intro ho
    apply Spent.restart (ht.trans ht') hcap (tokens_take_lt h.tokens_lt now)
    rw [last_take, if_neg ho.2]
    exact ht

/-- A request that finds no bucket, after what others have granted. -/
theorem fresh (hw : (w : ℤ) ≤ late * budget P t₁ t₂) (ht : t₁ ≤ now) (ht' : now ≤ t₂) (hcap : 1 ≤ P.cap) :
    Overrun P t₁ t₂ late (w + 1) ⟨P.cap - 1, now⟩ := by
  refine ⟨1, Spent.fresh ht ht' hcap, ?_⟩
  push_cast
  linarith

/-- At the end of the window the grants are within the budget of each reset. -/
theorem bound (h : Overrun P t₁ t₂ late w s) : (w : ℤ) ≤ (late + 1) * budget P t₁ t₂ := by
  obtain ⟨v, hv, hw⟩ := h
  have hcount := hv.count_le
  linarith

end Overrun

end FluxGuard.Bucket
