import FluxGuard.Proof.Bucket

/-!
# Refill and elapsed time

A longer idle time should never leave fewer tokens. The product of the idle time and the limit
is taken modulo `2^64`, so it does from about 213 days on for a source, and from 10.2 hours on for
the global bucket.

* `refill_monotone_iff`: exactly when a later packet is no worse off, and exactly when a gap of
  1.2 s or more refills a bucket.
* `wholeTokens_mono`: below `2^64 / limit` ns nothing wraps.
-/

namespace FluxGuard

open Bucket

/-- The whole tokens in `(now - last) * limit`, taken modulo `2^64`. -/
def wholeTokens (limit : ℕ) (last now : UInt64) : ℕ := (now - last).toNat * limit % 2 ^ 64 / 10 ^ 9

/-- What a source earns is the whole tokens of the time. -/
theorem refill_source (last now : UInt64) : refill perSource last.toNat now.toNat = wholeTokens 1000 last now := by
  unfold refill phase wholeTokens
  rw [toNat_sub_wrap]
  rfl

theorem refill_global (last now : UInt64) : refill aggregate last.toNat now.toNat = wholeTokens 500000 last now := by
  unfold refill phase wholeTokens
  rw [toNat_sub_wrap]
  rfl

/-- Without wrapping, a longer gap is worth at least as many tokens. -/
theorem wholeTokens_mono {limit : ℕ} {last now₁ now₂ : UInt64} (h₁ : last ≤ now₁) (h₂ : now₁ ≤ now₂)
    (hwrap : (now₂ - last).toNat * limit < 2 ^ 64) : wholeTokens limit last now₁ ≤ wholeTokens limit last now₂ := by
  have hgap : (now₁ - last).toNat ≤ (now₂ - last).toNat := by
    rw [UInt64.toNat_sub_of_le _ _ h₁, UInt64.toNat_sub_of_le _ _ (UInt64.le_trans h₁ h₂)]
    exact Nat.sub_le_sub_right (UInt64.le_iff_toNat_le.1 h₂) _
  have hmul : (now₁ - last).toNat * limit ≤ (now₂ - last).toNat * limit := Nat.mul_le_mul_right _ hgap
  unfold wholeTokens
  rw [Nat.mod_eq_of_lt hwrap, Nat.mod_eq_of_lt (hmul.trans_lt hwrap)]
  exact Nat.div_le_div_right hmul

/-! ## What a step leaves -/

/-- The level of a source's bucket after a packet. -/
theorem tokens_source {tb : TokenBucket} (hlo : -2 ^ 63 < tb.tokens.toInt) (hhi : tb.tokens.toInt ≤ 1000)
    (now : UInt64) :
    (tokenBucketCheck tb now).1.tokens.toInt = min (tb.tokens.toInt + wholeTokens 1000 tb.lastTime now) 1000 - 1 := by
  have h := congrArg State.tokens (tokenBucketCheck_eq tb now hlo hhi).1
  rw [TokenBucket.toState_tokens, tokens_take, TokenBucket.toState_last, TokenBucket.toState_tokens, refill_source,
    perSource_cap] at h
  rw [h]
  split
  · omega
  · rfl

/-- A source's packet passes exactly when the level is not below zero afterwards. -/
theorem passes_source {tb : TokenBucket} (hlo : -2 ^ 63 < tb.tokens.toInt) (hhi : tb.tokens.toInt ≤ 1000)
    (now : UInt64) :
    (tokenBucketCheck tb now).2 = false ↔ 0 ≤ (tokenBucketCheck tb now).1.tokens.toInt := by
  obtain ⟨heq, hdrop⟩ := tokenBucketCheck_eq tb now hlo hhi
  rw [hdrop, ← heq, TokenBucket.toState_tokens, decide_eq_false_iff_not, not_lt]

/-- The level of the global bucket after a frame. -/
theorem tokens_global {tb : TokenBucket} (hlo : -100000 ≤ tb.tokens.toInt) (hhi : tb.tokens.toInt ≤ 500000)
    (now : UInt64) :
    (globalBucketCheck tb now).1.tokens.toInt =
      max ((if 100000000 < (now - tb.lastTime).toNat
        then min (tb.tokens.toInt + wholeTokens 500000 tb.lastTime now) 500000
        else tb.tokens.toInt) - 1) (-100000) := by
  have h := congrArg State.tokens (globalBucketCheck_eq tb now hlo hhi).1
  rw [TokenBucket.toState_tokens] at h
  rw [h, toNat_sub_wrap, ← refill_global]
  unfold globalTake
  simp only [TokenBucket.toState_tokens, TokenBucket.toState_last, show 10 ^ 8 = 100000000 from rfl]
  by_cases hgap : 100000000 < (now.toNat + (2 ^ 64 - tb.lastTime.toNat)) % 2 ^ 64
  · rw [if_pos hgap, if_pos hgap]
  · rw [if_neg hgap, if_neg hgap, TokenBucket.toState_tokens]

theorem passes_global {tb : TokenBucket} (hlo : -100000 ≤ tb.tokens.toInt) (hhi : tb.tokens.toInt ≤ 500000)
    (now : UInt64) :
    (globalBucketCheck tb now).2 = false ↔ 0 ≤ (globalBucketCheck tb now).1.tokens.toInt := by
  obtain ⟨heq, hdrop⟩ := globalBucketCheck_eq tb now hlo hhi
  rw [hdrop, ← heq, TokenBucket.toState_tokens, decide_eq_false_iff_not, not_lt]

/-! ## Two idle times -/

/-- A packet at `now₂` finds at least as many tokens as one at `now₁`, and passes if that one does. -/
structure NoWorse (check : TokenBucket → UInt64 → TokenBucket × Bool) (tb : TokenBucket)
    (now₁ now₂ : UInt64) : Prop where
  tokens : (check tb now₁).1.tokens.toInt ≤ (check tb now₂).1.tokens.toInt
  passes : (check tb now₁).2 = false → (check tb now₂).2 = false

/-- A packet at `now` passes and leaves `limit - 1` tokens. -/
structure Refilled (check : TokenBucket → UInt64 → TokenBucket × Bool) (limit : ℤ) (tb : TokenBucket)
    (now : UInt64) : Prop where
  tokens : (check tb now).1.tokens.toInt = limit - 1
  passes : (check tb now).2 = false

section Source

variable {tb : TokenBucket} (hlo : -2 ^ 63 < tb.tokens.toInt) (hhi : tb.tokens.toInt ≤ 1000)
include hlo hhi

/-- A later check is no worse exactly when it earns no less. -/
theorem noWorse_source_iff (now₁ now₂ : UInt64) :
    NoWorse tokenBucketCheck tb now₁ now₂ ↔
      wholeTokens 1000 tb.lastTime now₁ ≤ wholeTokens 1000 tb.lastTime now₂ ∨
        1000 ≤ tb.tokens.toInt + wholeTokens 1000 tb.lastTime now₂ := by
  have htokens : (tokenBucketCheck tb now₁).1.tokens.toInt ≤ (tokenBucketCheck tb now₂).1.tokens.toInt ↔
      wholeTokens 1000 tb.lastTime now₁ ≤ wholeTokens 1000 tb.lastTime now₂ ∨
        1000 ≤ tb.tokens.toInt + wholeTokens 1000 tb.lastTime now₂ := by
    rw [tokens_source hlo hhi, tokens_source hlo hhi]
    omega
  rw [← htokens]
  constructor
  · intro h
    exact h.tokens
  · intro h
    refine ⟨h, ?_⟩
    rw [passes_source hlo hhi, passes_source hlo hhi]
    intro hpass
    exact hpass.trans h

/-- The bucket is full when it holds and earns enough. -/
theorem refilled_source_iff (now : UInt64) :
    Refilled tokenBucketCheck 1000 tb now ↔ 1000 ≤ tb.tokens.toInt + wholeTokens 1000 tb.lastTime now := by
  have htokens := tokens_source hlo hhi now
  constructor
  · intro h
    have := h.tokens
    omega
  · intro h
    have hfull : (tokenBucketCheck tb now).1.tokens.toInt = 1000 - 1 := by omega
    refine ⟨hfull, ?_⟩
    rw [passes_source hlo hhi, hfull]
    decide

end Source

section Global

variable {tb : TokenBucket} (hlo : -100000 ≤ tb.tokens.toInt) (hhi : tb.tokens.toInt ≤ 500000)
include hlo hhi

theorem noWorse_global_iff {now₁ now₂ : UInt64} (h₁ : tb.lastTime ≤ now₁) (h₂ : now₁ ≤ now₂) :
    NoWorse globalBucketCheck tb now₁ now₂ ↔
      (now₁ - tb.lastTime).toNat ≤ 100000000 ∨ tb.tokens.toInt + wholeTokens 500000 tb.lastTime now₁ ≤ -99999 ∨
        wholeTokens 500000 tb.lastTime now₁ ≤ wholeTokens 500000 tb.lastTime now₂ ∨
        500000 ≤ tb.tokens.toInt + wholeTokens 500000 tb.lastTime now₂ := by
  have hgap : (now₁ - tb.lastTime).toNat ≤ (now₂ - tb.lastTime).toNat := by
    rw [UInt64.toNat_sub_of_le _ _ h₁, UInt64.toNat_sub_of_le _ _ (UInt64.le_trans h₁ h₂)]
    exact Nat.sub_le_sub_right (UInt64.le_iff_toNat_le.1 h₂) _
  have htokens : (globalBucketCheck tb now₁).1.tokens.toInt ≤ (globalBucketCheck tb now₂).1.tokens.toInt ↔
      (now₁ - tb.lastTime).toNat ≤ 100000000 ∨ tb.tokens.toInt + wholeTokens 500000 tb.lastTime now₁ ≤ -99999 ∨
        wholeTokens 500000 tb.lastTime now₁ ≤ wholeTokens 500000 tb.lastTime now₂ ∨
        500000 ≤ tb.tokens.toInt + wholeTokens 500000 tb.lastTime now₂ := by
    rw [tokens_global hlo hhi, tokens_global hlo hhi]
    -- a refill waits for 100 ms; from there on both levels have their refill
    rcases Nat.lt_or_ge 100000000 (now₁ - tb.lastTime).toNat with h | h
    · rw [if_pos h, if_pos (h.trans_le hgap)]
      omega
    · rw [if_neg (not_lt.2 h)]
      split
      · omega
      · omega
  rw [← htokens]
  constructor
  · intro h
    exact h.tokens
  · intro h
    refine ⟨h, ?_⟩
    rw [passes_global hlo hhi, passes_global hlo hhi]
    intro hpass
    exact hpass.trans h

theorem refilled_global_iff {now : UInt64} (hgap : 1200000000 ≤ (now - tb.lastTime).toNat) :
    Refilled globalBucketCheck 500000 tb now ↔ 500000 ≤ tb.tokens.toInt + wholeTokens 500000 tb.lastTime now := by
  have htokens := tokens_global hlo hhi now
  rw [if_pos (by omega)] at htokens
  constructor
  · intro h
    have := h.tokens
    omega
  · intro h
    have hfull : (globalBucketCheck tb now).1.tokens.toInt = 500000 - 1 := by omega
    refine ⟨hfull, ?_⟩
    rw [passes_global hlo hhi, hfull]
    decide

end Global

/-- **When a longer idle time leaves no fewer tokens**, for a source's bucket and for the global one,
and when a gap of 1.2 s or more fills them: exactly when the product with the limit, modulo `2^64`,
is worth enough whole tokens. -/
theorem refill_monotone_iff (tb : TokenBucket) (now₁ now₂ : UInt64) (h₁ : tb.lastTime ≤ now₁) (h₂ : now₁ ≤ now₂) :
    (-2 ^ 63 < tb.tokens.toInt → tb.tokens.toInt ≤ 1000 →
      (NoWorse tokenBucketCheck tb now₁ now₂ ↔
        wholeTokens 1000 tb.lastTime now₁ ≤ wholeTokens 1000 tb.lastTime now₂ ∨
          1000 ≤ tb.tokens.toInt + wholeTokens 1000 tb.lastTime now₂)) ∧
    (-100000 ≤ tb.tokens.toInt → tb.tokens.toInt ≤ 500000 →
      (NoWorse globalBucketCheck tb now₁ now₂ ↔
        (now₁ - tb.lastTime).toNat ≤ 100000000 ∨ tb.tokens.toInt + wholeTokens 500000 tb.lastTime now₁ ≤ -99999 ∨
          wholeTokens 500000 tb.lastTime now₁ ≤ wholeTokens 500000 tb.lastTime now₂ ∨
          500000 ≤ tb.tokens.toInt + wholeTokens 500000 tb.lastTime now₂)) ∧
    (-1 ≤ tb.tokens.toInt → tb.tokens.toInt ≤ 1000 → 1200000000 ≤ (now₂ - tb.lastTime).toNat →
      (Refilled tokenBucketCheck 1000 tb now₂ ↔ 1000 ≤ tb.tokens.toInt + wholeTokens 1000 tb.lastTime now₂)) ∧
    (-100000 ≤ tb.tokens.toInt → tb.tokens.toInt ≤ 500000 → 1200000000 ≤ (now₂ - tb.lastTime).toNat →
      (Refilled globalBucketCheck 500000 tb now₂ ↔
        500000 ≤ tb.tokens.toInt + wholeTokens 500000 tb.lastTime now₂)) := by
  refine ⟨?_, ?_, ?_, ?_⟩
  · intro hlo hhi
    exact noWorse_source_iff hlo hhi now₁ now₂
  · intro hlo hhi
    exact noWorse_global_iff hlo hhi h₁ h₂
  · intro hlo hhi _
    exact refilled_source_iff (by omega) hhi now₂
  · intro hlo hhi hgap
    exact refilled_global_iff hlo hhi hgap

/-- An empty global bucket, idle for 1.2 s and for 10 hours 15 minutes. -/
theorem refill_monotone_iff_idle :
    NoWorse globalBucketCheck ⟨0, 0⟩ 1000000000 1200000000 ∧
      ¬ NoWorse globalBucketCheck ⟨0, 0⟩ 1200000000 36893488147420 := by
  obtain ⟨-, hshort, -, -⟩ := refill_monotone_iff ⟨0, 0⟩ 1000000000 1200000000 (by decide) (by decide)
  obtain ⟨-, hlong, -, -⟩ := refill_monotone_iff ⟨0, 0⟩ 1200000000 36893488147420 (by decide) (by decide)
  constructor
  · rw [hshort (by decide) (by decide)]
    exact Or.inr (Or.inr (Or.inl (by decide)))
  · rw [hlong (by decide) (by decide)]
    decide

/-- **A long idle time can drop a packet**: after 1.2 s the global bucket is full and lets a frame through,
after 10 hours 15 minutes it earns nothing and drops it. -/
theorem idle_bucket_drops :
    (globalBucketCheck ⟨0, 0⟩ 1200000000).1.tokens = 499999 ∧ (globalBucketCheck ⟨0, 0⟩ 1200000000).2 = false ∧
      (globalBucketCheck ⟨0, 0⟩ 36893488147420).1.tokens = -1 ∧ (globalBucketCheck ⟨0, 0⟩ 36893488147420).2 = true := by
  decide

end FluxGuard
