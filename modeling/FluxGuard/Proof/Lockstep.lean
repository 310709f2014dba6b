import FluxGuard.Model.Smp
import FluxGuard.Model.TestMirror
import FluxGuard.Proof.Refill

/-!
# The kernel's bucket and its mirror in the test suite

The mirror subtracts, multiplies and compares without wrapping. A clock that steps back refills
the kernel's bucket and not the mirror, and so does a product past `2^64`, the other way round.

* `stepAgree_iff`: exactly when one call does the same to both.
* `lockstep_iff`: **the two agree on a sequence of calls and all its prefixes exactly when each call
  is in lockstep.**
-/

namespace FluxGuard

open Bucket

/-- The two checks over `nows`: the same results, the same bucket at the end. -/
structure Agree (tb : TokenBucket) (nows : List UInt64) : Prop where
  results : (replay tokenBucketCheck tb nows).2 =
    (replay PyBucket.tokenBucketCheck tb.toPy (nows.map fun now => (now.toNat : ℤ))).2
  bucket : (replay tokenBucketCheck tb nows).1.toPy =
    (replay PyBucket.tokenBucketCheck tb.toPy (nows.map fun now => (now.toNat : ℤ))).1

/-- The condition on one call: the wrapped and the unwrapped refill are worth the same whole tokens
(and a level that gets none can still be decremented), or both fill the bucket. -/
def InLockstep (tb : TokenBucket) (now : UInt64) : Prop :=
  (wholeTokens 1000 tb.lastTime now = Smp.earned 1000 tb.lastTime now ∧
    (0 < Smp.earned 1000 tb.lastTime now ∨ -2 ^ 63 < tb.tokens.toInt)) ∨
  (0 < wholeTokens 1000 tb.lastTime now ∧ 0 < Smp.earned 1000 tb.lastTime now ∧
    1000 ≤ tb.tokens.toInt + wholeTokens 1000 tb.lastTime now ∧
      1000 ≤ tb.tokens.toInt + Smp.earned 1000 tb.lastTime now)

/-! ## One call -/

/-- What the mirror leaves. -/
theorem mirror_check (tb : TokenBucket) (now : UInt64) :
    (tb.toPy.tokenBucketCheck now.toNat).1 =
      if Smp.earned 1000 tb.lastTime now = 0 then ⟨tb.lastTime.toNat, tb.tokens.toInt - 1⟩
      else ⟨now.toNat, min (tb.tokens.toInt + Smp.earned 1000 tb.lastTime now) 1000 - 1⟩ := by
  have hrefill : (0 : ℤ) < now.toNat - tb.lastTime.toNat →
      ((now.toNat : ℤ) - tb.lastTime.toNat) * 1000 / 1000000000 = Smp.earned 1000 tb.lastTime now := by
    intro h
    unfold Smp.earned
    rw [← Nat.cast_sub (by omega)]
    norm_cast
  unfold PyBucket.tokenBucketCheck TokenBucket.toPy PyBucket.KERN_PPS_LIMIT PyBucket.NS_PER_SEC
  simp only [gt_iff_lt]
  by_cases hgap : (0 : ℤ) < now.toNat - tb.lastTime.toNat
  · rw [if_pos hgap, hrefill hgap]
    by_cases h0 : Smp.earned 1000 tb.lastTime now = 0
    · rw [if_pos h0, h0]
      rfl
    · rw [if_neg h0, if_pos (by omega)]
      simp only [PyBucket.mk.injEq, true_and]
      split <;> omega
  · rw [if_neg hgap, if_pos]
    unfold Smp.earned
    rw [Nat.sub_eq_zero_of_le (by omega)]

/-- The mirror drops below zero. -/
theorem mirror_drops (tb : PyBucket) (now : ℤ) :
    (tb.tokenBucketCheck now).2 = decide ((tb.tokenBucketCheck now).1.tokens < 0) := rfl

/-- The mirror never has more than its capacity. -/
theorem mirror_tokens_le {tb : PyBucket} (h : tb.tokens ≤ 1000) (now : ℤ) :
    (tb.tokenBucketCheck now).1.tokens ≤ 1000 := by
  unfold PyBucket.tokenBucketCheck PyBucket.KERN_PPS_LIMIT
  dsimp only
  split
  · split
    · dsimp only
      split <;> omega
    · omega
  · omega

/-- So does the kernel. -/
theorem kernel_drops (tb : TokenBucket) (now : UInt64) :
    (tokenBucketCheck tb now).2 = decide ((tokenBucketCheck tb now).1.toPy.tokens < 0) := by
  refine decide_eq_decide.2 ?_
  rw [Int64.lt_iff_toInt_lt]
  rfl

/-- What the kernel leaves, unless the level wraps. -/
theorem kernel_check {tb : TokenBucket} {now : UInt64}
    (hlo : wholeTokens 1000 tb.lastTime now = 0 → -2 ^ 63 < tb.tokens.toInt)
    (hhi : tb.tokens.toInt ≤ 1000) :
    (tokenBucketCheck tb now).1.toPy =
      if wholeTokens 1000 tb.lastTime now = 0 then ⟨tb.lastTime.toNat, tb.tokens.toInt - 1⟩
      else ⟨now.toNat, min (tb.tokens.toInt + wholeTokens 1000 tb.lastTime now) 1000 - 1⟩ := by
  rw [← refill_source] at hlo ⊢
  obtain ⟨heq, -⟩ := tokenBucketCheck_of_fits tb now hlo hhi
  have htokens := congrArg State.tokens heq
  have hlast := congrArg State.last heq
  rw [TokenBucket.toState_tokens, tokens_take, TokenBucket.toState_tokens, TokenBucket.toState_last,
    perSource_cap] at htokens
  rw [TokenBucket.toState_last, last_take, TokenBucket.toState_last] at hlast
  unfold TokenBucket.toPy
  rw [htokens, hlast]
  split <;> rfl

/-- At `-2^63`, a call that earns nothing wraps the level. -/
theorem kernel_check_wraps {tb : TokenBucket} {now : UInt64} (h0 : wholeTokens 1000 tb.lastTime now = 0)
    (hmin : tb.tokens.toInt = -2 ^ 63) : (tokenBucketCheck tb now).1.toPy.tokens = 2 ^ 63 - 1 := by
  have hR := toNat_refillOf perSource rfl rfl tb.lastTime now KERN_PPS_LIMIT.toUInt64 (by decide)
  rw [refill_source, h0] at hR
  have hr : ¬ refillOf (now - tb.lastTime) KERN_PPS_LIMIT.toUInt64 > 0 := by
    rw [gt_iff_lt, UInt64.lt_iff_toNat_lt, hR]
    exact Nat.lt_irrefl 0
  have htokens : (tokenBucketCheck tb now).1.tokens = tb.tokens - 1 := by
    unfold tokenBucketCheck
    simp only [if_neg hr, ite_self]
  have hlevel : tb.tokens = Int64.minValue := Int64.toInt_inj.1 (by rw [hmin]; decide)
  change (tokenBucketCheck tb now).1.tokens.toInt = _
  rw [htokens, hlevel]
  decide

/-- At the time of the last refill nothing is earned. -/
theorem last_ne_of_wholeTokens {limit : ℕ} {last now : UInt64} (h : wholeTokens limit last now ≠ 0) :
    last.toNat ≠ now.toNat := by
  intro heq
  rw [UInt64.toNat_inj.1 heq] at h
  unfold wholeTokens at h
  rw [UInt64.sub_self, UInt64.toNat_zero, Nat.zero_mul] at h
  exact h rfl

theorem last_ne_of_earned {limit : ℕ} {last now : UInt64} (h : Smp.earned limit last now ≠ 0) :
    last.toNat ≠ now.toNat := by
  intro heq
  unfold Smp.earned at h
  rw [heq, Nat.sub_self, Nat.zero_mul] at h
  exact h rfl

/-- **When one call does the same to both.** -/
theorem stepAgree_iff {tb : TokenBucket} (hhi : tb.tokens.toInt ≤ 1000) (now : UInt64) :
    (tokenBucketCheck tb now).1.toPy = (tb.toPy.tokenBucketCheck now.toNat).1 ↔ InLockstep tb now := by
  have hmin := tb.tokens.le_toInt
  unfold InLockstep
  by_cases hedge : wholeTokens 1000 tb.lastTime now = 0 ∧ tb.tokens.toInt = -2 ^ 63
  · obtain ⟨h0, hlevel⟩ := hedge
    have hwrap := kernel_check_wraps h0 hlevel
    have hle := mirror_tokens_le (show tb.toPy.tokens ≤ 1000 from hhi) now.toNat
    refine iff_of_false (fun h => ?_) (by omega)
    rw [← h, hwrap] at hle
    omega
  · have hlo : wholeTokens 1000 tb.lastTime now = 0 → -2 ^ 63 < tb.tokens.toInt := by omega
    rw [kernel_check hlo hhi, mirror_check]
    -- whether each of the two earns anything decides where its clock stands
    by_cases hc : wholeTokens 1000 tb.lastTime now = 0
    · by_cases hp : Smp.earned 1000 tb.lastTime now = 0
      · rw [if_pos hc, if_pos hp]
        exact iff_of_true rfl (Or.inl ⟨hc.trans hp.symm, Or.inr (hlo hc)⟩)
      · rw [if_pos hc, if_neg hp, PyBucket.mk.injEq]
        have := last_ne_of_earned hp
        omega
    · by_cases hp : Smp.earned 1000 tb.lastTime now = 0
      · rw [if_neg hc, if_pos hp, PyBucket.mk.injEq]
        have := last_ne_of_wholeTokens hc
        omega
      · rw [if_neg hc, if_neg hp, PyBucket.mk.injEq]
        omega

/-! ## Sequences of calls -/

theorem Agree.nil (tb : TokenBucket) : Agree tb [] := ⟨rfl, rfl⟩

/-- Nor after any sequence of checks. -/
theorem mirror_replay_le {tb : PyBucket} (h : tb.tokens ≤ 1000) (nows : List ℤ) :
    (replay PyBucket.tokenBucketCheck tb nows).1.tokens ≤ 1000 := by
  induction nows using List.reverseRecOn with
  | nil => exact h
  | append_singleton nows now ih =>
    rw [replay_concat]
    exact mirror_tokens_le ih now

/-- In agreement so far, the next call keeps it exactly when it is in lockstep. -/
theorem Agree.concat_iff {tb : TokenBucket} (hhi : tb.tokens.toInt ≤ 1000) {nows : List UInt64} (h : Agree tb nows)
    (now : UInt64) :
    Agree tb (nows ++ [now]) ↔ InLockstep (replay tokenBucketCheck tb nows).1 now := by
  have hlevel : (replay tokenBucketCheck tb nows).1.tokens.toInt ≤ 1000 := by
    have := mirror_replay_le (show tb.toPy.tokens ≤ 1000 from hhi) (nows.map fun now => (now.toNat : ℤ))
    rwa [← h.bucket] at this
  have hpy : (replay PyBucket.tokenBucketCheck tb.toPy ((nows ++ [now]).map fun now => (now.toNat : ℤ))) =
      (((replay tokenBucketCheck tb nows).1.toPy.tokenBucketCheck now.toNat).1,
        (replay tokenBucketCheck tb nows).2 ++
          [((replay tokenBucketCheck tb nows).1.toPy.tokenBucketCheck now.toNat).2]) := by
    rw [List.map_append, List.map_singleton, replay_concat, ← h.bucket, ← h.results]
  rw [← stepAgree_iff hlevel]
  constructor
  · intro h'
    have hbucket := h'.bucket
    rwa [hpy, replay_concat] at hbucket
  · intro hstep
    constructor
    · rw [hpy, replay_concat, kernel_drops, mirror_drops, hstep]
    · rw [hpy, replay_concat]
      exact hstep

/-- **When the kernel's bucket and its mirror agree**: on a sequence of calls and all its prefixes,
exactly when each call is in lockstep on the bucket it finds. -/
theorem lockstep_iff (tb : TokenBucket) (hhi : tb.tokens.toInt ≤ 1000) (nows : List UInt64) :
    (∀ l, l <+: nows → Agree tb l) ↔
      ∀ l now, l ++ [now] <+: nows → InLockstep (replay tokenBucketCheck tb l).1 now := by
  constructor
  · intro h l now hl
    exact (Agree.concat_iff hhi (h l ((List.prefix_append l [now]).trans hl)) now).1 (h _ hl)
  · intro h l
    induction l using List.reverseRecOn with
    | nil =>
      intro _
      exact Agree.nil tb
    | append_singleton l now ih =>
      intro hl
      exact (Agree.concat_iff hhi (ih ((List.prefix_append l [now]).trans hl)) now).2 (h l now hl)

/-- Two calls a second apart, and a clock that steps back by 5 ns. -/
theorem lockstep_iff_backwards :
    (∀ l, l <+: [1000000010, 2000000010] → Agree ⟨10, 0⟩ l) ∧ ¬ ∀ l, l <+: [5] → Agree ⟨10, 0⟩ l := by
  constructor
  · refine (lockstep_iff ⟨10, 0⟩ (by decide) [1000000010, 2000000010]).2 ?_
    intro l now hl
    rcases l with _ | ⟨a, _ | ⟨b, l⟩⟩
    · obtain ⟨rfl, -⟩ := List.cons_prefix_cons.1 hl
      unfold InLockstep
      decide
    · obtain ⟨rfl, htail⟩ := List.cons_prefix_cons.1 hl
      obtain ⟨rfl, -⟩ := List.cons_prefix_cons.1 (show [now] <+: [2000000010] from htail)
      unfold InLockstep
      decide
    · have := hl.length_le
      simp only [List.length_append, List.length_cons, List.length_nil] at this
      omega
  · rw [lockstep_iff ⟨10, 0⟩ (by decide) [5]]
    intro h
    exact absurd (h [] 5 (List.prefix_refl _)) (by unfold InLockstep; decide)

/-- **The mirror drops what the kernel passes**: an empty bucket last used at 10 ns, called at 5 ns. -/
theorem mirror_parts :
    ¬ Agree ⟨10, 0⟩ [5] ∧ replay tokenBucketCheck ⟨10, 0⟩ [5] = (⟨5, 999⟩, [false]) ∧
      replay PyBucket.tokenBucketCheck (TokenBucket.toPy ⟨10, 0⟩) [5] = (⟨10, -1⟩, [true]) := by
  refine ⟨?_, by decide, by decide⟩
  intro h
  exact absurd h.results (by decide)

end FluxGuard
