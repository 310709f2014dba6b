import FluxGuard.Data.Bucket
import FluxGuard.Data.Word
import FluxGuard.Model.Filter

/-!
# The filter's buckets as integer buckets

* `tokenBucketCheck_eq`: on a bucket in range, `token_bucket_check` is
  `Bucket.take` at 1000 tokens per second with a capacity of 1000, its arithmetic
  modulo `2^64`.
* `globalBucketCheck_eq`: the global bucket is the integer bucket `globalTake`.

Ranges are proved along runs in `FluxGuard.Proof.Sane`; nothing overflows there.
-/

namespace FluxGuard

open Bucket

/-- The constants of a source's bucket: `KERN_PPS_LIMIT` tokens per second. -/
def perSource : Params := ⟨1000, 10 ^ 9, 2 ^ 64, 1000, by decide, by decide⟩

/-- The constants of the global bucket: `GLOBAL_PPS_LIMIT` tokens per second. -/
def aggregate : Params := ⟨500000, 10 ^ 9, 2 ^ 64, 500000, by decide, by decide⟩

/-- A bucket as integers. -/
def TokenBucket.toState (tb : TokenBucket) : State := ⟨tb.tokens.toInt, tb.lastTime.toNat⟩

@[simp] theorem TokenBucket.toState_tokens (tb : TokenBucket) : tb.toState.tokens = tb.tokens.toInt := rfl
@[simp] theorem TokenBucket.toState_last (tb : TokenBucket) : tb.toState.last = tb.lastTime.toNat := rfl

@[simp] theorem perSource_rate : perSource.rate = 1000 := rfl
@[simp] theorem perSource_unit : perSource.unit = 10 ^ 9 := rfl
@[simp] theorem perSource_modulus : perSource.modulus = 2 ^ 64 := rfl
@[simp] theorem perSource_cap : perSource.cap = 1000 := rfl
@[simp] theorem aggregate_rate : aggregate.rate = 500000 := rfl
@[simp] theorem aggregate_unit : aggregate.unit = 10 ^ 9 := rfl
@[simp] theorem aggregate_modulus : aggregate.modulus = 2 ^ 64 := rfl
@[simp] theorem aggregate_cap : aggregate.cap = 500000 := rfl

/-- The global bucket on integers: a refill waits for more than 100 ms, always moves
the clock, and the debt is clamped at 100000. -/
def globalTake (s : State) (now : ℕ) : State :=
  let s' : State := if 10 ^ 8 < (now + (2 ^ 64 - s.last)) % 2 ^ 64 then
      ⟨min (s.tokens + refill aggregate s.last now) 500000, now⟩ else s
  ⟨max (s'.tokens - 1) (-100000), s'.last⟩

/-- The refill of the machine word is the refill of the abstract bucket. -/
theorem toNat_refillOf (P : Params) (hu : P.unit = 10 ^ 9) (hm : P.modulus = 2 ^ 64) (last now limit : UInt64)
    (hl : limit.toNat = P.rate) :
    (refillOf (now - last) limit).toNat = refill P last.toNat now.toNat := by
  unfold refillOf refill phase
  rw [UInt64.toNat_div, UInt64.toNat_mul, toNat_sub_wrap, hl, hu, hm]
  rfl

/-- A refill is small: the clock is 64 bits wide and the unit a second. -/
theorem refill_lt (P : Params) (hu : P.unit = 10 ^ 9) (hm : P.modulus = 2 ^ 64) (last now : ℕ) :
    refill P last now < 2 ^ 35 := by
  have h := phase_lt P last now
  rw [hm] at h
  unfold refill
  rw [hu]
  omega

/-- Below 2^64/1000 ns of uptime a source earns one token per millisecond. -/
theorem refill_perSource {last now : ℕ} (h : last ≤ now) (hm : now * 1000 < 2 ^ 64) :
    refill perSource last now = (now - last) / 1000000 := by
  have hprod : (now - last) * 1000 < 2 ^ 64 :=
    Nat.lt_of_le_of_lt (Nat.mul_le_mul_right _ (Nat.sub_le now last)) hm
  have hnow : now < 2 ^ 64 := Nat.lt_of_le_of_lt (Nat.le_mul_of_pos_right now (by decide)) hm
  unfold refill
  rw [phase_eq (P := perSource) h hnow hprod]
  exact Nat.mul_div_mul_right (now - last) 1000000 (by decide : 0 < 1000)

theorem KERN_PPS_LIMIT_toInt : KERN_PPS_LIMIT.toInt = 1000 := by decide
theorem GLOBAL_PPS_LIMIT_toInt : GLOBAL_PPS_LIMIT.toInt = 500000 := by decide

/-! ## The refill -/

/-- The bucket that `token_bucket_check` charges. -/
def filled (tb : TokenBucket) (now : UInt64) : TokenBucket :=
  if now - tb.lastTime > 0 then
    if refillOf (now - tb.lastTime) KERN_PPS_LIMIT.toUInt64 > 0 then
      { lastTime := now,
        tokens := if tb.tokens + (refillOf (now - tb.lastTime) KERN_PPS_LIMIT.toUInt64).toInt64 > KERN_PPS_LIMIT
          then KERN_PPS_LIMIT
          else tb.tokens + (refillOf (now - tb.lastTime) KERN_PPS_LIMIT.toUInt64).toInt64 }
    else tb
  else tb

/-- The bucket that the filter charges for a frame. -/
def globalFilled (gtb : TokenBucket) (now : UInt64) : TokenBucket :=
  if now - gtb.lastTime > 100000000 then
    { lastTime := now,
      tokens := if gtb.tokens + (refillOf (now - gtb.lastTime) GLOBAL_PPS_LIMIT.toUInt64).toInt64 > GLOBAL_PPS_LIMIT
        then GLOBAL_PPS_LIMIT
        else gtb.tokens + (refillOf (now - gtb.lastTime) GLOBAL_PPS_LIMIT.toUInt64).toInt64 }
  else gtb

/-- A check is a refill and one token taken. -/
theorem tokenBucketCheck_filled (tb : TokenBucket) (now : UInt64) :
    tokenBucketCheck tb now =
      ({ filled tb now with tokens := (filled tb now).tokens - 1 }, decide ((filled tb now).tokens - 1 < 0)) := rfl

/-- The same for the aggregate bucket, which does not go below its floor. -/
theorem globalBucketCheck_filled (gtb : TokenBucket) (now : UInt64) :
    globalBucketCheck gtb now =
      if (globalFilled gtb now).tokens - 1 < 0 then
        ({ globalFilled gtb now with
            tokens := if (globalFilled gtb now).tokens - 1 < -100000 then -100000
              else (globalFilled gtb now).tokens - 1 }, true)
      else ({ globalFilled gtb now with tokens := (globalFilled gtb now).tokens - 1 }, false) := rfl

/-- A refill is worth the tokens that the time has earned, and its cast to `s64` is exact. -/
theorem toInt_refill (P : Params) (hu : P.unit = 10 ^ 9) (hm : P.modulus = 2 ^ 64) (last now limit : UInt64)
    (hl : limit.toNat = P.rate) :
    (refillOf (now - last) limit).toInt64.toInt = refill P last.toNat now.toNat := by
  have hR := toNat_refillOf P hu hm last now limit hl
  have hRlt := refill_lt P hu hm last.toNat now.toNat
  rw [toInt_toInt64_of_lt (by omega), hR]

/-- The refill of a source, signed. -/
theorem toInt_refill_source (tb : TokenBucket) (now : UInt64) :
    (refillOf (now - tb.lastTime) KERN_PPS_LIMIT.toUInt64).toInt64.toInt =
      refill perSource tb.lastTime.toNat now.toNat :=
  toInt_refill perSource rfl rfl tb.lastTime now _ (by decide)

/-- The refill of the aggregate bucket, signed. -/
theorem toInt_refill_global (gtb : TokenBucket) (now : UInt64) :
    (refillOf (now - gtb.lastTime) GLOBAL_PPS_LIMIT.toUInt64).toInt64.toInt =
      refill aggregate gtb.lastTime.toNat now.toNat :=
  toInt_refill aggregate rfl rfl gtb.lastTime now _ (by decide)

/-- There is a refill when there are tokens to credit. -/
theorem refillOf_pos_iff (tb : TokenBucket) (now : UInt64) :
    refillOf (now - tb.lastTime) KERN_PPS_LIMIT.toUInt64 > 0 ↔ refill perSource tb.lastTime.toNat now.toNat ≠ 0 := by
  rw [gt_iff_lt, UInt64.lt_iff_toNat_lt,
    toNat_refillOf perSource rfl rfl tb.lastTime now KERN_PPS_LIMIT.toUInt64 (by decide)]
  exact Nat.pos_iff_ne_zero

/-- **The refill of a source's bucket is `Bucket.fill`.** -/
theorem toState_filled {tb : TokenBucket} (now : UInt64) (hhi : tb.tokens.toInt ≤ 1000) :
    (filled tb now).toState = fill perSource tb.toState now.toNat := by
  have hmin := tb.tokens.le_toInt
  have hRlt := refill_lt perSource rfl rfl tb.lastTime.toNat now.toNat
  have hcast := toInt_refill_source tb now
  have hpos := refillOf_pos_iff tb now
  unfold filled
  by_cases h0 : refill perSource tb.lastTime.toNat now.toNat = 0
  · rw [fill_of_zero (s := tb.toState) h0, if_neg fun h => hpos.1 h h0, ite_self]
  · have hg0 : now - tb.lastTime > 0 := by
      rw [gt_iff_lt, UInt64.lt_iff_toNat_lt]
      refine Nat.pos_of_ne_zero fun hz => h0 ?_
      rw [← toNat_refillOf perSource rfl rfl tb.lastTime now KERN_PPS_LIMIT.toUInt64 (by decide)]
      unfold refillOf
      rw [UInt64.toNat_div, UInt64.toNat_mul, show (now - tb.lastTime).toNat = 0 from hz]
      simp
    have hadd :=
      toInt_add_of_fits (a := tb.tokens) (b := (refillOf (now - tb.lastTime) KERN_PPS_LIMIT.toUInt64).toInt64)
      (by omega) (by omega)
    rw [hcast] at hadd
    rw [fill_of_ne_zero (s := tb.toState) h0, if_pos hg0, if_pos (hpos.2 h0)]
    refine State.ext ?_ rfl
    simp only [TokenBucket.toState_tokens, TokenBucket.toState_last, gt_iff_lt, Int64.lt_iff_toInt_lt,
      KERN_PPS_LIMIT_toInt, hadd,
      Int64.toInt_ite, perSource_cap]
    split <;> omega

/-- The global bucket with the tokens of a refill, before the frame is charged. -/
def globalFill (s : State) (now : ℕ) : State :=
  if 10 ^ 8 < (now + (2 ^ 64 - s.last)) % 2 ^ 64 then ⟨min (s.tokens + refill aggregate s.last now) 500000, now⟩ else s

theorem globalTake_eq (s : State) (now : ℕ) :
    globalTake s now = ⟨max ((globalFill s now).tokens - 1) (-100000), (globalFill s now).last⟩ := rfl

/-- Within its range the aggregate bucket fills as the abstract one does. -/
theorem toState_globalFilled {gtb : TokenBucket} (now : UInt64) (hlo : -100000 ≤ gtb.tokens.toInt)
    (hhi : gtb.tokens.toInt ≤ 500000) :
    (globalFilled gtb now).toState = globalFill gtb.toState now.toNat := by
  have hRlt := refill_lt aggregate rfl rfl gtb.lastTime.toNat now.toNat
  have hcast := toInt_refill_global gtb now
  have hadd :=
    toInt_add_of_fits (a := gtb.tokens) (b := (refillOf (now - gtb.lastTime) GLOBAL_PPS_LIMIT.toUInt64).toInt64)
    (by omega) (by omega)
  rw [hcast] at hadd
  have hgap : now - gtb.lastTime > 100000000 ↔ 10 ^ 8 < (now.toNat + (2 ^ 64 - gtb.toState.last)) % 2 ^ 64 := by
    rw [gt_iff_lt, UInt64.lt_iff_toNat_lt, toNat_sub_wrap]
    rfl
  unfold globalFilled globalFill
  by_cases hg : now - gtb.lastTime > 100000000
  · rw [if_pos hg, if_pos (hgap.1 hg)]
    refine State.ext ?_ rfl
    simp only [TokenBucket.toState_tokens, TokenBucket.toState_last, gt_iff_lt, Int64.lt_iff_toInt_lt,
      GLOBAL_PPS_LIMIT_toInt, hadd,
      Int64.toInt_ite]
    split <;> omega
  · rw [if_neg hg, if_neg (fun h => hg (hgap.2 h))]

/-- A refill keeps the bucket in its range. -/
theorem globalFill_range {s : State} (now : ℕ) (hlo : -100000 ≤ s.tokens) (hhi : s.tokens ≤ 500000) :
    -100000 ≤ (globalFill s now).tokens ∧ (globalFill s now).tokens ≤ 500000 := by
  unfold globalFill
  split
  · dsimp only
    omega
  · exact ⟨hlo, hhi⟩

/-! ## The checks -/

/-- `token_bucket_check` on a level from which it cannot fall below `-2^63`. -/
theorem tokenBucketCheck_of_fits (tb : TokenBucket) (now : UInt64)
    (hlo : refill perSource tb.lastTime.toNat now.toNat = 0 → -2 ^ 63 < tb.tokens.toInt)
    (hhi : tb.tokens.toInt ≤ 1000) :
    (tokenBucketCheck tb now).1.toState = take perSource tb.toState now.toNat ∧
      (tokenBucketCheck tb now).2 = decide ((take perSource tb.toState now.toNat).tokens < 0) := by
  have hmin := tb.tokens.le_toInt
  have hfill := toState_filled now hhi
  have hrange : -2 ^ 63 < (filled tb now).tokens.toInt ∧ (filled tb now).tokens.toInt ≤ 1000 := by
    have h := congrArg State.tokens hfill
    rw [TokenBucket.toState_tokens] at h
    rw [h]
    unfold fill
    split
    · rename_i h0
      exact ⟨hlo h0, hhi⟩
    · simp only [TokenBucket.toState_tokens, TokenBucket.toState_last, perSource_cap] at *
      omega
  have hsub : ((filled tb now).tokens - 1).toInt = (fill perSource tb.toState now.toNat).tokens - 1 := by
    rw [toInt_sub_of_fits (by simp; omega) (by simp; omega), ← hfill]
    simp
  rw [tokenBucketCheck_filled]
  constructor
  · refine State.ext hsub ?_
    rw [take, ← hfill]
    rfl
  · simp only [Int64.lt_iff_toInt_lt, hsub, take]
    simp

/-- **`token_bucket_check` is `Bucket.take`**, and drops exactly when the level is
below zero afterwards. -/
theorem tokenBucketCheck_eq (tb : TokenBucket) (now : UInt64) (hlo : -2 ^ 63 < tb.tokens.toInt)
    (hhi : tb.tokens.toInt ≤ 1000) :
    (tokenBucketCheck tb now).1.toState = take perSource tb.toState now.toNat ∧
      (tokenBucketCheck tb now).2 = decide ((take perSource tb.toState now.toNat).tokens < 0) :=
  tokenBucketCheck_of_fits tb now (fun _ => hlo) hhi

/-- **The global bucket is `globalTake`**, and drops exactly when the level is below
zero afterwards. -/
theorem globalBucketCheck_eq (gtb : TokenBucket) (now : UInt64) (hlo : -100000 ≤ gtb.tokens.toInt)
    (hhi : gtb.tokens.toInt ≤ 500000) :
    (globalBucketCheck gtb now).1.toState = globalTake gtb.toState now.toNat ∧
      (globalBucketCheck gtb now).2 = decide ((globalTake gtb.toState now.toNat).tokens < 0) := by
  have hfill := toState_globalFilled now hlo hhi
  have htokens := congrArg State.tokens hfill
  have hlast := congrArg State.last hfill
  rw [TokenBucket.toState_tokens] at htokens
  rw [TokenBucket.toState_last] at hlast
  have hrange := globalFill_range (s := gtb.toState) now.toNat hlo hhi
  set s' := globalFill gtb.toState now.toNat with hs'
  have hsub : ((globalFilled gtb now).tokens - 1).toInt = s'.tokens - 1 := by
    rw [toInt_sub_of_fits (by simp; omega) (by simp; omega), htokens]
    simp
  have htake : globalTake gtb.toState now.toNat = ⟨max (s'.tokens - 1) (-100000), s'.last⟩ := globalTake_eq _ _
  have hneg : (globalFilled gtb now).tokens - 1 < 0 ↔ s'.tokens - 1 < 0 := by
    rw [Int64.lt_iff_toInt_lt, hsub]
    rfl
  have hclamp : (-100000 : Int64).toInt = -100000 := by decide
  rw [globalBucketCheck_filled, htake]
  by_cases hn : (globalFilled gtb now).tokens - 1 < 0
  · rw [if_pos hn]
    rw [hneg] at hn
    refine ⟨State.ext ?_ hlast, ?_⟩
    · simp only [TokenBucket.toState_tokens, Int64.toInt_ite, Int64.lt_iff_toInt_lt, hsub, hclamp]
      split <;> omega
    · simp only [Bool.true_eq, decide_eq_true_eq]
      omega
  · rw [if_neg hn]
    rw [hneg] at hn
    refine ⟨State.ext ?_ hlast, ?_⟩
    · simp only [TokenBucket.toState_tokens, hsub]
      omega
    · simp only [Bool.false_eq, decide_eq_false_iff_not]
      omega

/-! ## What the global bucket can do -/

/-- A frame at the time of the last refill costs a token. -/
theorem globalTake_at_last (T : ℤ) {t : ℕ} (ht : t < 2 ^ 64) :
    globalTake ⟨T, t⟩ t = ⟨max (T - 1) (-100000), t⟩ := by
  have hgap := gap_eq (P := aggregate) (le_refl t) ht
  rw [aggregate_modulus, Nat.sub_self] at hgap
  unfold globalTake
  simp only [hgap, Nat.not_lt_zero, if_false]

/-- A frame at the time of the last refill just pays. -/
theorem globalTake_self {s : State} (hs : s.last < 2 ^ 64) (h0 : -100000 < s.tokens) :
    globalTake s s.last = ⟨s.tokens - 1, s.last⟩ := by
  have h : globalTake s s.last = ⟨max (s.tokens - 1) (-100000), s.last⟩ := globalTake_at_last s.tokens hs
  rwa [max_eq_left (by omega)] at h

/-- Nothing takes the bucket below its floor. -/
theorem globalTake_ge (s : State) (now : ℕ) : -100000 ≤ (globalTake s now).tokens := le_max_right _ _

/-- A bucket that is not full stays below its capacity. -/
theorem globalTake_lt {s : State} (h : s.tokens < 500000) (now : ℕ) : (globalTake s now).tokens < 500000 := by
  unfold globalTake
  simp only
  split
  · have := min_le_right (s.tokens + refill aggregate s.last now) 500000
    dsimp only
    omega
  · omega

/-- In time order, the level rises by at most what the clock moves on earn. -/
theorem globalTake_credit {s : State} {now : ℕ} (hlo : -100000 ≤ s.tokens)
    (h : s.last ≤ now ∨ now + (2 ^ 64 - 10 ^ 8) ≤ s.last) (hs : s.last < 2 ^ 64) (hn : now < 2 ^ 64) :
    s.last ≤ (globalTake s now).last ∧
      2000 * (globalTake s now).tokens - (globalTake s now).last ≤ 2000 * s.tokens - s.last ∧
      (0 ≤ (globalTake s now).tokens →
        2000 * ((globalTake s now).tokens + 1) - (globalTake s now).last ≤ 2000 * s.tokens - s.last) := by
  rcases h with h | h
  · have hgap := gap_eq (P := aggregate) h hn
    rw [aggregate_modulus] at hgap
    have hr : 2000 * refill aggregate s.last now ≤ now - s.last := by
      have h1 := unit_mul_refill_le (P := aggregate) s.last now
      have h2 := phase_le (P := aggregate) h hn
      rw [aggregate_unit] at h1
      rw [aggregate_rate] at h2
      omega
    unfold globalTake
    simp only [hgap]
    split
    · have := min_le_left (s.tokens + refill aggregate s.last now) 500000
      simp only
      omega
    · omega
  · have hg : ¬ 10 ^ 8 < (now + (2 ^ 64 - s.last)) % 2 ^ 64 := by omega
    unfold globalTake
    simp only [if_neg hg]
    omega

/-- The time is moved on only after more than 100 ms. -/
theorem last_globalTake (s : State) (now : ℕ) :
    (globalTake s now).last = if 10 ^ 8 < (now + (2 ^ 64 - s.last)) % 2 ^ 64 then now else s.last := by
  unfold globalTake
  simp only
  split <;> rfl

/-- In order, the global bucket gains at most what the time earns. -/
theorem globalTake_le {s : State} {now : ℕ} (hs : s.last < 2 ^ 64) (hn : now < 2 ^ 64)
    (ho : s.last ≤ now ∨ now + (2 ^ 64 - 10 ^ 8) ≤ s.last) :
    (globalTake s now).tokens ≤ max (s.tokens + ((now - s.last) * 500000 / 1000000000 : ℕ) - 1) (-100000) := by
  unfold globalTake
  simp only
  refine max_le_max ?_ le_rfl
  split
  · rename_i hgap
    have hle : s.last ≤ now := by omega
    have hr : refill aggregate s.last now ≤ (now - s.last) * 500000 / 1000000000 :=
      Nat.div_le_div_right (phase_le (P := aggregate) hle hn)
    have := min_le_left (s.tokens + refill aggregate s.last now) 500000
    simp only
    omega
  · omega

end FluxGuard
