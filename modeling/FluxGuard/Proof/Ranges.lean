import FluxGuard.Proof.Bucket
import FluxGuard.Proof.View

/-!
# Token ranges in any order of time

`FluxGuard.Proof.Sane` bounds the levels along runs whose clock does not go back. Here the clock
readings are arbitrary, also those whose products wrap modulo `2^64`: a source's level falls by at
most one a frame, so that the number of frames bounds it from below.

* `Kernel.InRange.step`: a frame takes at most one token from a bucket, and leaves at most its capacity less one.
* `Kernel.InRange.fits`: no `s64` addition or subtraction on levels in range overflows.
* `token_ranges`: so none does in a run of fewer than `2^62` frames.
-/

namespace FluxGuard

open Bucket

/-- An `s64` holds the value. -/
def FitsS64 (x : ℤ) : Prop := -2 ^ 63 ≤ x ∧ x < 2 ^ 63

/-- The signed arithmetic of `token_bucket_check`: `tb->tokens += (__s64)refill` and `tb->tokens -= 1`. -/
structure SourceFits (tb : TokenBucket) (now : UInt64) : Prop where
  add : refillOf (now - tb.lastTime) KERN_PPS_LIMIT.toUInt64 > 0 →
    FitsS64 (tb.tokens.toInt + (refillOf (now - tb.lastTime) KERN_PPS_LIMIT.toUInt64).toInt64.toInt)
  sub : FitsS64 ((filled tb now).tokens.toInt - 1)

/-- The signed arithmetic on the global bucket. -/
structure GlobalFits (gtb : TokenBucket) (now : UInt64) : Prop where
  add : now - gtb.lastTime > 100000000 →
    FitsS64 (gtb.tokens.toInt + (refillOf (now - gtb.lastTime) GLOBAL_PPS_LIMIT.toUInt64).toInt64.toInt)
  sub : FitsS64 ((globalFilled gtb now).tokens.toInt - 1)

/-- Every frame leaves the global bucket in its range. -/
theorem globalBucketCheck_range {gtb : TokenBucket} (hlo : -100000 ≤ gtb.tokens.toInt) (hhi : gtb.tokens.toInt ≤ 499999)
    (now : UInt64) :
    -100000 ≤ (globalBucketCheck gtb now).1.tokens.toInt ∧ (globalBucketCheck gtb now).1.tokens.toInt ≤ 499999 := by
  obtain ⟨heq, -⟩ := globalBucketCheck_eq gtb now hlo (by omega)
  have htok := congrArg State.tokens heq
  rw [TokenBucket.toState_tokens] at htok
  have hge := globalTake_ge gtb.toState now.toNat
  have hlt := globalTake_lt (s := gtb.toState) (show gtb.tokens.toInt < 500000 by omega) now.toNat
  rw [htok]
  exact ⟨hge, by omega⟩

/-- A frame at `now` overflows neither on the global bucket nor on any source's. -/
structure Kernel.FrameFits (k : Kernel) (now : UInt64) : Prop where
  global : GlobalFits k.globalRateMap now
  source : ∀ s tb, (k.view s).bucket = some tb → SourceFits tb now

/-- The levels after `c` frames. -/
structure Kernel.InRange (k : Kernel) (c : ℕ) : Prop where
  lo : -100000 ≤ k.globalRateMap.tokens.toInt
  hi : k.globalRateMap.tokens.toInt ≤ 499999
  source : ∀ s tb, (k.view s).bucket = some tb → -(c : ℤ) ≤ tb.tokens.toInt ∧ tb.tokens.toInt ≤ 999

/-- The frames among some events. -/
def frames (es : List Event) : ℕ := es.countP fun e => e.now.isSome

namespace Kernel.InRange

variable {k : Kernel} {c : ℕ}

/-- The empty kernel is in range. -/
theorem init (cpus : ℕ) : (Kernel.init cpus).InRange 0 := by
  refine ⟨by simp [Kernel.init], by simp [Kernel.init], ?_⟩
  intro s tb h
  cases s <;> cases h

/-- A later bound is a weaker one. -/
theorem mono {c' : ℕ} (h : k.InRange c) (hle : c ≤ c') : k.InRange c' := by
  refine ⟨h.lo, h.hi, ?_⟩
  intro s tb hb
  have := h.source s tb hb
  omega

/-- **No overflow**: the levels are far from the ends of `s64`, and a refill is below `2^35`. -/
theorem fits (h : k.InRange c) (hc : c ≤ 2 ^ 62) (now : UInt64) : k.FrameFits now := by
  constructor
  · have hlo := h.lo
    have hhi := h.hi
    constructor
    · intro _
      have hlt := refill_lt aggregate rfl rfl k.globalRateMap.lastTime.toNat now.toNat
      rw [toInt_refill_global]
      constructor
      · omega
      · omega
    · have hfill := congrArg State.tokens (toState_globalFilled now hlo (by omega))
      have hrange := globalFill_range (s := k.globalRateMap.toState) now.toNat hlo
        (show k.globalRateMap.tokens.toInt ≤ 500000 by omega)
      rw [TokenBucket.toState_tokens] at hfill
      rw [hfill]
      constructor
      · omega
      · omega
  · intro s tb hb
    obtain ⟨hlo, hhi⟩ := h.source s tb hb
    have hlt := refill_lt perSource rfl rfl tb.lastTime.toNat now.toNat
    constructor
    · intro _
      rw [toInt_refill_source]
      constructor
      · omega
      · omega
    · have htake := tokens_take_ge (P := perSource) (s := tb.toState) (show tb.tokens.toInt ≤ 1000 by omega) now.toNat
      have htake' := tokens_take_lt (P := perSource) (s := tb.toState) (show tb.tokens.toInt < 1000 by omega) now.toNat
      have hfill := congrArg State.tokens (toState_filled now (show tb.tokens.toInt ≤ 1000 by omega))
      rw [TokenBucket.toState_tokens] at hfill
      rw [hfill]
      unfold take at htake htake'
      rw [TokenBucket.toState_tokens] at htake
      rw [perSource_cap] at htake'
      dsimp only at htake htake'
      constructor
      · omega
      · omega

/-- A source's bucket after a packet: one token less at most. -/
theorem check (h : k.InRange c) (hc : c < 2 ^ 62) {s : Source} {tb : TokenBucket} (hb : (k.view s).bucket = some tb)
    (now : UInt64) :
    -((c + 1 : ℕ) : ℤ) ≤ (tokenBucketCheck tb now).1.tokens.toInt ∧ (tokenBucketCheck tb now).1.tokens.toInt ≤ 999 := by
  obtain ⟨hlo, hhi⟩ := h.source s tb hb
  obtain ⟨heq, -⟩ := tokenBucketCheck_eq tb now (by omega) (by omega)
  have htok := congrArg State.tokens heq
  rw [TokenBucket.toState_tokens] at htok
  have hge := tokens_take_ge (P := perSource) (s := tb.toState) (show tb.tokens.toInt ≤ 1000 by omega) now.toNat
  have hlt := tokens_take_lt (P := perSource) (s := tb.toState) (show tb.tokens.toInt < 1000 by omega) now.toNat
  rw [TokenBucket.toState_tokens] at hge
  rw [perSource_cap] at hlt
  rw [htok]
  constructor
  · omega
  · omega

/-- **A frame keeps the ranges**, and so does everything else. -/
theorem step (h : k.InRange c) (hc : c < 2 ^ 62) (e : Event) :
    (k.step e).InRange (c + if e.now.isSome then 1 else 0) := by
  have hglobal : -100000 ≤ (k.step e).globalRateMap.tokens.toInt ∧ (k.step e).globalRateMap.tokens.toInt ≤ 499999 := by
    rcases Kernel.globalRateMap_step k e with ⟨hsame, -⟩ | ⟨now, host, data, rfl, -, hcheck⟩
    · rw [hsame]
      exact ⟨h.lo, h.hi⟩
    · rw [hcheck]
      exact globalBucketCheck_range h.lo h.hi now
  refine ⟨hglobal.1, hglobal.2, ?_⟩
  intro s tb' hb'
  rw [Kernel.view_step] at hb'
  rcases View.bucket_step_cases _ hb' with hb | ⟨now, host, filtered, room, hact, hnew⟩
  · have := h.source s tb' hb
    omega
  · obtain ⟨data, rfl, -⟩ := Kernel.act_packet hact
    rw [show (Event.frame now host data).now.isSome = true from rfl, if_pos rfl]
    rcases hnew with rfl | ⟨tb, hb, rfl⟩
    · have hfresh : (freshBucket now).tokens.toInt = 999 := by
        show (KERN_PPS_LIMIT - 1).toInt = 999
        decide
      rw [hfresh]
      omega
    · exact h.check hc hb now

end Kernel.InRange

/-- The levels along a run. -/
theorem inRange_at (cpus : ℕ) {es : List Event} (hframes : frames es < 2 ^ 62) {n : ℕ} (hn : n ≤ es.length) :
    (kAt (Kernel.init cpus) es n).InRange (frames (es.take n)) := by
  induction n with
  | zero =>
    rw [kAt_zero]
    exact Kernel.InRange.init cpus
  | succ n ih =>
    have hcount : frames (es.take (n + 1)) = frames (es.take n) + if es[n].now.isSome then 1 else 0 := by
      unfold frames
      rw [List.take_add_one, List.getElem?_eq_getElem hn, Option.toList_some, List.countP_append, List.countP_singleton]
    have hle : frames (es.take n) ≤ frames es := (List.take_sublist n es).countP_le
    rw [kAt_succ _ _ hn, hcount]
    exact (ih (by omega)).step (by omega) es[n]

/-- **Token ranges.** In every run of fewer than `2^62` frames, whatever their clock readings and whatever else happens
to the maps, the levels stay in range and no `s64` addition or subtraction on them overflows. -/
theorem token_ranges (cpus : ℕ) (es : List Event) (hframes : frames es < 2 ^ 62) :
    (∀ n ≤ es.length, -100000 ≤ (kAt (Kernel.init cpus) es n).globalRateMap.tokens.toInt ∧
      (kAt (Kernel.init cpus) es n).globalRateMap.tokens.toInt ≤ 499999 ∧
      ∀ s tb, ((kAt (Kernel.init cpus) es n).view s).bucket = some tb → tb.tokens.toInt ≤ 999) ∧
    ∀ n (hn : n < es.length) now, es[n].now = some now → (kAt (Kernel.init cpus) es n).FrameFits now := by
  constructor
  · intro n hn
    have h := inRange_at cpus hframes hn
    refine ⟨h.lo, h.hi, ?_⟩
    intro s tb hb
    exact (h.source s tb hb).2
  · intro n hn now _
    have hle : frames (es.take n) ≤ frames es := (List.take_sublist n es).countP_le
    exact (inRange_at cpus hframes hn.le).fits (by omega) now

/-- Two frames with the clock going back. -/
def backwards : List Event :=
  [.frame 201500000 quiet (ip4Frame 10 0 1 5 6), .frame 200000000 quiet (ip4Frame 10 0 1 5 6)]

theorem token_ranges_backwards :
    (kAt (Kernel.init 1) backwards 2).globalRateMap.tokens.toInt ≤ 499999 ∧
      (kAt (Kernel.init 1) backwards 1).FrameFits 200000000 := by
  obtain ⟨hlevels, hfits⟩ := token_ranges 1 backwards (by decide)
  exact ⟨(hlevels 2 le_rfl).2.1, hfits 1 (by decide) 200000000 rfl⟩

end FluxGuard
