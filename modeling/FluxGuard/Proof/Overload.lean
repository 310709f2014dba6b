import FluxGuard.Proof.Global

/-!
# The global bucket under a sustained overload

Frames come at most 2 µs apart: 500000 a second or more. The global bucket charges the
frames that it drops too, so that a surplus once built up is never worked off.

* `admitted_eq_covered`: frame `n` of such a stream is let through exactly when it is
  `Covered`: the frames before it outnumber neither the tokens the stream started with and the
  credit so far, nor, since any earlier frame, a full bucket and the credit since then.
* `throughput_iff`: so the bucket lets `400000 * T - 100000` frames through exactly when as many are
  covered.
* `shut_down`: after a burst of 100000 frames at boot, none of a second's frames is.
-/

namespace FluxGuard

open Bucket

/-- The clock readings of the frames that are charged to the global bucket. -/
def charges (es : List Event) : List UInt64 := es.filterMap Event.charge

/-- The number of frames of a run that the global bucket lets through. -/
def admitted (k : Kernel) : List Event → ℕ
  | [] => 0
  | e :: es => (if k.letsThrough e then 1 else 0) + admitted (k.step e) es

/-! ## The bucket alone -/

/-- The bucket that frame `n` of a stream finds. -/
def bucketAt (tb : TokenBucket) (t : ℕ → UInt64) : ℕ → TokenBucket
  | 0 => tb
  | n + 1 => (globalBucketCheck (bucketAt tb t n) (t n)).1

/-- The first check may be taken into the start. -/
theorem bucketAt_shift (tb : TokenBucket) (t : ℕ → UInt64) (n : ℕ) :
    bucketAt tb t (n + 1) = bucketAt (globalBucketCheck tb (t 0)).1 (fun i => t (i + 1)) n := by
  induction n with
  | zero => rfl
  | succ n ih => rw [bucketAt, ih, bucketAt]

/-- The global bucket of a run only depends on when its frames come. -/
theorem admitted_eq (k : Kernel) (es : List Event) :
    admitted k es = ∑ n ∈ Finset.range (charges es).length,
      if (globalBucketCheck (bucketAt k.globalRateMap (fun i => (charges es).getD i 0) n) ((charges es).getD n 0)).2
      then 0 else 1 := by
  induction es generalizing k with
  | nil => rfl
  | cons e es ih =>
    rw [admitted, ih]
    cases hch : e.charge with
    -- an event that is not charged changes neither side
    | none =>
      rw [k.letsThrough_of_none hch, Kernel.globalRateMap_of_none hch, if_neg Bool.false_ne_true, Nat.zero_add,
        charges, charges, List.filterMap_cons_none hch]
    | some now =>
      have hcons : charges (e :: es) = now :: charges es := List.filterMap_cons_some hch
      -- the first charged frame is term 0, the others shift by one
      have hshift : ∀ n, bucketAt k.globalRateMap (fun i => (now :: charges es).getD i 0) (n + 1) =
          bucketAt (globalBucketCheck k.globalRateMap now).1 (fun i => (charges es).getD i 0) n :=
        bucketAt_shift _ _
      have hfirst : (if k.letsThrough e then 1 else 0) =
          if (globalBucketCheck (bucketAt k.globalRateMap (fun i => (now :: charges es).getD i 0) 0)
            ((now :: charges es).getD 0 0)).2 then 0 else 1 := by
        rw [k.letsThrough_of_some hch, List.getD_cons_zero, bucketAt]
        unfold Kernel.overloaded
        cases (globalBucketCheck k.globalRateMap now).2 <;> rfl
      rw [hcons, List.length_cons, Finset.sum_range_succ', ← hfirst, Kernel.globalRateMap_of_some hch]
      simp only [hshift, List.getD_cons_succ]
      rw [Nat.add_comm]

/-! ## Which frames are covered -/

section Stream

variable (m₀ : ℕ) (t : ℕ → ℕ)

/-- The time of the last refill when frame `n` is charged, if it is `m₀` for frame 0. A refill waits for
more than 100 ms. -/
def refilledAt : ℕ → ℕ
  | 0 => m₀
  | n + 1 => if 10 ^ 8 < t (n + 1) - refilledAt n then t (n + 1) else refilledAt n

/-- The tokens that a refill gives between frames `n` and `n + 1`: one for 2 µs. -/
def refilled (n : ℕ) : ℕ :=
  if 10 ^ 8 < t (n + 1) - refilledAt m₀ t n then (t (n + 1) - refilledAt m₀ t n) / 2000 else 0

end Stream

/-- The time of frame `n` of a run. -/
def frameTime (es : List Event) (n : ℕ) : ℕ := ((charges es).getD n 0).toNat

/-- The bucket that the first frame of a run is charged to. -/
def startLevel (k : Kernel) (es : List Event) : State := globalFill k.globalRateMap.toState (frameTime es 0)

/-- The tokens credited between the first frame of a run and frame `n`. -/
def creditAt (k : Kernel) (es : List Event) (n : ℕ) : ℕ :=
  credited (refilled (startLevel k es).last (frameTime es)) n

/-- Frame `n` of a run comes before the tokens run out. -/
def Covered (k : Kernel) (es : List Event) (n : ℕ) : Prop :=
  (n : ℤ) < (startLevel k es).tokens + creditAt k es n ∧
    ∀ i ≤ n, (n : ℤ) - i < 500000 + creditAt k es n - creditAt k es i

instance (k : Kernel) (es : List Event) (n : ℕ) : Decidable (Covered k es n) := inferInstanceAs (Decidable (_ ∧ _))

/-! ## The stream -/

/-- A refill of at most a quantum and 2 µs does not wrap. -/
theorem globalFill_next {s : State} {now : ℕ} (hl : s.last ≤ now) (hq : now ≤ s.last + 100002000) (hn : now < 2 ^ 64) :
    globalFill s now =
      if 10 ^ 8 < now - s.last then ⟨min (s.tokens + ((now - s.last) / 2000 : ℕ)) 500000, now⟩ else s := by
  have hgap := gap_eq (P := aggregate) hl hn
  have hphase := phase_eq (P := aggregate) hl hn (by rw [aggregate_rate, aggregate_modulus]; omega)
  have hrefill : refill aggregate s.last now = (now - s.last) / 2000 := by
    unfold refill
    rw [hphase, aggregate_rate, aggregate_unit]
    exact Nat.mul_div_mul_right (now - s.last) 2000 (by decide : 0 < 500000)
  rw [aggregate_modulus] at hgap
  unfold globalFill
  rw [hgap, hrefill]

/-- What frame `n` is charged to, beside the level that the stream would have without the floor of the debt.
Once at the floor, the bucket stays below zero. -/
structure Draining (m₀ : ℕ) (c₀ : ℤ) (t : ℕ → ℕ) (n : ℕ) (f : State) : Prop where
  last_eq : f.last = refilledAt m₀ t n
  last_le : f.last ≤ t n
  recent : t n ≤ f.last + 10 ^ 8
  tokens_le : f.tokens ≤ 500000
  track : f.tokens = level c₀ 500000 (refilled m₀ t) n ∨
    level c₀ 500000 (refilled m₀ t) n ≤ f.tokens ∧ 2000 * f.tokens + (t n - f.last : ℕ) < 0

namespace Draining

variable {m₀ : ℕ} {c₀ : ℤ} {t : ℕ → ℕ} {n : ℕ} {f : State}

/-- **Frames 2 µs apart never let the bucket recover.** -/
theorem next (h : Draining m₀ c₀ t n f) (hle : t n ≤ t (n + 1)) (hgap : t (n + 1) ≤ t n + 2000)
    (hlt : t (n + 1) < 2 ^ 64) :
    Draining m₀ c₀ t (n + 1) (globalFill ⟨max (f.tokens - 1) (-100000), f.last⟩ (t (n + 1))) := by
  obtain ⟨hlast, hl, hrecent, hcap, htrack⟩ := h
  rw [globalFill_next (by dsimp only; omega) (by dsimp only; omega) hlt]
  dsimp only
  -- either this frame refills, by what 2 µs frames have paid since the last refill, or it just pays
  by_cases hq : 10 ^ 8 < t (n + 1) - f.last
  · have hr : refilled m₀ t n = (t (n + 1) - f.last) / 2000 := by rw [refilled, ← hlast, if_pos hq]
    rw [if_pos hq]
    refine ⟨?_, le_rfl, by dsimp only; omega, min_le_right _ _, ?_⟩
    · rw [refilledAt, ← hlast, if_pos hq]
    · rw [level, hr]
      dsimp only
      omega
  · have hr : refilled m₀ t n = 0 := by rw [refilled, ← hlast, if_neg hq]
    rw [if_neg hq]
    refine ⟨?_, by dsimp only; omega, by dsimp only; omega, by dsimp only; omega, ?_⟩
    · rw [refilledAt, ← hlast, if_neg hq]
    · rw [level, hr]
      dsimp only
      omega

/-- A frame finds a token exactly when its level is positive. -/
theorem pos_iff (h : Draining m₀ c₀ t n f) : 0 < f.tokens ↔ 0 < level c₀ 500000 (refilled m₀ t) n := by
  rcases h.track with hl | ⟨hle, hneg⟩
  · rw [hl]
  · omega

end Draining

section Bucket

variable {tb : TokenBucket} {t : ℕ → UInt64}

/-- The bucket stays in its range. -/
theorem bucketAt_range (hlo : -100000 ≤ tb.tokens.toInt) (hhi : tb.tokens.toInt < 500000) (n : ℕ) :
    -100000 ≤ (bucketAt tb t n).tokens.toInt ∧ (bucketAt tb t n).tokens.toInt < 500000 := by
  induction n with
  | zero => exact ⟨hlo, hhi⟩
  | succ n ih =>
    have htok : (bucketAt tb t (n + 1)).tokens.toInt = (globalTake (bucketAt tb t n).toState (t n).toNat).tokens := by
      rw [bucketAt, ← (globalBucketCheck_eq _ (t n) ih.1 ih.2.le).1, TokenBucket.toState_tokens]
    rw [htok]
    exact ⟨globalTake_ge _ _, globalTake_lt ih.2 _⟩

/-- The bucket along a stream of `N` frames. -/
theorem draining_at (hlo : -100000 ≤ tb.tokens.toInt) (hhi : tb.tokens.toInt < 500000)
    (hlast : tb.lastTime.toNat ≤ (t 0).toNat) {N : ℕ} (hle : ∀ n, n + 1 < N → (t n).toNat ≤ (t (n + 1)).toNat)
    (hgap : ∀ n, n + 1 < N → (t (n + 1)).toNat ≤ (t n).toNat + 2000) {n : ℕ} (hn : n < N) :
    Draining (globalFill tb.toState (t 0).toNat).last (globalFill tb.toState (t 0).toNat).tokens
      (fun i => (t i).toNat) n (globalFill (bucketAt tb t n).toState (t n).toNat) := by
  induction n with
  -- the first frame starts the level
  | zero =>
    have hg := gap_eq (P := aggregate) hlast (t 0).toNat_lt
    rw [aggregate_modulus] at hg
    rw [bucketAt]
    refine ⟨rfl, ?_, ?_, ?_, Or.inl rfl⟩
    · unfold globalFill
      split
      · exact le_rfl
      · exact hlast
    · unfold globalFill
      rw [TokenBucket.toState_last, hg]
      split
      · dsimp only
        omega
      · rw [TokenBucket.toState_last]
        omega
    · unfold globalFill
      split
      · exact min_le_right _ _
      · exact hhi.le
  | succ n ih =>
    obtain ⟨hl, hh⟩ := bucketAt_range (t := t) hlo hhi n
    have hnext : (bucketAt tb t (n + 1)).toState = globalTake (bucketAt tb t n).toState (t n).toNat :=
      (globalBucketCheck_eq _ (t n) hl hh.le).1
    rw [hnext, globalTake_eq]
    exact (ih (by omega)).next (hle n hn) (hgap n hn) (t (n + 1)).toNat_lt

/-- Frame `n` is let through exactly when it finds a token. -/
theorem check_bucketAt (hlo : -100000 ≤ tb.tokens.toInt) (hhi : tb.tokens.toInt < 500000) (n : ℕ) :
    (globalBucketCheck (bucketAt tb t n) (t n)).2 =
      !decide (0 < (globalFill (bucketAt tb t n).toState (t n).toNat).tokens) := by
  obtain ⟨hl, hh⟩ := bucketAt_range (t := t) hlo hhi n
  rw [(globalBucketCheck_eq _ (t n) hl hh.le).2, globalTake_eq, ← decide_not]
  refine decide_eq_decide.2 ?_
  dsimp only
  omega

end Bucket

/-! ## Runs -/

/-- Consecutive frames are at most 2 µs apart. -/
def Sustained (es : List Event) : Prop := (charges es).IsChain fun a b => b.toNat ≤ a.toNat + 2000

variable {cpus : ℕ} {pre es : List Event}

/-- In a chronological run the checks come in order of time. -/
theorem charges_sorted (hc : Chronological es) : (charges es).Pairwise (· ≤ ·) := by
  unfold Chronological at hc
  unfold charges
  rw [List.pairwise_filterMap] at hc ⊢
  refine hc.imp ?_
  intro a b h x hx y hy
  exact h x (Event.now_of_charge hx) y (Event.now_of_charge hy)

/-- **What passes is what is covered**, in a stream of frames at most 2 µs apart that a run goes on with. -/
theorem admitted_eq_covered (hc : Chronological (pre ++ es)) (hs : Sustained es) :
    admitted (run (Kernel.init cpus) pre) es =
      ((Finset.range (charges es).length).filter (Covered (run (Kernel.init cpus) pre) es)).card := by
  have hsplit := hc
  unfold Chronological at hsplit
  rw [List.filterMap_append, List.pairwise_append] at hsplit
  obtain ⟨hpre, hes, hcross⟩ := hsplit
  have hsane : (run (Kernel.init cpus) pre).Sane 0 := by
    rw [← kAt_length]
    exact sane_at cpus hpre le_rfl
  have hsorted := charges_sorted hes
  rw [admitted_eq, Finset.card_filter]
  refine Finset.sum_congr rfl ?_
  intro n hn
  rw [Finset.mem_range] at hn
  have hget : ∀ i (hi : i < (charges es).length), (charges es).getD i 0 = (charges es)[i] :=
    fun i hi => List.getD_eq_getElem _ _ hi
  -- the bucket was not refilled after the first frame
  have hlast : (run (Kernel.init cpus) pre).globalRateMap.lastTime.toNat ≤ ((charges es).getD 0 0).toNat := by
    obtain ⟨e, he, hch⟩ := List.mem_filterMap.1 (List.getElem_mem (show 0 < (charges es).length by omega))
    rw [hget 0 (by omega)]
    refine UInt64.le_iff_toNat_le.1 (behind_run (Kernel.behind_init cpus _) ?_).global
    intro e' he' now hnow
    exact hcross now (List.mem_filterMap.2 ⟨e', he', hnow⟩) _ (List.mem_filterMap.2 ⟨e, he, Event.now_of_charge hch⟩)
  have hdrain := draining_at (t := fun i => (charges es).getD i 0) hsane.lo hsane.hi hlast ?_ ?_ hn
  · rw [check_bucketAt (t := fun i => (charges es).getD i 0) hsane.lo hsane.hi]
    have hcovered : Covered (run (Kernel.init cpus) pre) es n ↔
        0 < (globalFill (bucketAt (run (Kernel.init cpus) pre).globalRateMap (fun i => (charges es).getD i 0) n).toState
          ((charges es).getD n 0).toNat).tokens := by
      have hcap : (startLevel (run (Kernel.init cpus) pre) es).tokens ≤ 500000 := by
        unfold startLevel globalFill
        split
        · exact min_le_right _ _
        · exact hsane.hi.le
      exact ((level_pos_iff hcap n).symm).trans hdrain.pos_iff.symm
    -- frame by frame: let through exactly when covered
    by_cases h : Covered (run (Kernel.init cpus) pre) es n
    · rw [if_pos h, decide_eq_true (hcovered.1 h), Bool.not_true, if_neg Bool.false_ne_true]
    · rw [if_neg h, decide_eq_false (fun hp => h (hcovered.2 hp)), Bool.not_false, if_pos rfl]
  · intro i hi
    rw [hget i (by omega), hget (i + 1) hi]
    exact UInt64.le_iff_toNat_le.1 (List.pairwise_iff_getElem.1 hsorted i (i + 1) (by omega) hi (by omega))
  · intro i hi
    rw [hget i (by omega), hget (i + 1) hi]
    exact List.isChain_iff_getElem.1 hs i hi

/-- **The global bucket keeps up the throughput of `T` seconds** exactly when as many frames are covered. -/
theorem throughput_iff (hc : Chronological (pre ++ es)) (hs : Sustained es) (T : ℕ) :
    400000 * T ≤ admitted (run (Kernel.init cpus) pre) es + 100000 ↔
      400000 * T ≤
        ((Finset.range (charges es).length).filter (Covered (run (Kernel.init cpus) pre) es)).card + 100000 := by
  rw [admitted_eq_covered hc hs]

/-! ## A burst, and then a second of overload -/

/-- `m` frames 2 µs apart, from one second after boot. -/
def steady (m : ℕ) : List Event :=
  (List.range m).map fun i => .frame (UInt64.ofNat (1000000000 + 2000 * i)) quiet (ip4Frame 10 0 1 6 6)

theorem charges_steady (m : ℕ) :
    charges (steady m) = (List.range m).map fun i => UInt64.ofNat (1000000000 + 2000 * i) := by
  have hcharge : (Event.charge ∘ fun i => .frame (UInt64.ofNat (1000000000 + 2000 * i)) quiet (ip4Frame 10 0 1 6 6)) =
      fun i => some (UInt64.ofNat (1000000000 + 2000 * i)) := by
    funext i
    rw [Function.comp_apply, Event.charge, if_neg (by decide)]
  unfold charges steady
  rw [List.filterMap_map, hcharge]
  exact congrFun List.filterMap_eq_map' _

theorem toNat_steady {m i : ℕ} (hm : m ≤ 500001) (hi : i < m) :
    (UInt64.ofNat (1000000000 + 2000 * i)).toNat = 1000000000 + 2000 * i :=
  UInt64.toNat_ofNat_of_lt' (by have : UInt64.size = 2 ^ 64 := rfl; omega)

/-- The frames of the run come every two microseconds. -/
theorem frameTime_steady {m i : ℕ} (hm : m ≤ 500001) (hi : i < m) :
    frameTime (steady m) i = 1000000000 + 2000 * i := by
  have hget : (charges (steady m)).getD i 0 = UInt64.ofNat (1000000000 + 2000 * i) := by
    rw [charges_steady, List.getD_eq_getElem _ _ (by simpa using hi), List.getElem_map, List.getElem_range]
  rw [frameTime, hget, toNat_steady hm hi]

/-- That is a sustained load. -/
theorem sustained_steady {m : ℕ} (hm : m ≤ 500001) : Sustained (steady m) := by
  unfold Sustained
  rw [charges_steady, List.isChain_iff_getElem]
  intro i hi
  rw [List.length_map, List.length_range] at hi
  simp only [List.getElem_map, List.getElem_range]
  rw [toNat_steady hm (show i < m by omega), toNat_steady hm hi]
  omega

theorem chronological_flood_steady (n : ℕ) {m : ℕ} (hm : m ≤ 500001) : Chronological (flood n ++ steady m) := by
  have hsteady : (steady m).filterMap Event.now = (List.range m).map fun i => UInt64.ofNat (1000000000 + 2000 * i) := by
    unfold steady
    rw [List.filterMap_map]
    exact congrFun List.filterMap_eq_map' _
  have hflood : (flood n).filterMap Event.now = List.replicate (n + 1) 1000000000 := by
    unfold flood
    simp only [List.filterMap_cons, Event.now, List.filterMap_replicate]
    rfl
  unfold Chronological
  rw [List.filterMap_append, hflood, hsteady, List.pairwise_append]
  refine ⟨List.pairwise_replicate.2 (Or.inr (UInt64.le_refl _)), ?_, ?_⟩
  · rw [List.pairwise_map]
    refine List.pairwise_lt_range.imp_of_mem ?_
    intro i j hi hj hij
    rw [List.mem_range] at hi hj
    rw [UInt64.le_iff_toNat_le, toNat_steady hm hi, toNat_steady hm hj]
    omega
  · intro a ha b hb
    obtain ⟨i, hi, rfl⟩ := List.mem_map.1 hb
    rw [List.mem_range] at hi
    rw [List.eq_of_mem_replicate ha, UInt64.le_iff_toNat_le, toNat_steady hm hi]
    exact Nat.le_add_right _ _

theorem throughput_iff_steady :
    400000 * 1 ≤ admitted (run (Kernel.init 1) (flood 10)) (steady 1000) + 100000 ↔
      400000 * 1 ≤ ((Finset.range (charges (steady 1000)).length).filter
        (Covered (run (Kernel.init 1) (flood 10)) (steady 1000))).card + 100000 :=
  throughput_iff (chronological_flood_steady 10 (by decide)) (sustained_steady (by decide)) 1

/-- The credit so far is what the time since the start has earned. -/
theorem credited_refilled_le (m₀ : ℕ) (t : ℕ → ℕ) (n : ℕ) :
    m₀ + 2000 * credited (refilled m₀ t) n ≤ refilledAt m₀ t n := by
  induction n with
  | zero => simp [credited, refilledAt]
  | succ n ih =>
    rw [credited_succ, refilledAt, refilled]
    split
    · omega
    · omega

/-- The last refill is not after the clock. -/
theorem refilledAt_le {m₀ : ℕ} {t : ℕ → ℕ} (h : m₀ ≤ t 0) {n : ℕ} (ht : ∀ i < n, t i ≤ t (i + 1)) :
    refilledAt m₀ t n ≤ t n := by
  induction n with
  | zero => exact h
  | succ n ih =>
    rw [refilledAt]
    split
    · exact le_rfl
    · exact (ih fun i hi => ht i (by omega)).trans (ht n (by omega))

/-- After a burst of 600000 frames, no frame of the overload is covered. -/
theorem not_covered_steady {n m i : ℕ} (hn : 599999 ≤ n) (hm : m ≤ 500001) (hi : i < m) :
    ¬ Covered (run (Kernel.init 1) (flood n)) (steady m) i := by
  -- the burst leaves the bucket at the floor of its debt
  have hstart : startLevel (run (Kernel.init 1) (flood n)) (steady m) = ⟨-100000, 1000000000⟩ := by
    have hg := gap_eq (P := aggregate) (le_refl 1000000000) (by decide)
    have hfloor : max ((499999 : ℤ) - n) (-100000) = -100000 := by omega
    have hclock : (1000000000 : UInt64).toNat = 1000000000 := by decide
    rw [startLevel, globalRateMap_flood, hfloor, hclock, frameTime_steady hm (by omega), globalFill, Nat.mul_zero,
      Nat.add_zero]
    rw [aggregate_modulus] at hg
    simp only [hg, Nat.sub_self, Nat.not_lt_zero, if_false]
  have hcredit := credited_refilled_le 1000000000 (frameTime (steady m)) i
  have hlast : refilledAt 1000000000 (frameTime (steady m)) i ≤ frameTime (steady m) i := by
    apply refilledAt_le
    · exact (frameTime_steady hm (show 0 < m by omega)).ge
    · intro j hj
      rw [frameTime_steady hm (show j < m by omega), frameTime_steady hm (show j + 1 < m by omega)]
      omega
  rw [frameTime_steady hm hi] at hlast
  rintro ⟨hc, -⟩
  rw [creditAt, hstart] at hc
  dsimp only at hc
  omega

/-- **The aggregate limit can shut everything down.** After 600000 packets at once, a second of frames
2 µs apart passes nothing. -/
theorem shut_down :
    Chronological (flood 599999 ++ steady 500001) ∧ Sustained (steady 500001) ∧
      frameTime (steady 500001) 500000 - frameTime (steady 500001) 0 = 1 * 1000000000 ∧
      ¬ 400000 * 1 ≤ admitted (run (Kernel.init 1) (flood 599999)) (steady 500001) + 100000 := by
  have hc := chronological_flood_steady 599999 (le_refl 500001)
  have hs := sustained_steady (le_refl 500001)
  refine ⟨hc, hs, ?_, ?_⟩
  · rw [frameTime_steady le_rfl (by decide), frameTime_steady le_rfl (by decide)]
  · rw [admitted_eq_covered hc hs, Finset.filter_false_of_mem]
    · decide
    · intro i hi
      rw [charges_steady, List.length_map, List.length_range, Finset.mem_range] at hi
      exact not_covered_steady le_rfl le_rfl hi

end FluxGuard
