import FluxGuard.Proof.Bucket
import FluxGuard.Proof.View

/-!
# Ranges of the buckets along a run

`Kernel.Sane` bounds every level. The global level stays in `[-100000, 499999]` and
below what its clock has earned; a source's level is below 1000 and never further
below the global level than the global clock has earned, because each packet that
is charged to a source was let through by the global bucket first. As clocks are
below `2^64`, no level comes near `-2^63`, so `token_bucket_check` computes on
integers (`Sane.check_eq`).

`Kernel.Behind k t`: no bucket was refilled after `t`.
-/

namespace FluxGuard

open Bucket

/-- The levels are in range, with `c` packets charged to the global bucket and not yet
to a source's. -/
structure Kernel.Sane (k : Kernel) (c : ℕ) : Prop where
  lo : -100000 ≤ k.globalRateMap.tokens.toInt
  hi : k.globalRateMap.tokens.toInt < 500000
  credit : 2000 * (k.globalRateMap.tokens.toInt + c) ≤ k.globalRateMap.lastTime.toNat
  source : ∀ s tb, (k.view s).bucket = some tb → tb.tokens.toInt < 1000 ∧
    2000 * (k.globalRateMap.tokens.toInt + c - tb.tokens.toInt) ≤ k.globalRateMap.lastTime.toNat

/-- A frame reaches the global bucket in time order, or so late that its clock
difference wraps to less than a refill quantum. -/
def GlobalInOrder (k : Kernel) (now : UInt64) : Prop :=
  k.globalRateMap.lastTime.toNat ≤ now.toNat ∨
    now.toNat + (2 ^ 64 - 10 ^ 8) ≤ k.globalRateMap.lastTime.toNat

instance (k : Kernel) (now : UInt64) : Decidable (GlobalInOrder k now) := inferInstanceAs (Decidable (_ ∨ _))

/-- The empty kernel is sane. -/
theorem init_sane (cpus : ℕ) : (Kernel.init cpus).Sane 0 := by
  refine ⟨by simp [Kernel.init], by simp [Kernel.init], by simp [Kernel.init], ?_⟩
  intro s tb h
  cases s <;> cases h

namespace Kernel.Sane

variable {k : Kernel} {c : ℕ}

/-- **No level overflows**: a source's bucket is in the range where the C arithmetic
is integer arithmetic. -/
theorem range (h : k.Sane c) {s : Source} {tb : TokenBucket} (hb : (k.view s).bucket = some tb) :
    -2 ^ 63 < tb.tokens.toInt ∧ tb.tokens.toInt < 1000 := by
  have h1 := h.source s tb hb
  have h2 := k.globalRateMap.lastTime.toNat_lt
  have h3 := h.lo
  omega

/-- In a sane kernel a check is the abstract one. -/
theorem check_eq (h : k.Sane c) {s : Source} {tb : TokenBucket} (hb : (k.view s).bucket = some tb)
    (now : UInt64) :
    (tokenBucketCheck tb now).1.toState = take perSource tb.toState now.toNat ∧
      (tokenBucketCheck tb now).2 = decide ((take perSource tb.toState now.toNat).tokens < 0) :=
  tokenBucketCheck_eq tb now (h.range hb).1 (h.range hb).2.le

/-- So is the check of the aggregate bucket. -/
theorem global_eq (h : k.Sane c) (now : UInt64) :
    (globalBucketCheck k.globalRateMap now).1.toState = globalTake k.globalRateMap.toState now.toNat ∧
      k.overloaded now = decide ((globalTake k.globalRateMap.toState now.toNat).tokens < 0) :=
  globalBucketCheck_eq k.globalRateMap now h.lo h.hi.le

/-- A frame charged to the global bucket in order: if it gets through, it is one more on
its way to a source's bucket. -/
theorem charge (h : k.Sane c) {now : UInt64} (ho : GlobalInOrder k now) (host : Host) :
    (charged k now host).Sane (if k.overloaded now then c else c + 1) := by
  obtain ⟨heq, hdrop⟩ := h.global_eq now
  have hg : (charged k now host).globalRateMap = (globalBucketCheck k.globalRateMap now).1 := rfl
  have htok : (charged k now host).globalRateMap.tokens.toInt =
      (globalTake k.globalRateMap.toState now.toNat).tokens := by
    rw [hg, ← heq, TokenBucket.toState_tokens]
  have hlast : (charged k now host).globalRateMap.lastTime.toNat =
      (globalTake k.globalRateMap.toState now.toNat).last := by
    rw [hg, ← heq, TokenBucket.toState_last]
  obtain ⟨-, h2, h3⟩ := globalTake_credit (s := k.globalRateMap.toState) h.lo ho
    k.globalRateMap.lastTime.toNat_lt now.toNat_lt
  simp only [TokenBucket.toState_tokens, TokenBucket.toState_last] at h2 h3
  have hcr := h.credit
  -- a dropped frame keeps the bound; one let through is owed to a source
  by_cases hd : k.overloaded now = true
  · rw [if_pos hd]
    refine ⟨by rw [htok]; exact globalTake_ge _ _, by rw [htok]; exact globalTake_lt h.hi _,
      by rw [htok, hlast]; omega, fun s tb hb => ?_⟩
    rw [view_charged] at hb
    have := h.source s tb hb
    rw [htok, hlast]
    omega
  · rw [if_neg hd]
    rw [Bool.not_eq_true] at hd
    rw [hd, Bool.false_eq, decide_eq_false_iff_not, not_lt] at hdrop
    have h3 := h3 hdrop
    refine ⟨by rw [htok]; exact globalTake_ge _ _, by rw [htok]; exact globalTake_lt h.hi _,
      by rw [htok, hlast]; omega, fun s tb hb => ?_⟩
    rw [view_charged] at hb
    have := h.source s tb hb
    rw [htok, hlast]
    omega

/-- The rest of the filter charges at most one token to at most one source. -/
theorem dispatch (h : k.Sane (c + 1)) (now : UInt64) (host : Host) {data : List UInt8}
    (hl : ¬ data.length < 14) : (dispatch k now host data).1.Sane c := by
  have hg := dispatch_globalRateMap k now host hl
  have hcr := h.credit
  refine ⟨by rw [hg]; exact h.lo, by rw [hg]; exact h.hi, by rw [hg]; omega, fun s tb' hb => ?_⟩
  have hhi := h.hi
  rw [hg]
  rw [view_dispatch k now host hl] at hb
  by_cases hs : sourceOf data = some s
  · rw [if_pos hs] at hb
    -- the bucket is as it was, new, or charged with the one frame on its way
    rcases View.bucket_packet_cases _ hb with hb | rfl | ⟨tb, htb, rfl⟩
    · have := h.source s tb' hb; omega
    · have hfresh : (freshBucket now).tokens.toInt = 999 := by
        show (KERN_PPS_LIMIT - 1).toInt = 999; decide
      rw [hfresh]; omega
    · have hsrc := h.source s tb htb
      have heq := congrArg State.tokens (h.check_eq htb now).1
      rw [TokenBucket.toState_tokens] at heq
      have hge := tokens_take_ge (P := perSource) (s := tb.toState) hsrc.1.le now.toNat
      have hlt := tokens_take_lt (P := perSource) (s := tb.toState) hsrc.1 now.toNat
      rw [← heq, TokenBucket.toState_tokens] at hge
      rw [← heq, perSource_cap] at hlt
      omega
  · rw [if_neg hs] at hb
    have := h.source s tb' hb
    omega

/-- A map operation changes no level. -/
theorem op (h : k.Sane c) {e : Event} (he : e.now = none) : (k.step e).Sane c := by
  have hg : (k.step e).globalRateMap = k.globalRateMap := by
    rcases Kernel.globalRateMap_step k e with ⟨hg, -⟩ | ⟨now, host, data, rfl, -⟩
    · exact hg
    · cases he
  refine ⟨by rw [hg]; exact h.lo, by rw [hg]; exact h.hi, by rw [hg]; exact h.credit, fun s tb' hb => ?_⟩
  rw [hg]
  rw [Kernel.view_step] at hb
  rcases View.bucket_step_cases _ hb with hb | ⟨now, host, filtered, room, ha, -⟩
  · exact h.source s tb' hb
  · obtain ⟨data, rfl, -⟩ := Kernel.act_packet ha
    cases he

/-- **Every event keeps the ranges**, if its frame reaches the global bucket in order. -/
theorem step (h : k.Sane 0) (e : Event) (ho : ∀ now, e.now = some now → GlobalInOrder k now) :
    (k.step e).Sane 0 := by
  cases hnow : e.now with
  | none => exact h.op hnow
  | some now =>
    cases e with
    | frame now' host data =>
      cases hnow
      rw [Kernel.step, fluxguardFilter_eq]
      have hch := h.charge (ho now rfl) host
      by_cases hl : data.length < 14
      · rw [if_pos hl]; exact h
      · rw [if_neg hl]
        by_cases hd : k.overloaded now = true
        · rw [if_pos hd]; rw [if_pos hd] at hch; exact hch
        · rw [if_neg hd]; rw [if_neg hd] at hch; exact hch.dispatch now host hl
    | v4 op => cases hnow
    | v6 op => cases hnow
    | protoSet p action => cases hnow
    | protoDel p => cases hnow

end Kernel.Sane

/-! ## Runs in time order -/

/-- No bucket was refilled after `t`. -/
structure Kernel.Behind (k : Kernel) (t : UInt64) : Prop where
  global : k.globalRateMap.lastTime ≤ t
  source : ∀ s tb, (k.view s).bucket = some tb → tb.lastTime ≤ t

theorem lastTime_tokenBucketCheck (tb : TokenBucket) (now : UInt64) :
    (tokenBucketCheck tb now).1.lastTime = tb.lastTime ∨ (tokenBucketCheck tb now).1.lastTime = now := by
  unfold tokenBucketCheck
  dsimp only
  split
  · split
    · exact Or.inr rfl
    · exact Or.inl rfl
  · exact Or.inl rfl

theorem lastTime_globalBucketCheck (tb : TokenBucket) (now : UInt64) :
    (globalBucketCheck tb now).1.lastTime = tb.lastTime ∨ (globalBucketCheck tb now).1.lastTime = now := by
  unfold globalBucketCheck
  by_cases h : now - tb.lastTime > 100000000
  · right; simp only [if_pos h, apply_ite Prod.fst, apply_ite TokenBucket.lastTime, ite_self]
  · left; simp only [if_neg h, apply_ite Prod.fst, apply_ite TokenBucket.lastTime, ite_self]

/-- An event that is not later than a time leaves the buckets behind it. -/
theorem behind_step {k : Kernel} {t : UInt64} (h : k.Behind t) (e : Event)
    (he : ∀ now, e.now = some now → now ≤ t) : (k.step e).Behind t := by
  constructor
  · rcases Kernel.globalRateMap_step k e with ⟨hg, -⟩ | ⟨now, host, data, rfl, -, hg⟩
    · rw [hg]; exact h.global
    · rw [hg]
      rcases lastTime_globalBucketCheck k.globalRateMap now with hl | hl <;> rw [hl]
      · exact h.global
      · exact he now rfl
  · intro s tb' hb
    rw [Kernel.view_step] at hb
    rcases View.bucket_step_cases _ hb with hb | ⟨now, host, filtered, room, ha, hc⟩
    · exact h.source s tb' hb
    · obtain ⟨data, rfl, -⟩ := Kernel.act_packet ha
      rcases hc with rfl | ⟨tb, htb, rfl⟩
      · exact he now rfl
      · rcases lastTime_tokenBucketCheck tb now with hl | hl <;> rw [hl]
        · exact h.source s tb htb
        · exact he now rfl

variable (cpus : ℕ) {es : List Event}

/-- Of two events of a chronological run the first is not the later. -/
theorem Chronological.le (hc : Chronological es) {i j : ℕ} (hij : i < j) (hj : j < es.length) {a b : UInt64}
    (ha : es[i].now = some a) (hb : es[j].now = some b) : a ≤ b := by
  unfold Chronological at hc
  rw [List.pairwise_filterMap, List.pairwise_iff_getElem] at hc
  exact hc i j (by omega) hj hij a ha b hb

theorem Kernel.behind_init (cpus : ℕ) (t : UInt64) : (Kernel.init cpus).Behind t :=
  ⟨UInt64.zero_le, fun s tb h => by cases s <;> cases h⟩

/-- So does a run of such events. -/
theorem behind_run {k : Kernel} {t : UInt64} (h : k.Behind t) {es : List Event}
    (he : ∀ e ∈ es, ∀ now, e.now = some now → now ≤ t) : (run k es).Behind t := by
  induction es generalizing k with
  | nil => exact h
  | cons e es ih =>
    rw [run_cons]
    apply ih
    · exact behind_step h e (he e List.mem_cons_self)
    · intro e' he'
      exact he e' (List.mem_cons_of_mem e he')

/-- Every bucket is behind the frame that comes next. -/
theorem behind_at (hc : Chronological es) {n : ℕ} (hn : n < es.length) {t : UInt64} (ht : es[n].now = some t) :
    (kAt (Kernel.init cpus) es n).Behind t := by
  refine behind_run (Kernel.behind_init cpus t) fun e he now hnow => ?_
  obtain ⟨m, hm, rfl⟩ := List.getElem_of_mem he
  rw [List.length_take] at hm
  rw [List.getElem_take] at hnow
  exact hc.le (by omega) hn hnow ht

/-- **Every level is in range along a run in time order.** -/
theorem sane_at (hc : Chronological es) {n : ℕ} (hn : n ≤ es.length) : (kAt (Kernel.init cpus) es n).Sane 0 := by
  -- a run in time order is a run in which every frame is in order
  induction n with
  | zero => rw [kAt_zero]; exact init_sane cpus
  | succ n ih =>
    rw [kAt_succ _ _ (by omega)]
    refine (ih (by omega)).step _ fun now hnow => Or.inl ?_
    exact UInt64.le_iff_toNat_le.1 (behind_at cpus hc (by omega) hnow).global

end FluxGuard
