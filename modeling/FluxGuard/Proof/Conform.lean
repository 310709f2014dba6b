import FluxGuard.Proof.Bucket
import FluxGuard.Proof.View

/-!
# Conforming sources

One source sends a sequence of packets and has not been seen before. Is it ever
dropped or blacklisted by the stages after the protocol filter?

* `never_blocked_iff`: it is not, exactly when every window of its packets is covered
  by 1000 tokens and the whole tokens credited inside the window.
* `conforming_source_blocked`: conformance to 1000 packets per second with a burst
  of 1000 is not enough. Each refill forgets the fraction of a token it leaves over.
-/

namespace FluxGuard

open Bucket

/-- A packet that the global bucket let through. -/
structure Packet where
  now : UInt64
  host : Host
  data : List UInt8

/-- The source is never on the blacklist, and no packet that the protocol filter lets
through is dropped. -/
def NeverBlocked (k : Kernel) (s : Source) : List Packet → Prop
  | [] => (k.view s).listed = false
  | p :: ps =>
    (k.view s).listed = false ∧
      (k.filters (protoOf p.data s) = false → (dispatch k p.now p.host p.data).2 = .pass) ∧
      NeverBlocked (dispatch k p.now p.host p.data).1 s ps

/-- The protocol filter lets the packet through. -/
def Kernel.admits (k : Kernel) (s : Source) (p : Packet) : Bool := !k.filters (protoOf p.data s)

/-- The times of the packets that the source's bucket sees: from the packet on whose
`rate_map` insert succeeds, those that the protocol filter lets through. -/
def bucketTimes (k : Kernel) (s : Source) (ps : List Packet) : List ℕ :=
  ((ps.filter (k.admits s)).dropWhile fun p => !p.host.rateUpdate).map fun p => p.now.toNat

/-- Every window of the times conforms to 1000 packets per second with a burst of 1000. -/
def Conforms (ts : List ℕ) : Prop :=
  ∀ i j, i ≤ j → j < ts.length → j - i + 1 ≤ 1000 + (ts.getD j 0 - ts.getD i 0) / 1000000

/-- A source that the lists do not decide. -/
structure View.Open (v : View) : Prop where
  allowed : v.allowed = false
  listed : v.listed = false

variable {k : Kernel} {s : Source} {p : Packet}

/-- A packet of the source does not change which packets are let through to its bucket. -/
theorem admits_dispatch (k : Kernel) (s : Source) (p : Packet) :
    Kernel.admits (dispatch k p.now p.host p.data).1 s = k.admits s := by
  funext q; unfold Kernel.admits; rw [dispatch_filters]

/-- A packet that the protocol filter drops. -/
theorem view_of_not_admits (hp : sourceOf p.data = some s) (ho : (k.view s).Open) (hf : k.admits s p = false) :
    (dispatch k p.now p.host p.data).1.view s = k.view s := by
  unfold Kernel.admits at hf
  rw [Bool.not_eq_false'] at hf
  rw [view_dispatch k p.now p.host (length_of_source hp), if_pos hp]
  simp [View.stage, ho.allowed, hf, View.packet]

/-- A packet that reaches the bucket. -/
theorem dispatch_of_admits (hp : sourceOf p.data = some s) (ho : (k.view s).Open) (hf : k.admits s p = true) :
    (dispatch k p.now p.host p.data).1.view s =
        (k.view s).packet p.now p.host (k.room s) (bucketStage p.now (k.view s).bucket) ∧
      (dispatch k p.now p.host p.data).2 = (bucketStage p.now (k.view s).bucket).verdict := by
  unfold Kernel.admits at hf
  rw [Bool.not_eq_true'] at hf
  rw [view_dispatch k p.now p.host (length_of_source hp), if_pos hp, verdict_dispatch k p.now p.host hp,
    View.stage_of_open ho.allowed hf ho.listed]
  exact ⟨rfl, rfl⟩

variable {ps : List Packet}

/-- Packets that the protocol filter drops do not matter. -/
theorem neverBlocked_cons_of_not_admits (ho : (k.view s).Open)
    (hf : k.admits s p = false) :
    NeverBlocked k s (p :: ps) ↔ NeverBlocked (dispatch k p.now p.host p.data).1 s ps := by
  have hno : k.filters (protoOf p.data s) = true := by simpa [Kernel.admits] using hf
  rw [NeverBlocked, hno]
  simp [ho.listed]

/-- A packet that reaches the bucket passes, or the run is blocked. -/
theorem neverBlocked_cons_of_admits (hp : sourceOf p.data = some s) (ho : (k.view s).Open)
    (hf : k.admits s p = true) :
    NeverBlocked k s (p :: ps) ↔ (bucketStage p.now (k.view s).bucket).verdict = .pass ∧
      NeverBlocked (dispatch k p.now p.host p.data).1 s ps := by
  have hno : k.filters (protoOf p.data s) = false := by simpa [Kernel.admits] using hf
  rw [NeverBlocked, hno, (dispatch_of_admits hp ho hf).2]
  simp [ho.listed]

/-- From request `m` of a run of requests on: no packet is dropped exactly when the
level stays at zero or above. -/
theorem neverBlocked_iff_of_bucket {t : ℕ → ℕ} (ps : List Packet) :
    ∀ (k : Kernel) (m : ℕ) (tb : TokenBucket), (∀ p ∈ ps, sourceOf p.data = some s) → (k.view s).Open →
      (k.view s).bucket = some tb → tb.toState = runTakes perSource t m → 0 ≤ (runTakes perSource t m).tokens →
      (∀ j (hj : j < (ps.filter (k.admits s)).length), t (m + 1 + j) = ((ps.filter (k.admits s))[j]).now.toNat) →
      (NeverBlocked k s ps ↔
        ∀ j, m < j → j ≤ m + (ps.filter (k.admits s)).length → 0 ≤ (runTakes perSource t j).tokens) := by
  -- by induction on the packets; one that is filtered leaves the level
  induction ps with
  | nil =>
    intro k m tb _ ho _ _ _ _
    simp only [NeverBlocked, ho.listed, List.filter_nil, List.length_nil, true_iff]
    omega
  | cons p ps ih =>
    intro k m tb hs ho hb htb h0 ht
    have hp := hs p (List.mem_cons_self ..)
    have hs' : ∀ q ∈ ps, sourceOf q.data = some s := fun q hq => hs q (List.mem_cons_of_mem _ hq)
    cases hf : k.admits s p with
    | false =>
      have hview := view_of_not_admits hp ho hf
      rw [neverBlocked_cons_of_not_admits ho hf]
      rw [List.filter_cons_of_neg (by simp [hf])] at ht ⊢
      have := ih (dispatch k p.now p.host p.data).1 m tb hs' (by rw [hview]; exact ho) (by rw [hview]; exact hb)
        htb h0 (by rw [admits_dispatch]; exact ht)
      rw [admits_dispatch] at this
      exact this
    | true =>
      have hfilter : (p :: ps).filter (k.admits s) = p :: ps.filter (k.admits s) :=
        List.filter_cons_of_pos hf
      have ht0 : t (m + 1) = p.now.toNat := by
        have := ht 0 (by rw [hfilter]; simp)
        simpa [hfilter] using this
      have hlt := tokens_runTakes_lt (P := perSource) (t := t) m
      obtain ⟨heq, hdrop⟩ := tokenBucketCheck_eq tb p.now
        (by rw [← TokenBucket.toState_tokens, htb]; omega)
        (by rw [← TokenBucket.toState_tokens, htb]; exact hlt.le)
      have hnext : take perSource tb.toState p.now.toNat = runTakes perSource t (m + 1) := by
        rw [runTakes, htb, ht0]
      rw [hnext] at heq hdrop
      rw [neverBlocked_cons_of_admits hp ho hf, hb]
      by_cases hneg : (runTakes perSource t (m + 1)).tokens < 0
      · -- the next packet is dropped
        have hst : bucketStage p.now (some tb) = .exhausted := if_pos (by rw [hdrop]; exact decide_eq_true hneg)
        rw [hst]
        constructor
        · intro h; cases h.1
        · intro h
          have := h (m + 1) (by omega) (by rw [hfilter, List.length_cons]; omega)
          omega
      · have hst : bucketStage p.now (some tb) = .admitted :=
          if_neg (by rw [hdrop, decide_eq_true_eq]; exact hneg)
        have hview := (dispatch_of_admits hp ho hf).1
        rw [hb, hst] at hview
        have := ih (dispatch k p.now p.host p.data).1 (m + 1) (tokenBucketCheck tb p.now).1 hs'
          (by rw [hview]; exact ⟨ho.allowed, ho.listed⟩) (by rw [hview]; simp [View.packet, hb]) heq (by omega)
          (by
            rw [admits_dispatch]
            intro j hj
            have := ht (j + 1) (by rw [hfilter]; simpa using hj)
            rw [show m + 1 + (j + 1) = m + 1 + 1 + j by omega] at this
            simpa [hfilter] using this)
        rw [admits_dispatch] at this
        rw [hst, this, hfilter, List.length_cons]
        constructor
        · rintro ⟨-, h⟩ j hj hjm
          rcases Nat.eq_or_lt_of_le (Nat.succ_le_of_lt hj) with rfl | hlt'
          · exact not_lt.1 hneg
          · exact h j hlt' (by omega)
        · intro h
          exact ⟨rfl, fun j hj hjm => h j (by omega) (by omega)⟩

/-- The levels of the bucket of a source that sends its first packets decide whether it is ever
blocked. -/
theorem neverBlocked_iff_levels (ps : List Packet) :
    ∀ k : Kernel, (∀ p ∈ ps, sourceOf p.data = some s) → (k.view s).Open → (k.view s).bucket = none →
      (NeverBlocked k s ps ↔ ∀ j < (bucketTimes k s ps).length,
        0 ≤ (runTakes perSource (fun n => (bucketTimes k s ps).getD n 0) j).tokens) := by
  induction ps with
  | nil =>
    intro k _ ho _
    simp [NeverBlocked, bucketTimes, ho.listed]
  | cons p ps ih =>
    intro k hs ho hb
    have hp := hs p (List.mem_cons_self ..)
    have hs' : ∀ q ∈ ps, sourceOf q.data = some s := fun q hq => hs q (List.mem_cons_of_mem _ hq)
    cases hf : k.admits s p with
    | false =>
      have hview := view_of_not_admits hp ho hf
      have htimes : bucketTimes k s (p :: ps) = bucketTimes (dispatch k p.now p.host p.data).1 s ps := by
        unfold bucketTimes
        rw [admits_dispatch, List.filter_cons_of_neg (by simp [hf])]
      rw [neverBlocked_cons_of_not_admits ho hf, htimes]
      exact ih _ hs' (by rw [hview]; exact ho) (by rw [hview]; exact hb)
    | true =>
      obtain ⟨hview, -⟩ := dispatch_of_admits hp ho hf
      rw [hb, bucketStage] at hview
      rw [neverBlocked_cons_of_admits hp ho hf, hb]
      have hopen : ((dispatch k p.now p.host p.data).1.view s).Open := by
        rw [hview]; exact ⟨ho.allowed, ho.listed⟩
      cases hr : p.host.rateUpdate with
      | false =>
        -- the insert fails: the next packet finds no bucket either
        have htimes : bucketTimes k s (p :: ps) = bucketTimes (dispatch k p.now p.host p.data).1 s ps := by
          unfold bucketTimes
          rw [admits_dispatch, List.filter_cons_of_pos hf, List.dropWhile_cons_of_pos (by simp [hr])]
        rw [htimes, ← ih _ hs' hopen (by rw [hview]; simp [View.packet, hr])]
        simp [bucketStage, Stage.verdict]
      | true =>
        have htimes : bucketTimes k s (p :: ps) =
            p.now.toNat :: (ps.filter (k.admits s)).map fun q => q.now.toNat := by
          unfold bucketTimes
          rw [List.filter_cons_of_pos hf, List.dropWhile_cons_of_neg (by simp [hr]), List.map_cons]
        rw [htimes]
        set t : ℕ → ℕ := fun n => (p.now.toNat :: (ps.filter (k.admits s)).map fun q => q.now.toNat).getD n 0 with ht
        have hfresh : (freshBucket p.now).toState = runTakes perSource t 0 :=
          State.ext (by show (KERN_PPS_LIMIT - 1).toInt = 999; decide) rfl
        have := neverBlocked_iff_of_bucket (t := t) ps (dispatch k p.now p.host p.data).1 0 (freshBucket p.now)
          hs' hopen (by rw [hview]; simp [View.packet, hr]) hfresh (by simp [runTakes]) (by
            rw [admits_dispatch]
            intro j hj
            rw [ht, show 0 + 1 + j = j + 1 by omega]
            simp [hj])
        rw [this, admits_dispatch, List.length_cons, List.length_map]
        constructor
        · rintro ⟨-, h⟩ j hj
          rcases Nat.eq_zero_or_pos j with rfl | hpos
          · simp [runTakes]
          · exact h j hpos (by omega)
        · intro h
          exact ⟨rfl, fun j _ hjm => h j (by omega)⟩

/-- **A source is never blocked** exactly when every window of its packets is covered by
1000 tokens and the whole tokens credited inside the window. -/
theorem never_blocked_iff {ps : List Packet} (hs : ∀ p ∈ ps, sourceOf p.data = some s) (ho : (k.view s).Open)
    (hb : (k.view s).bucket = none) :
    NeverBlocked k s ps ↔ ∀ i j, i ≤ j → j < (bucketTimes k s ps).length →
      j - i + 1 + credit perSource (fun n => (bucketTimes k s ps).getD n 0) i ≤
        1000 + credit perSource (fun n => (bucketTimes k s ps).getD n 0) j := by
  rw [neverBlocked_iff_levels ps k hs ho hb]
  set t : ℕ → ℕ := fun n => (bucketTimes k s ps).getD n 0
  constructor
  · intro h i j hij hj
    have := (runTakes_nonneg_iff (P := perSource) (t := t) j).1 (fun n hn => h n (by omega)) i j hij le_rfl
    rw [perSource_cap] at this
    omega
  · intro h j hj
    refine (runTakes_nonneg_iff (P := perSource) (t := t) j).2 (fun i n hin hnj => ?_) j le_rfl
    have := h i n hin (by omega)
    rw [perSource_cap]
    omega

/-! ## A burst, then two packets half a token apart -/

/-- A packet of the victim. -/
def packetAt (t : UInt64) : Packet := ⟨t, quiet, ip4Frame 10 0 1 5 6⟩

/-- 1000 packets at one time, one 1.5 ms later, one 2 ms later. -/
def hurried : List Packet :=
  List.replicate 1000 (packetAt 1000000000) ++ [packetAt 1001500000, packetAt 1002000000]

theorem eq_packetAt {p : Packet} (h : p ∈ hurried) : ∃ t, p = packetAt t := by
  simp only [hurried, List.mem_append, List.mem_replicate, List.mem_cons, List.not_mem_nil, or_false] at h
  rcases h with ⟨-, rfl⟩ | rfl | rfl <;> exact ⟨_, rfl⟩

theorem getD_hurried (n : ℕ) (hn : n < 1002) :
    (hurried.map fun p => p.now.toNat).getD n 0 =
      if n < 1000 then 1000000000 else if n = 1000 then 1001500000 else 1002000000 := by
  unfold hurried
  rw [List.map_append, List.map_replicate]
  by_cases h : n < 1000
  · rw [if_pos h, List.getD_append _ _ _ _ (by rw [List.length_replicate]; exact h), List.getD_replicate _ h]; rfl
  · rw [if_neg h, List.getD_append_right _ _ _ _ (by rw [List.length_replicate]; exact not_lt.1 h),
      List.length_replicate]
    by_cases h' : n = 1000
    · subst h'; rfl
    · obtain rfl : n = 1001 := by omega
      rfl

/-- Every packet of the run reaches the bucket. -/
theorem bucketTimes_hurried : bucketTimes (Kernel.init 1) victim hurried = hurried.map fun p => p.now.toNat := by
  unfold bucketTimes
  rw [List.filter_eq_self.2 fun p hp => by obtain ⟨t, rfl⟩ := eq_packetAt hp; rfl]
  unfold hurried
  rw [List.replicate_succ, List.cons_append, List.dropWhile_cons_of_neg (by decide)]

/-- The two late packets earn one token between them. -/
theorem credit_hurried {t : ℕ → ℕ}
    (ht : ∀ n < 1002, t n = if n < 1000 then 1000000000 else if n = 1000 then 1001500000 else 1002000000) :
    credit perSource t 1001 = 1 := by
  -- the burst earns nothing, the packet 1.5 ms later one token and the last one none
  have hburst : ∀ n < 1000, mark perSource t n = 1000000000 ∧ credit perSource t n = 0 := by
    intro n
    induction n with
    | zero => intro _; exact ⟨ht 0 (by omega), rfl⟩
    | succ n ih =>
      intro hn
      obtain ⟨hm, hc⟩ := ih (by omega)
      have h0 : refill perSource 1000000000 1000000000 = 0 := by decide
      rw [mark, credit, hm, hc, ht (n + 1) (by omega), if_pos hn, h0, if_pos rfl]
      exact ⟨rfl, rfl⟩
  obtain ⟨hm, hc⟩ := hburst 999 (by omega)
  have h1 : refill perSource 1000000000 1001500000 = 1 := by decide
  have h2 : refill perSource 1001500000 1002000000 = 0 := by decide
  have ht0 : t 1000 = 1001500000 := ht 1000 (by omega)
  have ht1 : t 1001 = 1002000000 := ht 1001 (by omega)
  have hm' : mark perSource t 1000 = 1001500000 := by rw [mark, hm, ht0, h1, if_neg (by decide)]
  rw [credit, hm', credit, hm, hc, ht0, ht1, h1, h2]

theorem sourceOf_hurried (p : Packet) (hp : p ∈ hurried) : sourceOf p.data = some victim := by
  obtain ⟨t, rfl⟩ := eq_packetAt hp
  exact sourceOf_victim

/-- The last two packets come with one refill. -/
theorem never_blocked_iff_hurried :
    credit perSource (fun n => (bucketTimes (Kernel.init 1) victim hurried).getD n 0) 1001 = 1 ∧
      (NeverBlocked (Kernel.init 1) victim hurried ↔
        ∀ i j, i ≤ j → j < (bucketTimes (Kernel.init 1) victim hurried).length →
          j - i + 1 + credit perSource (fun n => (bucketTimes (Kernel.init 1) victim hurried).getD n 0) i ≤
            1000 + credit perSource (fun n => (bucketTimes (Kernel.init 1) victim hurried).getD n 0) j) := by
  refine ⟨?_, never_blocked_iff sourceOf_hurried ⟨rfl, rfl⟩ rfl⟩
  rw [bucketTimes_hurried]
  exact credit_hurried getD_hurried

/-- **A conforming source can be blocked.** -/
theorem conforming_source_blocked :
    ∃ ps : List Packet, (∀ p ∈ ps, sourceOf p.data = some victim) ∧
      (ps.map fun p => p.now).Pairwise (· ≤ ·) ∧ Conforms (ps.map fun p => p.now.toNat) ∧
      ¬ NeverBlocked (Kernel.init 1) victim ps := by
  have hlen : (hurried.map fun p => p.now.toNat).length = 1002 := by
    rw [List.length_map, hurried, List.length_append, List.length_replicate]; rfl
  refine ⟨hurried, sourceOf_hurried, ?_, ?_, fun h => ?_⟩
  · unfold hurried
    rw [List.map_append, List.map_replicate, List.pairwise_append]
    refine ⟨List.pairwise_replicate.2 (Or.inr (UInt64.le_refl _)), by decide, fun a ha b hb => ?_⟩
    rw [(List.mem_replicate.1 ha).2]
    simp only [List.map_cons, List.map_nil, List.mem_cons, List.not_mem_nil, or_false] at hb
    rcases hb with rfl | rfl <;> decide
  · intro i j hij hj
    rw [hlen] at hj
    rw [getD_hurried i (by omega), getD_hurried j hj]
    split_ifs <;> omega
  · rw [neverBlocked_iff_levels hurried _ sourceOf_hurried ⟨rfl, rfl⟩ rfl, bucketTimes_hurried, hlen] at h
    have hle := tokens_runTakes_le (P := perSource) (t := fun n => (hurried.map fun p => p.now.toNat).getD n 0)
      (i := 0) (n := 1001) (by omega)
    rw [credit_hurried getD_hurried, perSource_cap] at hle
    have := h 1001 (by omega)
    simp only [credit] at hle
    omega

end FluxGuard
