import FluxGuard.Proof.Sane

/-!
# Exhaustion and the blacklist

When a source's bucket is empty the filter drops the packet and inserts the source
into its family's blacklist, without looking at the result of the insert.

* `blocked_iff_room`: the source is blocked from then on exactly when the blacklist
  had room for one more key.
* `flood_escapes_blacklist`: with a full blacklist it is not.
-/

namespace FluxGuard

/-- Source `s` is blacklisted after event `n`, and every later packet of `s` is dropped
until userspace pardons `s`. -/
def BlockedFrom (k₀ : Kernel) (es : List Event) (s : Source) (n : ℕ) : Prop :=
  ((kAt k₀ es (n + 1)).view s).listed = true ∧
    ∀ m (hm : m < es.length), n < m → es[m].source = some s →
      (∀ l (_ : l < m), n < l → ¬ (kAt k₀ es l).pardons s es[l]) → (kAt k₀ es m).verdict es[m] = some .drop

/-- A source that is blacklisted and not allowlisted. -/
structure View.Blocked (v : View) : Prop where
  listed : v.listed = true
  allowed : v.allowed = false

/-- A blocked source is dropped at every stage it can reach. -/
theorem View.Blocked.stage {v : View} (h : v.Blocked) (now : UInt64) (filtered : Bool) :
    (v.stage now filtered).verdict = .drop := by
  unfold View.stage
  rw [h.allowed, h.listed]
  cases filtered <;> rfl

/-- A block ends with a pardon only. -/
theorem View.Blocked.step {v : View} (h : v.Blocked) {a : Act} (hu : a ≠ .unblacklist) (ha : a ≠ .allow) :
    (v.step a).Blocked := by
  cases a with
  | packet now host filtered room =>
    exact ⟨by simp [View.step, listed_packet, h.listed], by simp [View.step, allowed_packet, h.allowed]⟩
  | allow => exact absurd rfl ha
  | unblacklist => exact absurd rfl hu
  | disallow => exact ⟨h.listed, rfl⟩
  | blacklist => exact ⟨rfl, h.allowed⟩
  | evictMeter => exact ⟨h.listed, h.allowed⟩
  | evictRate => exact ⟨h.listed, h.allowed⟩
  | idle => exact h

/-- Only a pardon ends a block. -/
theorem Kernel.blocked_step {k : Kernel} {s : Source} (h : (k.view s).Blocked) {e : Event}
    (he : ¬ k.pardons s e) : ((k.step e).view s).Blocked := by
  rw [Kernel.view_step]
  exact h.step (fun hu => he (Or.inl hu)) fun ha => he (Or.inr ha)

/-- A packet of a blocked source is dropped. -/
theorem Kernel.verdict_blocked {k : Kernel} {s : Source} (h : (k.view s).Blocked) {e : Event}
    (he : e.source = some s) : k.verdict e = some .drop := by
  obtain ⟨now, host, data, rfl, hs⟩ := Event.source_eq he
  rw [Kernel.verdict_packet k now host hs, h.stage, ite_self]

variable {k₀ : Kernel} {es : List Event} {s : Source}

/-- A block lasts until the next pardon. -/
theorem blocked_until_pardon {n m : ℕ} (hnm : n ≤ m) (hm : m ≤ es.length) (h : ((kAt k₀ es n).view s).Blocked)
    (hp : ∀ l (_ : l < es.length), n ≤ l → l < m → ¬ (kAt k₀ es l).pardons s es[l]) :
    ((kAt k₀ es m).view s).Blocked := by
  induction m, hnm using Nat.le_induction with
  | base => exact h
  | succ m hnm ih =>
    rw [kAt_succ _ _ (by omega)]
    exact Kernel.blocked_step (ih (by omega) fun l hl hnl hlm => hp l hl hnl (by omega))
      (hp m (by omega) hnm (by omega))

/-- A source whose bucket is empty is listed if the blacklist has room. -/
theorem listed_of_exhausted {n : ℕ} (hn : n < es.length)
    (hst : (kAt k₀ es n).stageOf s es[n] = some .exhausted) :
    ((kAt k₀ es (n + 1)).view s).allowed = false ∧
      ((kAt k₀ es (n + 1)).view s).listed = (kAt k₀ es n).room s := by
  obtain ⟨now, host, data, -, -, -, hstage, -, hview⟩ := Kernel.of_stageOf hst
  obtain ⟨hallow, -, hlisted⟩ := View.of_reachesBucket (v := (kAt k₀ es n).view s) (by rw [hstage]; rfl)
  rw [kAt_succ _ _ hn, hview, View.allowed_packet, View.listed_packet, hlisted]
  exact ⟨hallow, by simp⟩

/-- **A source whose bucket is empty is blocked** exactly when its family's blacklist has
room for a new key. -/
theorem blocked_iff_room {n : ℕ} (hn : n < es.length)
    (hst : (kAt k₀ es n).stageOf s es[n] = some .exhausted) :
    BlockedFrom k₀ es s n ↔ (kAt k₀ es n).room s = true := by
  obtain ⟨hallow, hlisted⟩ := listed_of_exhausted hn hst
  constructor
  · intro h
    rw [← hlisted]; exact h.1
  -- listed now, and only a pardon changes that
  · intro h
    refine ⟨hlisted.trans h, fun m hm hnm hs hp => ?_⟩
    refine Kernel.verdict_blocked (blocked_until_pardon (n := n + 1) hnm hm.le ⟨hlisted.trans h, hallow⟩ ?_) hs
    intro l hl hnl hlm
    exact hp l hlm (by omega)

/-! ## A burst against a full blacklist -/

/-- The ring buffer has a slot for a record. -/
def slotted : Host := ⟨0, true, true, some ⟨0, 0, 0, 0, Vector.replicate 16 0, 0⟩⟩

/-- A frame of `10.0.1.5`. -/
def burstFrame (t : UInt64) : Event := .frame t slotted (ip4Frame 10 0 1 5 6)

theorem length_burstFrame : ¬ (ip4Frame 10 0 1 5 6).length < 14 := by decide

/-- `j + 1` frames of the victim have been let through at time `t`. -/
structure Bursting (t : UInt64) (k : Kernel) (j : ℕ) : Prop where
  allowed : (k.view victim).allowed = false
  listed : (k.view victim).listed = false
  filters : k.filters 6 = false
  bucket : ∃ tb, (k.view victim).bucket = some tb ∧ tb.toState = ⟨999 - j, t.toNat⟩
  global : k.globalRateMap.toState = ⟨499999 - j, t.toNat⟩

variable {t : UInt64} {k : Kernel}

/-- While the aggregate limit holds, a frame of the burst goes to its source's path. -/
theorem step_burstFrame (hno : k.overloaded t = false) :
    k.step (burstFrame t) = (dispatch (charged k t slotted) t slotted (ip4Frame 10 0 1 5 6)).1 := by
  rw [burstFrame, Kernel.step, fluxguardFilter_eq, if_neg length_burstFrame, if_neg (by rw [hno]; decide)]

/-- To its source it is a packet. -/
theorem act_burstFrame (hno : k.overloaded t = false) (hf : k.filters 6 = false) :
    k.act victim (burstFrame t) = .packet t slotted false (k.room victim) := by
  unfold Kernel.act burstFrame
  dsimp only
  rw [if_pos ⟨sourceOf_victim, hno⟩, ← hf]
  rfl

/-- To the aggregate bucket it is one check. -/
theorem global_burstFrame (hno : k.overloaded t = false) :
    (k.step (burstFrame t)).globalRateMap = (globalBucketCheck k.globalRateMap t).1 := by
  rw [step_burstFrame hno, dispatch_globalRateMap _ _ _ length_burstFrame]; rfl

theorem filters_burstFrame (hno : k.overloaded t = false) :
    (k.step (burstFrame t)).filters 6 = k.filters 6 := by
  rw [step_burstFrame hno, dispatch_filters, filters_charged]

/-- The burst's own bucket makes no room for others. -/
theorem room_burstFrame (hno : k.overloaded t = false) (h : k.room victim = false) :
    (k.step (burstFrame t)).room victim = false := by
  rw [step_burstFrame hno]; exact dispatch_room (by rw [room_charged, h]) ..

/-- The first frame of a burst. -/
theorem Bursting.first (ht : t.toNat = 2000000000) (ha : (k.view victim).allowed = false)
    (hl : (k.view victim).listed = false) (hf : k.filters 6 = false) (hb : (k.view victim).bucket = none)
    (hg : k.globalRateMap = ⟨0, 0⟩) :
    k.overloaded t = false ∧ Bursting t (k.step (burstFrame t)) 0 := by
  obtain ⟨heq, hdrop⟩ := globalBucketCheck_eq k.globalRateMap t (by rw [hg]; decide) (by rw [hg]; decide)
  have htake : globalTake k.globalRateMap.toState t.toNat = ⟨499999, t.toNat⟩ := by
    rw [hg, ht]; exact Bucket.State.ext (by decide) (by decide)
  have hno : k.overloaded t = false := by rw [Kernel.overloaded, hdrop, htake]; rfl
  have hview := Kernel.view_step k victim (burstFrame t)
  rw [act_burstFrame hno hf, View.step, View.stage_of_open ha rfl hl, hb] at hview
  refine ⟨hno, ⟨by rw [hview]; exact ha, by rw [hview]; exact hl, ?_, ⟨freshBucket t, ?_, ?_⟩, ?_⟩⟩
  · rw [filters_burstFrame hno, hf]
  · rw [hview]; rfl
  · refine Bucket.State.ext ?_ rfl
    show (KERN_PPS_LIMIT - 1).toInt = 999 - (0 : ℕ)
    decide
  · rw [global_burstFrame hno, heq, htake]; rfl

/-- What a further frame of the burst finds. -/
theorem Bursting.check {j : ℕ} (h : Bursting t k j) (hj : j < 1000) :
    k.overloaded t = false ∧ (k.step (burstFrame t)).globalRateMap.toState = ⟨499999 - (j + 1 : ℕ), t.toNat⟩ ∧
      k.stageOf victim (burstFrame t) = some (if j = 999 then .exhausted else .admitted) := by
  have htok : k.globalRateMap.tokens.toInt = 499999 - j := congrArg Bucket.State.tokens h.global
  obtain ⟨heq, hdrop⟩ := globalBucketCheck_eq k.globalRateMap t (by omega) (by omega)
  -- no time has passed, so the frame only takes a token
  have htake : globalTake k.globalRateMap.toState t.toNat = ⟨499999 - (j + 1 : ℕ), t.toNat⟩ := by
    rw [h.global]
    refine (globalTake_self (s := ⟨499999 - j, t.toNat⟩) t.toNat_lt ?_).trans ?_
    · show -100000 < 499999 - (j : ℤ); omega
    · refine Bucket.State.ext ?_ rfl
      show (499999 - j - 1 : ℤ) = 499999 - (j + 1 : ℕ); omega
  have hno : k.overloaded t = false := by
    rw [Kernel.overloaded, hdrop, htake, decide_eq_false_iff_not]
    show ¬ (499999 - (j + 1 : ℕ) : ℤ) < 0
    omega
  obtain ⟨tb, hb, htb⟩ := h.bucket
  have htbt : tb.tokens.toInt = 999 - j := congrArg Bucket.State.tokens htb
  obtain ⟨-, hd⟩ := tokenBucketCheck_eq tb t (by omega) (by omega)
  have hself := Bucket.take_self (P := perSource) (s := ⟨999 - j, t.toNat⟩) t.toNat_lt
  rw [htb] at hd
  refine ⟨hno, by rw [global_burstFrame hno, heq, htake], ?_⟩
  simp only [Kernel.stageOf, act_burstFrame hno h.filters, View.stage_of_open h.allowed rfl h.listed, hb,
    bucketStage, hd, hself, decide_eq_true_eq]
  congr 1
  by_cases hj' : j = 999
  · rw [if_pos hj', if_pos (by omega)]
  · rw [if_neg hj', if_neg (by omega)]

/-- A frame of the burst takes one token of its source. -/
theorem Bursting.next {j : ℕ} (h : Bursting t k j) (hj : j < 999) : Bursting t (k.step (burstFrame t)) (j + 1) := by
  obtain ⟨hno, hglobal, hstage⟩ := h.check (by omega)
  rw [if_neg (by omega)] at hstage
  obtain ⟨tb, hb, htb⟩ := h.bucket
  have htbt : tb.tokens.toInt = 999 - j := congrArg Bucket.State.tokens htb
  have hself := Bucket.take_self (P := perSource) (s := ⟨999 - j, t.toNat⟩) t.toNat_lt
  obtain ⟨now, host, data, he, -, -, -, -, hview⟩ := Kernel.of_stageOf hstage
  cases he
  refine ⟨by rw [hview]; exact h.allowed, by rw [hview]; exact h.listed, ?_,
    ⟨(tokenBucketCheck tb t).1, by rw [hview]; simp [View.packet, hb], ?_⟩, hglobal⟩
  · rw [filters_burstFrame hno, h.filters]
  · rw [(tokenBucketCheck_eq tb t (by omega) (by omega)).1, htb, hself]
    refine Bucket.State.ext ?_ rfl
    show (999 - j - 1 : ℤ) = 999 - (j + 1 : ℕ)
    omega

/-- After `j` frames, `j` tokens are gone. -/
theorem run_burst (ht : t.toNat = 2000000000) (ha : (k.view victim).allowed = false)
    (hl : (k.view victim).listed = false) (hf : k.filters 6 = false) (hb : (k.view victim).bucket = none)
    (hg : k.globalRateMap = ⟨0, 0⟩) {j : ℕ} (hj : j ≤ 999) :
    Bursting t (run k (List.replicate (j + 1) (burstFrame t))) j ∧
      (k.room victim = false → (run k (List.replicate (j + 1) (burstFrame t))).room victim = false) := by
  -- the first frame creates the bucket, each further one takes a token
  induction j with
  | zero =>
    obtain ⟨hno, hfirst⟩ := Bursting.first ht ha hl hf hb hg
    exact ⟨hfirst, room_burstFrame hno⟩
  | succ j ih =>
    obtain ⟨hj', hroom⟩ := ih (by omega)
    rw [List.replicate_succ', run_concat]
    exact ⟨hj'.next (by omega), fun h => room_burstFrame (hj'.check (by omega)).1 (hroom h)⟩

/-- What the last frame of a burst leaves. -/
theorem Bursting.last (h : Bursting t k 999) :
    ((k.step (burstFrame t)).view victim).allowed = false ∧ (k.step (burstFrame t)).filters 6 = false ∧
      (k.step (burstFrame t)).globalRateMap.toState = ⟨498999, t.toNat⟩ := by
  obtain ⟨hno, hglobal, hstage⟩ := h.check (by omega)
  obtain ⟨now, host, data, he, -, -, -, -, hview⟩ := Kernel.of_stageOf hstage
  refine ⟨?_, by rw [filters_burstFrame hno, h.filters], ?_⟩
  · rw [hview, View.allowed_packet]
    exact h.allowed
  · rw [hglobal]
    exact Bucket.State.ext (by norm_num) rfl

/-- The stages of a burst from boot. -/
theorem stage_burst {n : ℕ} (hn : n ≤ 1000) :
    (run (Kernel.init 1) (List.replicate n (burstFrame 2000000000))).stageOf victim (burstFrame 2000000000) =
      some (if n = 0 then .fresh else if n = 1000 then .exhausted else .admitted) := by
  cases n with
  | zero => decide
  | succ j =>
    obtain ⟨hj, -⟩ := run_burst (t := 2000000000) (k := Kernel.init 1) rfl rfl rfl rfl rfl rfl (j := j) (by omega)
    rw [(hj.check (by omega)).2.2, if_neg (Nat.succ_ne_zero j)]
    by_cases hj' : j = 999
    · rw [if_pos hj', if_pos (by omega)]
    · rw [if_neg hj', if_neg (by omega)]

/-- Userspace blacklists the addresses below `n`. -/
def listFirst (n : ℕ) : List Event := (List.range n).map fun i => .v4 (.blacklist (UInt32.ofNat i) 1)

/-- The first `n` operations fill `n` places of the blacklist and touch nothing else. -/
theorem run_listFirst {n : ℕ} (hn : n ≤ MAX_ENTRIES) :
    ∃ m : BpfHash Ip4 UInt32 MAX_ENTRIES,
      run (Kernel.init 1) (listFirst n) =
        { Kernel.init 1 with v4 := { (IpMaps.empty : IpMaps Ip4 MAX_ENTRIES 1024) with blacklistMap := m } } ∧
      m.entries.size = n ∧ ∀ a ∈ m, a.toNat < n := by
  -- as long as there is room, each new address is one more entry
  induction n with
  | zero => exact ⟨BpfHash.empty, rfl, rfl, fun a ha => absurd ha (BpfHash.not_mem_empty a)⟩
  | succ n ih =>
    obtain ⟨m, hrun, hsize, hkeys⟩ := ih (by omega)
    have hn' : (UInt32.ofNat n).toNat = n := by
      rw [UInt32.toNat_ofNat']; unfold MAX_ENTRIES at hn; omega
    have hnew : UInt32.ofNat n ∉ m := fun h => by have := hkeys _ h; omega
    refine ⟨m.update (UInt32.ofNat n) 1, ?_, ?_, ?_⟩
    · rw [listFirst, List.range_succ, List.map_append, List.map_singleton, run_concat, ← listFirst, hrun]; rfl
    · rw [BpfHash.update_entries, if_pos (Or.inr (by omega)), Dict.size_set_of_not_mem 1 hnew, hsize]
    · intro a ha
      rcases BpfHash.mem_update.1 ha with ha | ⟨rfl, -⟩
      · have := hkeys a ha; omega
      · omega

/-- The 1001st frame of a burst after a prefix that leaves the victim and the global bucket alone. -/
theorem exhausted_after (ht : t.toNat = 2000000000) (es : List Event)
    (ha : ((run (Kernel.init 1) es).view victim).allowed = false)
    (hl : ((run (Kernel.init 1) es).view victim).listed = false)
    (hf : (run (Kernel.init 1) es).filters 6 = false)
    (hb : ((run (Kernel.init 1) es).view victim).bucket = none)
    (hg : (run (Kernel.init 1) es).globalRateMap = ⟨0, 0⟩) :
    ∃ hn : es.length + 1000 < (es ++ List.replicate 1001 (burstFrame t)).length,
      (kAt (Kernel.init 1) (es ++ List.replicate 1001 (burstFrame t)) (es.length + 1000)).stageOf victim
        (es ++ List.replicate 1001 (burstFrame t))[es.length + 1000] = some .exhausted ∧
      ((run (Kernel.init 1) es).room victim = false →
        (kAt (Kernel.init 1) (es ++ List.replicate 1001 (burstFrame t)) (es.length + 1000)).room victim = false) := by
  obtain ⟨hj, hroom⟩ := run_burst ht ha hl hf hb hg (j := 999) le_rfl
  have hk : kAt (Kernel.init 1) (es ++ List.replicate 1001 (burstFrame t)) (es.length + 1000) =
      run (run (Kernel.init 1) es) (List.replicate 1000 (burstFrame t)) := by
    unfold kAt
    rw [List.take_length_add_append, run_append, List.take_replicate]; rfl
  refine ⟨by rw [List.length_append, List.length_replicate]; omega, ?_, ?_⟩
  · rw [hk, List.getElem_append_right (by omega), List.getElem_replicate, (hj.check (by omega)).2.2]
    rfl
  · rw [hk]; exact hroom

/-- In a burst that meets an empty blacklist the 1001st packet blocks its source. -/
theorem blocked_iff_room_burst :
    BlockedFrom (Kernel.init 1) (List.replicate 1001 (burstFrame 2000000000)) victim 1000 ↔
      (kAt (Kernel.init 1) (List.replicate 1001 (burstFrame 2000000000)) 1000).room victim = true := by
  obtain ⟨hn, hst, -⟩ := exhausted_after (t := 2000000000) rfl [] rfl rfl rfl rfl rfl
  exact blocked_iff_room hn hst

/-- **A full blacklist blocks nobody**: after 65536 addresses are listed, the source whose
bucket is exhausted is not. -/
theorem flood_escapes_blacklist :
    ∃ (es : List Event) (n : ℕ) (hn : n < es.length), Chronological es ∧
      (kAt (Kernel.init 1) es n).stageOf victim es[n] = some .exhausted ∧
      ¬ BlockedFrom (Kernel.init 1) es victim n := by
  obtain ⟨m, hrun, hsize, hkeys⟩ := run_listFirst (n := MAX_ENTRIES) le_rfl
  have hl : ((run (Kernel.init 1) (listFirst MAX_ENTRIES)).view victim).listed = false := by
    rw [hrun]
    show (m.lookupElem 0x0501000A).isSome = false
    rw [BpfHash.isSome_lookupElem, decide_eq_false_iff_not]
    intro h
    exact absurd (hkeys _ h) (by decide)
  have hroom : (run (Kernel.init 1) (listFirst MAX_ENTRIES)).room victim = false := by
    rw [hrun]
    exact decide_eq_false (by rw [hsize]; exact Nat.lt_irrefl _)
  obtain ⟨hn, hst, hfull⟩ := exhausted_after (t := 2000000000) rfl (listFirst MAX_ENTRIES)
    (by rw [hrun]; rfl) hl (by rw [hrun]; rfl) (by rw [hrun]; rfl) (by rw [hrun]; rfl)
  refine ⟨_, _, hn, ?_, hst, fun h => ?_⟩
  · have hnone : (listFirst MAX_ENTRIES).filterMap Event.now = [] := by
      rw [List.filterMap_eq_nil_iff]
      intro e he
      obtain ⟨i, -, rfl⟩ := List.mem_map.1 he
      rfl
    unfold Chronological
    rw [List.filterMap_append, hnone, List.nil_append,
      List.filterMap_replicate_of_some (f := Event.now) (b := 2000000000) rfl]
    exact List.pairwise_replicate.2 (Or.inr (UInt64.le_refl _))
  · have := (listed_of_exhausted hn hst).2
    rw [h.1, hfull hroom] at this
    cases this

end FluxGuard
