import FluxGuard.Proof.Agree
import FluxGuard.Proof.Blacklist
import FluxGuard.Proof.Meter
import FluxGuard.Proof.Rate

/-!
# Floods

`rate_conformance` bounds what a source gets through. Here is what becomes of a source
that sends more than that.

* `flood_blocked`: a source of which more than `1000 + ⌊(t₂ - t₁) / 1 ms⌋` packets get as
  far as the meter in a window is blacklisted when the window ends, and stays so until
  userspace pardons it.

The filter drops a metered packet for one of two reasons: its source is listed already, or
the packet itself lists it. So as long as the source is not listed, every metered packet
passes, and the window of passing packets is bounded.
-/

namespace FluxGuard

open Bucket

/-- Event `n` is a packet of the source that gets as far as the meter. -/
def meteredAt (k₀ : Kernel) (es : List Event) (s : Source) (n : ℕ) : Bool :=
  match es[n]? with
  | some e => (kAt k₀ es n).reachesMeter s e
  | none => false

/-- The packets of the source that get as far as the meter among events `i … j`. -/
def arrivals (k₀ : Kernel) (es : List Event) (s : Source) (i j : ℕ) : ℕ :=
  ((Finset.Icc i j).filter fun n => meteredAt k₀ es s n).card

/-- Only a filtered protocol is dropped as one. -/
theorem View.filtered_of_stage {v : View} {now : UInt64} {filtered : Bool} (h : v.stage now filtered = .filtered) :
    filtered = true := by
  unfold View.stage bucketStage at h
  by_contra hf
  cases ha : v.allowed <;> cases hl : v.listed <;> cases hb : v.bucket <;> simp [ha, hl, hb, hf] at h
  split at h <;> simp at h

/-- Only a listed source is dropped as one. -/
theorem View.listed_of_stage {v : View} {now : UInt64} {filtered : Bool} (h : v.stage now filtered = .blacklisted) :
    v.listed = true := by
  unfold View.stage bucketStage at h
  by_contra hl
  cases ha : v.allowed <;> cases hf : filtered <;> cases hb : v.bucket <;> simp [ha, hf, hb, hl] at h
  split at h <;> simp at h

variable {k : Kernel} {s : Source} {e : Event}

/-- The packets that reach the meter are those of a source off the allowlist which the
blacklist or the bucket decides. -/
theorem Kernel.reachesMeter_iff (ha : (k.view s).allowed = false) :
    k.reachesMeter s e = true ↔ ∃ st, k.stageOf s e = some st ∧ st ≠ .filtered := by
  constructor
  · intro h
    cases e with
    | frame now host data =>
      simp only [Kernel.reachesMeter, Bool.and_eq_true, decide_eq_true_eq, Bool.not_eq_true'] at h
      obtain ⟨⟨⟨hs, ho⟩, -⟩, hf⟩ := h
      have hact : k.act s (.frame now host data) = .packet now host (k.filters (protoOf data s)) (k.room s) :=
        if_pos ⟨hs, ho⟩
      refine ⟨(k.view s).stage now (k.filters (protoOf data s)), ?_, ?_⟩
      · unfold Kernel.stageOf
        rw [hact]
      · intro hst
        rw [View.filtered_of_stage hst] at hf
        cases hf
    | v4 op => cases h
    | v6 op => cases h
    | protoSet p action => cases h
    | protoDel p => cases h
  · rintro ⟨st, hst, hne⟩
    obtain ⟨now, host, data, rfl, hs, ho, hstage, -, -⟩ := Kernel.of_stageOf hst
    have hf : k.filters (protoOf data s) = false := by
      by_contra hf
      rw [Bool.not_eq_false] at hf
      apply hne
      rw [← hstage, hf]
      unfold View.stage
      simp [ha]
    simp [Kernel.reachesMeter, hs, ho, ha, hf]

/-- Only userspace puts a source on the allowlist. -/
theorem Kernel.allowed_step (ha : (k.view s).allowed = false) (hp : ¬ k.pardons s e) :
    ((k.step e).view s).allowed = false := by
  rw [Kernel.view_step]
  cases hact : k.act s e with
  | allow => exact absurd (Or.inr hact) hp
  | packet now host filtered room =>
    rw [View.step, View.allowed_packet]
    exact ha
  | disallow => rfl
  | blacklist => exact ha
  | unblacklist => exact ha
  | evictMeter => exact ha
  | evictRate => exact ha
  | idle => exact ha

/-- A frame pardons nobody. -/
theorem Kernel.not_pardons_frame (k : Kernel) (s : Source) (now : UInt64) (host : Host) (data : List UInt8) :
    ¬ k.pardons s (.frame now host data) := by
  intro h
  unfold Kernel.pardons Kernel.act at h
  by_cases hc : sourceOf data = some s ∧ k.overloaded now = false
  · simp [hc] at h
  · simp [hc] at h

/-- The bound of a window, from the grants counted in it. -/
theorem WindowInv.le {es : List Event} {i n : ℕ} {t₁ : UInt64} {b : Option TokenBucket} {w : ℕ}
    (h : WindowInv es i n t₁ b w) (t₂ : UInt64)
    (ht : ∀ m τ, m < n → (∃ hm : m < es.length, es[m].now = some τ) → τ.toNat ≤ t₂.toNat) :
    w ≤ 1000 + (t₂.toNat - t₁.toNat) / 1000000 := by
  rcases h with h0 | ⟨tb, τ, m, -, -, hmn, hτ, hg⟩
  · omega
  · have hle := ht m τ hmn hτ
    have hb := hg.bound
    simp only [perSource_cap, perSource_rate, perSource_unit] at hb
    omega

variable {cpus : ℕ} {es : List Event}

/-- What a window of a flood finds: the source is blocked, or all its metered packets passed. -/
def FloodInv (k₀ : Kernel) (es : List Event) (s : Source) (t₁ : UInt64) (i n w : ℕ) : Prop :=
  ((kAt k₀ es n).view s).Blocked ∨
    ((kAt k₀ es n).view s).allowed = false ∧ WindowInv es i n t₁ ((kAt k₀ es n).view s).bucket w

/-- A source that is blocked after event `n` stays so until it is pardoned. -/
theorem blockedFrom_of_blocked {k₀ : Kernel} {n : ℕ} (h : ((kAt k₀ es (n + 1)).view s).Blocked) :
    BlockedFrom k₀ es s n := by
  refine ⟨h.listed, ?_⟩
  intro m hm hnm hs hp
  refine Kernel.verdict_blocked (blocked_until_pardon (n := n + 1) hnm hm.le h ?_) hs
  intro l hl hnl hlm
  exact hp l hlm (by omega)

/-- A packet of a source off the allowlist passes only by way of the meter. -/
theorem meteredAt_of_passedAt {k₀ : Kernel} {n : ℕ} (hn : n < es.length) (ha : ((kAt k₀ es n).view s).allowed = false)
    (hp : passedAt k₀ es s n = true) : meteredAt k₀ es s n = true := by
  unfold passedAt at hp
  unfold meteredAt
  rw [List.getElem?_eq_getElem hn] at hp ⊢
  simp only [Bool.and_eq_true, decide_eq_true_eq] at hp
  obtain ⟨hs, hv⟩ := hp
  apply (Kernel.reachesMeter_iff ha).2
  cases hst : (kAt k₀ es n).stageOf s es[n] with
  | none =>
    rw [(Kernel.of_stageOf_none hst).1 hs] at hv
    cases hv
  | some st =>
    refine ⟨st, rfl, ?_⟩
    rintro rfl
    obtain ⟨now, host, data, -, -, -, -, hverdict, -⟩ := Kernel.of_stageOf hst
    rw [hverdict] at hv
    cases hv

/-- A metered packet passes, or its source is blocked after it. -/
theorem passed_or_blocked {k₀ : Kernel} {n : ℕ} (hn : n < es.length) (hm : meteredAt k₀ es s n = true)
    (ha : ((kAt k₀ es n).view s).allowed = false) (hr : (kAt k₀ es n).room s = true) :
    passedAt k₀ es s n = true ∨ ((kAt k₀ es (n + 1)).view s).Blocked := by
  unfold meteredAt at hm
  rw [List.getElem?_eq_getElem hn] at hm
  obtain ⟨st, hst, hne⟩ := (Kernel.reachesMeter_iff ha).1 hm
  obtain ⟨now, host, data, he, hs, -, hstage, hverdict, -⟩ := Kernel.of_stageOf hst
  have hpass : st.verdict = .pass → passedAt k₀ es s n = true := by
    intro hv
    unfold passedAt
    rw [List.getElem?_eq_getElem hn]
    simp only [Bool.and_eq_true, decide_eq_true_eq]
    refine ⟨?_, by rw [hverdict, hv]⟩
    rw [he]
    exact hs
  cases st with
  | allowed => exact Or.inl (hpass rfl)
  | filtered => exact absurd rfl hne
  | fresh => exact Or.inl (hpass rfl)
  | admitted => exact Or.inl (hpass rfl)
  | exhausted =>
    obtain ⟨hallow, hlisted⟩ := listed_of_exhausted hn hst
    exact Or.inr ⟨hlisted.trans hr, hallow⟩
  | blacklisted =>
    -- it is listed already, and a packet of its own pardons nobody
    right
    have hp : ¬ (kAt k₀ es n).pardons s es[n] := by
      rw [he]
      apply Kernel.not_pardons_frame
    rw [kAt_succ _ _ hn]
    exact Kernel.blocked_step ⟨View.listed_of_stage hstage, ha⟩ hp

/-- One event of a flood. -/
theorem flood_step (hc : Chronological es) {i n : ℕ} (hn : n < es.length) {t₁ : UInt64} {w : ℕ}
    (ht : ∀ t, es[n].now = some t → t₁ ≤ t)
    (hrate : ∀ now host data, es[n] = .frame now host data → host.rateUpdate = true)
    (hpardon : ¬ (kAt (Kernel.init cpus) es n).pardons s es[n]) (hev : es[n] ≠ evictRate s)
    (hroom : (kAt (Kernel.init cpus) es n).room s = true) (hin : i ≤ n)
    (h : FloodInv (Kernel.init cpus) es s t₁ i n w) :
    FloodInv (Kernel.init cpus) es s t₁ i (n + 1) (w + if meteredAt (Kernel.init cpus) es s n then 1 else 0) := by
  rcases h with h | ⟨ha, hw⟩
  · left
    rw [kAt_succ _ _ hn]
    exact Kernel.blocked_step h hpardon
  have hnext := window_step hc hn ht hrate ha hev hin hw
  have ha' : ((kAt (Kernel.init cpus) es (n + 1)).view s).allowed = false := by
    rw [kAt_succ _ _ hn]
    exact Kernel.allowed_step ha hpardon
  cases hm : meteredAt (Kernel.init cpus) es s n with
  | true =>
    rcases passed_or_blocked hn hm ha hroom with hp | hb
    · rw [hp] at hnext
      exact Or.inr ⟨ha', hnext⟩
    · exact Or.inl hb
  | false =>
    -- a packet that is not metered does not pass: its source is not on the allowlist
    have hp : passedAt (Kernel.init cpus) es s n = false := by
      by_contra hp
      rw [Bool.not_eq_false] at hp
      rw [meteredAt_of_passedAt hn ha hp] at hm
      cases hm
    rw [hp] at hnext
    exact Or.inr ⟨ha', hnext⟩

/-- **A flood is blocked.** From a packet of `s` at `t₁` to one at `t₂`, let more than
`1000 + ⌊(t₂ - t₁) / 10⁶⌋` packets of `s` get as far as the meter. If `s` is not allowlisted,
nobody pardons it or evicts its bucket meanwhile and the blacklist has room, then `s` is
blacklisted at the end, and every later packet of `s` before a pardon is dropped. -/
theorem flood_blocked (hc : Chronological es)
    (hrate : ∀ now host data, Event.frame now host data ∈ es → host.rateUpdate = true) {i j : ℕ} (hi : i < es.length)
    (hj : j < es.length) (hij : i ≤ j) {t₁ t₂ : UInt64} (hi' : es[i].source = some s ∧ es[i].now = some t₁)
    (hj' : es[j].source = some s ∧ es[j].now = some t₂)
    (hallow : ((kAt (Kernel.init cpus) es i).view s).allowed = false)
    (hpardon : ∀ n (hn : n < es.length), i ≤ n → n ≤ j → ¬ (kAt (Kernel.init cpus) es n).pardons s es[n])
    (hevict : ∀ n (hn : n < es.length), i ≤ n → n ≤ j → es[n] ≠ evictRate s)
    (hroom : ∀ n, i ≤ n → n ≤ j → (kAt (Kernel.init cpus) es n).room s = true)
    (hflood : 1000 + (t₂.toNat - t₁.toNat) / 1000000 < arrivals (Kernel.init cpus) es s i j) :
    BlockedFrom (Kernel.init cpus) es s j := by
  have hrun : ∀ n, i ≤ n → n ≤ j + 1 →
      FloodInv (Kernel.init cpus) es s t₁ i n
        (∑ m ∈ Finset.Ico i n, if meteredAt (Kernel.init cpus) es s m then 1 else 0) := by
    intro n hin hnj
    induction n, hin using Nat.le_induction with
    | base =>
      right
      refine ⟨hallow, Or.inl ?_⟩
      rw [Finset.Ico_self, Finset.sum_empty]
    | succ n hin ih =>
      rw [Finset.sum_Ico_succ_top hin]
      refine flood_step hc (by omega) ?_ ?_ (hpardon n (by omega) hin (by omega)) (hevict n (by omega) hin (by omega))
        (hroom n hin (by omega)) hin (ih (by omega))
      · intro t ht
        rcases Nat.eq_or_lt_of_le hin with rfl | hlt
        · rw [hi'.2] at ht
          cases ht
          exact UInt64.le_refl _
        · exact hc.le hlt (by omega) hi'.2 ht
      · intro now host data he
        exact hrate now host data (he ▸ List.getElem_mem _)
  have hcount : arrivals (Kernel.init cpus) es s i j =
      ∑ m ∈ Finset.Ico i (j + 1), if meteredAt (Kernel.init cpus) es s m then 1 else 0 := by
    unfold arrivals
    rw [Finset.card_filter, Finset.Ico_add_one_right_eq_Icc]
  rcases hrun (j + 1) (by omega) le_rfl with hb | ⟨-, hw⟩
  · exact blockedFrom_of_blocked hb
  · -- the window would be within the bound
    exfalso
    have htimes : ∀ m τ, m < j + 1 → (∃ hm : m < es.length, es[m].now = some τ) → τ.toNat ≤ t₂.toNat := by
      rintro m τ hmn ⟨_, hτ⟩
      rcases Nat.lt_or_ge m j with hlt | hge
      · exact UInt64.le_iff_toNat_le.1 (hc.le hlt hj hτ hj'.2)
      · obtain rfl : m = j := by omega
        rw [hj'.2] at hτ
        cases hτ
        exact le_rfl
    have hle := hw.le t₂ htimes
    omega

/-! ## Room on the blacklist -/

/-- An update adds at most one entry. -/
theorem BpfHash.size_update_le {α β : Type} [DecidableEq α] {n : ℕ} (m : BpfHash α β n) (a : α) (v : β) :
    (m.update a v).entries.size ≤ m.entries.size + 1 := by
  rw [BpfHash.update_entries]
  split
  · by_cases ha : a ∈ m.entries
    · rw [Dict.size_set_of_mem v ha]
      omega
    · rw [Dict.size_set_of_not_mem v ha]
  · omega

/-- A delete adds none. -/
theorem BpfHash.size_delete_le {α β : Type} [DecidableEq α] {n : ℕ} (m : BpfHash α β n) (a : α) :
    (m.delete a).entries.size ≤ m.entries.size := by
  rw [BpfHash.delete_entries]
  exact Dict.size_erase_le ..

section Family

variable {α : Type} [DecidableEq α] {n m : ℕ} (maps : IpMaps α n m)

/-- A packet lists at most one source. -/
theorem IpMaps.size_packet_le (now : UInt64) (host : Host) (src : α) (st : Stage) :
    (maps.packet now host src st).blacklistMap.entries.size ≤ maps.blacklistMap.entries.size + 1 := by
  cases st with
  | exhausted => exact BpfHash.size_update_le ..
  | allowed => exact Nat.le_succ _
  | filtered => exact Nat.le_succ _
  | blacklisted => exact Nat.le_succ _
  | fresh => exact Nat.le_succ _
  | admitted => exact Nat.le_succ _

/-- So does an operation of the tools. -/
theorem IpMaps.size_apply_le (op : MapOp α) :
    (maps.apply op).blacklistMap.entries.size ≤ maps.blacklistMap.entries.size + 1 := by
  cases op with
  | blacklist a v => exact BpfHash.size_update_le ..
  | unblacklist a => exact (BpfHash.size_delete_le ..).trans (Nat.le_succ _)
  | allow a v => exact Nat.le_succ _
  | disallow a => exact Nat.le_succ _
  | evictMeter a => exact Nat.le_succ _
  | evictRate a => exact Nat.le_succ _

end Family

/-- An event adds one address to the blacklists at most. -/
theorem Kernel.size_step_le (k : Kernel) (e : Event) :
    (k.step e).v4.blacklistMap.entries.size ≤ k.v4.blacklistMap.entries.size + 1 ∧
      (k.step e).v6.blacklistMap.entries.size ≤ k.v6.blacklistMap.entries.size + 1 := by
  cases e with
  | frame now host data =>
    by_cases hun : sourceOf data = none ∨ k.overloaded now = true
    · obtain ⟨h4, h6, -⟩ := step_unseen k now host hun
      rw [h4, h6]
      exact ⟨Nat.le_succ _, Nat.le_succ _⟩
    · rw [not_or, Bool.not_eq_true] at hun
      obtain ⟨hsrc, ho⟩ := hun
      obtain ⟨src, hsrc⟩ := Option.ne_none_iff_exists'.1 hsrc
      cases src with
      | v4 a =>
        rw [Kernel.step, step_packet4 k now host hsrc ho]
        exact ⟨IpMaps.size_packet_le .., Nat.le_succ _⟩
      | v6 a =>
        rw [Kernel.step, step_packet6 k now host hsrc ho]
        exact ⟨Nat.le_succ _, IpMaps.size_packet_le ..⟩
  | v4 op => exact ⟨IpMaps.size_apply_le .., Nat.le_succ _⟩
  | v6 op => exact ⟨Nat.le_succ _, IpMaps.size_apply_le ..⟩
  | protoSet p action => exact ⟨Nat.le_succ _, Nat.le_succ _⟩
  | protoDel p => exact ⟨Nat.le_succ _, Nat.le_succ _⟩

/-- After `n` events a blacklist holds `n` addresses at most. -/
theorem size_blacklist_le (cpus : ℕ) {n : ℕ} (hn : n ≤ es.length) :
    (kAt (Kernel.init cpus) es n).v4.blacklistMap.entries.size ≤ n ∧
      (kAt (Kernel.init cpus) es n).v6.blacklistMap.entries.size ≤ n := by
  induction n with
  | zero =>
    rw [kAt_zero]
    exact ⟨le_rfl, le_rfl⟩
  | succ n ih =>
    obtain ⟨h4, h6⟩ := ih (by omega)
    rw [kAt_succ _ _ (by omega)]
    have hstep := Kernel.size_step_le (kAt (Kernel.init cpus) es n) es[n]
    omega

/-- A blacklist has room as long as there were fewer events than it has entries. -/
theorem room_of_lt {n : ℕ} (hn : n ≤ es.length) (hfew : n < MAX_ENTRIES_V6) :
    (kAt (Kernel.init cpus) es n).room s = true := by
  obtain ⟨h4, h6⟩ := size_blacklist_le cpus hn
  have hle : MAX_ENTRIES_V6 ≤ MAX_ENTRIES := by decide
  cases s with
  | v4 a =>
    apply decide_eq_true
    omega
  | v6 a =>
    apply decide_eq_true
    omega

/-! ## A burst of 1001 packets -/

/-- 1001 frames of the victim at 2 s. -/
def burst1001 : List Event := List.replicate 1001 (burstFrame 2000000000)

theorem kAt_burst1001 {n : ℕ} (hn : n ≤ 1001) :
    kAt (Kernel.init 1) burst1001 n = run (Kernel.init 1) (List.replicate n (burstFrame 2000000000)) := by
  unfold kAt burst1001
  rw [List.take_replicate, Nat.min_eq_left hn]

/-- Every frame of the burst is counted. -/
theorem meteredAt_burst1001 {n : ℕ} (hn : n ≤ 1000) : meteredAt (Kernel.init 1) burst1001 victim n = true := by
  have hget : burst1001[n]? = some (burstFrame 2000000000) := by
    unfold burst1001
    rw [List.getElem?_replicate, if_pos (by omega)]
  unfold meteredAt
  rw [hget, kAt_burst1001 (by omega)]
  cases n with
  | zero => decide
  | succ n =>
    obtain ⟨hb, -⟩ := run_burst (t := 2000000000) (k := Kernel.init 1) rfl rfl rfl rfl rfl rfl (j := n) (by omega)
    apply (Kernel.reachesMeter_iff hb.allowed).2
    refine ⟨_, (hb.check (by omega)).2.2, ?_⟩
    split <;> simp

theorem flood_blocked_burst1001 : BlockedFrom (Kernel.init 1) burst1001 victim 1000 := by
  have hget : ∀ n (hn : n < burst1001.length), burst1001[n] = burstFrame 2000000000 := by
    intro n hn
    apply List.eq_of_mem_replicate (List.getElem_mem hn)
  have hlen : burst1001.length = 1001 := List.length_replicate
  have hsrc : (burstFrame 2000000000).source = some victim ∧ (burstFrame 2000000000).now = some 2000000000 :=
    ⟨sourceOf_victim, rfl⟩
  have hfirst : burst1001[0].source = some victim ∧ burst1001[0].now = some 2000000000 := by
    rw [hget]
    exact hsrc
  have hlast : burst1001[1000].source = some victim ∧ burst1001[1000].now = some 2000000000 := by
    rw [hget]
    exact hsrc
  refine flood_blocked ?_ ?_ (by omega) (by omega) (Nat.zero_le 1000) hfirst hlast ?_ ?_ ?_ ?_ ?_
  · unfold Chronological burst1001
    rw [List.filterMap_replicate_of_some (f := Event.now) (b := 2000000000) rfl]
    exact List.pairwise_replicate.2 (Or.inr (UInt64.le_refl _))
  · intro now host data h
    have := List.eq_of_mem_replicate h
    cases this
    rfl
  · rfl
  · intro n hn _ _
    rw [hget]
    apply Kernel.not_pardons_frame
  · intro n hn _ _
    rw [hget]
    simp [burstFrame, evictRate, victim]
  · intro n _ hn
    exact room_of_lt (by omega) (by unfold MAX_ENTRIES_V6; omega)
  · have hall : (Finset.Icc 0 1000).filter (fun n => meteredAt (Kernel.init 1) burst1001 victim n) =
        Finset.Icc 0 1000 := by
      apply Finset.filter_true_of_mem
      intro n hn
      exact meteredAt_burst1001 (Finset.mem_Icc.1 hn).2
    unfold arrivals
    rw [hall, Nat.card_Icc]
    decide

end FluxGuard
