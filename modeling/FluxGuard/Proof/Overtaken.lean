import FluxGuard.Data.Overtaken
import FluxGuard.Proof.Ranges
import FluxGuard.Proof.Smp

/-!
# Rate conformance on several CPUs

What the token bucket of a source still guarantees when packets overtake each other between reading the
clock and being charged, and when the bucket map loses it.

* `Smp.overrun_step`: a packet that is charged late, an eviction of the bucket and an insert that fails open
  one more account with the source each; any other step keeps to the accounts that are open.
* `Smp.passes_resets`: so among packets from the times `t₁ … t₂`, with `r` such steps among them, at most
  `(r + 1) * (1000 + ⌊(t₂ - t₁) / 1 ms⌋)` pass. With none it is the bound of a single CPU.
-/

namespace FluxGuard

namespace Smp

open Bucket

/-! ## What is counted -/

instance (last now : UInt64) : Decidable (SourceInOrder last now) := inferInstanceAs (Decidable (_ ∨ _))

/-- The packet that an event takes through the rest of the filter. -/
def finishing (m : Smp) : SmpEvent → Option InFlight
  | .finish i => m.admitted[i]?
  | .tick _ | .enter _ _ | .charge _ | .op _ => none

/-- An event passes a packet of a source. -/
def passing (m : Smp) (s : Source) (e : SmpEvent) : Bool :=
  match m.finishing e with
  | some p => decide (sourceOf p.data = some s) && decide ((dispatch m.kern p.now p.host p.data).2 = .pass)
  | none => false

/-- An event charges a packet of a source to its bucket, and not in order. -/
def late (m : Smp) (s : Source) (e : SmpEvent) : Bool :=
  match m.finishing e, (m.kern.view s).bucket with
  | some p, some tb =>
    decide (sourceOf p.data = some s) &&
      ((m.kern.view s).stage p.now (m.kern.filters (protoOf p.data s))).reachesBucket &&
      !decide (SourceInOrder tb.lastTime p.now)
  | _, _ => false

/-- The stage that decides a packet. -/
def stageOf (m : Smp) (s : Source) (p : InFlight) : Stage :=
  (m.kern.view s).stage p.now (m.kern.filters (protoOf p.data s))

/-- An event takes the bucket of a source from the map, or fails to put it there. -/
def loses (m : Smp) (s : Source) : SmpEvent → Bool
  | .finish i =>
    match m.admitted[i]? with
    | some p => decide (sourceOf p.data = some s) && decide (m.stageOf s p = .fresh) && !p.host.rateUpdate
    | none => false
  | .op (.v4 (.evictRate a)) => decide (s = .v4 a)
  | .op (.v6 (.evictRate a)) => decide (s = .v6 a)
  | .tick _ | .enter _ _ | .charge _ | .op _ => false

/-- The account of a source with its bucket does not go on over an event. -/
def resets (m : Smp) (s : Source) (e : SmpEvent) : Bool := m.late s e || m.loses s e

variable (cpus : ℕ) (es : List SmpEvent) (s : Source)

/-- The number of events `i … j - 1` of a kind. -/
def tally (kind : Smp → SmpEvent → Bool) (i j : ℕ) : ℕ :=
  ((Finset.Ico i j).filter fun n => es[n]?.any (kind (sAt cpus es n)) = true).card

/-- The packets of a source that pass in these events. -/
def passes (i j : ℕ) : ℕ := tally cpus es (fun m => m.passing s) i j

variable {cpus es} in
/-- A step adds one where it is of the kind counted. -/
theorem tally_succ (kind : Smp → SmpEvent → Bool) {i n : ℕ} (hin : i ≤ n) (hn : n < es.length) :
    tally cpus es kind i (n + 1) = tally cpus es kind i n + if kind (sAt cpus es n) es[n] then 1 else 0 := by
  unfold tally
  rw [Finset.card_filter, Finset.card_filter, Finset.sum_Ico_succ_top hin, List.getElem?_eq_getElem hn, Option.any_some]

/-! ## What holds in any order -/

/-- A time below `2^64 / 1000` ns. -/
def Recent (t : UInt64) : Prop := t.toNat * 1000 < 2 ^ 64

instance : DecidablePred Recent := fun t => inferInstanceAs (Decidable (t.toNat * 1000 < 2 ^ 64))

/-- The levels after `c` events, and what has entered the filter. -/
structure Bounded (m : Smp) (c : ℕ) : Prop where
  kern : m.kern.InRange c
  clock : Recent m.clock
  entered : ∀ p ∈ m.entered, Recent p.now
  admitted : ∀ p ∈ m.admitted, Recent p.now
  frames : ∀ p ∈ m.admitted, ¬ p.data.length < 14

variable {cpus es s} {m : Smp} {c : ℕ} {e : SmpEvent}

/-- The empty machine is in its bounds. -/
theorem bounded_init : (init cpus).Bounded 0 := by
  refine ⟨Kernel.InRange.init cpus, show Recent 0 by decide, ?_, ?_, ?_⟩
  · intro p hp
    cases hp
  · intro p hp
    cases hp
  · intro p hp
    cases hp

/-- A charge keeps the aggregate bucket in range. -/
theorem inRange_charged {k : Kernel} (h : k.InRange c) (now : UInt64) (host : Host) :
    (charged k now host).InRange c := by
  obtain ⟨hlo, hhi⟩ := globalBucketCheck_range h.lo h.hi now
  refine ⟨hlo, hhi, fun s tb hb => ?_⟩
  rw [view_charged] at hb
  exact h.source s tb hb

/-- A packet keeps the buckets in range. -/
theorem inRange_dispatch {k : Kernel} (h : k.InRange c) (hc : c < 2 ^ 62) (now : UInt64) (host : Host)
    {data : List UInt8}
    (hl : ¬ data.length < 14) : (dispatch k now host data).1.InRange (c + 1) := by
  have hg := dispatch_globalRateMap k now host hl
  refine ⟨?_, ?_, fun s tb' hb => ?_⟩
  · rw [hg]
    exact h.lo
  · rw [hg]
    exact h.hi
  · rw [view_dispatch k now host hl] at hb
    split at hb
    · rcases View.bucket_packet_cases _ hb with hb | rfl | ⟨tb, htb, rfl⟩
      · exact (h.mono (Nat.le_succ c)).source s tb' hb
      · have hfresh : (freshBucket now).tokens.toInt = 999 := by
          show (KERN_PPS_LIMIT - 1).toInt = 999
          decide
        rw [hfresh]
        omega
      · exact h.check hc htb now
    · exact (h.mono (Nat.le_succ c)).source s tb' hb

/-- **Every event keeps the bounds**, in whatever order the packets are charged. -/
theorem Bounded.step (h : m.Bounded c) (hc : c < 2 ^ 62) (he : ∀ t, e = .tick t → Recent t) :
    (m.step e).Bounded (c + 1) := by
  have hmono := h.kern.mono (Nat.le_succ c)
  have hlevels : (m.step e).kern.InRange (c + 1) ∧ Recent (m.step e).clock := by
    cases e with
    | tick t =>
      simp only [Smp.step]
      split
      · exact ⟨hmono, he t rfl⟩
      · exact ⟨hmono, h.clock⟩
    | enter host data => exact ⟨hmono, h.clock⟩
    | op e =>
      simp only [Smp.step]
      split
      · rename_i hop
        have hstep := h.kern.step hc e
        rw [hop] at hstep
        exact ⟨hstep.mono (Nat.le_succ c), h.clock⟩
      · exact ⟨hmono, h.clock⟩
    | charge i =>
      cases hp : m.entered[i]? with
      | none =>
        simp only [Smp.step, hp]
        exact ⟨hmono, h.clock⟩
      | some p =>
        have hclock : (m.step (.charge i)).clock = m.clock := by simp only [Smp.step, hp]
        rw [(kern_charge hp).1, hclock, chargeGlobal_eq]
        refine ⟨?_, h.clock⟩
        split
        · exact hmono
        · exact inRange_charged hmono p.now p.host
    | finish i =>
      cases hp : m.admitted[i]? with
      | none =>
        simp only [Smp.step, hp]
        exact ⟨hmono, h.clock⟩
      | some p =>
        have hclock : (m.step (.finish i)).clock = m.clock := by simp only [Smp.step, hp]
        rw [(kern_finish hp).1, hclock]
        exact ⟨inRange_dispatch h.kern hc p.now p.host (h.frames p (List.mem_of_getElem? hp)), h.clock⟩
  refine ⟨hlevels.1, hlevels.2, fun p hp => ?_, fun p hp => ?_, fun p hp => ?_⟩
  · rcases entered_step e hp with hp | hp
    · exact h.entered p hp
    · rw [hp]
      exact h.clock
  · rcases admitted_step e hp with hp | ⟨hp, -⟩
    · exact h.admitted p hp
    · exact h.entered p hp
  · rcases admitted_step e hp with hp | ⟨-, hl⟩
    · exact h.frames p hp
    · exact hl

/-- So the machine is in its bounds at every step. -/
theorem bounded_at (hlen : es.length < 2 ^ 62) (hclock : ∀ t, .tick t ∈ es → Recent t) {n : ℕ} (hn : n ≤ es.length) :
    (sAt cpus es n).Bounded n := by
  induction n with
  | zero => exact bounded_init
  | succ n ih =>
    rw [sAt_succ (by omega)]
    exact (ih (by omega)).step (by omega) fun t ht => hclock t (ht ▸ List.getElem_mem _)

/-! ## The accounts with a bucket -/

/-- What a source has been granted over so many resets. -/
def Charged (m : Smp) (s : Source) (t₁ t₂ : UInt64) (r w : ℕ) : Prop :=
  match (m.kern.view s).bucket with
  | none => (w : ℤ) ≤ r * budget perSource t₁.toNat t₂.toNat
  | some tb => Overrun perSource t₁.toNat t₂.toNat r w tb.toState

/-- A source without a bucket has at least one account less open. -/
theorem Charged.bound {t₁ t₂ : UInt64} {r w : ℕ} (h : m.Charged s t₁ t₂ r w) :
    (w : ℤ) ≤ (r + 1) * budget perSource t₁.toNat t₂.toNat := by
  unfold Charged at h
  split at h
  · have hbudget : 0 ≤ budget perSource t₁.toNat t₂.toNat := budget_nonneg (by decide)
    linarith
  · exact Overrun.bound h

/-- A packet is overtaken exactly when its time is before the bucket's. -/
theorem overtaken_iff (tb : TokenBucket) (now : UInt64) :
    Overtaken perSource tb.toState now.toNat ↔ ¬ SourceInOrder tb.lastTime now := by
  unfold Overtaken SourceInOrder
  rw [TokenBucket.toState_last, ← refill_eq_zero_iff, UInt64.le_iff_toNat_le]
  omega

/-- An event that finishes no packet of the source. -/
theorem bucket_of_not_finishing (h : m.Bounded c) (hs : ∀ p, m.finishing e = some p → sourceOf p.data ≠ some s)
    (hev : e ≠ .op (evictRate s)) : ((m.step e).kern.view s).bucket = (m.kern.view s).bucket := by
  cases e with
  | tick t =>
    simp only [Smp.step]
    split <;> rfl
  | enter host data => rfl
  | op e =>
    simp only [Smp.step]
    split
    · rename_i hop
      refine (Kernel.of_stageOf_none ?_).2 fun he => hev (by rw [he])
      cases hst : m.kern.stageOf s e with
      | none => rfl
      | some st =>
        obtain ⟨now, host, data, rfl, -⟩ := Kernel.of_stageOf hst
        cases hop
    · rfl
  | charge i =>
    cases hp : m.entered[i]? with
    | none => simp only [Smp.step, hp]
    | some p =>
      rw [(kern_charge hp).1, chargeGlobal_eq]
      split
      · rfl
      · rw [view_charged]
  | finish i =>
    cases hp : m.admitted[i]? with
    | none => simp only [Smp.step, hp]
    | some p =>
      rw [(kern_finish hp).1, view_dispatch _ _ _ (h.frames p (List.mem_of_getElem? hp)), if_neg (hs p hp)]

/-- A packet that finishes moves its source on as its stage says. -/
theorem of_finishing {p : InFlight} (hp : m.finishing e = some p) (hs : sourceOf p.data = some s) :
    p ∈ m.admitted ∧ (m.step e).kern.view s = (m.kern.view s).packet p.now p.host (m.kern.room s) (m.stageOf s p) ∧
      m.passing s e = decide ((m.stageOf s p).verdict = .pass) := by
  have hpassing : m.passing s e = decide ((m.stageOf s p).verdict = .pass) := by
    unfold passing
    rw [hp]
    simp only [hs, decide_true, Bool.true_and, verdict_dispatch _ _ _ hs]
    rfl
  cases e with
  | finish i =>
    have hview := view_dispatch m.kern p.now p.host (length_of_source hs) s
    rw [if_pos hs] at hview
    refine ⟨List.mem_of_getElem? hp, ?_, hpassing⟩
    rw [(kern_finish hp).1]
    exact hview
  | tick t => cases hp
  | enter host data => cases hp
  | charge i => cases hp
  | op e => cases hp

/-- A finishing packet is late when its bucket is ahead of it. -/
theorem late_eq {p : InFlight} (hp : m.finishing e = some p) (hs : sourceOf p.data = some s) {tb : TokenBucket}
    (hb : (m.kern.view s).bucket = some tb) :
    m.late s e = ((m.stageOf s p).reachesBucket && decide (Overtaken perSource tb.toState p.now.toNat)) := by
  unfold late
  rw [hp, hb]
  simp only [hs, decide_true, Bool.true_and, overtaken_iff, decide_not]
  rfl

theorem late_of_none (hb : (m.kern.view s).bucket = none) : m.late s e = false := by
  unfold late
  rw [hb]
  split
  · rename_i htb
    cases htb
  · rfl

/-- A packet that finds a bucket is decided by it. -/
theorem stageOf_of_bucket {p : InFlight} {tb : TokenBucket} (hb : (m.kern.view s).bucket = some tb)
    (hreach : (m.stageOf s p).reachesBucket = true) :
    m.stageOf s p = if (tokenBucketCheck tb p.now).2 then .exhausted else .admitted := by
  have hstage := View.stage_eq_bucketStage rfl hreach
  rw [hb] at hstage
  exact hstage.symm

/-- It loses its bucket when the insert fails. -/
theorem loses_of_finishing {p : InFlight} (hp : m.finishing e = some p) (hs : sourceOf p.data = some s) :
    m.loses s e = (decide (m.stageOf s p = .fresh) && !p.host.rateUpdate) := by
  cases e with
  | finish i =>
    change m.admitted[i]? = some p at hp
    unfold loses
    simp only [hp, hs, decide_true, Bool.true_and]
  | tick t => cases hp
  | enter host data => cases hp
  | charge i => cases hp
  | op e => cases hp

/-- A packet that the bucket decides. -/
theorem overrun_charged (h : m.Bounded c) (hc : c < 2 ^ 62) {p : InFlight} (hp : m.finishing e = some p)
    (hs : sourceOf p.data = some s) {t₁ t₂ : UInt64} (ht : t₁ ≤ p.now ∧ p.now ≤ t₂) {tb : TokenBucket}
    (hb : (m.kern.view s).bucket = some tb) (hreach : (m.stageOf s p).reachesBucket = true) {r w : ℕ}
    (hacc : m.Charged s t₁ t₂ r w) :
    (m.step e).Charged s t₁ t₂ (r + if m.resets s e then 1 else 0) (w + if m.passing s e then 1 else 0) := by
  obtain ⟨hmem, hview, hpassing⟩ := of_finishing hp hs
  obtain ⟨hlo, hhi⟩ := h.kern.source s tb hb
  obtain ⟨heq, hdrop⟩ := tokenBucketCheck_eq tb p.now (by omega) (by omega)
  have hstage := stageOf_of_bucket hb hreach
  have hbucket : ((m.step e).kern.view s).bucket = some (tokenBucketCheck tb p.now).1 := by
    rw [hview, hstage]
    split <;> simp [View.packet, hb]
  have hresets : m.resets s e = decide (Overtaken perSource tb.toState p.now.toNat) := by
    have hold : m.stageOf s p ≠ .fresh := by
      rw [hstage]
      split
      · intro h
        cases h
      · intro h
        cases h
    unfold resets
    rw [late_eq hp hs hb, hreach, loses_of_finishing hp hs, decide_eq_false hold, Bool.true_and, Bool.false_and,
      Bool.or_false]
  have hpays : m.passing s e = decide (0 ≤ (take perSource tb.toState p.now.toNat).tokens) := by
    rw [hpassing, hstage, hdrop]
    by_cases h0 : (take perSource tb.toState p.now.toNat).tokens < 0
    · simp [h0, Stage.verdict]
    · simp [h0, not_lt.1 h0, Stage.verdict]
  unfold Charged at hacc ⊢
  rw [hb] at hacc
  rw [hbucket, hresets, hpays]
  simp only [decide_eq_true_eq]
  rw [heq]
  exact hacc.take (by decide) (UInt64.le_iff_toNat_le.1 ht.1) (UInt64.le_iff_toNat_le.1 ht.2) p.now.toNat_lt
    (h.admitted p hmem)

/-- A packet that does not get as far as the bucket. -/
theorem overrun_dropped {p : InFlight} (hp : m.finishing e = some p) (hs : sourceOf p.data = some s) {t₁ t₂ : UInt64}
    (hst : m.stageOf s p = .filtered ∨ m.stageOf s p = .blacklisted) {r w : ℕ} (hacc : m.Charged s t₁ t₂ r w) :
    (m.step e).Charged s t₁ t₂ (r + if m.resets s e then 1 else 0) (w + if m.passing s e then 1 else 0) := by
  obtain ⟨-, hview, hpassing⟩ := of_finishing hp hs
  have hkeep : (m.stageOf s p).verdict = .drop ∧ (m.stageOf s p).reachesBucket = false ∧ m.stageOf s p ≠ .fresh ∧
      ((m.step e).kern.view s).bucket = (m.kern.view s).bucket := by
    rw [hview]
    rcases hst with hst | hst
    · rw [hst]
      exact ⟨rfl, rfl, by decide, rfl⟩
    · rw [hst]
      exact ⟨rfl, rfl, by decide, rfl⟩
  obtain ⟨hdrop, hreach, hold, hbucket⟩ := hkeep
  have hlate : m.late s e = false := by
    cases hb : (m.kern.view s).bucket with
    | none => exact late_of_none hb
    | some tb => rw [late_eq hp hs hb, hreach, Bool.false_and]
  unfold Charged at hacc ⊢
  rw [hbucket, resets, hlate, loses_of_finishing hp hs, decide_eq_false hold, hpassing, hdrop]
  exact hacc

/-- A packet of a source that has no bucket. -/
theorem overrun_fresh {p : InFlight} (hp : m.finishing e = some p) (hs : sourceOf p.data = some s) {t₁ t₂ : UInt64}
    (ht : t₁ ≤ p.now ∧ p.now ≤ t₂) (hst : m.stageOf s p = .fresh) {r w : ℕ} (hacc : m.Charged s t₁ t₂ r w) :
    (m.step e).Charged s t₁ t₂ (r + if m.resets s e then 1 else 0) (w + if m.passing s e then 1 else 0) := by
  obtain ⟨-, hview, hpassing⟩ := of_finishing hp hs
  have hnone := View.bucket_of_fresh hst
  have hresets : m.resets s e = !p.host.rateUpdate := by
    rw [resets, late_of_none hnone, loses_of_finishing hp hs, decide_eq_true hst, Bool.true_and, Bool.false_or]
  have hpass : m.passing s e = true := by
    rw [hpassing, hst]
    rfl
  unfold Charged at hacc ⊢
  rw [hnone] at hacc
  rw [hview, hst, hresets, hpass, View.packet]
  cases p.host.rateUpdate with
  | true => exact Overrun.fresh hacc (UInt64.le_iff_toNat_le.1 ht.1) (UInt64.le_iff_toNat_le.1 ht.2) (by decide)
  | false =>
    -- the packet passes unaccounted for
    have hbudget : 1 ≤ budget perSource t₁.toNat t₂.toNat :=
      (show (1 : ℤ) ≤ 1000 by decide).trans (le_add_of_nonneg_right (Int.natCast_nonneg _))
    show ((w + 1 : ℕ) : ℤ) ≤ ((r + 1 : ℕ) : ℤ) * budget perSource t₁.toNat t₂.toNat
    push_cast
    linarith

/-- The bucket map makes room. -/
theorem overrun_evicted {t₁ t₂ : UInt64} {r w : ℕ} (hacc : m.Charged s t₁ t₂ r w) :
    (m.step (.op (evictRate s))).Charged s t₁ t₂ (r + if m.resets s (.op (evictRate s)) then 1 else 0)
      (w + if m.passing s (.op (evictRate s)) then 1 else 0) := by
  have hbucket : ((m.step (.op (evictRate s))).kern.view s).bucket = none := by
    cases s with
    | v4 a => exact Dict.get?_erase_self _ _
    | v6 a => exact Dict.get?_erase_self _ _
  have hresets : m.resets s (.op (evictRate s)) = true := by
    have hloses : m.loses s (.op (evictRate s)) = true := by
      cases s with
      | v4 a => exact decide_eq_true rfl
      | v6 a => exact decide_eq_true rfl
    rw [resets, hloses, Bool.or_true]
  have hbound := hacc.bound
  unfold Charged
  rw [hbucket, hresets]
  show ((w : ℕ) : ℤ) ≤ ((r + 1 : ℕ) : ℤ) * budget perSource t₁.toNat t₂.toNat
  push_cast
  exact hbound

/-- An event without a packet of the source, and which does not evict its bucket, counts for nothing. -/
theorem not_counted (hno : ∀ p, m.finishing e = some p → sourceOf p.data ≠ some s) (hev : e ≠ .op (evictRate s)) :
    m.resets s e = false ∧ m.passing s e = false := by
  have hlate : m.late s e = false := by
    unfold late
    split
    · rename_i p tb hp hb
      rw [decide_eq_false (hno p hp), Bool.false_and, Bool.false_and]
    · rfl
  have hloses : m.loses s e = false := by
    unfold loses
    split
    · rename_i i
      cases hp : m.admitted[i]? with
      | none => rfl
      | some p =>
        dsimp only
        rw [decide_eq_false (hno p hp), Bool.false_and, Bool.false_and]
    · exact decide_eq_false fun hs => hev (by rw [hs]; rfl)
    · exact decide_eq_false fun hs => hev (by rw [hs]; rfl)
    · rfl
    · rfl
    · rfl
    · rfl
  refine ⟨by rw [resets, hlate, hloses, Bool.or_false], ?_⟩
  unfold passing
  split
  · rename_i p hp
    rw [decide_eq_false (hno p hp), Bool.false_and]
  · rfl

/-- **One event** opens one more account with the source exactly if it resets the bucket. -/
theorem overrun_step (h : m.Bounded c) (hc : c < 2 ^ 62) {t₁ t₂ : UInt64}
    (ht : ∀ p, m.finishing e = some p → sourceOf p.data = some s → t₁ ≤ p.now ∧ p.now ≤ t₂)
    (hallow : (m.kern.view s).allowed = false) {r w : ℕ} (hacc : m.Charged s t₁ t₂ r w) :
    (m.step e).Charged s t₁ t₂ (r + if m.resets s e then 1 else 0) (w + if m.passing s e then 1 else 0) := by
  by_cases hs : ∃ p, m.finishing e = some p ∧ sourceOf p.data = some s
  · obtain ⟨p, hp, hs⟩ := hs
    have htime := ht p hp hs
    cases hst : m.stageOf s p with
    | allowed =>
      rw [View.allowed_of_stage hst] at hallow
      cases hallow
    | filtered => exact overrun_dropped hp hs (Or.inl hst) hacc
    | blacklisted => exact overrun_dropped hp hs (Or.inr hst) hacc
    | fresh => exact overrun_fresh hp hs htime hst hacc
    | admitted =>
      obtain ⟨tb, hb, -⟩ := View.bucket_of_admitted hst
      exact overrun_charged h hc hp hs htime hb (by rw [hst]; rfl) hacc
    | exhausted =>
      obtain ⟨tb, hb, -⟩ := View.bucket_of_exhausted hst
      exact overrun_charged h hc hp hs htime hb (by rw [hst]; rfl) hacc
  · have hno : ∀ p, m.finishing e = some p → sourceOf p.data ≠ some s := fun p hp hsp => hs ⟨p, hp, hsp⟩
    by_cases hev : e = .op (evictRate s)
    · rw [hev]
      exact overrun_evicted hacc
    · obtain ⟨hresets, hpassing⟩ := not_counted hno hev
      unfold Charged at hacc ⊢
      rw [hresets, hpassing, bucket_of_not_finishing h hno hev]
      exact hacc

/-! ## Windows -/

/-- A window opens on whatever bucket it finds. -/
theorem charged_start (h : m.Bounded c) (t₁ t₂ : UInt64) : m.Charged s t₁ t₂ 0 0 := by
  unfold Charged
  cases hb : (m.kern.view s).bucket with
  | none => exact (zero_mul _).ge
  | some tb =>
    obtain ⟨-, hhi⟩ := h.kern.source s tb hb
    apply Overrun.start
    · show tb.tokens.toInt < 1000
      omega
    · decide

theorem budget_perSource (t₁ t₂ : ℕ) : budget perSource t₁ t₂ = (1000 + (t₂ - t₁) / 1000000 : ℕ) := by
  unfold budget
  rw [perSource_cap, perSource_rate, perSource_unit, show 10 ^ 9 = 1000000 * 1000 by norm_num,
    Nat.mul_div_mul_right _ _ (by decide)]
  push_cast
  rfl

/-- **The rate of a source on several CPUs.** In the events `i … j - 1` let `s` not be allowlisted, and all packets
of `s` that finish have entered the filter from `t₁` to `t₂`. Let its bucket be reset `r` times: by packets that are
charged to it late, by evictions and by inserts that fail. Then at most `(r + 1) * (1000 + ⌊(t₂ - t₁) / 10⁶⌋)` of the
packets pass. -/
theorem passes_resets (hlen : es.length < 2 ^ 62) (hclock : ∀ t, .tick t ∈ es → Recent t) {i j : ℕ} (hij : i ≤ j)
    (hj : j ≤ es.length) {t₁ t₂ : UInt64}
    (htimes : ∀ n e p, es[n]? = some e → i ≤ n → n < j → (sAt cpus es n).finishing e = some p →
      sourceOf p.data = some s → t₁ ≤ p.now ∧ p.now ≤ t₂)
    (hallow : ∀ n, i ≤ n → n < j → ((sAt cpus es n).kern.view s).allowed = false) :
    passes cpus es s i j ≤
      (tally cpus es (fun m => m.resets s) i j + 1) * (1000 + (t₂.toNat - t₁.toNat) / 1000000) := by
  have hrun : ∀ n, i ≤ n → n ≤ j →
      (sAt cpus es n).Charged s t₁ t₂ (tally cpus es (fun m => m.resets s) i n) (passes cpus es s i n) := by
    intro n hin hnj
    induction n, hin using Nat.le_induction with
    | base =>
      simp only [passes, tally, Finset.Ico_self, Finset.filter_empty, Finset.card_empty]
      exact charged_start (bounded_at hlen hclock (by omega)) t₁ t₂
    | succ n hin ih =>
      have hn : n < es.length := by omega
      rw [sAt_succ hn, passes, tally_succ _ hin hn, tally_succ _ hin hn]
      apply overrun_step (bounded_at hlen hclock hn.le) (by omega)
      · intro p hp hs
        exact htimes n es[n] p (List.getElem?_eq_getElem hn) hin (by omega) hp hs
      · exact hallow n hin (by omega)
      · exact ih (by omega)
  have hbound := (hrun j hij le_rfl).bound
  rw [budget_perSource] at hbound
  exact_mod_cast hbound

/-- The overtaken packet is charged late, and nothing else resets the bucket. -/
theorem passes_resets_overtaken :
    tally 1 overtaken (fun m => m.resets victim) 0 8 = 1 ∧
      passes 1 overtaken victim 0 8 ≤
        (1 + 1) * (1000 + ((400000000 : UInt64).toNat - (200000000 : UInt64).toNat) / 1000000) := by
  have hresets : tally 1 overtaken (fun m => m.resets victim) 0 8 = 1 := by decide +kernel
  have hbound : passes 1 overtaken victim 0 8 ≤ (tally 1 overtaken (fun m => m.resets victim) 0 8 + 1) *
      (1000 + ((400000000 : UInt64).toNat - (200000000 : UInt64).toNat) / 1000000) := by
    apply passes_resets (by decide) _ (by decide) (by decide)
    · intro n e p he h0 h8 hp hs
      interval_cases n
      all_goals cases he
      all_goals cases hp
      all_goals decide
    · intro n h0 h8
      interval_cases n
      all_goals decide +kernel
    · intro t ht
      simp only [overtaken, List.mem_cons, SmpEvent.tick.injEq, reduceCtorEq, List.not_mem_nil, or_false,
        false_or] at ht
      rcases ht with rfl | rfl
      · decide
      · decide
  rw [hresets] at hbound
  exact ⟨hresets, hbound⟩

end Smp

end FluxGuard
