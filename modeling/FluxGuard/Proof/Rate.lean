import FluxGuard.Proof.Sane

/-!
# Rate conformance

Over any window of a run that starts and ends with a packet of a source, the filter
passes at most `1000 + ⌊(t₂ - t₁) / 1 ms⌋` of its packets (`rate_conformance`), also
where the 64-bit product wraps.

The proof follows the bucket's potential (`Bucket.Granted`) from the first packet
of the window that passes: packets dropped before the bucket stage leave the bucket
alone, packets the bucket sees each cost a token.
-/

namespace FluxGuard

open Bucket

/-- Event `n` is a packet of the source and passes. -/
def passedAt (k₀ : Kernel) (es : List Event) (s : Source) (n : ℕ) : Bool :=
  match es[n]? with
  | some e => decide (e.source = some s) && decide ((kAt k₀ es n).verdict e = some .pass)
  | none => false

/-- The packets of the source that pass among events `i … j`. -/
def passes (k₀ : Kernel) (es : List Event) (s : Source) (i j : ℕ) : ℕ :=
  ((Finset.Icc i j).filter fun n => passedAt k₀ es s n).card

/-- `w` packets passed so far in a window that started at `t₁`. -/
def WindowInv (es : List Event) (i n : ℕ) (t₁ : UInt64) (b : Option TokenBucket) (w : ℕ) : Prop :=
  w = 0 ∨ ∃ tb τ m, b = some tb ∧ i ≤ m ∧ m < n ∧ (∃ hm : m < es.length, es[m].now = some τ) ∧
    Granted perSource t₁.toNat w tb.toState τ.toNat

variable {cpus : ℕ} {es : List Event} {s : Source}

/-- One event of the window keeps the potential bounded. -/
theorem window_step (hc : Chronological es) {i n : ℕ} (hn : n < es.length) {t₁ : UInt64} {w : ℕ}
    (ht : ∀ t, es[n].now = some t → t₁ ≤ t)
    (hrate : ∀ now host data, es[n] = .frame now host data → host.rateUpdate = true)
    (hallow : ((kAt (Kernel.init cpus) es n).view s).allowed = false) (hev : es[n] ≠ evictRate s) (hin : i ≤ n)
    (h : WindowInv es i n t₁ ((kAt (Kernel.init cpus) es n).view s).bucket w) :
    WindowInv es i (n + 1) t₁ ((kAt (Kernel.init cpus) es (n + 1)).view s).bucket
      (w + if passedAt (Kernel.init cpus) es s n then 1 else 0) := by
  have hsane := sane_at cpus hc hn.le
  rw [kAt_succ _ _ hn]
  set k := kAt (Kernel.init cpus) es n with hk
  have hpass : passedAt (Kernel.init cpus) es s n =
      (decide (es[n].source = some s) && decide (k.verdict es[n] = some .pass)) := by
    unfold passedAt; rw [List.getElem?_eq_getElem hn]
  have hkeep : WindowInv es i (n + 1) t₁ (k.view s).bucket w := by
    rcases h with h | ⟨tb, τ, m, hb, him, hmn, hτ, hg⟩
    · exact Or.inl h
    · exact Or.inr ⟨tb, τ, m, hb, him, by omega, hτ, hg⟩
  cases hst : k.stageOf s es[n] with
  | none =>
    obtain ⟨hdrop, hbucket⟩ := Kernel.of_stageOf_none hst
    have hno : passedAt (Kernel.init cpus) es s n = false := by
      rw [hpass, Bool.and_eq_false_iff]
      by_cases hs : es[n].source = some s
      · right; rw [hdrop hs]; rfl
      · left; simpa using hs
    rw [hno, hbucket hev]
    simpa using hkeep
  | some st =>
    obtain ⟨now, host, data, he, hs, -, hstage, hverdict, hview⟩ := Kernel.of_stageOf hst
    have hnow : es[n].now = some now := by rw [he]; rfl
    have hp : passedAt (Kernel.init cpus) es s n = decide (st.verdict = .pass) := by
      rw [hpass, hverdict, he]; simp [Event.source, hs]
    have hbeh := behind_at cpus hc hn hnow
    rw [hp, hview]
    have ht₁ : t₁.toNat ≤ now.toNat := UInt64.le_iff_toNat_le.1 (ht now hnow)
    -- the frames of the window so far are not later than this one
    have hτ : ∀ m τ, m < n → (∃ hm : m < es.length, es[m].now = some τ) → τ.toNat ≤ now.toNat :=
      fun m τ hmn hτ => UInt64.le_iff_toNat_le.1 (hc.le hmn hn hτ.2 hnow)
    cases st with
    | allowed =>
      rw [View.allowed_of_stage hstage] at hallow; cases hallow
    | filtered => simpa [Stage.verdict, View.packet] using hkeep
    | blacklisted => simpa [Stage.verdict, View.packet, View.metered] using hkeep
    | fresh =>
      have hnone := View.bucket_of_fresh hstage
      have hw : w = 0 := by
        rcases h with h | ⟨tb, τ, m, hb, -⟩
        · exact h
        · rw [hnone] at hb; cases hb
      subst hw
      refine Or.inr ⟨freshBucket now, now, n, ?_, hin, by omega, ⟨hn, hnow⟩, ?_⟩
      · simp [View.packet, hrate now host data he]
      · have : (freshBucket now).toState = ⟨perSource.cap - 1, now.toNat⟩ :=
          State.ext (by show (KERN_PPS_LIMIT - 1).toInt = 999; decide) rfl
        rw [this]
        exact Granted.fresh ht₁ now.toNat_lt (by decide)
    | admitted =>
      obtain ⟨tb, hb, hd⟩ := View.bucket_of_admitted hstage
      obtain ⟨heq, hdeq⟩ := hsane.check_eq hb now
      have h0 : 0 ≤ (take perSource tb.toState now.toNat).tokens := by
        rw [hdeq, decide_eq_false_iff_not, not_lt] at hd; exact hd
      have hlast : tb.lastTime.toNat ≤ now.toNat := UInt64.le_iff_toNat_le.1 (hbeh.source s tb hb)
      refine Or.inr ⟨(tokenBucketCheck tb now).1, now, n, ?_, hin, by omega, ⟨hn, hnow⟩, ?_⟩
      · simp [View.packet, hb]
      · rw [heq]
        rcases h with rfl | ⟨tb', τ, m, hb', -, hmn, hτm, hg⟩
        · exact Granted.first ht₁ hlast now.toNat_lt (hsane.source s tb hb).1 h0
        · rw [hb] at hb'; cases hb'
          exact hg.grant (hτ m τ hmn hτm) now.toNat_lt h0
    | exhausted =>
      obtain ⟨tb, hb, -⟩ := View.bucket_of_exhausted hstage
      rcases h with rfl | ⟨tb', τ, m, hb', -, hmn, hτm, hg⟩
      · exact Or.inl rfl
      · rw [hb] at hb'; cases hb'
        refine Or.inr ⟨(tokenBucketCheck tb now).1, now, n, by simp [View.packet, hb], hin, by omega,
          ⟨hn, hnow⟩, ?_⟩
        rw [(hsane.check_eq hb now).1]
        exact hg.deny (hτ m τ hmn hτm) now.toNat_lt

/-- **Rate conformance.** From a packet of `s` at `t₁` to one at `t₂`, at most
`1000 + ⌊(t₂ - t₁) / 10⁶⌋` packets of `s` pass, if `s` is not allowlisted and its bucket
not evicted meanwhile. -/
theorem rate_conformance (hc : Chronological es)
    (hrate : ∀ now host data, Event.frame now host data ∈ es → host.rateUpdate = true) {i j : ℕ} (hij : i ≤ j)
    (hj : j < es.length) {t₁ t₂ : UInt64} (hi : es[i].source = some s ∧ es[i].now = some t₁)
    (hj' : es[j].source = some s ∧ es[j].now = some t₂)
    (hallow : ∀ n, i ≤ n → n ≤ j → ((kAt (Kernel.init cpus) es n).view s).allowed = false)
    (hevict : ∀ n (hn : n < es.length), i ≤ n → n < j → es[n] ≠ evictRate s) :
    passes (Kernel.init cpus) es s i j ≤ 1000 + (t₂.toNat - t₁.toNat) / 1000000 := by
  have key : ∀ n, i ≤ n → n ≤ j + 1 →
      WindowInv es i n t₁ ((kAt (Kernel.init cpus) es n).view s).bucket
        (∑ m ∈ Finset.Ico i n, if passedAt (Kernel.init cpus) es s m then 1 else 0) := by
    intro n hin hnj
    induction n, hin using Nat.le_induction with
    | base => left; simp
    | succ n hin ih =>
      rw [Finset.sum_Ico_succ_top hin]
      refine window_step hc (by omega) ?_ (fun now host data he => hrate now host data (he ▸ List.getElem_mem _))
        (hallow n hin (by omega)) ?_ hin (ih (by omega))
      · intro t ht
        rcases Nat.eq_or_lt_of_le hin with rfl | hlt
        · rw [hi.2] at ht; cases ht; exact UInt64.le_refl _
        · exact hc.le hlt (by omega) hi.2 ht
      · rcases Nat.lt_or_ge n j with hlt | hge
        · exact hevict n (by omega) hin hlt
        · obtain rfl : n = j := by omega
          intro he
          rw [he] at hj'
          cases s <;> cases hj'.1
  have hsum : passes (Kernel.init cpus) es s i j =
      ∑ m ∈ Finset.Ico i (j + 1), if passedAt (Kernel.init cpus) es s m then 1 else 0 := by
    unfold passes
    rw [Finset.card_filter, Finset.Ico_add_one_right_eq_Icc]
  rw [hsum]
  rcases key (j + 1) (by omega) le_rfl with h0 | ⟨tb, τ, m, -, him, hmj, ⟨hm, hτ⟩, hg⟩
  · rw [h0]; omega
  · have hle : τ.toNat ≤ t₂.toNat := by
      rcases Nat.lt_or_ge m j with hlt | hge
      · exact UInt64.le_iff_toNat_le.1 (hc.le hlt hj hτ hj'.2)
      · obtain rfl : m = j := by omega
        rw [hj'.2] at hτ; cases hτ; exact le_rfl
    have hb := hg.bound
    simp only [perSource_cap, perSource_rate, perSource_unit] at hb
    omega

theorem rate_conformance_twoFrames :
    passes (Kernel.init 1) twoFrames victim 0 1 ≤
      1000 + ((201500000 : UInt64).toNat - (200000000 : UInt64).toNat) / 1000000 := by
  refine rate_conformance (by unfold Chronological; decide) ?_ (by decide)
    (by decide) (by decide) (by decide) ?_ ?_
  · rintro now host data h
    simp only [twoFrames, List.mem_cons, Event.frame.injEq, List.not_mem_nil, or_false] at h
    rcases h with ⟨-, rfl, -⟩ | ⟨-, rfl, -⟩ <;> rfl
  · intro n h0 h1
    interval_cases n <;> decide
  · intro n hn h0 h1
    obtain rfl : n = 0 := by omega
    simp [twoFrames, evictRate, victim]

end FluxGuard
