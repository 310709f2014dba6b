import FluxGuard.Proof.Isolation
import FluxGuard.Proof.Rate

/-!
# The global bucket along a run

* `global_cap`: in any window of a run the global bucket lets through at most
  `550000 + ⌊(t₂ - t₁) / 2 µs⌋` frames: a full bucket, one refill quantum of 100 ms and
  500000 a second, also where the 64-bit product wraps.
* `allowlisted_packet`: a packet of an allowlisted source is decided by the global bucket alone,
  and changes no map of either family.
* `flood_drops`: which drops it after enough packets of others.
-/

namespace FluxGuard

open Bucket

/-- The time at which a frame is charged to the global bucket. -/
def Event.charge : Event → Option UInt64
  | .frame now _ data => if data.length < 14 then none else some now
  | _ => none

/-- What charges the aggregate bucket has a time. -/
theorem Event.now_of_charge {e : Event} {now : UInt64} (h : e.charge = some now) : e.now = some now := by
  cases e with
  | frame now' host data =>
    rw [charge] at h
    split at h
    · cases h
    · exact h
  | v4 op => cases h
  | v6 op => cases h
  | protoSet p action => cases h
  | protoDel p => cases h

/-- What does not charge it leaves it as it is. -/
theorem Kernel.globalRateMap_of_none {k : Kernel} {e : Event} (h : e.charge = none) :
    (k.step e).globalRateMap = k.globalRateMap := by
  cases e with
  | frame now host data =>
    have hl : data.length < 14 := by
      by_contra hl
      rw [Event.charge, if_neg hl] at h
      cases h
    rw [Kernel.step, fluxguardFilter_eq, if_pos hl]
  | v4 op => rfl
  | v6 op => rfl
  | protoSet p action => rfl
  | protoDel p => rfl

/-- What charges it is one check. -/
theorem Kernel.globalRateMap_of_some {k : Kernel} {e : Event} {now : UInt64} (h : e.charge = some now) :
    (k.step e).globalRateMap = (globalBucketCheck k.globalRateMap now).1 := by
  rcases Kernel.globalRateMap_step k e with ⟨-, -⟩ | ⟨now', host, data, rfl, hl, hg⟩
  · cases e with
    | frame now' host data =>
      rw [Event.charge] at h
      split at h
      · cases h
      · rename_i hl
        cases h
        rw [Kernel.step, fluxguardFilter_eq, if_neg hl]
        split
        · rfl
        · rw [dispatch_globalRateMap _ now host hl]
          rfl
    | v4 op => cases h
    | v6 op => cases h
    | protoSet p action => cases h
    | protoDel p => cases h
  · rw [Event.charge, if_neg hl] at h
    cases h
    exact hg

/-- A frame that the global bucket lets through. -/
def Kernel.letsThrough (k : Kernel) (e : Event) : Bool :=
  match e.charge with
  | some now => !k.overloaded now
  | none => false

/-- Only what charges the bucket is let through by it. -/
theorem Kernel.letsThrough_of_none (k : Kernel) {e : Event} (h : e.charge = none) : k.letsThrough e = false := by
  unfold letsThrough
  rw [h]

/-- It is let through unless the bucket is overdrawn. -/
theorem Kernel.letsThrough_of_some (k : Kernel) {e : Event} {now : UInt64} (h : e.charge = some now) :
    k.letsThrough e = !k.overloaded now := by
  unfold letsThrough
  rw [h]

/-- The frames among events `i … j` that the global bucket lets through. -/
def letThrough (k₀ : Kernel) (es : List Event) (i j : ℕ) : ℕ :=
  ((Finset.Icc i j).filter fun n => (es[n]?.map (kAt k₀ es n).letsThrough).getD false).card

/-! ## No over-admission -/

/-- The constants of the global bucket, with the 50000 tokens of a refill quantum added to its capacity. -/
def quantum : Params := ⟨500000, 10 ^ 9, 2 ^ 64, 550000, aggregate.unit_pos, aggregate.modulus_pos⟩

@[simp] theorem quantum_rate : quantum.rate = 500000 := rfl
@[simp] theorem quantum_unit : quantum.unit = 10 ^ 9 := rfl
@[simp] theorem quantum_modulus : quantum.modulus = 2 ^ 64 := rfl
@[simp] theorem quantum_cap : quantum.cap = 550000 := rfl

/-- The two scales have one phase. -/
theorem phase_quantum (last now : ℕ) : phase quantum last now = phase aggregate last now := rfl

/-- The time of the bucket does not pass the clock. -/
theorem globalTake_last_le {s : State} {now : ℕ} (h : s.last ≤ now) : (globalTake s now).last ≤ now := by
  rw [last_globalTake]
  split <;> omega

/-- A frame never raises the potential, and costs a whole token if it is let through. -/
theorem globalTake_potential {s : State} {now : ℕ} (hn : now < 2 ^ 64) (hlo : -100000 ≤ s.tokens) :
    potential quantum (globalTake s now) now ≤ potential quantum s now ∧
      (0 ≤ (globalTake s now).tokens →
        potential quantum (globalTake s now) now + quantum.unit ≤ potential quantum s now) := by
  have hr := unit_mul_refill_le (P := aggregate) s.last now
  rw [aggregate_unit] at hr
  unfold potential globalTake
  simp only [quantum_unit, phase_quantum]
  -- a refill takes the phase into the tokens; without one it stands
  split
  · have hself := phase_self (P := aggregate) hn
    have hmin := min_le_left (s.tokens + refill aggregate s.last now) 500000
    simp only [hself]
    push_cast
    omega
  · push_cast
    omega

/-- After a frame the bucket is worth at most 549999 tokens, the time since its refill included. -/
theorem globalTake_potential_le {s : State} {now : ℕ} (hn : now < 2 ^ 64) (hl : s.last ≤ now)
    (hhi : s.tokens < 500000) :
    potential quantum (globalTake s now) now + quantum.unit ≤ quantum.unit * quantum.cap := by
  have hgap := gap_eq (P := aggregate) hl hn
  rw [aggregate_modulus] at hgap
  unfold potential globalTake
  simp only [quantum_unit, quantum_cap, phase_quantum, hgap]
  split
  · have hself := phase_self (P := aggregate) hn
    have hmin := min_le_right (s.tokens + refill aggregate s.last now) 500000
    simp only [hself]
    push_cast
    omega
  · -- the time since the last refill is at most a quantum
    have hp := phase_le (P := aggregate) hl hn
    rw [aggregate_rate] at hp
    push_cast
    omega

/-- `w` frames were let through so far in a window that started at `t₁`. -/
def GlobalWindow (es : List Event) (i n : ℕ) (t₁ : UInt64) (tb : TokenBucket) (w : ℕ) : Prop :=
  w = 0 ∨ ∃ τ m, i ≤ m ∧ m < n ∧ (∃ hm : m < es.length, es[m].now = some τ) ∧
    Granted quantum t₁.toNat w tb.toState τ.toNat

variable {cpus : ℕ} {es : List Event}

/-- One event of the window keeps its bound. -/
theorem globalWindow_step (hc : Chronological es) {i n : ℕ} (hn : n < es.length) (hin : i ≤ n) {t₁ : UInt64}
    (ht : ∀ t, es[n].now = some t → t₁ ≤ t) {w : ℕ}
    (h : GlobalWindow es i n t₁ (kAt (Kernel.init cpus) es n).globalRateMap w) :
    GlobalWindow es i (n + 1) t₁ (kAt (Kernel.init cpus) es (n + 1)).globalRateMap
      (w + if (kAt (Kernel.init cpus) es n).letsThrough es[n] then 1 else 0) := by
  have hsane := sane_at cpus hc hn.le
  rw [kAt_succ _ _ hn]
  set k := kAt (Kernel.init cpus) es n with hk
  cases hch : es[n].charge with
  -- the bucket is not charged, and the window is as it was
  | none =>
    rw [Kernel.globalRateMap_of_none hch, k.letsThrough_of_none hch, if_neg Bool.false_ne_true, Nat.add_zero]
    rcases h with h | ⟨τ, m, him, hmn, hτ, hg⟩
    · exact Or.inl h
    · exact Or.inr ⟨τ, m, him, by omega, hτ, hg⟩
  | some now =>
    have hnow := Event.now_of_charge hch
    have hlast : k.globalRateMap.lastTime.toNat ≤ now.toNat :=
      UInt64.le_iff_toNat_le.1 (behind_at cpus hc hn hnow).global
    obtain ⟨heq, hdrop⟩ := hsane.global_eq now
    obtain ⟨hkeep, hspend⟩ := globalTake_potential (s := k.globalRateMap.toState) now.toNat_lt hsane.lo
    have hle := globalTake_last_le (s := k.globalRateMap.toState) hlast
    -- the frames of the window so far are not later than this one
    have hτ : ∀ m τ, m < n → (∃ hm : m < es.length, es[m].now = some τ) → τ.toNat ≤ now.toNat :=
      fun m τ hmn hτ => UInt64.le_iff_toNat_le.1 (hc.le hmn hn hτ.2 hnow)
    rw [Kernel.globalRateMap_of_some hch, k.letsThrough_of_some hch]
    cases hd : k.overloaded now with
    -- dropped: what the window granted still holds at this later frame
    | true =>
      rw [Bool.not_true, if_neg Bool.false_ne_true, Nat.add_zero]
      rcases h with rfl | ⟨τ, m, -, hmn, hτm, hg⟩
      · exact Or.inl rfl
      · refine Or.inr ⟨now, n, hin, by omega, ⟨hn, hnow⟩, ?_⟩
        rw [heq]
        exact hg.keep (hτ m τ hmn hτm) now.toNat_lt hle hkeep
    -- let through: the first grant of the window, or one more token of it
    | false =>
      rw [hd, Bool.false_eq, decide_eq_false_iff_not, not_lt] at hdrop
      rw [Bool.not_false, if_pos rfl]
      refine Or.inr ⟨now, n, hin, by omega, ⟨hn, hnow⟩, ?_⟩
      rw [heq]
      rcases h with rfl | ⟨τ, m, -, hmn, hτm, hg⟩
      · exact Granted.opened (UInt64.le_iff_toNat_le.1 (ht now hnow)) hle
          (globalTake_potential_le now.toNat_lt hlast hsane.hi) hdrop
      · exact hg.spend (hτ m τ hmn hτm) now.toNat_lt hle (hspend hdrop) hdrop

/-- **Global cap.** From a frame at `t₁` to one at `t₂`, the global bucket lets at most
`550000 + ⌊(t₂ - t₁) / 2000⌋` frames through. -/
theorem global_cap (hc : Chronological es) {i j : ℕ} (hj : j < es.length) (hij : i ≤ j) {t₁ t₂ : UInt64}
    (hi : es[i].now = some t₁) (hj' : es[j].now = some t₂) :
    letThrough (Kernel.init cpus) es i j ≤ 550000 + (t₂.toNat - t₁.toNat) / 2000 := by
  -- the window invariant, event by event
  have key : ∀ n, i ≤ n → n ≤ j + 1 →
      GlobalWindow es i n t₁ (kAt (Kernel.init cpus) es n).globalRateMap
        (∑ m ∈ Finset.Ico i n, if (es[m]?.map (kAt (Kernel.init cpus) es m).letsThrough).getD false then 1 else 0) := by
    intro n hin hnj
    induction n, hin using Nat.le_induction with
    | base => left; simp
    | succ n hin ih =>
      have hn : n < es.length := by omega
      rw [Finset.sum_Ico_succ_top hin, List.getElem?_eq_getElem hn]
      refine globalWindow_step hc hn hin ?_ (ih (by omega))
      intro t ht
      rcases Nat.eq_or_lt_of_le hin with rfl | hlt
      · rw [hi] at ht
        cases ht
        exact UInt64.le_refl _
      · exact hc.le hlt hn hi ht
  have hsum : letThrough (Kernel.init cpus) es i j =
      ∑ m ∈ Finset.Ico i (j + 1), if (es[m]?.map (kAt (Kernel.init cpus) es m).letsThrough).getD false
        then 1 else 0 := by
    unfold letThrough
    rw [Finset.card_filter, Finset.Ico_add_one_right_eq_Icc]
  rw [hsum]
  rcases key (j + 1) (by omega) le_rfl with h0 | ⟨τ, m, him, hmj, ⟨hm, hτ⟩, hg⟩
  · rw [h0]
    omega
  -- the last grant is at `τ`, and its bound grows up to `t₂`
  · have hle : τ.toNat ≤ t₂.toNat := by
      rcases Nat.lt_or_ge m j with hlt | hge
      · exact UInt64.le_iff_toNat_le.1 (hc.le hlt hj hτ hj')
      · obtain rfl : m = j := by omega
        rw [hj'] at hτ
        cases hτ
        exact le_rfl
    have hb := hg.bound
    simp only [quantum_cap, quantum_rate, quantum_unit] at hb
    omega

theorem global_cap_twoFrames :
    letThrough (Kernel.init 1) twoFrames 0 1 ≤
      550000 + ((201500000 : UInt64).toNat - (200000000 : UInt64).toNat) / 2000 :=
  global_cap (by unfold Chronological; decide) (by decide) (by decide) (by decide) (by decide)

/-! ## Bursts -/

/-- The global bucket after `n` frames at the time of its last refill. -/
theorem globalRateMap_burst {k : Kernel} {now : UInt64} {T : ℤ} (hk : k.globalRateMap.toState = ⟨T, now.toNat⟩)
    (hlo : -100000 ≤ T) (hhi : T ≤ 500000) (host : Host) {data : List UInt8} (hl : ¬ data.length < 14) (n : ℕ) :
    (run k (List.replicate n (.frame now host data))).globalRateMap.toState =
      ⟨max (T - n) (-100000), now.toNat⟩ := by
  induction n with
  | zero =>
    rw [Nat.cast_zero, sub_zero, max_eq_left hlo]
    exact hk
  -- the clock stands still, so no frame of the burst refills
  | succ n ih =>
    have hch : (Event.frame now host data).charge = some now := by rw [Event.charge, if_neg hl]
    have htok : (run k (List.replicate n (.frame now host data))).globalRateMap.tokens.toInt =
        max (T - n) (-100000) := congrArg State.tokens ih
    rw [List.replicate_succ', run_concat, Kernel.globalRateMap_of_some hch,
      (globalBucketCheck_eq _ now (by omega) (by omega)).1, ih,
      globalTake_at_last _ now.toNat_lt]
    refine State.ext ?_ rfl
    push_cast
    omega

/-- An empty bucket drops a frame at the time of its last refill. -/
theorem Kernel.overloaded_at_last {k : Kernel} {now : UInt64} {T : ℤ}
    (hk : k.globalRateMap.toState = ⟨T, now.toNat⟩) (hlo : -100000 ≤ T) (hhi : T ≤ 500000) (h0 : T ≤ 0) :
    k.overloaded now = true := by
  have htok : k.globalRateMap.tokens.toInt = T := congrArg State.tokens hk
  have hcheck := (globalBucketCheck_eq k.globalRateMap now (by omega) (by omega)).2
  rw [hk, globalTake_at_last T now.toNat_lt] at hcheck
  unfold overloaded
  rw [hcheck, decide_eq_true_eq]
  dsimp only
  omega

/-! ## Allowlisted sources -/

/-- A packet of an allowlisted source is counted and charged to the global bucket, and that is all. -/
theorem fluxguardFilter_allowed (k : Kernel) (now : UInt64) (host : Host) {data : List UInt8} {s : Source}
    (hs : sourceOf data = some s) (ha : (k.view s).allowed = true) :
    fluxguardFilter k now host data = (charged k now host, if k.overloaded now = true then .drop else .pass) := by
  rw [fluxguardFilter_eq, if_neg (length_of_source hs)]
  by_cases ho : k.overloaded now = true
  · rw [if_pos ho, if_pos ho]
  · rw [if_neg ho, if_neg ho]
    cases s with
    | v4 a =>
      rw [dispatch_v4 _ now host hs]
      exact if_pos ha
    | v6 a =>
      rw [dispatch_v6 _ now host hs]
      exact if_pos ha

/-- **A packet of an allowlisted source** passes or drops as the global bucket says, and changes no map
of either family. -/
theorem allowlisted_packet (k : Kernel) (now : UInt64) (host : Host) {data : List UInt8} {s : Source}
    (hs : sourceOf data = some s) (ha : (k.view s).allowed = true) :
    (fluxguardFilter k now host data).2 = (if k.overloaded now = true then .drop else .pass) ∧
      (fluxguardFilter k now host data).1.v4 = k.v4 ∧ (fluxguardFilter k now host data).1.v6 = k.v6 := by
  rw [fluxguardFilter_allowed k now host hs ha]
  exact ⟨rfl, rfl, rfl⟩

/-- The victim is on the allowlist. -/
def pardoned : Kernel := (Kernel.init 1).step (.v4 (.allow 0x0501000A 1))

theorem allowlisted_packet_victim :
    (fluxguardFilter pardoned 200000000 quiet (ip4Frame 10 0 1 5 6)).2 =
        (if pardoned.overloaded 200000000 = true then .drop else .pass) ∧
      (fluxguardFilter pardoned 200000000 quiet (ip4Frame 10 0 1 5 6)).1.v4 = pardoned.v4 ∧
      (fluxguardFilter pardoned 200000000 quiet (ip4Frame 10 0 1 5 6)).1.v6 = pardoned.v6 :=
  allowlisted_packet pardoned 200000000 quiet sourceOf_victim (by decide)

/-- No frame changes an allowlist. -/
theorem Kernel.allowed_frame (k : Kernel) (s : Source) (now : UInt64) (host : Host) (data : List UInt8) :
    ((k.step (.frame now host data)).view s).allowed = (k.view s).allowed := by
  rw [Kernel.view_step, Kernel.act]
  split
  · exact View.allowed_packet _ _ _ _ _
  · rfl

/-- Frames change no allowlist. -/
theorem allowed_burst (k : Kernel) (s : Source) (now : UInt64) (host : Host) (data : List UInt8) (n : ℕ) :
    ((run k (List.replicate n (.frame now host data))).view s).allowed = (k.view s).allowed := by
  induction n with
  | zero => rfl
  | succ n ih => rw [List.replicate_succ', run_concat, Kernel.allowed_frame, ih]

/-- The victim is put on the allowlist; a second after boot, a neighbour sends `n + 1` packets at once. -/
def flood (n : ℕ) : List Event :=
  .v4 (.allow 0x0501000A 1) :: .frame 1000000000 quiet (ip4Frame 10 0 1 6 6) ::
    List.replicate n (.frame 1000000000 quiet (ip4Frame 10 0 1 6 6))

theorem run_flood (n : ℕ) :
    run (Kernel.init 1) (flood n) = run (pardoned.step (.frame 1000000000 quiet (ip4Frame 10 0 1 6 6)))
      (List.replicate n (.frame 1000000000 quiet (ip4Frame 10 0 1 6 6))) := by
  unfold flood pardoned
  rw [run_cons, run_cons]

/-- The first packet refills the bucket, and the others empty it. -/
theorem globalRateMap_flood (n : ℕ) :
    (run (Kernel.init 1) (flood n)).globalRateMap.toState =
      ⟨max (499999 - n) (-100000), (1000000000 : UInt64).toNat⟩ := by
  have hfirst : (pardoned.step (.frame 1000000000 quiet (ip4Frame 10 0 1 6 6))).globalRateMap.toState =
      ⟨499999, (1000000000 : UInt64).toNat⟩ := by
    rw [@Kernel.globalRateMap_of_some pardoned _ 1000000000 (by decide)]
    exact State.ext (by decide) (by decide)
  rw [run_flood, globalRateMap_burst hfirst (by omega) (by omega) quiet (by decide)]

/-- After the flood even an allowed source is dropped. -/
theorem flood_drops {n : ℕ} (hn : 499999 ≤ n) :
    ((run (Kernel.init 1) (flood n)).view victim).allowed = true ∧
      (fluxguardFilter (run (Kernel.init 1) (flood n)) 1000000000 quiet (ip4Frame 10 0 1 5 6)).2 = .drop := by
  have hallowed : ((run (Kernel.init 1) (flood n)).view victim).allowed = true := by
    rw [run_flood, allowed_burst, Kernel.allowed_frame]
    decide
  have hover := Kernel.overloaded_at_last (globalRateMap_flood n) (by omega) (by omega) (by omega)
  refine ⟨hallowed, ?_⟩
  rw [(allowlisted_packet _ _ quiet sourceOf_victim hallowed).1, if_pos hover]

/-- **The global bucket comes before the allowlist**: after 500000 packets of a neighbour, it drops the
allowlisted victim's. -/
theorem allowlisted_drop :
    ((run (Kernel.init 1) (flood 499999)).view victim).allowed = true ∧
      (fluxguardFilter (run (Kernel.init 1) (flood 499999)) 1000000000 quiet (ip4Frame 10 0 1 5 6)).2 = .drop :=
  flood_drops le_rfl

end FluxGuard
