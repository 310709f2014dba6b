import FluxGuard.Proof.Blacklist

/-!
# Release

A source that its bucket blocked is let through again once the brain deletes it from
the blacklist: it owes one token, and by then has earned more (`amnesty_effective`).

The invariant (`Debt`): the level is at least -1, and below zero only since a blocking
packet after which no packet of the source reached the bucket.
-/

namespace FluxGuard

open Bucket

variable (k₀ : Kernel) (es : List Event) (s : Source)

/-- The stage that decides event `n`. -/
def stageAt (n : ℕ) : Option Stage := es[n]?.bind ((kAt k₀ es n).stageOf s)

/-- Event `n` is a packet of the source that reaches the bucket. -/
def reaches (n : ℕ) : Bool := (stageAt k₀ es s n).any Stage.reachesBucket

/-- The time of event `n`, if it is a frame. -/
def nowAt (n : ℕ) : Option UInt64 := es[n]?.bind Event.now

/-- Packet `m` finds the bucket empty, and no packet of the source reaches the bucket
after it and before event `n`. -/
structure BlockedSince (m n : ℕ) : Prop where
  lt : m < n
  exhausted : stageAt k₀ es s m = some .exhausted
  quiet : ∀ l, m < l → l < n → reaches k₀ es s l = false

/-- What release leaves of a block. -/
structure Amnesty : Prop where
  /-- While the source is blacklisted its bucket does not change. -/
  frozen : ∀ n < es.length, ((kAt k₀ es n).view s).listed = true →
    ((kAt k₀ es (n + 1)).view s).bucket = ((kAt k₀ es n).view s).bucket
  /-- The level is never below -1, and negative only between a blocking packet and the
  next packet that reaches the bucket. -/
  debt : ∀ n ≤ es.length, ∀ tb, ((kAt k₀ es n).view s).bucket = some tb →
    -1 ≤ tb.tokens.toInt ∧ (tb.tokens.toInt < 0 → ∃ m, BlockedSince k₀ es s m n)
  /-- The first packet after a block to reach the bucket passes. -/
  release : ∀ m n now, BlockedSince k₀ es s m n → reaches k₀ es s n = true → nowAt es n = some now →
    stageAt k₀ es s n = some .admitted ∧
      ∃ tb tb', ((kAt k₀ es n).view s).bucket = some tb ∧ ((kAt k₀ es (n + 1)).view s).bucket = some tb' ∧
        tb'.tokens.toInt = min 1000 (((now.toNat : ℤ) - tb.lastTime.toNat) / 1000000 - 1) - 1

variable {k₀ es s}

/-- The stage of a step is that of its event. -/
theorem stageAt_eq {n : ℕ} (hn : n < es.length) : stageAt k₀ es s n = (kAt k₀ es n).stageOf s es[n] := by
  unfold stageAt; rw [List.getElem?_eq_getElem hn]; rfl

/-- The time of a step is that of its event. -/
theorem nowAt_eq {n : ℕ} (hn : n < es.length) : nowAt es n = es[n].now := by
  unfold nowAt; rw [List.getElem?_eq_getElem hn]; rfl

/-- Only a step of the run can reach the bucket. -/
theorem lt_length_of_reaches {n : ℕ} (h : reaches k₀ es s n = true) : n < es.length := by
  by_contra hn
  unfold reaches stageAt at h
  rw [List.getElem?_eq_none (not_lt.1 hn)] at h
  cases h

/-- A step reaches the bucket exactly when its stage does. -/
theorem reaches_iff {n : ℕ} (hn : n < es.length) :
    reaches k₀ es s n = true ↔ ∃ st, (kAt k₀ es n).stageOf s es[n] = some st ∧ st.reachesBucket = true := by
  unfold reaches
  rw [stageAt_eq hn]
  cases (kAt k₀ es n).stageOf s es[n] <;> simp

/-- A packet that does not reach the bucket leaves it alone. -/
theorem bucket_of_not_reaches {n : ℕ} (hn : n < es.length) (hev : es[n] ≠ evictRate s)
    (h : reaches k₀ es s n = false) :
    ((kAt k₀ es (n + 1)).view s).bucket = ((kAt k₀ es n).view s).bucket := by
  rw [kAt_succ _ _ hn]
  cases hst : (kAt k₀ es n).stageOf s es[n] with
  | none => exact (Kernel.of_stageOf_none hst).2 hev
  | some st =>
    obtain ⟨now, host, data, -, -, -, -, -, hview⟩ := Kernel.of_stageOf hst
    have hno : st.reachesBucket = false := by
      rw [← Bool.not_eq_true]; intro hr
      rw [(reaches_iff hn).2 ⟨st, hst, hr⟩] at h; cases h
    rw [hview]
    cases st with
    | allowed => rfl
    | filtered => rfl
    | blacklisted => rfl
    | fresh => cases hno
    | admitted => cases hno
    | exhausted => cases hno

/-- A listed source does not get as far as its bucket. -/
theorem not_listed_of_reaches {n : ℕ} (h : reaches k₀ es s n = true) :
    ((kAt k₀ es n).view s).listed = false := by
  obtain ⟨st, hst, hr⟩ := (reaches_iff (lt_length_of_reaches h)).1 h
  obtain ⟨now, host, data, -, -, -, hstage, -⟩ := Kernel.of_stageOf hst
  exact (View.of_reachesBucket (by rw [hstage]; exact hr)).2.2

/-- The level is at least -1, and below zero only since a blocking packet, which was not
before the last refill. -/
def Debt (k₀ : Kernel) (es : List Event) (s : Source) (n : ℕ) (tb : TokenBucket) : Prop :=
  -1 ≤ tb.tokens.toInt ∧ (tb.tokens.toInt < 0 →
    ∃ m τ, BlockedSince k₀ es s m n ∧ nowAt es m = some τ ∧ tb.lastTime.toNat ≤ τ.toNat)

variable {cpus : ℕ}

/-- A packet that reaches a bucket. -/
theorem of_reaches_some {n : ℕ} (hr : reaches k₀ es s n = true) {tb : TokenBucket}
    (hb : ((kAt k₀ es n).view s).bucket = some tb) {now : UInt64} (hnow : nowAt es n = some now) :
    stageAt k₀ es s n = some (if (tokenBucketCheck tb now).2 then .exhausted else .admitted) ∧
      ((kAt k₀ es (n + 1)).view s).bucket = some (tokenBucketCheck tb now).1 := by
  have hn := lt_length_of_reaches hr
  obtain ⟨st, hst, hreach⟩ := (reaches_iff hn).1 hr
  obtain ⟨now', host, data, he, -, -, hstage, -, hview⟩ := Kernel.of_stageOf hst
  rw [nowAt_eq hn, he] at hnow
  obtain rfl : now' = now := Option.some.inj hnow
  have hbs := View.stage_eq_bucketStage hstage hreach
  rw [hb] at hbs
  rw [stageAt_eq hn, hst, kAt_succ _ _ hn, hview, ← hbs, bucketStage]
  refine ⟨rfl, ?_⟩
  split <;> simp [View.packet, hb]

/-- A packet that reaches the bucket stage and finds no bucket. -/
theorem of_reaches_none {n : ℕ} (hr : reaches k₀ es s n = true) (hb : ((kAt k₀ es n).view s).bucket = none)
    {tb : TokenBucket} (hb' : ((kAt k₀ es (n + 1)).view s).bucket = some tb) : tb.tokens.toInt = 999 := by
  have hn := lt_length_of_reaches hr
  obtain ⟨st, hst, hreach⟩ := (reaches_iff hn).1 hr
  obtain ⟨now, host, data, he, -, -, hstage, -, hview⟩ := Kernel.of_stageOf hst
  have hbs := View.stage_eq_bucketStage hstage hreach
  rw [hb] at hbs
  rw [kAt_succ _ _ hn, hview, ← hbs] at hb'
  simp only [bucketStage, View.packet] at hb'
  split at hb'
  · cases hb'
    show (KERN_PPS_LIMIT - 1).toInt = 999
    decide
  · cases hb'

/-- After a blocking packet the bucket stays one token in debt until the next packet that
reaches it. -/
theorem bucket_of_blockedSince (hc : Chronological es)
    (hev : ∀ n (hn : n < es.length), es[n] ≠ evictRate s) {m n : ℕ}
    (hm : BlockedSince (Kernel.init cpus) es s m n) (hn : n ≤ es.length) :
    ∃ tb, ((kAt (Kernel.init cpus) es n).view s).bucket = some tb ∧ tb.tokens.toInt < 0 := by
  obtain ⟨hlt, hex, hquiet⟩ := hm
  have hlen : m < es.length := by omega
  -- the blocking packet leaves the debt, and no later one touches the bucket
  induction n, hlt using Nat.le_induction with
  | base =>
    rw [stageAt_eq hlen] at hex
    obtain ⟨now, host, data, he, -, -, hstage, -⟩ := Kernel.of_stageOf hex
    obtain ⟨tb, hb, hd⟩ := View.bucket_of_exhausted hstage
    have hr : reaches (Kernel.init cpus) es s m = true := (reaches_iff hlen).2 ⟨_, hex, rfl⟩
    have hnow : nowAt es m = some now := by rw [nowAt_eq hlen, he]; rfl
    obtain ⟨heq, hdrop⟩ := (sane_at cpus hc hlen.le).check_eq hb now
    rw [hd, ← heq] at hdrop
    exact ⟨_, (of_reaches_some hr hb hnow).2, of_decide_eq_true hdrop.symm⟩
  | succ n hmn ih =>
    obtain ⟨tb, hb, hneg⟩ := ih (by omega) fun l hml hl => hquiet l hml (by omega)
    refine ⟨tb, ?_, hneg⟩
    rw [bucket_of_not_reaches (by omega) (hev n (by omega)) (hquiet n (by omega) (by omega)), hb]

section Run

variable (hc : Chronological es)
  (hup : ∀ n now, nowAt es n = some now → now.toNat * 1000 < 2 ^ 64)
  (hgap : ∀ m n τ now, BlockedSince (Kernel.init cpus) es s m n → reaches (Kernel.init cpus) es s n = true →
    nowAt es m = some τ → nowAt es n = some now → τ.toNat + 2000000 ≤ now.toNat)

include hc hup hgap

/-- A packet that reaches a bucket in debt: by now the source has earned at least two tokens. -/
theorem Debt.release {n : ℕ} {tb : TokenBucket} (hd : Debt (Kernel.init cpus) es s n tb)
    (hneg : tb.tokens.toInt < 0) (hr : reaches (Kernel.init cpus) es s n = true)
    (hb : ((kAt (Kernel.init cpus) es n).view s).bucket = some tb) {now : UInt64}
    (hnow : nowAt es n = some now) :
    (tokenBucketCheck tb now).2 = false ∧ 0 ≤ (tokenBucketCheck tb now).1.tokens.toInt ∧
      (tokenBucketCheck tb now).1.tokens.toInt =
        min 1000 (((now.toNat : ℤ) - tb.lastTime.toNat) / 1000000 - 1) - 1 := by
  obtain ⟨heq, hdrop⟩ := (sane_at cpus hc (lt_length_of_reaches hr).le).check_eq hb now
  obtain ⟨m, τ, hm, hτ, hlast⟩ := hd.2 hneg
  have hτn := hgap m n τ now hm hr hτ hnow
  have hle : tb.lastTime.toNat ≤ now.toNat := by omega
  have hrefill := refill_perSource hle (hup n now hnow)
  have htok := congrArg State.tokens heq
  rw [TokenBucket.toState_tokens, tokens_take, TokenBucket.toState_last, TokenBucket.toState_tokens, hrefill,
    if_neg (by omega), perSource_cap] at htok
  -- 2 ms at least since the last refill, so two tokens at least
  have hgain : 2 ≤ (now.toNat - tb.lastTime.toNat) / 1000000 := by omega
  have hcast : (((now.toNat - tb.lastTime.toNat) / 1000000 : ℕ) : ℤ) =
      ((now.toNat : ℤ) - tb.lastTime.toNat) / 1000000 := by omega
  have hone : tb.tokens.toInt = -1 := by have := hd.1; omega
  rw [hone, hcast] at htok
  have h0 : 0 ≤ (tokenBucketCheck tb now).1.tokens.toInt := by
    have : 1 ≤ min (-1 + ((now.toNat : ℤ) - tb.lastTime.toNat) / 1000000) 1000 := le_min (by omega) (by omega)
    omega
  rw [← heq, TokenBucket.toState_tokens, decide_eq_false (not_lt.2 h0)] at hdrop
  refine ⟨hdrop, h0, ?_⟩
  rw [htok, min_comm, neg_add_eq_sub]

/-- One step pays or takes what its stage says, and the debt is kept up with it. -/
theorem debt_step {n : ℕ} (hn : n < es.length) (hev : es[n] ≠ evictRate s)
    (h : ∀ tb, ((kAt (Kernel.init cpus) es n).view s).bucket = some tb → Debt (Kernel.init cpus) es s n tb)
    (tb' : TokenBucket) (hb' : ((kAt (Kernel.init cpus) es (n + 1)).view s).bucket = some tb') :
    Debt (Kernel.init cpus) es s (n + 1) tb' := by
  -- a packet that does not reach the bucket leaves the debt; another one settles or starts it
  cases hr : reaches (Kernel.init cpus) es s n with
  | false =>
    rw [bucket_of_not_reaches hn hev hr] at hb'
    obtain ⟨hge, hdebt⟩ := h tb' hb'
    refine ⟨hge, fun hneg => ?_⟩
    obtain ⟨m, τ, hm, hτ, hlast⟩ := hdebt hneg
    refine ⟨m, τ, ⟨by have := hm.lt; omega, hm.exhausted, fun l hml hl => ?_⟩, hτ, hlast⟩
    rcases Nat.eq_or_lt_of_le (Nat.lt_succ_iff.1 hl) with rfl | hl
    · exact hr
    · exact hm.quiet l hml hl
  | true =>
    cases hb : ((kAt (Kernel.init cpus) es n).view s).bucket with
    | none =>
      have := of_reaches_none hr hb hb'
      exact ⟨by omega, fun hneg => by omega⟩
    | some tb =>
      obtain ⟨st, hst, -⟩ := (reaches_iff hn).1 hr
      obtain ⟨now, host, data, he, -⟩ := Kernel.of_stageOf hst
      have hnow : nowAt es n = some now := by rw [nowAt_eq hn, he]; rfl
      obtain ⟨hstage, hafter⟩ := of_reaches_some hr hb hnow
      rw [hafter] at hb'
      cases hb'
      -- in debt the gap has paid for the packet; without debt it may fall to -1
      by_cases hneg : tb.tokens.toInt < 0
      · obtain ⟨-, h0, -⟩ := Debt.release hc hup hgap (h tb hb) hneg hr hb hnow
        exact ⟨by omega, fun hlt => by omega⟩
      · have hsane := sane_at cpus hc hn.le
        obtain ⟨heq, hdrop⟩ := hsane.check_eq hb now
        have hge := tokens_take_ge (P := perSource) (s := tb.toState) (hsane.source s tb hb).1.le now.toNat
        rw [← heq, TokenBucket.toState_tokens, TokenBucket.toState_tokens] at hge
        rw [← heq, TokenBucket.toState_tokens] at hdrop
        refine ⟨by omega, fun hlt => ⟨n, now, ⟨by omega, ?_, fun l _ _ => by omega⟩, hnow, ?_⟩⟩
        · -- the packet that takes the level below zero is the blocking one
          rw [hstage, hdrop, decide_eq_true hlt]; rfl
        · have hle : tb.lastTime.toNat ≤ now.toNat :=
            UInt64.le_iff_toNat_le.1 ((behind_at cpus hc hn (by rw [he]; rfl)).source s tb hb)
          have := last_take_le (P := perSource) (s := tb.toState) hle
          rwa [← heq, TokenBucket.toState_last] at this

/-- So every bucket of the run carries the debt of the frames before it. -/
theorem debt_at (hev : ∀ n (hn : n < es.length), es[n] ≠ evictRate s) {n : ℕ} (hn : n ≤ es.length) :
    ∀ tb, ((kAt (Kernel.init cpus) es n).view s).bucket = some tb → Debt (Kernel.init cpus) es s n tb := by
  induction n with
  | zero =>
    intro tb hb
    rw [kAt_zero] at hb
    cases s <;> cases hb
  | succ n ih => exact debt_step hc hup hgap (by omega) (hev n (by omega)) (ih (by omega))

/-- **Release is effective.** -/
theorem amnesty_effective (hev : ∀ n (hn : n < es.length), es[n] ≠ evictRate s) :
    Amnesty (Kernel.init cpus) es s where
  frozen n hn hl := by
    refine bucket_of_not_reaches hn (hev n hn) ?_
    rw [← Bool.not_eq_true]
    intro hr
    rw [not_listed_of_reaches hr] at hl
    cases hl
  debt n hn tb hb := by
    obtain ⟨hge, hdebt⟩ := debt_at hc hup hgap hev hn tb hb
    refine ⟨hge, fun hneg => ?_⟩
    obtain ⟨m, τ, hm, -⟩ := hdebt hneg
    exact ⟨m, hm⟩
  release m n now hm hr hnow := by
    have hn := (lt_length_of_reaches hr).le
    obtain ⟨tb, hb, hneg⟩ := bucket_of_blockedSince hc hev hm hn
    obtain ⟨hpass, -, htok⟩ := Debt.release hc hup hgap (debt_at hc hup hgap hev hn tb hb) hneg hr hb hnow
    obtain ⟨hstage, hafter⟩ := of_reaches_some hr hb hnow
    rw [hpass] at hstage
    exact ⟨hstage, tb, _, hb, hafter, htok⟩

end Run

/-- `10.0.1.5` sends 1001 packets at 2 s, is released, and sends one more 2 ms later. -/
def released : List Event :=
  List.replicate 1001 (burstFrame 2000000000) ++ [.v4 (.unblacklist 0x0501000A), burstFrame 2002000000]

/-- The first part of the run is a burst at one time. -/
theorem kAt_released {n : ℕ} (hn : n ≤ 1001) :
    kAt (Kernel.init 1) released n = run (Kernel.init 1) (List.replicate n (burstFrame 2000000000)) := by
  unfold kAt released
  rw [List.take_append_of_le_length (by rw [List.length_replicate]; exact hn), List.take_replicate, Nat.min_eq_left hn]

theorem getElem?_released {n : ℕ} (hn : n ≤ 1000) : released[n]? = some (burstFrame 2000000000) := by
  unfold released
  rw [List.getElem?_append_left (by rw [List.length_replicate]; omega), List.getElem?_replicate, if_pos (by omega)]

theorem getElem?_released_unlist : released[1001]? = some (.v4 (.unblacklist 0x0501000A)) := by
  unfold released
  rw [List.getElem?_append_right (by rw [List.length_replicate]), List.length_replicate]
  rfl

theorem getElem?_released_last : released[1002]? = some (burstFrame 2002000000) := by
  unfold released
  rw [List.getElem?_append_right (by rw [List.length_replicate]; omega), List.length_replicate]
  rfl

theorem length_released : released.length = 1003 := by
  unfold released
  rw [List.length_append, List.length_replicate]
  rfl

/-- The first frame makes the bucket, the last of the burst empties it. -/
theorem stageAt_released {n : ℕ} (hn : n ≤ 1000) :
    stageAt (Kernel.init 1) released victim n =
      some (if n = 0 then .fresh else if n = 1000 then .exhausted else .admitted) := by
  unfold stageAt
  rw [getElem?_released hn, kAt_released (by omega), Option.bind_some]
  exact stage_burst hn

/-- The release itself is no packet. -/
theorem stageAt_released_unlist : stageAt (Kernel.init 1) released victim 1001 = none := by
  unfold stageAt
  rw [getElem?_released_unlist]
  rfl

/-- A packet of the victim 2 ms after it was taken off the blacklist. -/
theorem reachesBucket_unlisted {k : Kernel} (hallow : (k.view victim).allowed = false) (hfilter : k.filters 6 = false)
    (hglobal : k.globalRateMap.toState = ⟨498999, (2000000000 : UInt64).toNat⟩) :
    ((k.step (.v4 (.unblacklist 0x0501000A))).stageOf victim (burstFrame 2002000000)).any
      Stage.reachesBucket = true := by
  obtain ⟨hallow', hlisted⟩ : ((k.step (.v4 (.unblacklist 0x0501000A))).view victim).allowed = false ∧
      ((k.step (.v4 (.unblacklist 0x0501000A))).view victim).listed = false := by
    rw [Kernel.view_step]
    exact ⟨hallow, rfl⟩
  have hno : (k.step (.v4 (.unblacklist 0x0501000A))).overloaded 2002000000 = false := by
    have htok : k.globalRateMap.tokens.toInt = 498999 := congrArg State.tokens hglobal
    have hmap : (k.step (.v4 (.unblacklist 0x0501000A))).globalRateMap = k.globalRateMap := rfl
    rw [Kernel.overloaded, hmap, (globalBucketCheck_eq k.globalRateMap 2002000000 (by omega) (by omega)).2, hglobal]
    decide
  rw [Kernel.stageOf, act_burstFrame hno hfilter]
  show (View.stage _ 2002000000 false).reachesBucket = true
  rw [View.stage_of_open hallow' rfl hlisted]
  unfold bucketStage
  split
  · rfl
  · split <;> rfl

/-- The packet after the release reaches the bucket. -/
theorem reaches_released : reaches (Kernel.init 1) released victim 1002 = true := by
  have hget := getElem?_released_unlist
  have hlen : 1001 < released.length := by
    rw [length_released]
    omega
  rw [List.getElem?_eq_getElem hlen, Option.some.injEq] at hget
  obtain ⟨hj, -⟩ := run_burst (t := 2000000000) (k := Kernel.init 1) rfl rfl rfl rfl rfl rfl (j := 999) le_rfl
  obtain ⟨hallow, hfilter, hglobal⟩ := hj.last
  unfold reaches stageAt
  rw [getElem?_released_last, Option.bind_some, kAt_succ _ _ hlen, hget, kAt_released le_rfl,
    List.replicate_succ', run_concat]
  exact reachesBucket_unlisted hallow hfilter hglobal

/-- The burst blocks the victim, which reaches its bucket again after its release. -/
theorem blockedSince_released : BlockedSince (Kernel.init 1) released victim 1000 1002 := by
  refine ⟨by omega, stageAt_released le_rfl, fun l hl hl' => ?_⟩
  obtain rfl : l = 1001 := by omega
  unfold reaches
  rw [stageAt_released_unlist]
  rfl

/-- No other packet of the victim blocks it. -/
theorem eq_of_blockedSince_released {m n : ℕ} (hm : BlockedSince (Kernel.init 1) released victim m n)
    (hn : reaches (Kernel.init 1) released victim n = true) : m = 1000 ∧ n = 1002 := by
  have hlen := lt_length_of_reaches hn
  rw [length_released] at hlen
  have hlt := hm.lt
  have hex := hm.exhausted
  have hnn : n ≠ 1001 := by
    rintro rfl
    unfold reaches at hn
    rw [stageAt_released_unlist] at hn
    cases hn
  by_cases hm' : m ≤ 1000
  · rw [stageAt_released hm'] at hex
    by_cases h0 : m = 0
    · rw [if_pos h0] at hex
      cases hex
    · rw [if_neg h0] at hex
      by_cases h1 : m = 1000
      · omega
      · rw [if_neg h1] at hex
        cases hex
  · obtain rfl : m = 1001 := by omega
    rw [stageAt_released_unlist] at hex
    cases hex

/-- The burst is at 2 s, and the packet after the release 2 ms later. -/
theorem times_released : released.filterMap Event.now = List.replicate 1001 2000000000 ++ [2002000000] := by
  unfold released
  rw [List.filterMap_append, List.filterMap_replicate_of_some (f := Event.now) (b := 2000000000) rfl]
  rfl

/-- The victim's debt is settled: its block is released, and its next packet passes. -/
theorem amnesty_effective_released :
    BlockedSince (Kernel.init 1) released victim 1000 1002 ∧ reaches (Kernel.init 1) released victim 1002 = true ∧
      Amnesty (Kernel.init 1) released victim := by
  refine ⟨blockedSince_released, reaches_released, amnesty_effective ?_ ?_ ?_ ?_⟩
  · unfold Chronological
    rw [times_released, List.pairwise_append]
    refine ⟨List.pairwise_replicate.2 (Or.inr (UInt64.le_refl _)), List.pairwise_singleton _ _, fun a ha b hb => ?_⟩
    rw [(List.mem_replicate.1 ha).2, List.mem_singleton.1 hb]
    decide
  · intro n now h
    have hmem : now ∈ released.filterMap Event.now := by
      unfold nowAt at h
      obtain ⟨e, he, hnow⟩ := Option.bind_eq_some_iff.1 h
      exact List.mem_filterMap.2 ⟨e, List.mem_of_getElem? he, hnow⟩
    rw [times_released] at hmem
    rcases List.mem_append.1 hmem with hmem | hmem
    · rw [(List.mem_replicate.1 hmem).2]
      decide
    · rw [List.mem_singleton.1 hmem]
      decide
  · intro m n τ now hm hr hτ hnow
    obtain ⟨rfl, rfl⟩ := eq_of_blockedSince_released hm hr
    unfold nowAt at hτ hnow
    rw [getElem?_released le_rfl] at hτ
    rw [getElem?_released_last] at hnow
    cases hτ
    cases hnow
    decide
  · intro n hn h
    have hmem := List.getElem_mem hn
    rw [h] at hmem
    unfold released at hmem
    rcases List.mem_append.1 hmem with hmem | hmem
    · cases (List.mem_replicate.1 hmem).2
    · revert hmem
      simp [evictRate, victim, burstFrame]

end FluxGuard
