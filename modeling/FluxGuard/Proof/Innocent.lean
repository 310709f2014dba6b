import FluxGuard.Proof.Cause

/-!
# Innocent sources

A new bucket holds 999 tokens and each packet takes one, so it takes more than 1000 packets
of a source within a boot to empty its bucket, whenever they come.

* `frugal_run`: in a run of the filter with at most 1000 packets of a source, and no tool that
  lists it, the source is not listed.
* `innocent_untouched`: on a host with at most 1000 packets of a source in each boot, the
  source is never listed, and the brain never names it.
-/

namespace FluxGuard

/-- The packets of a source among the events. -/
def sentBy (s : Source) (es : List Event) : ℕ := es.countP fun e => decide (e.source = some s)

/-- A source of which `c` packets have come since its maps were empty. -/
structure Frugal (s : Source) (k : Kernel) (c : ℕ) : Prop where
  listed : (k.view s).listed = false
  bucket : ∀ tb, (k.view s).bucket = some tb → 1000 - (c : ℤ) ≤ tb.tokens.toInt ∧ tb.tokens.toInt < 1000

variable {s : Source} {k : Kernel} {c : ℕ}

/-- A larger count bounds a frugal source too. -/
theorem Frugal.mono (h : Frugal s k c) {c' : ℕ} (hc : c ≤ c') : Frugal s k c' where
  listed := h.listed
  bucket tb hb := by
    have := h.bucket tb hb
    omega

theorem frugal_init (s : Source) (cpus : ℕ) : Frugal s (Kernel.init cpus) 0 where
  listed := by cases s <;> rfl
  bucket tb hb := by cases s <;> cases hb

/-- What a packet takes from the bucket. -/
theorem Frugal.check (h : Frugal s k c) (hc : c ≤ 1000) {tb : TokenBucket} (hb : (k.view s).bucket = some tb)
    (now : UInt64) :
    1000 - ((c + 1 : ℕ) : ℤ) ≤ (tokenBucketCheck tb now).1.tokens.toInt ∧
      (tokenBucketCheck tb now).1.tokens.toInt < 1000 ∧
      ((tokenBucketCheck tb now).2 = true → c = 1000) := by
  obtain ⟨hlo, hhi⟩ := h.bucket tb hb
  obtain ⟨heq, hdrop⟩ := tokenBucketCheck_eq tb now (by omega) (by omega)
  have htokens : (tokenBucketCheck tb now).1.tokens.toInt = (Bucket.take perSource tb.toState now.toNat).tokens :=
    congrArg Bucket.State.tokens heq
  have hge := Bucket.tokens_take_ge (P := perSource) (s := tb.toState) (show tb.tokens.toInt ≤ 1000 by omega) now.toNat
  have hlt := Bucket.tokens_take_lt (P := perSource) (s := tb.toState) (show tb.tokens.toInt < 1000 by omega) now.toNat
  have hstate : tb.toState.tokens = tb.tokens.toInt := rfl
  rw [perSource_cap] at hlt
  rw [htokens]
  refine ⟨by omega, by omega, ?_⟩
  intro hd
  rw [hdrop, decide_eq_true_eq] at hd
  omega

/-- One event, of which the source sends `n` packets, none or one. -/
theorem Frugal.step (h : Frugal s k c) {e : Event} (ht : e.target ≠ some s)
    (hc : c + (if e.source = some s then 1 else 0) ≤ 1000) :
    Frugal s (k.step e) (c + if e.source = some s then 1 else 0) where
  listed := by
    by_contra hl
    rw [Bool.not_eq_false] at hl
    rcases listed_cases hl with hl | hst | htarget
    · rw [h.listed] at hl
      cases hl
    · -- an empty bucket has been paid for by 1000 packets before this one
      obtain ⟨now, host, data, rfl, hs, -, hstage, -, -⟩ := Kernel.of_stageOf hst
      obtain ⟨tb, hb, hd⟩ := View.bucket_of_exhausted hstage
      have hsrc : (Event.frame now host data).source = some s := hs
      rw [if_pos hsrc] at hc
      have := (h.check (by omega) hb now).2.2 hd
      omega
    · exact ht htarget
  bucket := by
    intro tb' hb'
    rw [Kernel.view_step] at hb'
    rcases View.bucket_step_cases _ hb' with hb | ⟨now, host, filtered, room, hact, hnew⟩
    · have := h.bucket tb' hb
      split <;> omega
    · obtain ⟨data, rfl, hs, -, -, -⟩ := Kernel.act_packet hact
      have hsrc : (Event.frame now host data).source = some s := hs
      rw [if_pos hsrc] at hc ⊢
      rcases hnew with rfl | ⟨tb, hb, rfl⟩
      · have htokens : (freshBucket now).tokens.toInt = 999 := by
          show (KERN_PPS_LIMIT - 1).toInt = 999
          decide
        omega
      · obtain ⟨hge, hlt, -⟩ := h.check (by omega) hb now
        exact ⟨hge, hlt⟩

/-- A run in two parts sends what the parts send. -/
theorem sentBy_append (s : Source) (es fs : List Event) : sentBy s (es ++ fs) = sentBy s es + sentBy s fs :=
  List.countP_append

/-- Fewer events, fewer frames. -/
theorem sentBy_sublist {es fs : List Event} (h : es.Sublist fs) : sentBy s es ≤ sentBy s fs := h.countP_le

/-- **A source of at most 1000 packets is not listed** by the filter. -/
theorem frugal_run (h : Frugal s k c) {es : List Event} (ht : ∀ e ∈ es, e.target ≠ some s)
    (hc : c + sentBy s es ≤ 1000) :
    Frugal s (run k es) (c + sentBy s es) := by
  induction es generalizing k c with
  | nil => exact h
  | cons e es ih =>
    have hsent : sentBy s (e :: es) = (if e.source = some s then 1 else 0) + sentBy s es := by
      rw [show e :: es = [e] ++ es from rfl, sentBy_append]
      congr 1
      simp [sentBy, List.countP_cons]
    rw [hsent] at hc ⊢
    rw [run_cons, ← Nat.add_assoc]
    apply ih
    · exact h.step (ht e List.mem_cons_self) (by omega)
    · intro e' he'
      exact ht e' (List.mem_cons_of_mem _ he')
    · omega

/-! ## On the host -/

/-- As long as at most 1000 packets of `s` have come since call `t₀`, it is frugal, and the listed
sources are others. -/
theorem causes_frugal {env : ℕ → Interrupt} (htools : ∀ n, ∀ e ∈ (env n).all, e.target ≠ some s) (t₀ : ℕ) :
    Causes env
      (fun t k => t₀ ≤ t ∧ (sentBy s (heard env t₀ t) ≤ 1000 → Frugal s k (sentBy s (heard env t₀ t))))
      (fun t _ s' => sentBy s (heard env t₀ t) ≤ 1000 → s' ≠ s) := by
  have hsucc : ∀ {t}, t₀ ≤ t → sentBy s (heard env t₀ (t + 1)) = sentBy s (heard env t₀ t) + sentBy s (env t).all := by
    intro t ht
    rw [heard_append env ht (Nat.le_succ t), heard_succ, sentBy_append]
  -- part of what the host does around one call
  have hpart : ∀ {t k es}, (t₀ ≤ t ∧ (sentBy s (heard env t₀ t) ≤ 1000 → Frugal s k (sentBy s (heard env t₀ t)))) →
      es.Sublist (env t).all → sentBy s (heard env t₀ (t + 1)) ≤ 1000 →
      Frugal s (run k es) (sentBy s (heard env t₀ (t + 1))) := by
    rintro t k es ⟨ht, hk⟩ hes hle
    have hsub := sentBy_sublist (s := s) hes
    rw [hsucc ht] at hle ⊢
    have hrun := frugal_run (hk (by omega)) (fun e he => htools t e (hes.subset he)) (by omega)
    exact hrun.mono (by omega)
  have hfewer : ∀ {t}, t₀ ≤ t → sentBy s (heard env t₀ (t + 1)) ≤ 1000 → sentBy s (heard env t₀ t) ≤ 1000 := by
    intro t ht hle
    rw [hsucc ht] at hle
    omega
  have hop : ∀ {k c e}, Frugal s k c → e.now = none → e.target ≠ some s → c ≤ 1000 → Frugal s (k.step e) c := by
    intro k c e h he ht hc
    have hnone : e.source ≠ some s := by
      intro hs
      obtain ⟨now, host, data, rfl, -⟩ := Event.source_eq hs
      cases he
    have := h.step ht (by rw [if_neg hnone]; exact hc)
    rwa [if_neg hnone] at this
  exact {
    host := fun h hes => ⟨by omega, hpart h hes⟩
    grow := fun h hs _ hle => hs (hfewer h.1 hle)
    shown := by
      rintro t k es es' s' h hes hl hle rfl
      have hfrugal := hpart h ((List.sublist_append_left es es').trans hes) hle
      rw [hfrugal.listed] at hl
      cases hl
    unlist := by
      intro t k s' h
      refine ⟨h.1, fun hle => hop (h.2 hle) ?_ ?_ hle⟩
      · cases s' <;> rfl
      · cases s' <;> simp [unblacklist, Event.target]
    unlist_grow := fun _ h => h
    list := by
      intro t k s' h hs
      refine ⟨h.1, fun hle => hop (h.2 hle) ?_ ?_ hle⟩
      · cases s' <;> rfl
      · intro ht
        apply hs hle
        cases s' <;> exact Option.some.inj ht
    list_grow := fun _ h => h }

section Runs

variable {T : Type} {env : ℕ → Interrupt} {args : Args T} {fds : Fds}
variable [Add T] [Sub T] [Zero T] [LE T] [DecidableLE T]
variable {sys₀ : System T} {acts : List (SystemAct T)}

/-- No reboot among the acts from `i` on and before `n`. -/
def OneBoot (acts : List (SystemAct T)) (i n : ℕ) : Prop :=
  ∀ m (hm : m < acts.length), i ≤ m → m < n → ∀ cpus t, acts[m] ≠ .reboot cpus t

/-- The source is new to the host, no tool lists it, and in each boot the host receives at most 1000
packets of it. -/
structure Innocent (env : ℕ → Interrupt) (args : Args T) (fds : Fds) (sys₀ : System T) (acts : List (SystemAct T))
    (s : Source) : Prop where
  listed : (sys₀.world.kernel.view s).listed = false
  bucket : (sys₀.world.kernel.view s).bucket = none
  file : s.text ∉ sys₀.world.file.getD Dict.empty
  tools : ∀ n, ∀ e ∈ (env n).all, e.target ≠ some s
  few : ∀ i n, i ≤ n → n ≤ acts.length → OneBoot acts i n →
    sentBy s (heard env (sysAt env args fds sys₀ acts i).world.turn (sysAt env args fds sys₀ acts n).world.turn) ≤ 1000

/-- **An innocent source is not touched.** At every point of a run of the host, whatever the other
sources send and the other tools do, it is on no blacklist, and it is not tracked, saved, logged as
blocked or exported. -/
theorem innocent_untouched (h₀ : sys₀.Fresh) (hs : Innocent env args fds sys₀ acts s) {n : ℕ} (hn : n ≤ acts.length) :
    ((sysAt env args fds sys₀ acts n).world.kernel.view s).listed = false ∧
      ¬ (sysAt env args fds sys₀ acts n).Names s.text := by
  have key : ∃ i ≤ n, OneBoot acts i n ∧
      Grounded
        (fun t k => (sysAt env args fds sys₀ acts i).world.turn ≤ t ∧
          (sentBy s (heard env (sysAt env args fds sys₀ acts i).world.turn t) ≤ 1000 →
            Frugal s k (sentBy s (heard env (sysAt env args fds sys₀ acts i).world.turn t))))
        (fun t _ s' => sentBy s (heard env (sysAt env args fds sys₀ acts i).world.turn t) ≤ 1000 → s' ≠ s)
        (sysAt env args fds sys₀ acts n).tracked (sysAt env args fds sys₀ acts n).world := by
    induction n with
    | zero =>
      refine ⟨0, le_rfl, fun m _ _ hm => absurd hm (Nat.not_lt_zero m), ?_⟩
      rw [sysAt_zero]
      refine h₀.grounded ⟨le_rfl, fun _ => ?_⟩ ?_
      · rw [heard_self]
        refine ⟨hs.listed, fun tb hb => ?_⟩
        rw [hs.bucket] at hb
        cases hb
      · rintro s' hs' - rfl
        exact hs.file hs'
    | succ n ih =>
      obtain ⟨i, hin, hboot, hbefore⟩ := ih (by omega)
      by_cases hreboot : ∃ cpus t, acts[n] = .reboot cpus t
      · obtain ⟨cpus, t, hact⟩ := hreboot
        refine ⟨n + 1, le_rfl, fun m _ him hmn => by omega, ?_⟩
        rw [sysAt_succ env args fds sys₀ acts (by omega), hact]
        -- what was named before is not `s`, and the maps are empty
        refine Grounded.mono (X := ∅)
          (Grounded.imp (hbefore.mono (Set.empty_subset _)) (k := Kernel.init cpus) ?_ ?_) ?_
        · refine ⟨le_rfl, fun _ => ?_⟩
          rw [show (System.step env args fds (sysAt env args fds sys₀ acts n) (.reboot cpus t)).world.turn =
            (sysAt env args fds sys₀ acts n).world.turn from rfl, heard_self]
          exact frugal_init s cpus
        · intro s' hs' _
          exact hs' (hs.few i n hin (by omega) hboot)
        · rintro ip ⟨b, hb, -⟩
          cases hb
      · push Not at hreboot
        refine ⟨i, by omega, ?_, ?_⟩
        · intro m hm him hmn
          rcases Nat.lt_or_ge m n with hlt | hge
          · exact hboot m hm him hlt
          · obtain rfl : m = n := by omega
            exact hreboot
        · rw [sysAt_succ env args fds sys₀ acts (by omega)]
          exact System.grounded_step args fds (causes_frugal hs.tools _) hbefore hreboot
  obtain ⟨i, hin, hboot, hground⟩ := key
  have hfew := hs.few i n hin hn hboot
  refine ⟨(hground.inv.2 hfew).listed, fun hnames => ?_⟩
  obtain ⟨s', htext, hne⟩ := hground.named hnames
  exact hne hfew (Source.text_injective htext).symm

end Runs

/-! ## A neighbour of the victim -/

/-- `10.0.1.6`. -/
def neighbourSource : Source := .v4 0x0601000A

theorem innocent_twoSenders :
    Innocent twoSenders thirtySeconds allOpen spentHost [.start, .tick 100] neighbourSource where
  listed := rfl
  bucket := rfl
  file := by
    intro h
    cases h
  tools := by
    intro n e he
    rcases mem_all_twoSenders he with rfl | rfl
    · simp [Event.target]
    · simp [burstFrame, Event.target]
  few := by
    intro i n hin hn _
    have hn : n ≤ 2 := hn
    interval_cases n <;> interval_cases i <;> decide +kernel

/-- The victim is blocked, and the neighbour is not. -/
theorem innocent_untouched_twoSenders :
    ((sysAt twoSenders thirtySeconds allOpen spentHost [.start, .tick 100] 2).world.kernel.view victim).listed = true ∧
      ((sysAt twoSenders thirtySeconds allOpen spentHost [.start, .tick 100] 2).world.kernel.view
        neighbourSource).listed = false ∧
        ¬ (sysAt twoSenders thirtySeconds allOpen spentHost [.start, .tick 100] 2).Names neighbourSource.text :=
  ⟨by decide +kernel, innocent_untouched fresh_spentHost innocent_twoSenders (by decide)⟩

end FluxGuard
