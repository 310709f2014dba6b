import FluxGuard.Proof.System

/-!
# The life of a block

Within one boot, with every system call succeeding and nobody else taking entries off the
blacklists: a block that the brain detects has the deadline `now + cooldown_sec`, keeps it
through restarts, later dumps and later allowlisting, and is deleted by the first tick at or
after it.

* `block_lifecycle`: the whole life, over every run.
-/

namespace FluxGuard

variable {T : Type} [Add T] [Sub T] [Zero T] [LE T] [DecidableLE T]

/-- No act from `i` to before `j` is a tick at or after `D`. -/
def NoTickFrom (env : ℕ → Interrupt) (args : Args T) (fds : Fds) (sys₀ : System T) (acts : List (SystemAct T)) (D : T)
    (i j : ℕ) : Prop :=
  ∀ k (hk : k < acts.length), i ≤ k → k < j → ∀ t, (sysAt env args fds sys₀ acts k).Ticks acts[k] t → ¬ D ≤ t

/-- The life of a block of `s` that act `i`, a tick at time `n`, detects. -/
structure Lifecycle (env : ℕ → Interrupt) (args : Args T) (fds : Fds) (sys₀ : System T) (acts : List (SystemAct T))
    (i : ℕ) (n : T) (s : Source) : Prop where
  /-- The deadline is set and not moved, and the block stands, up to the first tick at or after it. -/
  held : ∀ j, i < j → j ≤ acts.length → NoTickFrom env args fds sys₀ acts (n + args.cooldownSec) i j →
    (sysAt env args fds sys₀ acts j).blocked s.text = some (n + args.cooldownSec) ∧
      (∀ b, (sysAt env args fds sys₀ acts j).proc = some b → b.blockedUntil.get? s.text = some (n + args.cooldownSec)) ∧
      ((sysAt env args fds sys₀ acts j).world.kernel.view s).listed = true
  /-- No tick before the deadline deletes it. -/
  spared : ∀ j (hj : j < acts.length), i ≤ j → NoTickFrom env args fds sys₀ acts (n + args.cooldownSec) i (j + 1) →
    ∀ d, (s, d) ∉ (sysAt env args fds sys₀ acts j).deletesBy env args fds acts[j]
  /-- The first tick at or after the deadline deletes it. -/
  released : ∀ j (hj : j < acts.length) t, i ≤ j → NoTickFrom env args fds sys₀ acts (n + args.cooldownSec) i j →
    (sysAt env args fds sys₀ acts j).Ticks acts[j] t → n + args.cooldownSec ≤ t →
    (s, .removed) ∈ (sysAt env args fds sys₀ acts j).deletesBy env args fds acts[j] ∧
      (sysAt env args fds sys₀ acts (j + 1)).blocked s.text = none ∧
      ∀ b, (sysAt env args fds sys₀ acts (j + 1)).proc = some b → b.blockedUntil.get? s.text = none
  /-- Every delete of the run is made by a tick, of an address whose deadline has come. -/
  due : ∀ j (hj : j < acts.length), ∀ d ∈ (sysAt env args fds sys₀ acts j).deletesBy env args fds acts[j],
    ∃ t, (sysAt env args fds sys₀ acts j).Ticks acts[j] t ∧ (sysAt env args fds sys₀ acts j).Due env args fds t d.1

variable {env : ℕ → Interrupt} {args : Args T} {fds : Fds} {sys₀ : System T} {acts : List (SystemAct T)}

/-- A shorter stretch has no tick in it either. -/
theorem NoTickFrom.mono {D : T} {i j k : ℕ} (h : NoTickFrom env args fds sys₀ acts D i j) (hk : k ≤ j) :
    NoTickFrom env args fds sys₀ acts D i k := fun l hl hil hlk => h l hl hil (by omega)

section Life

variable (hk : ¬ Killed env) (hs : Saves env) (hspare : ∀ n s, (env n).Spares s) (h₀ : sys₀.Good env)
variable {i : ℕ} {n : T} {s : Source}
include hk hs hspare h₀

/-- The block stands after the tick that detects it. -/
theorem held_first (hi : i < acts.length) (ha : acts[i] = .tick n)
    (hdet : (sysAt env args fds sys₀ acts i).Detects env args fds n s) (hlate : ¬ n + args.cooldownSec ≤ n) :
    (sysAt env args fds sys₀ acts (i + 1)).blocked s.text = some (n + args.cooldownSec) ∧
      ((sysAt env args fds sys₀ acts (i + 1)).world.kernel.view s).listed = true := by
  have hg := good_at args fds acts h₀ (n := i) (by omega)
  obtain ⟨b, hb, hnone, hnew⟩ := id hdet
  have hdone := System.done_step args fds hg hk (a := .tick n) ⟨rfl, by rw [hb]; rfl⟩
  rw [sysAt_succ _ _ _ _ _ hi, ha]
  exact ⟨System.deadline_step hg hs hb (Ledger.detect_of_none hnone hnew _) hlate hdone,
    System.listed_of_detects hg (fun m => hspare m s) hdet hdone hlate⟩

/-- **A block stands** until the first tick at or after its deadline. -/
theorem held_at (hboot : ∀ a ∈ acts, ∀ cpus t, a ≠ .reboot cpus t) (hi : i < acts.length) (ha : acts[i] = .tick n)
    (hdet : (sysAt env args fds sys₀ acts i).Detects env args fds n s) {j : ℕ} (hij : i + 1 ≤ j) (hj : j ≤ acts.length)
    (hno : NoTickFrom env args fds sys₀ acts (n + args.cooldownSec) i j) :
    (sysAt env args fds sys₀ acts j).blocked s.text = some (n + args.cooldownSec) ∧
      ((sysAt env args fds sys₀ acts j).world.kernel.view s).listed = true := by
  obtain ⟨b, hb, -⟩ := id hdet
  induction j, hij using Nat.le_induction with
  | base =>
    refine held_first hk hs hspare h₀ hi ha hdet (hno i hi le_rfl (by omega) n ⟨ha, by rw [hb]; rfl⟩)
  | succ j hij ih =>
    obtain ⟨hblocked, hlisted⟩ := ih (by omega) (hno.mono (by omega))
    have hg := good_at args fds acts h₀ (n := j) (by omega)
    have hearly := hno j (by omega) (by omega) (by omega)
    rw [sysAt_succ _ _ _ _ _ (by omega)]
    refine ⟨System.kept_step hg hs hblocked fun t ht _ => hearly t ht, ?_⟩
    exact System.listed_step hg hk (fun m => hspare m s) hlisted (hboot _ (List.getElem_mem _))
      fun t ht => System.not_due hg hs hblocked (hearly t ht)

end Life

/-- **The life of a block.** -/
theorem block_lifecycle (hk : ¬ Killed env) (hs : Saves env) (hd : ¬ Fails env .delete)
    (hspare : ∀ n s, (env n).Spares s) (hopen : opened fds.blacklistV6 = true) (hfile : Canonical sys₀.blocked)
    (hstart : sys₀.proc = none) (hboot : ∀ a ∈ acts, ∀ cpus t, a ≠ .reboot cpus t)
    {i : ℕ} (hi : i < acts.length) {n : T} (ha : acts[i] = .tick n) {s : Source}
    (hdet : (sysAt env args fds sys₀ acts i).Detects env args fds n s) : Lifecycle env args fds sys₀ acts i n s := by
  have h₀ := System.Good.of_stopped env hfile hstart
  have hg : ∀ j ≤ acts.length, (sysAt env args fds sys₀ acts j).Good env := fun j hj => good_at _ _ _ h₀ hj
  -- what is known at a tick that has no tick at or after the deadline before it
  have hdue : ∀ j t, i ≤ j → NoTickFrom env args fds sys₀ acts (n + args.cooldownSec) i j →
      (hj : j < acts.length) → (sysAt env args fds sys₀ acts j).Ticks acts[j] t →
      ((sysAt env args fds sys₀ acts j).Due env args fds t s ↔ n + args.cooldownSec ≤ t) ∧
        (((sysAt env args fds sys₀ acts j).world.kernel.view s).listed = true ∨
          (sysAt env args fds sys₀ acts j).Detects env args fds t s) := by
    intro j t hij hno hj ht
    rcases Nat.eq_or_lt_of_le hij with rfl | hij
    · have htn : t = n := by
        have := ht.1
        rw [ha] at this
        cases this
        rfl
      subst htn
      obtain ⟨b, hb, hnone, hnew⟩ := id hdet
      refine ⟨⟨?_, fun h => ⟨b, hb, _, Ledger.detect_of_none hnone hnew _, h⟩⟩, Or.inr hdet⟩
      rintro ⟨b', hb', D, hD, hle⟩
      rw [hb] at hb'
      cases hb'
      rw [Ledger.detect_of_none hnone hnew, Option.some.injEq] at hD
      rw [hD]
      exact hle
    · obtain ⟨hblocked, hlisted⟩ := held_at hk hs hspare h₀ hboot hi ha hdet hij (by omega) hno
      refine ⟨⟨fun h => ?_, fun h => ?_⟩, Or.inl hlisted⟩
      · by_contra hearly
        exact System.not_due (hg j (by omega)) hs hblocked hearly h
      · obtain ⟨b, hb⟩ := Option.isSome_iff_exists.1 ht.2
        refine ⟨b, hb, _, Ledger.detect_of_some ?_ _ _, h⟩
        rw [(hg j (by omega)).saved hs b hb]
        exact hblocked
  refine ⟨fun j hij hj hno => ?_, fun j hj hij hno d hmem => ?_, fun j hj t hij hno ht hle => ?_, fun j hj d hmem =>
    System.due_of_deleted (hg j (by omega)) hmem⟩
  · obtain ⟨hblocked, hlisted⟩ := held_at hk hs hspare h₀ hboot hi ha hdet hij hj hno
    exact ⟨hblocked, fun b hb => by rw [(hg j hj).saved hs b hb]; exact hblocked, hlisted⟩
  · obtain ⟨t, ht, hdue'⟩ := System.due_of_deleted (hg j (by omega)) hmem
    exact hno j hj hij (by omega) t ht (((hdue j t hij (hno.mono (by omega)) hj ht).1).1 hdue')
  · obtain ⟨hiff, hseen⟩ := hdue j t hij hno hj ht
    have hdone := System.done_step args fds (hg j (by omega)) hk ht
    have hgj := hg (j + 1) (by omega)
    rw [sysAt_succ _ _ _ _ _ hj] at hgj ⊢
    have htick := ht.1
    rw [htick] at hgj hdone ⊢
    obtain ⟨hnone, hdel⟩ := System.release_step (hg j (by omega)) hs (hiff.2 hle) hdone
    have hreach : fds.reaches s.text = true := by simp [Fds.reaches, hopen]
    obtain ⟨d, hmem, hfail, habsent⟩ := hdel hreach
    have hremoved : d = .removed := by
      cases d with
      | removed => rfl
      | absent => exact absurd rfl (habsent (fun m => hspare m s) hseen)
      | failed => exact absurd (hfail rfl) hd
    rw [hremoved] at hmem
    exact ⟨hmem, hnone, fun b hb => by rw [hgj.saved hs b hb]; exact hnone⟩

/-! ## A run -/

/-- Nothing goes wrong, and every dump looks the victim up. -/
def calm : ℕ → Interrupt := fun _ => ⟨[], fun _ => .ok, [([], 0x0501000A)], [], .old⟩

theorem not_killed_calm : ¬ Killed calm := fun ⟨_, _, h⟩ => nomatch h

theorem not_fails_calm (c : Call) : ¬ Fails calm c := fun ⟨_, h⟩ => nomatch h

theorem saves_calm : Saves calm := ⟨not_fails_calm .save, not_fails_calm .load, fun _ _ => rfl⟩

theorem spares_calm (n : ℕ) (s : Source) : (calm n).Spares s :=
  ⟨fun _ h => (nomatch h), fun p hp e he => (by rw [List.mem_singleton.1 hp] at he; cases he), fun _ h => (nomatch h)⟩

/-- The victim is on the blacklist, and the brain has not run yet. -/
def victimListed (T : Type) [Zero T] : System T where
  world := ⟨(Kernel.init 1).step (.v4 (.blacklist 0x0501000A 1)), none, MetricsState.init, [], [], 0⟩
  proc := none
  boot := 0

/-- All optional maps are open. -/
def allOpen : Fds := ⟨some 7, some 8, some 9⟩

/-- A cooldown of 30 s, and the allowlists read every 5 s. -/
def thirtySeconds : Args ℕ := ⟨30, 5, true⟩

/-- Detected at 100, restarted, deleted at 131. -/
theorem block_lifecycle_victim : Lifecycle calm thirtySeconds allOpen (victimListed ℕ)
    [.start, .tick 100, .stop, .start, .tick 131] 1 100 victim :=
  block_lifecycle not_killed_calm saves_calm (not_fails_calm .delete) spares_calm rfl
    (show Canonical (victimListed ℕ).blocked from canonical_empty) rfl (by simp) (by decide) rfl
    ⟨_, rfl, rfl, _, _, _, rfl, Or.inl (by decide)⟩

end FluxGuard
