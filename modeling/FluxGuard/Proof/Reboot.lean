import FluxGuard.Proof.Lifecycle

/-!
# Blocks across restarts and reboots

The checkpoint keeps deadlines of `time.monotonic()`, which starts again at a reboot. A
block outlasts restarts of the process with its real-time deadline; after a reboot its
deadline is read on another clock.

* `real_deadline`: in every run whose reboots find no block in the checkpoint, every block is
  released by the first tick at least `cooldown_sec` of real time after its detection, and
  not before.
* `reboot_prolongs_block`: a block of 30 s that stands after its time.
-/

namespace FluxGuard

variable {T : Type} [AddCommGroup T] [LinearOrder T]

/-- The real time at which the system reads `now` on its monotonic clock. -/
def System.realTime (sys : System T) (now : T) : T := sys.boot + now

/-- No tick between acts `i` and `j` that runs to its end is at or after real time `R`. -/
def NoTickSince (env : ℕ → Interrupt) (args : Args T) (fds : Fds) (sys₀ : System T) (acts : List (SystemAct T)) (R : T)
    (i j : ℕ) : Prop :=
  ∀ k (hk : k < acts.length), i < k → k < j → ∀ t, (sysAt env args fds sys₀ acts k).Ticks acts[k] t →
    (sysAt env args fds sys₀ acts (k + 1)).proc.isSome = true → (sysAt env args fds sys₀ acts k).realTime t < R

/-- Every reboot finds a checkpoint without blocks. -/
def RebootsClear (env : ℕ → Interrupt) (args : Args T) (fds : Fds) (sys₀ : System T)
    (acts : List (SystemAct T)) : Prop :=
  ∀ k (hk : k < acts.length) cpus t, acts[k] = .reboot cpus t → ∀ ip, (sysAt env args fds sys₀ acts k).blocked ip = none

/-- The block of `s` that act `i`, a tick at time `n`, detects lasts `cooldown_sec` of real time. -/
structure RealDeadline (env : ℕ → Interrupt) (args : Args T) (fds : Fds) (sys₀ : System T) (acts : List (SystemAct T))
    (i : ℕ) (n : T) (s : Source) : Prop where
  /-- It stays in the checkpoint, and no tick before its time deletes it. -/
  held : ∀ j, i < j → j ≤ acts.length →
    NoTickSince env args fds sys₀ acts ((sysAt env args fds sys₀ acts i).realTime n + args.cooldownSec) i j →
    (sysAt env args fds sys₀ acts j).blocked s.text ≠ none ∧
      ∀ (hj : j < acts.length), (∀ t, (sysAt env args fds sys₀ acts j).Ticks acts[j] t →
        (sysAt env args fds sys₀ acts j).realTime t < (sysAt env args fds sys₀ acts i).realTime n + args.cooldownSec) →
        ∀ d, (s, d) ∉ (sysAt env args fds sys₀ acts j).deletesBy env args fds acts[j]
  /-- The first tick at or after its time releases it. -/
  released : ∀ j (hj : j < acts.length) t, i < j →
    NoTickSince env args fds sys₀ acts ((sysAt env args fds sys₀ acts i).realTime n + args.cooldownSec) i j →
    (sysAt env args fds sys₀ acts j).Ticks acts[j] t → (sysAt env args fds sys₀ acts (j + 1)).proc.isSome = true →
    (sysAt env args fds sys₀ acts i).realTime n + args.cooldownSec ≤ (sysAt env args fds sys₀ acts j).realTime t →
    (sysAt env args fds sys₀ acts (j + 1)).blocked s.text = none ∧
      (fds.reaches s.text = true → ∃ d, d ≠ .failed ∧
        (s, d) ∈ (sysAt env args fds sys₀ acts j).deletesBy env args fds acts[j])

variable {env : ℕ → Interrupt} {args : Args T} {fds : Fds} {sys₀ : System T} {acts : List (SystemAct T)}
variable {i : ℕ} {n : T} {s : Source}

section Deadline

variable [IsOrderedAddMonoid T] (hs : Saves env) (h₀ : sys₀.Good env) (hclear : RebootsClear env args fds sys₀ acts)
include hs h₀ hclear

/-- **A block keeps its deadline and its clock** until a tick at or after its time runs to its end. -/
theorem deadline_at (hi : i < acts.length) (ha : acts[i] = .tick n)
    (hdet : (sysAt env args fds sys₀ acts i).Detects env args fds n s)
    (hsaved : (sysAt env args fds sys₀ acts (i + 1)).blocked s.text ≠ none) {j : ℕ} (hij : i + 1 ≤ j)
    (hj : j ≤ acts.length)
    (hno : NoTickSince env args fds sys₀ acts ((sysAt env args fds sys₀ acts i).realTime n + args.cooldownSec) i j) :
    (sysAt env args fds sys₀ acts j).blocked s.text = some (n + args.cooldownSec) ∧
      (sysAt env args fds sys₀ acts j).boot = (sysAt env args fds sys₀ acts i).boot := by
  have hg : ∀ k ≤ acts.length, (sysAt env args fds sys₀ acts k).Good env := fun k hk => good_at _ _ _ h₀ hk
  induction j, hij using Nat.le_induction with
  | base =>
    obtain ⟨D, hD⟩ := Option.ne_none_iff_exists'.1 hsaved
    have hstep := sysAt_succ env args fds sys₀ acts hi
    rw [ha] at hstep
    rw [hstep] at hD ⊢
    rw [hD, System.detected_deadline (hg i (by omega)) hs hdet hD]
    exact ⟨rfl, System.boot_step (hg i (by omega)) fun _ _ h => nomatch h⟩
  | succ j hij ih =>
    obtain ⟨hblocked, hboot⟩ := ih (by omega) fun k hk hik hkj => hno k hk hik (by omega)
    have hjlt : j < acts.length := by omega
    have hstep := sysAt_succ env args fds sys₀ acts hjlt
    -- a reboot would find this block in the checkpoint
    have hnoreboot : ∀ cpus t, acts[j] ≠ .reboot cpus t := fun cpus t h => by
      have := hclear j hjlt cpus t h s.text
      rw [hblocked] at this
      cases this
    have hearly : ∀ t, (sysAt env args fds sys₀ acts j).Ticks acts[j] t →
        ((sysAt env args fds sys₀ acts j).step env args fds acts[j]).proc.isSome = true →
          ¬ n + args.cooldownSec ≤ t := by
      intro t ht hdone
      have hlt := hno j hjlt (by omega) (by omega) t ht (by rw [hstep]; exact hdone)
      unfold System.realTime at hlt
      rw [hboot, add_assoc] at hlt
      exact not_le.2 (lt_of_add_lt_add_left hlt)
    rw [hstep]
    exact ⟨System.kept_step (hg j (by omega)) hs hblocked hearly,
      (System.boot_step (hg j (by omega)) hnoreboot).trans hboot⟩

end Deadline

/-- **Real-time deadlines.** In a run whose reboots find no block in the checkpoint, every block
that reaches the checkpoint is released by the first tick at least `cooldown_sec` of real time
after its detection, and not before. -/
theorem real_deadline [IsOrderedAddMonoid T] (hs : Saves env) (hd : ¬ Fails env .delete)
    (hfile : Canonical sys₀.blocked)
    (hstart : sys₀.proc = none) (hclear : RebootsClear env args fds sys₀ acts) (hi : i < acts.length)
    (ha : acts[i] = .tick n) (hdet : (sysAt env args fds sys₀ acts i).Detects env args fds n s)
    (hsaved : (sysAt env args fds sys₀ acts (i + 1)).blocked s.text ≠ none) :
    RealDeadline env args fds sys₀ acts i n s := by
  have h₀ := System.Good.of_stopped env hfile hstart
  have hg : ∀ k ≤ acts.length, (sysAt env args fds sys₀ acts k).Good env := fun k hk => good_at _ _ _ h₀ hk
  refine ⟨fun j hij hj hno => ?_, fun j hj t hij hno ht hdone hle => ?_⟩
  · obtain ⟨hblocked, hboot⟩ := deadline_at hs h₀ hclear hi ha hdet hsaved hij hj hno
    refine ⟨by rw [hblocked]; exact Option.some_ne_none _, fun hj hearly d hmem => ?_⟩
    obtain ⟨t, ht, hdue⟩ := System.due_of_deleted (hg j (by omega)) hmem
    have hlt := hearly t ht
    unfold System.realTime at hlt
    rw [hboot, add_assoc] at hlt
    exact System.not_due (hg j (by omega)) hs hblocked (not_le.2 (lt_of_add_lt_add_left hlt)) hdue
  -- from the clock of the last boot to real time and back
  · obtain ⟨hblocked, hboot⟩ := deadline_at hs h₀ hclear hi ha hdet hsaved hij (by omega) hno
    unfold System.realTime at hle
    rw [hboot, add_assoc] at hle
    obtain ⟨b, hb⟩ := Option.isSome_iff_exists.1 ht.2
    have hdue : (sysAt env args fds sys₀ acts j).Due env args fds t s :=
      ⟨b, hb, _, Ledger.detect_of_some (by rw [(hg j (by omega)).saved hs b hb]; exact hblocked) _ _,
        le_of_add_le_add_left hle⟩
    rw [sysAt_succ _ _ _ _ _ hj] at hdone ⊢
    have htick := ht.1
    rw [htick] at hdone ⊢
    obtain ⟨hnone, hdel⟩ := System.release_step (hg j (by omega)) hs hdue hdone
    refine ⟨hnone, fun hreach => ?_⟩
    obtain ⟨d, hmem, hfail, -⟩ := hdel hreach
    exact ⟨d, fun h => hd (hfail h), hmem⟩

/-! ## Two runs -/

/-- A cooldown of 30 s, with times in `ℤ`: a reboot sets the clock back. -/
def thirtySecondsInt : Args ℤ := ⟨30, 5, true⟩

/-- Detected at 1000 and restarted; the next tick is 31 seconds later. -/
def restarted : List (SystemAct ℤ) := [.start, .tick 1000, .stop, .start, .tick 1031]

/-- Detected at 1000; the host reboots at 1100, and its next tick is 40 seconds later. -/
def rebooted : List (SystemAct ℤ) := [.start, .tick 1000, .reboot 1 1100, .start, .tick 40]

theorem detects_restarted :
    (sysAt calm thirtySecondsInt allOpen (victimListed ℤ) restarted 1).Detects calm thirtySecondsInt
    allOpen 1000 victim := ⟨_, rfl, rfl, _, _, _, rfl, Or.inl (by decide)⟩

theorem detects_rebooted :
    (sysAt calm thirtySecondsInt allOpen (victimListed ℤ) rebooted 1).Detects calm thirtySecondsInt
    allOpen 1000 victim := ⟨_, rfl, rfl, _, _, _, rfl, Or.inl (by decide)⟩

theorem saved_restarted :
    (sysAt calm thirtySecondsInt allOpen (victimListed ℤ) restarted 2).blocked victim.text ≠ none := by decide +kernel

theorem saved_rebooted :
    (sysAt calm thirtySecondsInt allOpen (victimListed ℤ) rebooted 2).blocked victim.text ≠ none := by decide +kernel

theorem real_deadline_restarted :
    RealDeadline calm thirtySecondsInt allOpen (victimListed ℤ) restarted 1 1000 victim :=
  real_deadline saves_calm (not_fails_calm .delete) (show Canonical (victimListed ℤ).blocked from canonical_empty) rfl
    (fun k hk cpus t h => by
      have : ∀ a ∈ restarted, ∀ cpus t, a ≠ .reboot cpus t := by simp [restarted]
      exact absurd h (this _ (List.getElem_mem hk) cpus t))
    (by decide) rfl detects_restarted saved_restarted

/-- After the reboot the block of 30 s stands 140 s after its detection. -/
theorem blocked_rebooted :
    (sysAt calm thirtySecondsInt allOpen (victimListed ℤ) rebooted 5).blocked victim.text = some 1030 := by
  decide +kernel

theorem ticks_rebooted :
    (sysAt calm thirtySecondsInt allOpen (victimListed ℤ) rebooted 4).Ticks (.tick 40) 40 ∧
      (sysAt calm thirtySecondsInt allOpen (victimListed ℤ) rebooted 5).proc.isSome = true :=
  ⟨⟨rfl, by decide +kernel⟩, by decide +kernel⟩

theorem boot_rebooted :
    (sysAt calm thirtySecondsInt allOpen (victimListed ℤ) rebooted 1).boot = 0 ∧
      (sysAt calm thirtySecondsInt allOpen (victimListed ℤ) rebooted 4).boot = 1100 := by decide +kernel

/-- **A reboot prolongs a block.** -/
theorem reboot_prolongs_block :
    ¬ ∀ (env : ℕ → Interrupt) (args : Args ℤ) (fds : Fds) (sys₀ : System ℤ) (acts : List (SystemAct ℤ)) (i : ℕ) (n : ℤ)
      (s : Source) (hi : i < acts.length), Saves env → ¬ Fails env .delete → Canonical sys₀.blocked → sys₀.proc = none →
      acts[i] = .tick n → (sysAt env args fds sys₀ acts i).Detects env args fds n s →
      (sysAt env args fds sys₀ acts (i + 1)).blocked s.text ≠ none → RealDeadline env args fds sys₀ acts i n s := by
  intro h
  have hlife := h calm thirtySecondsInt allOpen (victimListed ℤ) rebooted 1 1000 victim (by decide) saves_calm
    (not_fails_calm .delete) canonical_empty rfl rfl detects_rebooted saved_rebooted
  have hno : NoTickSince calm thirtySecondsInt allOpen (victimListed ℤ) rebooted
      ((sysAt calm thirtySecondsInt allOpen (victimListed ℤ) rebooted 1).realTime 1000 + 30) 1 4 := by
    intro k hk h1 h4 t ht _
    have hk : k = 2 ∨ k = 3 := by omega
    rcases hk with rfl | rfl <;> cases ht.1
  have hle : (sysAt calm thirtySecondsInt allOpen (victimListed ℤ) rebooted 1).realTime 1000 + 30 ≤
      (sysAt calm thirtySecondsInt allOpen (victimListed ℤ) rebooted 4).realTime 40 := by
    unfold System.realTime
    rw [boot_rebooted.1, boot_rebooted.2]
    decide
  have hfree := (hlife.released 4 (by decide) 40 (by decide) hno ticks_rebooted.1 ticks_rebooted.2 hle).1
  rw [blocked_rebooted] at hfree
  cases hfree

end FluxGuard
