import FluxGuard.Proof.Reboot

/-!
# No orphan blacklist entry

At the end of a tick every address of its blacklist dumps is tracked, or the tick tried to
delete it, or it is on the allowlist that the tick used. An entry that a tick notices is
therefore deleted by the first tick `cooldown_sec` later.

* `no_orphan`: both, over every run.
* `allowlisted_orphan`: an allowlisted address is neither tracked nor deleted.
-/

namespace FluxGuard

/-- The address of `s` is in the dump of its family's blacklist. -/
def Sight.Shows (sight : Sight) (s : Source) : Prop :=
  match s with
  | .v4 _ => s.text ∈ sight.blacklist
  | .v6 _ => s.text ∈ sight.blacklistV6

/-- The address of `s` is on the cached allowlist of its family. -/
def Brain.Allows {T : Type} (b : Brain T) (s : Source) : Prop :=
  match s with
  | .v4 _ => s.text ∈ b.allowlistCache
  | .v6 _ => s.text ∈ b.allowlistV6Cache

/-- What is shown and not allowed is new. -/
theorem Sight.mem_new {T : Type} {sight : Sight} {b : Brain T} {s : Source} (h : sight.Shows s) (ha : ¬ b.Allows s) :
    s.text ∈ sight.new b := by
  cases s with
  | v4 a => exact Or.inl ⟨h, ha⟩
  | v6 a => exact Or.inr ⟨h, ha⟩

variable {T : Type} [AddCommGroup T] [LinearOrder T]

/-- A tick at time `n` has looked: `b` is the process with the allowlists that the tick uses. -/
def System.Looks (env : ℕ → Interrupt) (args : Args T) (fds : Fds) (sys : System T) (n : T) (b : Brain T)
    (sight : Sight) :
    Prop :=
  ∃ b₀ w₁, sys.proc = some b₀ ∧ look env args fds n b₀ sys.world = (w₁, some (b, sight))

/-- The clock does not go back. -/
def ClockMono (env : ℕ → Interrupt) (args : Args T) (fds : Fds) (sys₀ : System T) (acts : List (SystemAct T)) : Prop :=
  ∀ i j (hi : i < acts.length) (hj : j < acts.length) t u, i ≤ j → (sysAt env args fds sys₀ acts i).Ticks acts[i] t →
    (sysAt env args fds sys₀ acts j).Ticks acts[j] u → t ≤ u

/-- The deadlines of a ledger are at most `cooldown_sec` after every tick from act `i` on. -/
def Bounded (env : ℕ → Interrupt) (args : Args T) (fds : Fds) (sys₀ : System T) (acts : List (SystemAct T)) (i : ℕ)
    (ℓ : Ledger Text T) : Prop :=
  ∀ ip D, ℓ ip = some D → ∀ j (hj : j < acts.length) t, i ≤ j → (sysAt env args fds sys₀ acts j).Ticks acts[j] t →
    D ≤ t + args.cooldownSec

/-- What becomes of the addresses in the blacklist dumps of a run. -/
structure NoOrphan (env : ℕ → Interrupt) (args : Args T) (fds : Fds) (sys₀ : System T)
    (acts : List (SystemAct T)) : Prop where
  /-- At the end of a tick an address of its dumps is tracked, or its delete was tried, or it was
  on the allowlist. -/
  accounted : ∀ i (hi : i < acts.length) n b sight s, acts[i] = .tick n →
    (sysAt env args fds sys₀ acts (i + 1)).proc.isSome = true →
    (sysAt env args fds sys₀ acts i).Looks env args fds n b sight → sight.Shows s →
    (∃ b', (sysAt env args fds sys₀ acts (i + 1)).proc = some b' ∧ b'.blockedUntil.get? s.text ≠ none) ∨
      (∃ d, (s, d) ∈ (sysAt env args fds sys₀ acts i).deletesBy env args fds acts[i]) ∨ b.Allows s
  /-- Within a boot, an address of a dump that is not on the allowlist is deleted, or its delete tried, by
  the first tick `cooldown_sec` later. -/
  bounded : Saves env → (∀ a ∈ acts, ∀ cpus t, a ≠ .reboot cpus t) → ClockMono env args fds sys₀ acts →
    Bounded env args fds sys₀ acts 0 sys₀.blocked →
    ∀ i k (hi : i < acts.length) (hk : k < acts.length) n m b sight s, i ≤ k → acts[i] = .tick n → acts[k] = .tick m →
    (sysAt env args fds sys₀ acts (i + 1)).proc.isSome = true → (sysAt env args fds sys₀ acts k).proc.isSome = true →
    (sysAt env args fds sys₀ acts (k + 1)).proc.isSome = true →
    (sysAt env args fds sys₀ acts i).Looks env args fds n b sight → sight.Shows s → ¬ b.Allows s →
    n + args.cooldownSec ≤ m →
    ∃ j, ∃ hj : j < acts.length, i ≤ j ∧ j ≤ k ∧
      ∃ d, (s, d) ∈ (sysAt env args fds sys₀ acts j).deletesBy env args fds acts[j]

variable {env : ℕ → Interrupt} {args : Args T} {fds : Fds} {sys₀ : System T} {acts : List (SystemAct T)}

/-- A tick that sees a block it does not track has noticed it. -/
theorem System.Looks.noticed {sys : System T} {n : T} {b : Brain T} {sight : Sight}
    (h : sys.Looks env args fds n b sight) {s : Source} (hs : sight.Shows s) (ha : ¬ b.Allows s) :
    ∃ b₀, sys.proc = some b₀ ∧ s.text ∈ noticed env args fds n b₀ sys.world := by
  obtain ⟨b₀, w₁, hb₀, hlook⟩ := h
  exact ⟨b₀, hb₀, w₁, b, sight, hlook, sight.mem_new hs ha⟩

/-- What a dump shows has a map to be deleted from. -/
theorem System.Looks.reaches {sys : System T} {n : T} {b : Brain T} {sight : Sight}
    (h : sys.Looks env args fds n b sight) {s : Source} (hs : sight.Shows s) : fds.reaches s.text = true := by
  obtain ⟨b₀, w₁, -, hlook⟩ := h
  have hspec := look_spec args fds (Spared.empty env) n b₀ sys.world ⟨rfl, rfl, fun _ h => nomatch h⟩
  rw [hlook] at hspec
  unfold Fds.reaches
  cases s with
  | v4 a => simp [show ':' ∉ (Source.v4 a).text from colon_not_mem_keyToIp a]
  | v6 a => rw [(hspec.2.1.v6 _ hs).1, Bool.or_true]

section Bound

variable [IsOrderedAddMonoid T]

/-- **No deadline is more than `cooldown_sec` ahead** of the ticks to come. -/
theorem bounded_at (hs : Saves env) (h₀ : sys₀.Good env) (hmono : ClockMono env args fds sys₀ acts)
    (hbound : Bounded env args fds sys₀ acts 0 sys₀.blocked) {i : ℕ} (hi : i ≤ acts.length) :
    Bounded env args fds sys₀ acts i (sysAt env args fds sys₀ acts i).blocked := by
  induction i with
  | zero => rw [sysAt_zero]; exact hbound
  | succ i ih =>
    have hlt : i < acts.length := by omega
    have hg := good_at args fds acts h₀ (n := i) (by omega)
    have hold : ∀ ip D, (sysAt env args fds sys₀ acts i).blocked ip = some D → ∀ j (hj : j < acts.length) t, i + 1 ≤ j →
        (sysAt env args fds sys₀ acts j).Ticks acts[j] t → D ≤ t + args.cooldownSec :=
      fun ip D hD j hj t hij ht => ih (by omega) ip D hD j hj t (by omega) ht
    -- a deadline after the tick was there before, or is that of the tick
    have hnew : ∀ {n b}, acts[i] = .tick n → (sysAt env args fds sys₀ acts i).proc = some b → ∀ fresh ip D,
        Ledger.detect b.blockedUntil.get? fresh (n + args.cooldownSec) ip = some D →
          ∀ j (hj : j < acts.length) t, i + 1 ≤ j →
        (sysAt env args fds sys₀ acts j).Ticks acts[j] t → D ≤ t + args.cooldownSec := by
      intro n b ha hb fresh ip D hD j hj t hij ht
      rcases Ledger.of_detect hD with hD | ⟨-, -, rfl⟩
      · rw [hg.saved hs b hb] at hD
        exact hold ip D hD j hj t hij ht
      · have hle := hmono i j hlt hj n t (by omega) ⟨ha, by rw [hb]; rfl⟩ ht
        exact add_le_add_left hle _
    rw [sysAt_succ _ _ _ _ _ hlt]
    have hstep := System.step_cases args fds hg (Spared.empty env)
      (fun _ h => nomatch h) acts[i]
    intro ip D hD
    unfold System.blocked at hD
    cases hstep with
    | idle _ _ _ hknown _ => rw [hknown.file] at hD; exact hold ip D hD
    | reboot _ _ _ hfile _ _ => rw [hfile] at hD; exact hold ip D hD
    | acted ha hb _ _ hacted =>
      obtain ⟨F, hF, hknown⟩ := hacted.kept
      rw [hknown.file, hF.ledger hs, hacted.ledger] at hD
      exact hnew ha hb _ ip D (Ledger.expire_eq_some_iff.1 hD).1
    | cut ha hb _ _ hcut =>
      obtain ⟨part, -, F, hF, hknown⟩ := hcut.kept
      rw [hknown.file, hF.ledger hs] at hD
      exact hnew ha hb _ ip D hD

end Bound

/-- **No orphan entry.** -/
theorem no_orphan [IsOrderedAddMonoid T] (hfile : Canonical sys₀.blocked) (hstart : sys₀.proc = none) :
    NoOrphan env args fds sys₀ acts := by
  have h₀ := System.Good.of_stopped env hfile hstart
  have hg : ∀ k ≤ acts.length, (sysAt env args fds sys₀ acts k).Good env := fun k hk => good_at _ _ _ h₀ hk
  refine ⟨fun i hi n b sight s ha hdone hlook hshows => ?_,
    fun hs hboot hmono hbound i k hi hk n m b sight s hik ha ha' hdone hrun hdone' hlook hshows hallow hle => ?_⟩
  · by_cases hallow : b.Allows s
    · exact Or.inr (Or.inr hallow)
    · obtain ⟨b₀, hb₀, hnew⟩ := hlook.noticed hshows hallow
      rw [sysAt_succ _ _ _ _ _ hi] at hdone ⊢
      rw [ha] at hdone ⊢
      rcases System.accounted_step (hg i (by omega)) hb₀ hnew (hlook.reaches hshows) hdone with htracked | hdeleted
      · exact Or.inl htracked
      · exact Or.inr (Or.inl hdeleted)
  · by_contra hnodelete
    push Not at hnodelete
    obtain ⟨b₀, hb₀, hnew⟩ := hlook.noticed hshows hallow
    have hreach := hlook.reaches hshows
    -- a tick at which `s` is due deletes it
    have hdelete : ∀ j (hj : j < acts.length) t, i ≤ j → j ≤ k → acts[j] = .tick t →
        (sysAt env args fds sys₀ acts (j + 1)).proc.isSome = true →
        ¬ (sysAt env args fds sys₀ acts j).Due env args fds t s := by
      intro j hj t hij hjk haj hdonej hdue
      rw [sysAt_succ _ _ _ _ _ hj, haj] at hdonej
      obtain ⟨d, hd, -⟩ := (System.release_step (hg j (by omega)) hs hdue hdonej).2 hreach
      exact hnodelete j hj hij hjk d (by rw [haj]; exact hd)
    obtain ⟨D, hD⟩ := Ledger.exists_detect b₀.blockedUntil.get? hnew (n + args.cooldownSec)
    have hDle : D ≤ n + args.cooldownSec := by
      rcases Ledger.of_detect hD with hold | ⟨-, -, rfl⟩
      · rw [(hg i (by omega)).saved hs b₀ hb₀] at hold
        exact bounded_at hs h₀ hmono hbound (by omega) _ D hold i hi n le_rfl ⟨ha, by rw [hb₀]; rfl⟩
      · exact le_rfl
    have hlate : ¬ D ≤ n := fun hdue => hdelete i hi n le_rfl hik ha hdone ⟨b₀, hb₀, D, hD, hdue⟩
    rcases Nat.eq_or_lt_of_le hik with rfl | hik
    · rw [ha] at ha'
      cases ha'
      exact hlate (hDle.trans hle)
    · -- it is tracked from then on, since no tick deletes it
      have hfirst : (sysAt env args fds sys₀ acts (i + 1)).blocked s.text = some D := by
        rw [sysAt_succ _ _ _ _ _ hi, ha] at hdone ⊢
        exact System.deadline_step (hg i (by omega)) hs hb₀ hD hlate hdone
      have hblocked : (sysAt env args fds sys₀ acts k).blocked s.text = some D := by
        refine kept_at h₀ hs hik (by omega) hfirst fun j hj hij hjk hblocked t ht hdonej hdue => ?_
        obtain ⟨b', hb'⟩ := Option.isSome_iff_exists.1 ht.2
        refine hdelete j hj t (by omega) (by omega) ht.1 hdonej ⟨b', hb', D, Ledger.detect_of_some ?_ _ _, hdue⟩
        rw [(hg j (by omega)).saved hs b' hb']
        exact hblocked
      obtain ⟨b', hb'⟩ := Option.isSome_iff_exists.1 hrun
      refine hdelete k hk m (by omega) le_rfl ha' hdone' ⟨b', hb', D, Ledger.detect_of_some ?_ _ _, hDle.trans hle⟩
      rw [(hg k (by omega)).saved hs b' hb']
      exact hblocked

/-! ## An allowlisted address -/

/-- The victim was blacklisted, and then allowlisted. -/
def victimAllowed : System ℤ :=
  { victimListed ℤ with
    world := { (victimListed ℤ).world with
      kernel := (victimListed ℤ).world.kernel.step (.v4 (.allow 0x0501000A 1)) } }

theorem no_orphan_victimAllowed : NoOrphan calm thirtySecondsInt allOpen victimAllowed [.start, .tick 100, .tick 131] :=
  no_orphan (show Canonical victimAllowed.blocked from canonical_empty) rfl

/-- The tick at 100 neither tracks the victim nor deletes it. -/
theorem victimAllowed_tick :
    (sysAt calm thirtySecondsInt allOpen victimAllowed [.start, .tick 100] 2).proc.map
        (fun b => b.blockedUntil.get? victim.text) = some none ∧
      (sysAt calm thirtySecondsInt allOpen victimAllowed [.start, .tick 100] 1).deletesBy calm thirtySecondsInt allOpen
        (.tick 100) = [] := by decide +kernel

/-- **An allowlisted address is left on the blacklist.** -/
theorem allowlisted_orphan :
    ¬ ∀ (env : ℕ → Interrupt) (args : Args ℤ) (fds : Fds) (sys₀ : System ℤ) (acts : List (SystemAct ℤ)) (i : ℕ)
      (hi : i < acts.length) (n : ℤ) (b : Brain ℤ) (sight : Sight) (s : Source), ¬ Fails env .dump →
      Canonical sys₀.blocked → sys₀.proc = none → acts[i] = .tick n →
      (sysAt env args fds sys₀ acts (i + 1)).proc.isSome = true →
      (sysAt env args fds sys₀ acts i).Looks env args fds n b sight → sight.Shows s →
      (∃ b', (sysAt env args fds sys₀ acts (i + 1)).proc = some b' ∧ b'.blockedUntil.get? s.text ≠ none) ∨
        (s, .removed) ∈ (sysAt env args fds sys₀ acts i).deletesBy env args fds acts[i] := by
  intro h
  obtain ⟨htracked, hdeleted⟩ := victimAllowed_tick
  obtain ⟨b', hb', hnone⟩ := Option.map_eq_some_iff.1 htracked
  have hvictim := h calm thirtySecondsInt allOpen victimAllowed [.start, .tick 100] 1 (by decide) 100 _ _ victim
    (not_fails_calm .dump) canonical_empty rfl rfl (by rw [hb']; rfl) ⟨_, _, rfl, rfl⟩
    (show victim.text ∈ _ from by decide)
  rcases hvictim with ⟨b'', hb'', hsome⟩ | hmem
  · rw [hb'] at hb''
    cases hb''
    exact hsome hnone
  · have hmem' : (victim, Deletion.removed) ∈
      (sysAt calm thirtySecondsInt allOpen victimAllowed [.start, .tick 100] 1).deletesBy
        calm thirtySecondsInt allOpen (.tick 100) := hmem
    rw [hdeleted] at hmem'
    cases hmem'

end FluxGuard
