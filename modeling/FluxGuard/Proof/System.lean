import FluxGuard.Proof.Tick

/-!
# Steps of the host

What one act does to the blocks: a tick takes the ledger of the checkpoint file one step, a
start and a stop leave it, and a reboot leaves the file but empties the maps.

* `System.step_cases`: the four things an act can be.
* `System.kept_step`: a deadline in the file stays until a tick at or after it.
* `System.release_step`: the first tick at or after it deletes the block.
-/

namespace FluxGuard

variable {T : Type}

/-- The deadlines in the checkpoint file. -/
def System.blocked (sys : System T) : Ledger Text T := ledgerOf sys.world.file

/-- The addresses in the file and in the process are texts of sources, and the same. -/
structure System.Good (env : ℕ → Interrupt) (sys : System T) : Prop where
  canonical : Canonical sys.blocked
  proc : ∀ b, sys.proc = some b → Canonical b.blockedUntil.get?
  saved : Saves env → ∀ b, sys.proc = some b → b.blockedUntil.get? = sys.blocked

/-- With no brain running only the file matters. -/
theorem System.Good.of_stopped (env : ℕ → Interrupt) {sys : System T} (hc : Canonical sys.blocked)
    (hp : sys.proc = none) :
    sys.Good env where
  canonical := hc
  proc b hb := by rw [hp] at hb; cases hb
  saved _ b hb := by rw [hp] at hb; cases hb

/-- The act is a tick of a running process. -/
def System.Ticks (sys : System T) (a : SystemAct T) (now : T) : Prop := a = .tick now ∧ sys.proc.isSome = true

section Steps

variable [Add T] [Sub T] [Zero T] [LE T] [DecidableLE T]
variable {env : ℕ → Interrupt} {args : Args T} {fds : Fds} {sys : System T} {a : SystemAct T} {L : Set Source}

/-- What an act is, and what is known after it. -/
inductive Stepped (env : ℕ → Interrupt) (args : Args T) (fds : Fds) (L : Set Source) (sys : System T) (a : SystemAct T)
    (sys' : System T) : Prop
  /-- A start, a stop, or nothing. -/
  | idle : (∀ n, ¬ sys.Ticks a n) → (∀ cpus t, a ≠ .reboot cpus t) → sys'.boot = sys.boot →
      Known sys.world.file sys.world.deletes L sys'.world →
      (∀ b, sys'.proc = some b → Canonical b.blockedUntil.get? ∧ (Saves env → b.blockedUntil.get? = sys.blocked)) →
      Stepped env args fds L sys a sys'
  | reboot (cpus : ℕ) (t : T) : a = .reboot cpus t → sys'.world.file = sys.world.file →
      sys'.world.deletes = sys.world.deletes → sys'.proc = none → Stepped env args fds L sys a sys'
  /-- A tick that runs to its end. -/
  | acted {n : T} {b b' : Brain T} {new : List (Source × Deletion)} : a = .tick n → sys.proc = some b →
      sys'.proc = some b' → sys'.boot = sys.boot →
      Acted env args fds sys.world.deletes (lookedAt L (noticed env args fds n b sys.world) env) b.blockedUntil.get? n
        (noticed env args fds n b sys.world) new b'.blockedUntil.get? sys'.world →
      Stepped env args fds L sys a sys'
  /-- A tick that is killed. -/
  | cut {n : T} {b : Brain T} {new : List (Source × Deletion)} : a = .tick n → sys.proc = some b → sys'.proc = none →
      sys'.boot = sys.boot →
      Cut env args fds sys.world.deletes (lookedAt L (noticed env args fds n b sys.world) env) b.blockedUntil.get? n
        (noticed env args fds n b sys.world) new sys'.world →
      Stepped env args fds L sys a sys'

variable (args fds) in
/-- **One act**, by what it is. -/
theorem System.step_cases (hg : sys.Good env) (hspare : Spared env L)
    (hL : ∀ s ∈ L, (sys.world.kernel.view s).listed = true) (a : SystemAct T) :
    Stepped env args fds L sys a (sys.step env args fds a) := by
  have hknown : Known sys.world.file sys.world.deletes L sys.world := ⟨rfl, rfl, hL⟩
  have hsame : ∀ b, sys.proc = some b → Canonical b.blockedUntil.get? ∧
      (Saves env → b.blockedUntil.get? = sys.blocked) :=
    fun b hb => ⟨hg.proc b hb, fun hs => hg.saved hs b hb⟩
  cases a with
  | start =>
    have hstart := start_spec fds hspare hg.canonical sys.world hknown
    unfold System.step
    cases hp : sys.proc with
    | some b =>
      exact .idle (fun n h => nomatch h.1) (fun _ _ h => nomatch h) rfl hknown hsame
    | none =>
      simp only
      cases hs : start env fds sys.world with
      | mk w' r =>
        rw [hs] at hstart
        cases r with
        | none => exact .idle (fun n h => nomatch h.1) (fun _ _ h => nomatch h) rfl hstart.1 fun b hb => nomatch hb
        | some b =>
          refine .idle (fun n h => nomatch h.1) (fun _ _ h => nomatch h) rfl hstart.1 fun b' hb => ?_
          cases hb
          exact hstart.2
  | tick n =>
    unfold System.step
    cases hp : sys.proc with
    | none =>
      refine .idle (fun n h => ?_) (fun _ _ h => nomatch h) rfl hknown hsame
      have := h.2
      rw [hp] at this
      cases this
    | some b =>
      simp only
      have hkept : Kept env sys.world.deletes L b.blockedUntil.get? sys.world :=
        ⟨sys.world.file, ⟨hg.canonical, fun hs => (hg.saved hs b hp).symm⟩, hknown⟩
      have htick := tick_spec args fds n hspare (hg.proc b hp) hkept
      cases ht : tick env args fds n b sys.world with
      | mk w' r =>
        rw [ht] at htick
        cases r with
        | none =>
          obtain ⟨new, hcut⟩ := htick
          exact .cut rfl hp rfl rfl hcut
        | some b' =>
          obtain ⟨new, hacted⟩ := htick
          exact .acted rfl hp rfl rfl hacted
  | stop => exact .idle (fun n h => nomatch h.1) (fun _ _ h => nomatch h) rfl hknown fun b hb => nomatch hb
  | reboot cpus t => exact .reboot cpus t rfl rfl rfl rfl

/-- A step keeps the system good. -/
theorem System.good_step (hg : sys.Good env) (a : SystemAct T) : (sys.step env args fds a).Good env := by
  have hstep := System.step_cases args fds hg (Spared.empty env) (fun _ h => nomatch h) a
  cases hstep with
  | idle _ _ _ hknown hproc =>
    have hfile : (sys.step env args fds a).blocked = sys.blocked := by
      unfold System.blocked; rw [hknown.file]
    exact ⟨hfile ▸ hg.canonical, fun b hb => (hproc b hb).1, fun hs b hb => hfile ▸ (hproc b hb).2 hs⟩
  | reboot _ _ _ hfile _ hproc =>
    have hfile : (sys.step env args fds a).blocked = sys.blocked := by
      unfold System.blocked; rw [hfile]
    exact System.Good.of_stopped env (hfile ▸ hg.canonical) hproc
  | acted _ _ hproc _ hacted =>
    obtain ⟨F, hF, hknown⟩ := hacted.kept
    have hfile : (sys.step env args fds a).blocked = ledgerOf F := by
      unfold System.blocked; rw [hknown.file]
    refine ⟨hfile ▸ hF.canonical, fun b hb => ?_, fun hs b hb => ?_⟩
    · rw [hproc] at hb; cases hb; exact hacted.canonical
    · rw [hproc] at hb; cases hb; rw [hfile, hF.ledger hs]
  | cut _ _ hproc _ hcut =>
    obtain ⟨part, -, F, hF, hknown⟩ := hcut.kept
    have hfile : (sys.step env args fds a).blocked = ledgerOf F := by
      unfold System.blocked; rw [hknown.file]
    exact System.Good.of_stopped env (hfile ▸ hF.canonical) hproc

/-- The deletes that an act makes. -/
def System.deletesBy (env : ℕ → Interrupt) (args : Args T) (fds : Fds) (sys : System T) (a : SystemAct T) :
    List (Source × Deletion) :=
  (sys.step env args fds a).world.deletes.drop sys.world.deletes.length

theorem System.deletesBy_eq {new : List (Source × Deletion)}
    (h : (sys.step env args fds a).world.deletes = sys.world.deletes ++ new) : sys.deletesBy env args fds a = new := by
  unfold deletesBy; rw [h, List.drop_left]

theorem System.deletesBy_eq_nil (h : (sys.step env args fds a).world.deletes = sys.world.deletes) :
    sys.deletesBy env args fds a = [] :=
  System.deletesBy_eq (by rw [h, List.append_nil])

/-- A delete is of one of the addresses that are gone. -/
theorem Deleted.mem {gone : List Text} {new : List (Source × Deletion)} (h : Deleted env fds gone L new)
    {d : Source × Deletion} (hd : d ∈ new) : d.1.text ∈ gone := by
  have hmem := List.mem_map_of_mem (f := fun d : Source × Deletion => d.1.text) hd
  rw [h.sources] at hmem
  exact (List.mem_filter.1 hmem).1

theorem Deleted.exists {gone : List Text} {new : List (Source × Deletion)} (h : Deleted env fds gone L new) {s : Source}
    (hs : s.text ∈ gone) (hreach : fds.reaches s.text = true) : ∃ d, (s, d) ∈ new := by
  have hmem := List.mem_filter.2 ⟨hs, hreach⟩
  rw [← h.sources] at hmem
  obtain ⟨d, hd, heq⟩ := List.mem_map.1 hmem
  exact ⟨d.2, by rw [← Source.text_injective heq]; exact hd⟩

/-- An address whose deadline has come by a time, at the state before a tick. -/
def System.Due (env : ℕ → Interrupt) (args : Args T) (fds : Fds) (sys : System T) (n : T) (s : Source) : Prop :=
  ∃ b, sys.proc = some b ∧
    s.text ∈ Ledger.due b.blockedUntil.get? n args.cooldownSec (noticed env args fds n b sys.world)

/-- **Nothing else is deleted.** Every delete is made by a tick, of an address whose deadline has come. -/
theorem System.due_of_deleted (hg : sys.Good env) {d : Source × Deletion} (hd : d ∈ sys.deletesBy env args fds a) :
    ∃ n, sys.Ticks a n ∧ sys.Due env args fds n d.1 := by
  have hstep := System.step_cases args fds hg (Spared.empty env) (fun _ h => nomatch h) a
  cases hstep with
  | idle _ _ _ hknown _ =>
    rw [System.deletesBy_eq_nil hknown.deletes] at hd
    cases hd
  | reboot _ _ _ _ hdeletes _ =>
    rw [System.deletesBy_eq_nil hdeletes] at hd
    cases hd
  | acted ha hb _ _ hacted =>
    obtain ⟨F, -, hknown⟩ := hacted.kept
    obtain ⟨gone, hgone, hdel⟩ := hacted.deleted
    rw [System.deletesBy_eq hknown.deletes] at hd
    exact ⟨_, ⟨ha, by rw [hb]; rfl⟩, _, hb, (hgone _).1 (hdel.mem hd)⟩
  | cut ha hb _ _ hcut =>
    obtain ⟨part, -, F, -, hknown⟩ := hcut.kept
    obtain ⟨gone, hgone, hdel⟩ := hcut.deleted
    rw [System.deletesBy_eq hknown.deletes] at hd
    exact ⟨_, ⟨ha, by rw [hb]; rfl⟩, _, hb, hgone _ (hdel.mem hd)⟩

/-- Only a reboot changes the boot time. -/
theorem System.boot_step (hg : sys.Good env) (ha : ∀ cpus t, a ≠ .reboot cpus t) :
    (sys.step env args fds a).boot = sys.boot := by
  have hstep := System.step_cases args fds hg (Spared.empty env) (fun _ h => nomatch h) a
  cases hstep with
  | idle _ _ hboot _ _ => exact hboot
  | reboot cpus t h _ _ _ => exact absurd h (ha cpus t)
  | acted _ _ _ hboot _ => exact hboot
  | cut _ _ _ hboot _ => exact hboot

variable (args fds) in
/-- Without a kill every tick runs to its end. -/
theorem System.done_step (hg : sys.Good env) (hk : ¬ Killed env) {n : T} (h : sys.Ticks a n) :
    (sys.step env args fds a).proc.isSome = true := by
  have hstep := System.step_cases args fds hg (Spared.empty env) (fun _ h => nomatch h) a
  cases hstep with
  | idle hno _ _ _ _ => exact absurd h (hno n)
  | reboot _ _ ha _ _ _ => have := h.1; rw [ha] at this; cases this
  | acted _ _ hproc _ _ => rw [hproc]; rfl
  | cut _ _ _ _ hcut => exact absurd hcut.killed hk

variable {s : Source} {D n : T}

/-- **A deadline in the file stays** until a tick at or after it runs to its end. -/
theorem System.kept_step (hg : sys.Good env) (hs : Saves env) (h : sys.blocked s.text = some D)
    (hearly : ∀ n, sys.Ticks a n → (sys.step env args fds a).proc.isSome = true → ¬ D ≤ n) :
    (sys.step env args fds a).blocked s.text = some D := by
  have hstep := System.step_cases args fds hg (Spared.empty env) (fun _ h => nomatch h) a
  cases hstep with
  | idle _ _ _ hknown _ => unfold System.blocked; rw [hknown.file]; exact h
  | reboot _ _ _ hfile _ _ => unfold System.blocked; rw [hfile]; exact h
  | acted ha hb hproc _ hacted =>
    obtain ⟨F, hF, hknown⟩ := hacted.kept
    unfold System.blocked
    rw [hknown.file, hF.ledger hs, hacted.ledger]
    refine Ledger.tick_of_some ?_ (hearly _ ⟨ha, by rw [hb]; rfl⟩ (by rw [hproc]; rfl)) _ _
    rw [hg.saved hs _ hb]
    exact h
  | cut _ hb _ _ hcut =>
    obtain ⟨part, -, F, hF, hknown⟩ := hcut.kept
    unfold System.blocked
    rw [hknown.file, hF.ledger hs]
    refine Ledger.detect_of_some ?_ _ _
    rw [hg.saved hs _ hb]
    exact h

omit [Zero T] in
/-- A block whose deadline has not come is not due. -/
theorem System.not_due (hg : sys.Good env) (hs : Saves env) (h : sys.blocked s.text = some D) (hearly : ¬ D ≤ n) :
    ¬ sys.Due env args fds n s := by
  rintro ⟨b, hb, D', hD', hdue⟩
  rw [Ledger.detect_of_some (D := D) (by rw [hg.saved hs b hb]; exact h), Option.some.injEq] at hD'
  exact hearly (hD' ▸ hdue)

/-- A spared source that is listed stays listed through an act that is no reboot and does not let it go. -/
theorem System.listed_step (hg : sys.Good env) (hk : ¬ Killed env) (hspare : ∀ n, (env n).Spares s)
    (h : (sys.world.kernel.view s).listed = true) (ha : ∀ cpus t, a ≠ .reboot cpus t)
    (hdue : ∀ n, sys.Ticks a n → ¬ sys.Due env args fds n s) :
    ((sys.step env args fds a).world.kernel.view s).listed = true := by
  have hstep := System.step_cases args fds hg (L := {s})
    (fun s' hs' => by rw [Set.mem_singleton_iff.1 hs']; exact hspare)
    (fun s' hs' => by rw [Set.mem_singleton_iff.1 hs']; exact h) a
  cases hstep with
  | idle _ _ _ hknown _ => exact hknown.listed s rfl
  | reboot cpus t h _ _ _ => exact absurd h (ha cpus t)
  | acted ha hb _ _ hacted =>
    obtain ⟨F, -, hknown⟩ := hacted.kept
    exact hknown.listed s ⟨Or.inl rfl, fun hmem => hdue _ ⟨ha, by rw [hb]; rfl⟩ ⟨_, hb, hmem⟩⟩
  | cut _ _ _ _ hcut => exact absurd hcut.killed hk

/-- The process sees `s` in a blacklist dump, tracks no block of it, and has it on no cached allowlist. -/
def System.Detects (env : ℕ → Interrupt) (args : Args T) (fds : Fds) (sys : System T) (n : T) (s : Source) : Prop :=
  ∃ b, sys.proc = some b ∧ b.blockedUntil.get? s.text = none ∧ s.text ∈ noticed env args fds n b sys.world

/-- **What a tick has a deadline for**, old or new, is in the file after it unless it is due. -/
theorem System.deadline_step (hg : sys.Good env) (hs : Saves env) {b : Brain T} (hb : sys.proc = some b)
    (hD : Ledger.detect b.blockedUntil.get? (noticed env args fds n b sys.world) (n + args.cooldownSec) s.text = some D)
    (hlate : ¬ D ≤ n) (hdone : (sys.step env args fds (.tick n)).proc.isSome = true) :
    (sys.step env args fds (.tick n)).blocked s.text = some D := by
  have hstep := System.step_cases args fds hg (Spared.empty env)
    (fun _ h => nomatch h) (.tick n)
  cases hstep with
  | idle hno _ _ _ _ => exact absurd ⟨rfl, by rw [hb]; rfl⟩ (hno n)
  | reboot _ _ h _ _ _ => cases h
  | acted ha hb' _ _ hacted =>
    cases ha
    rw [hb] at hb'
    cases hb'
    obtain ⟨F, hF, hknown⟩ := hacted.kept
    unfold System.blocked
    rw [hknown.file, hF.ledger hs, hacted.ledger]
    exact Ledger.expire_eq_some_iff.2 ⟨hD, hlate⟩
  | cut _ _ hproc _ _ => rw [hproc] at hdone; cases hdone

/-- A detected address that is not due at once is listed after the tick. -/
theorem System.listed_of_detects (hg : sys.Good env) (hspare : ∀ n, (env n).Spares s)
    (h : sys.Detects env args fds n s) (hdone : (sys.step env args fds (.tick n)).proc.isSome = true)
    (hlate : ¬ n + args.cooldownSec ≤ n) :
    ((sys.step env args fds (.tick n)).world.kernel.view s).listed = true := by
  obtain ⟨b, hb, hnone, hnew⟩ := h
  have hstep := System.step_cases args fds hg (Spared.empty env)
    (fun _ h => nomatch h) (.tick n)
  cases hstep with
  | idle hno _ _ _ _ => exact absurd ⟨rfl, by rw [hb]; rfl⟩ (hno n)
  | reboot _ _ h _ _ _ => cases h
  | acted ha hb' _ _ hacted =>
    cases ha
    rw [hb] at hb'
    cases hb'
    obtain ⟨F, -, hknown⟩ := hacted.kept
    refine hknown.listed s ⟨Or.inr ⟨hnew, hspare⟩, ?_⟩
    rintro ⟨D, hD, hle⟩
    rw [Ledger.detect_of_none hnone hnew, Option.some.injEq] at hD
    exact hlate (by rw [← hD] at hle; exact hle)
  | cut _ _ hproc _ _ => rw [hproc] at hdone; cases hdone

/-- The only deadline that a detected address can have in the file, also if the tick was killed. -/
theorem System.detected_deadline (hg : sys.Good env) (hs : Saves env) (h : sys.Detects env args fds n s)
    (hD : (sys.step env args fds (.tick n)).blocked s.text = some D) : D = n + args.cooldownSec := by
  obtain ⟨b, hb, hnone, -⟩ := h
  have hnew : ∀ fresh, Ledger.detect b.blockedUntil.get? fresh (n + args.cooldownSec) s.text = some D →
      D = n + args.cooldownSec := by
    intro fresh hdet
    rcases Ledger.of_detect hdet with hold | ⟨-, -, hD⟩
    · rw [hnone] at hold; cases hold
    · exact hD
  have hstep := System.step_cases args fds hg (Spared.empty env)
    (fun _ h => nomatch h) (.tick n)
  unfold System.blocked at hD
  cases hstep with
  | idle hno _ _ _ _ => exact absurd ⟨rfl, by rw [hb]; rfl⟩ (hno n)
  | reboot _ _ h _ _ _ => cases h
  | acted ha hb' _ _ hacted =>
    cases ha
    rw [hb] at hb'
    cases hb'
    obtain ⟨F, hF, hknown⟩ := hacted.kept
    rw [hknown.file, hF.ledger hs, hacted.ledger] at hD
    exact hnew _ (Ledger.expire_eq_some_iff.1 hD).1
  | cut ha hb' _ _ hcut =>
    cases ha
    rw [hb] at hb'
    cases hb'
    obtain ⟨part, -, F, hF, hknown⟩ := hcut.kept
    rw [hknown.file, hF.ledger hs] at hD
    exact hnew _ hD

/-- **What a tick notices it tracks or deletes.** -/
theorem System.accounted_step (hg : sys.Good env) {b : Brain T} (hb : sys.proc = some b)
    (hnew : s.text ∈ noticed env args fds n b sys.world) (hreach : fds.reaches s.text = true)
    (hdone : (sys.step env args fds (.tick n)).proc.isSome = true) :
    (∃ b', (sys.step env args fds (.tick n)).proc = some b' ∧ b'.blockedUntil.get? s.text ≠ none) ∨
      ∃ d, (s, d) ∈ sys.deletesBy env args fds (.tick n) := by
  have hstep := System.step_cases args fds hg (Spared.empty env)
    (fun _ h => nomatch h) (.tick n)
  cases hstep with
  | idle hno _ _ _ _ => exact absurd ⟨rfl, by rw [hb]; rfl⟩ (hno n)
  | reboot _ _ h _ _ _ => cases h
  | acted ha hb' hproc _ hacted =>
    cases ha
    rw [hb] at hb'
    cases hb'
    obtain ⟨F, -, hknown⟩ := hacted.kept
    obtain ⟨gone, hgone, hdel⟩ := hacted.deleted
    by_cases hdue : s.text ∈ Ledger.due b.blockedUntil.get? n args.cooldownSec (noticed env args fds n b sys.world)
    · obtain ⟨d, hd⟩ := hdel.exists ((hgone _).2 hdue) hreach
      exact Or.inr ⟨d, by rw [System.deletesBy_eq hknown.deletes]; exact hd⟩
    · refine Or.inl ⟨_, hproc, ?_⟩
      rw [hacted.ledger]
      intro hnone
      obtain ⟨D, hD⟩ := Ledger.exists_detect b.blockedUntil.get? hnew (n + args.cooldownSec)
      exact hdue ⟨D, hD, Ledger.expire_eq_none_iff.1 hnone D hD⟩
  | cut _ _ hproc _ _ => rw [hproc] at hdone; cases hdone

/-- **What is due is let go**, with a delete from the map of its family. -/
theorem System.release_step (hg : sys.Good env) (hs : Saves env) (h : sys.Due env args fds n s)
    (hdone : (sys.step env args fds (.tick n)).proc.isSome = true) :
    (sys.step env args fds (.tick n)).blocked s.text = none ∧
      (fds.reaches s.text = true → ∃ d, (s, d) ∈ sys.deletesBy env args fds (.tick n) ∧
        (d = .failed → Fails env .delete) ∧
        ((∀ n, (env n).Spares s) → (sys.world.kernel.view s).listed = true ∨ sys.Detects env args fds n s →
          d ≠ .absent)) := by
  obtain ⟨b, hb, hdue⟩ := h
  -- the sources known to be listed: `s`, if it is
  have hL : ∀ s' ∈ { s' | s' = s ∧ (∀ n, (env n).Spares s) ∧ (sys.world.kernel.view s).listed = true },
      (sys.world.kernel.view s').listed = true := by
    rintro s' ⟨rfl, -, hl⟩; exact hl
  have hstep := System.step_cases args fds hg
    (L := { s' | s' = s ∧ (∀ n, (env n).Spares s) ∧ (sys.world.kernel.view s).listed = true })
    (by rintro s' ⟨rfl, hspare, -⟩; exact hspare) hL (.tick n)
  cases hstep with
  | idle hno _ _ _ _ => exact absurd ⟨rfl, by rw [hb]; rfl⟩ (hno n)
  | reboot _ _ h _ _ _ => cases h
  | acted ha hb' _ _ hacted =>
    cases ha
    rw [hb] at hb'
    cases hb'
    obtain ⟨F, hF, hknown⟩ := hacted.kept
    obtain ⟨gone, hgone, hdel⟩ := hacted.deleted
    refine ⟨?_, fun hreach => ?_⟩
    · unfold System.blocked
      rw [hknown.file, hF.ledger hs, hacted.ledger]
      exact Ledger.tick_of_due hdue
    · obtain ⟨d, hd⟩ := hdel.exists ((hgone _).2 hdue) hreach
      refine ⟨d, by rw [System.deletesBy_eq hknown.deletes]; exact hd, hdel.failed _ hd, fun hspare hseen => ?_⟩
      refine hdel.found _ hd ?_
      rcases hseen with hl | ⟨b', hb', -, hnew⟩
      · exact Or.inl ⟨rfl, hspare, hl⟩
      · rw [hb] at hb'
        cases hb'
        exact Or.inr ⟨hnew, hspare⟩
  | cut _ _ hproc _ _ => rw [hproc] at hdone; cases hdone

end Steps

/-! ## Along a run -/

section Runs

variable [Add T] [Sub T] [Zero T] [LE T] [DecidableLE T]
variable {env : ℕ → Interrupt} {args : Args T} {fds : Fds} {sys₀ : System T} {acts : List (SystemAct T)}

variable (args fds acts) in
/-- So it is good at every step. -/
theorem good_at (h₀ : sys₀.Good env) {n : ℕ} (hn : n ≤ acts.length) : (sysAt env args fds sys₀ acts n).Good env := by
  induction n with
  | zero => rw [sysAt_zero]; exact h₀
  | succ n ih => rw [sysAt_succ _ _ _ _ _ (by omega)]; exact System.good_step (ih (by omega)) _

/-- **A deadline stays in the file**, over a stretch in which no tick at or after it runs to its end. -/
theorem kept_at (h₀ : sys₀.Good env) (hs : Saves env) {s : Source} {D : T} {i j : ℕ} (hij : i ≤ j)
    (hj : j ≤ acts.length)
    (h : (sysAt env args fds sys₀ acts i).blocked s.text = some D)
    (hearly : ∀ k (hk : k < acts.length), i ≤ k → k < j → (sysAt env args fds sys₀ acts k).blocked s.text = some D →
      ∀ t, (sysAt env args fds sys₀ acts k).Ticks acts[k] t →
      (sysAt env args fds sys₀ acts (k + 1)).proc.isSome = true → ¬ D ≤ t) :
    (sysAt env args fds sys₀ acts j).blocked s.text = some D := by
  induction j, hij using Nat.le_induction with
  | base => exact h
  | succ j hij ih =>
    have hstep := sysAt_succ env args fds sys₀ acts (n := j) (by omega)
    have hblocked := ih (by omega) fun k hk hik hkj => hearly k hk hik (by omega)
    rw [hstep]
    refine System.kept_step (good_at _ _ _ h₀ (by omega)) hs hblocked fun t ht hdone =>
      hearly j (by omega) hij (by omega) hblocked t ht ?_
    rw [hstep]
    exact hdone

end Runs

end FluxGuard
