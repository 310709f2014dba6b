import FluxGuard.Proof.Events
import FluxGuard.Proof.Grounded

/-!
# No block without a cause

What the brain tracks, saves, logs and exports are addresses of sources that the kernel has
blacklisted. The kernel says so itself: for each of them there is a record in the event ring
buffer, unless the source was blocked before or another tool has listed it.

* `explained_run`: the filter lists no source without a record.
* `no_block_without_cause`: over any run of the host, with reboots, the brain names no source
  without a record.
-/

namespace FluxGuard

/-! ## The kernel -/

/-- The source that a map operation puts on its blacklist. -/
def Event.target : Event → Option Source
  | .v4 (.blacklist a _) => some (.v4 a)
  | .v6 (.blacklist a _) => some (.v6 a)
  | _ => none

/-- A blacklisting act names the source it is about. -/
theorem Kernel.target_of_act {k : Kernel} {s : Source} {e : Event} (h : k.act s e = .blacklist) :
    e.target = some s := by
  have hop : ∀ {α : Type} [DecidableEq α] {n m : ℕ} {maps : IpMaps α n m} {a : α} {op : MapOp α},
      maps.act a op = .blacklist → ∃ v, op = .blacklist a v := by
    intro α _ n m maps a op h
    cases op with
    | blacklist b v =>
      simp only [IpMaps.act] at h
      split at h
      · rename_i hc
        rw [hc.1]
        exact ⟨v, rfl⟩
      · cases h
    | allow b v | disallow b | unblacklist b | evictMeter b | evictRate b =>
      simp only [IpMaps.act] at h
      split at h <;> cases h
  cases e with
  | frame now host data =>
    simp only [Kernel.act] at h
    split at h <;> cases h
  | v4 op =>
    cases s with
    | v4 a =>
      obtain ⟨v, rfl⟩ := hop h
      rfl
    | v6 a => cases h
  | v6 op =>
    cases s with
    | v4 a => cases h
    | v6 a =>
      obtain ⟨v, rfl⟩ := hop h
      rfl
  | protoSet p action => cases h
  | protoDel p => cases h

/-- The source is in `P`, or a record names it. -/
def Suspect (P : Set Source) (k : Kernel) (s : Source) : Prop := s ∈ P ∨ ∃ ev ∈ k.eventRingbuf, ev.source = s

/-- Every listed source is suspect. -/
def Explained (P : Set Source) (k : Kernel) : Prop := ∀ s, (k.view s).listed = true → Suspect P k s

/-- An event at which the ring buffer has room, and which lists sources of `P` only. -/
structure Event.Fair (P : Set Source) (e : Event) : Prop where
  room : ∀ now host data, e = .frame now host data → host.reserve.isSome = true
  target : ∀ s, e.target = some s → s ∈ P

variable {P : Set Source} {k : Kernel} {s : Source} {e : Event}

/-- Once a suspect, always a suspect. -/
theorem Suspect.step (h : Suspect P k s) (e : Event) : Suspect P (k.step e) s := by
  rcases h with h | ⟨ev, hev, hs⟩
  · exact Or.inl h
  · right
    refine ⟨ev, ?_, hs⟩
    rw [ring_step]
    exact List.mem_append_left _ hev

/-- The same over a run. -/
theorem Suspect.run (h : Suspect P k s) (es : List Event) : Suspect P (run k es) s := by
  induction es generalizing k with
  | nil => exact h
  | cons e es ih => exact ih (h.step e)

/-- A source that its bucket blacklists is named by a record. -/
theorem suspect_of_exhausted (he : e.Fair P) (hst : k.stageOf s e = some .exhausted) : Suspect P (k.step e) s := by
  have hone := recordsOf_submits (k := k) (s := s) he.room
  have hexh : k.exhausts s e = true := decide_eq_true hst
  rw [hexh, if_pos rfl] at hone
  obtain ⟨ev, hev, hsrc⟩ := List.countP_pos_iff.1 (hone.symm ▸ Nat.one_pos : 0 < recordsOf s (k.submits e))
  right
  refine ⟨ev, ?_, of_decide_eq_true hsrc⟩
  rw [ring_step]
  exact List.mem_append_right _ hev

/-- How a source gets onto its blacklist. -/
theorem listed_cases (h : ((k.step e).view s).listed = true) :
    (k.view s).listed = true ∨ k.stageOf s e = some .exhausted ∨ e.target = some s := by
  rw [Kernel.view_step] at h
  cases hact : k.act s e with
  | packet now host filtered room =>
    rw [hact, View.step, View.listed_packet] at h
    by_cases hst : (k.view s).stage now filtered = .exhausted
    · right; left
      rw [Kernel.stageOf, hact]
      exact congrArg some hst
    · left
      simpa [hst] using h
  | blacklist => exact Or.inr (Or.inr (Kernel.target_of_act hact))
  | unblacklist =>
    rw [hact] at h
    cases h
  | allow | disallow | evictMeter | evictRate | idle =>
    rw [hact] at h
    exact Or.inl h

/-- A fair event leaves every block explained. -/
theorem Explained.step (h : Explained P k) (he : e.Fair P) : Explained P (k.step e) := by
  intro s hs
  rcases listed_cases hs with hs | hst | ht
  · exact (h s hs).step e
  · exact suspect_of_exhausted he hst
  · exact Or.inl (he.target s ht)

/-- **The filter lists no source without a record.** -/
theorem explained_run (h : Explained P k) {es : List Event} (hes : ∀ e ∈ es, e.Fair P) : Explained P (run k es) := by
  induction es generalizing k with
  | nil => exact h
  | cons e es ih => exact ih (h.step (hes e List.mem_cons_self)) fun e' he' => hes e' (List.mem_cons_of_mem _ he')

/-- A map operation that lists a suspect. -/
theorem Explained.list (h : Explained P k) (hs : Suspect P k s) : Explained P (k.step (blacklist s)) := by
  intro s' hs'
  by_cases heq : s' = s
  · rw [heq]
    exact hs.step _
  · apply Suspect.step
    apply h
    rw [Kernel.view_step] at hs'
    have hact : k.act s' (blacklist s) = .idle := by
      cases s <;> cases s' <;> simp_all [blacklist, Kernel.act, IpMaps.act]
      · intro hab; exact absurd hab.symm heq
      · intro hab; exact absurd hab.symm heq
    rw [hact] at hs'
    exact hs'

/-- To take a source off the list is fair. -/
theorem fair_unblacklist (P : Set Source) (s : Source) : (unblacklist s).Fair P where
  room now host data h := by cases s <;> cases h
  target s' h := by cases s <;> cases h

/-- More given sources, more suspects. -/
theorem Suspect.mono {Q : Set Source} (hPQ : P ⊆ Q) (h : Suspect P k s) : Suspect Q k s := h.imp (fun hs => hPQ hs) id

/-- What fewer given sources explain, more explain too. -/
theorem Explained.mono {Q : Set Source} (hPQ : P ⊆ Q) (h : Explained P k) : Explained Q k :=
  fun s hs => (h s hs).mono hPQ

/-! ## Around the brain -/

/-- The sources that other tools list before the `t`-th system call. -/
def listedByTools (env : ℕ → Interrupt) (t : ℕ) : Set Source := { s | ∃ n < t, ∃ e ∈ (env n).all, e.target = some s }

/-- The frames find room in the ring buffer. -/
def Roomy (env : ℕ → Interrupt) : Prop :=
  ∀ n now host data, Event.frame now host data ∈ (env n).all → host.reserve.isSome = true

/-- What the tools have listed stays listed by them. -/
theorem listedByTools_succ (env : ℕ → Interrupt) (P : Set Source) (t : ℕ) :
    P ∪ listedByTools env t ⊆ P ∪ listedByTools env (t + 1) := by
  rintro s (hs | ⟨n, hn, he⟩)
  · exact Or.inl hs
  · exact Or.inr ⟨n, by omega, he⟩

/-- While the ring has room an event is fair, if the sources the tools list in its turn count as given. -/
theorem fair_of_roomy {env : ℕ → Interrupt} (hring : Roomy env) (P : Set Source) {t : ℕ} {e : Event}
    (he : e ∈ (env t).all) :
    e.Fair (P ∪ listedByTools env (t + 1)) where
  room now host data h := hring t now host data (h ▸ he)
  target _ hs := Or.inr ⟨t, Nat.lt_succ_self t, e, he, hs⟩

/-- As long as the ring buffer has room, the listed sources are suspects and remain so. -/
theorem causes_suspect {env : ℕ → Interrupt} (hring : Roomy env) (P : Set Source) :
    Causes env (fun t => Explained (P ∪ listedByTools env t)) fun t => Suspect (P ∪ listedByTools env t) where
  host h hes := explained_run (h.mono (listedByTools_succ env P _)) fun _ he => fair_of_roomy hring P (hes.subset he)
  grow _ h _ := (h.mono (listedByTools_succ env P _)).run _
  shown h hes hl := by
    rw [run_append]
    have hexp := explained_run (h.mono (listedByTools_succ env P _)) fun _ he =>
      fair_of_roomy hring P (hes.subset (List.mem_append_left _ he))
    exact (hexp _ hl).run _
  unlist s h := h.step (fair_unblacklist _ s)
  unlist_grow _ h := h.step _
  list h hs := h.list hs
  list_grow _ h := h.step _

/-! ## Runs of the host -/

section Runs

variable {T : Type} {env : ℕ → Interrupt} {args : Args T} {fds : Fds}
variable [Add T] [Sub T] [Zero T] [LE T] [DecidableLE T]
variable {sys₀ : System T} {acts : List (SystemAct T)}

/-- The sources that the host starts out with: in the checkpoint file, or on a blacklist. -/
def System.given (sys₀ : System T) : Set Source :=
  { s | s.text ∈ sys₀.world.file.getD Dict.empty ∨ (sys₀.world.kernel.view s).listed = true }

/-- The sources that a record of the first `n` acts names. -/
def recorded (env : ℕ → Interrupt) (args : Args T) (fds : Fds) (sys₀ : System T) (acts : List (SystemAct T)) (n : ℕ) :
    Set Source :=
  { s | ∃ m ≤ n, ∃ ev ∈ (sysAt env args fds sys₀ acts m).world.kernel.eventRingbuf, ev.source = s }

/-- A host that has not named anything but what is in its checkpoint file. -/
structure System.Fresh (sys₀ : System T) : Prop where
  proc : sys₀.proc = none
  file : Canonical sys₀.blocked
  log : sys₀.world.log = []
  exported : sys₀.world.metrics.blockedIpsSet = []

omit [Add T] [Sub T] [Zero T] [LE T] [DecidableLE T] in
/-- Of a fresh host only the addresses in the file have to be known. -/
theorem System.Fresh.grounded (h : sys₀.Fresh) {I : ℕ → Kernel → Prop} {C : ℕ → Kernel → Source → Prop}
    (hI : I sys₀.world.turn sys₀.world.kernel)
    (hC : ∀ s : Source, s.text ∈ sys₀.world.file.getD Dict.empty → C sys₀.world.turn sys₀.world.kernel s) :
    Grounded I C sys₀.tracked sys₀.world where
  inv := hI
  texts := by
    rintro ip ⟨b, hb, -⟩
    rw [h.proc] at hb
    cases hb
  file := by
    intro ip hip
    obtain ⟨s, rfl⟩ := h.file ip (by
      unfold System.blocked ledgerOf
      rw [Ne, Dict.get?_eq_none_iff, not_not]
      exact hip)
    exact ⟨s, rfl, hC s hip⟩
  log := by
    intro ip c hip
    rw [h.log] at hip
    cases hip
  exported := by
    intro ip hip
    rw [h.exported] at hip
    cases hip

variable (args fds) in
/-- At every step the kernel is explained by the start, the records and the tools. -/
theorem grounded_at (hring : Roomy env) (h₀ : sys₀.Fresh) {n : ℕ} (hn : n ≤ acts.length) :
    Grounded (fun t => Explained (sys₀.given ∪ recorded env args fds sys₀ acts n ∪ listedByTools env t))
      (fun t => Suspect (sys₀.given ∪ recorded env args fds sys₀ acts n ∪ listedByTools env t))
      (sysAt env args fds sys₀ acts n).tracked (sysAt env args fds sys₀ acts n).world := by
  induction n with
  | zero =>
    rw [sysAt_zero]
    refine h₀.grounded ?_ ?_
    · intro s hs
      exact Or.inl (Or.inl (Or.inl (Or.inr hs)))
    · intro s hs
      exact Or.inl (Or.inl (Or.inl (Or.inl hs)))
  | succ n ih =>
    have hbefore := ih (by omega)
    set P : Set Source := sys₀.given ∪ recorded env args fds sys₀ acts n
    set Q : Set Source := sys₀.given ∪ recorded env args fds sys₀ acts (n + 1)
    -- what is recorded so far is recorded later on
    have hPQ : ∀ t, P ∪ listedByTools env t ⊆ Q ∪ listedByTools env t := by
      rintro t s ((hs | ⟨m, hm, hs⟩) | hs)
      · exact Or.inl (Or.inl hs)
      · exact Or.inl (Or.inr ⟨m, by omega, hs⟩)
      · exact Or.inr hs
    rw [sysAt_succ env args fds sys₀ acts (by omega)]
    by_cases hboot : ∃ cpus t, acts[n] = .reboot cpus t
    · obtain ⟨cpus, t, hact⟩ := hboot
      rw [hact]
      -- the maps and the ring are new, the file, the log and the export are not
      refine Grounded.mono (X := ∅) (Grounded.imp (hbefore.mono (Set.empty_subset _)) (k := Kernel.init cpus) ?_ ?_) ?_
      · intro s hs
        have hnew : ((Kernel.init cpus).view s).listed = false := by cases s <;> rfl
        rw [hnew] at hs
        cases hs
      · rintro s (hs | hs)
        · exact Or.inl (hPQ _ hs)
        · exact Or.inl (Or.inl (Or.inr ⟨n, Nat.le_succ n, hs⟩))
      · rintro ip ⟨b, hb, -⟩
        cases hb
    · push Not at hboot
      have hstep := System.grounded_step args fds (causes_suspect hring P) hbefore hboot
      exact hstep.imp (hstep.inv.mono (hPQ _)) fun s hs => hs.mono (hPQ _)

/-- **No block without a cause.** Whatever the rest of the host does around the system calls of the
brain, and however often the process and the host stop and start: an address that is tracked, saved,
logged as blocked or exported is that of a source which the host started out with, which a record of
the event ring buffer has named, or which another tool has listed. -/
theorem no_block_without_cause (hring : Roomy env) (h₀ : sys₀.Fresh) {n : ℕ} (hn : n ≤ acts.length) {ip : Text}
    (hip : (sysAt env args fds sys₀ acts n).Names ip) :
    ∃ s : Source, ip = s.text ∧ (s ∈ sys₀.given ∨ s ∈ recorded env args fds sys₀ acts n ∨
      s ∈ listedByTools env (sysAt env args fds sys₀ acts n).world.turn) := by
  obtain ⟨s, rfl, hs⟩ := (grounded_at args fds hring h₀ hn).named hip
  refine ⟨s, rfl, ?_⟩
  rcases hs with ((hs | hs) | hs) | hs
  · exact Or.inl hs
  · exact Or.inr (Or.inl hs)
  · exact Or.inr (Or.inr hs)
  · exact Or.inr (Or.inl ⟨n, le_rfl, hs⟩)

end Runs

theorem roomy_calm : Roomy calm := by
  intro n now host data h
  simp [calm, Interrupt.all] at h

theorem fresh_victimListed : (victimListed ℕ).Fresh :=
  ⟨rfl, show Canonical (victimListed ℕ).blocked from canonical_empty, rfl, rfl⟩

theorem roomy_twoSenders : Roomy twoSenders := by
  intro n now host data h
  rcases mem_all_twoSenders h with h | h
  · cases h
    rfl
  · cases h
    rfl

theorem fresh_spentHost : spentHost.Fresh := ⟨rfl, show Canonical spentHost.blocked from canonical_empty, rfl, rfl⟩

/-- The filter blocks the victim and submits a record, and the first tick saves it. -/
theorem no_block_without_cause_twoSenders :
    victim ∉ spentHost.given ∧
      ∃ s : Source, victim.text = s.text ∧ (s ∈ spentHost.given ∨
        s ∈ recorded twoSenders thirtySeconds allOpen spentHost [.start, .tick 100] 2 ∨
        s ∈ listedByTools twoSenders
          (sysAt twoSenders thirtySeconds allOpen spentHost [.start, .tick 100] 2).world.turn) := by
  refine ⟨?_, no_block_without_cause roomy_twoSenders fresh_spentHost (by decide) (Or.inr (Or.inl (by decide +kernel)))⟩
  rintro (h | h)
  · cases h
  · cases h

end FluxGuard
