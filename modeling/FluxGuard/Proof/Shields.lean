import FluxGuard.Proof.Account
import FluxGuard.Proof.Global

/-!
# The Shields-Up alarm

The brain tells an overload from two samples of the global bucket: it raises the alarm when
the second is not above 0 and below the first. A read that failed counts as a level of 0, and
a level of 0 is that of a bucket whose last frame went through.

* `drops_of_fall`: a level that has fallen below 0 takes a frame that the bucket dropped.
* `alarm_of_tick`: a tick raises the alarm exactly when its sample is not above 0 and below
  that of the tick before.
* `alarms_sound`: in any run whose samples are all conclusive, every alarm after the first tick
  has a dropped frame behind it.
* `alarm_of_inconclusive`: a sample that is not conclusive raises the alarm, whatever the
  bucket has dropped.
* `alarm_without_traffic`: a run that raises it on a host without a single frame.
-/

namespace FluxGuard

/-! ## What the bucket drops -/

namespace Kernel

/-- The level of the global bucket. -/
def level (k : Kernel) : ℤ := k.globalRateMap.tokens.toInt

/-- A frame that the global bucket drops. -/
def ShieldsDrop (k : Kernel) (e : Event) : Prop := ∃ now, e.charge = some now ∧ k.overloaded now = true

end Kernel

/-- Among the events from `k` on there is a frame that the global bucket drops. -/
def Drops (k : Kernel) (es : List Event) : Prop := ∃ pre e post, es = pre ++ e :: post ∧ (run k pre).ShieldsDrop e

/-- The host came from `k` to `k'`, and whatever it did in between, the global bucket dropped a frame. -/
structure DroppedSince (k k' : Kernel) : Prop where
  history : ∃ es, run k es = k'
  drops : ∀ es, run k es = k' → Drops k es

/-- A frame that passes leaves the level at zero or above. -/
theorem globalBucketCheck_passed {gtb : TokenBucket} {now : UInt64} (h : (globalBucketCheck gtb now).2 = false) :
    0 ≤ (globalBucketCheck gtb now).1.tokens.toInt := by
  unfold globalBucketCheck at h ⊢
  dsimp only at h ⊢
  -- with or without a refill
  generalize (if now - gtb.lastTime > 100000000 then _ else gtb) = filled at h ⊢
  split at h
  · cases h
  · rename_i hpos
    rw [if_neg hpos, ← Int64.toInt_zero, ← Int64.le_iff_toInt_le]
    exact Int64.not_lt.1 hpos

/-- A step that drops nothing leaves the level alone, or at 0 or above. -/
theorem Kernel.level_step {k : Kernel} {e : Event} (h : ¬ k.ShieldsDrop e) :
    (k.step e).level = k.level ∨ 0 ≤ (k.step e).level := by
  unfold level
  cases hcharge : e.charge with
  | none =>
    rw [Kernel.globalRateMap_of_none hcharge]
    exact Or.inl rfl
  | some now =>
    rw [Kernel.globalRateMap_of_some hcharge]
    refine Or.inr (globalBucketCheck_passed ?_)
    have hover : ¬ k.overloaded now = true := fun hover => h ⟨now, hcharge, hover⟩
    rwa [Bool.not_eq_true] at hover

/-- Without a drop the level stays as it was, or is not below zero. -/
theorem level_run {k : Kernel} {es : List Event} (h : ¬ Drops k es) :
    (run k es).level = k.level ∨ 0 ≤ (run k es).level := by
  induction es generalizing k with
  | nil => exact Or.inl rfl
  | cons e es ih =>
    have hfirst : ¬ k.ShieldsDrop e := fun hdrop => h ⟨[], e, es, rfl, hdrop⟩
    have hrest : ¬ Drops (k.step e) es := by
      rintro ⟨pre, e', post, rfl, hdrop⟩
      exact h ⟨e :: pre, e', post, rfl, hdrop⟩
    rw [run_cons]
    -- the rest keeps the level that the first event left, or ends at 0 or above
    rcases ih hrest with hkeep | hpos
    · rw [hkeep]
      exact Kernel.level_step hfirst
    · exact Or.inr hpos

/-- **A level that has fallen below 0 takes a drop.** -/
theorem drops_of_fall {k k' : Kernel} (hhistory : ∃ es, run k es = k') (hneg : k'.level < 0)
    (hfall : k'.level < k.level) :
    DroppedSince k k' where
  history := hhistory
  drops := by
    intro es hes
    by_contra hdrop
    rcases level_run hdrop with hkeep | hpos
    · rw [hes] at hkeep
      omega
    · rw [hes] at hpos
      omega

/-! ## What a program leaves alone -/

section Onward

variable {T : Type}

/-- A line of a detected overload. -/
def isShieldsUp : LogLine → Bool
  | .shieldsUp _ => true
  | .autoBlock .. | .unblock .. | .tick .. => false

/-- The host goes on, and no alarm is raised. -/
structure Onward (w w' : World T) : Prop where
  history : ∃ es, run w.kernel es = w'.kernel
  counted : w'.metrics.globalPpsExceeded = w.metrics.globalPpsExceeded
  logged : w'.log.countP isShieldsUp = w.log.countP isShieldsUp

/-- One alarm is raised: it is counted and logged. -/
structure Alarm (w w' : World T) : Prop where
  counted : w'.metrics.globalPpsExceeded = w.metrics.globalPpsExceeded + 1
  logged : w'.log.countP isShieldsUp = w.log.countP isShieldsUp + 1

instance : IsPreorder (World T) Onward where
  refl _ := ⟨⟨[], rfl⟩, rfl, rfl⟩
  trans := by
    rintro w₁ w₂ w₃ ⟨⟨es, hes⟩, hcount, hlog⟩ ⟨⟨es', hes'⟩, hcount', hlog'⟩
    refine ⟨⟨es ++ es', ?_⟩, hcount'.trans hcount, hlog'.trans hlog⟩
    rw [run_append, hes, hes']

open Proc

variable {env : ℕ → Interrupt} {args : Args T} {fds : Fds}

theorem onward_syscall (c : Call) : Moves (Onward (T := T)) (syscall env c) := by
  intro w
  unfold syscall
  cases (env w.turn).outcome c with
  | ok => exact ⟨⟨_, rfl⟩, rfl, rfl⟩
  | error => exact ⟨⟨_, rfl⟩, rfl, rfl⟩
  | kill => exact ⟨⟨_, rfl⟩, rfl, rfl⟩

/-- A dump only lets the kernel run on. -/
theorem history_lookups {α : Type} [DecidableEq α] (text : α → Text) (sel : Kernel → Dict α UInt32)
    (keys : List (List Event × α)) (k : Kernel) (res : Dict Text UInt32) :
    ∃ es, run k es = (keys.foldl (lookup text sel) (k, res)).1 := by
  induction keys generalizing k res with
  | nil => exact ⟨[], rfl⟩
  | cons q keys ih =>
    obtain ⟨es, hes⟩ := ih (lookup text sel (k, res) q).1 (lookup text sel (k, res) q).2
    refine ⟨q.1 ++ es, ?_⟩
    rw [run_append, List.foldl_cons]
    exact hes

theorem onward_dumpMap {α : Type} [DecidableEq α] (text : α → Text) (keys : Interrupt → List (List Event × α))
    (sel : Kernel → Dict α UInt32) : Moves (Onward (T := T)) (dumpMap env text keys sel) := by
  unfold dumpMap
  refine Moves.get.bind fun w₀ => (onward_syscall .dump).bind fun ok => ?_
  cases ok with
  | false => exact Moves.pure none
  | true =>
    -- the lookups go on from the kernel that the call has found
    intro w
    exact ⟨history_lookups text sel _ w.kernel Dict.empty, rfl, rfl⟩

theorem onward_dumpOpened (fd : Option ℕ) (sel : Kernel → Dict Ip6 UInt32) :
    Moves (Onward (T := T)) (dumpOpened env fd sel) :=
  Moves.ite (onward_dumpMap _ _ _) (Moves.pure _)

theorem onward_getGlobalTokens : Moves (Onward (T := T)) (getGlobalTokens env) := by
  refine (onward_syscall .tokens).bind fun ok => ?_
  cases ok with
  | false => exact Moves.pure 0
  | true => exact Moves.get.bind fun w => Moves.pure _

theorem onward_saveCheckpoint (B : Dict Text T) : Moves Onward (saveCheckpoint env B) := by
  have hfile : ∀ f : World T → Option (Dict Text T), Moves Onward (Proc.modify fun w => { w with file := f w }) :=
    fun _ => Moves.modify fun w => ⟨⟨[], rfl⟩, rfl, rfl⟩
  refine (hfile _).bind fun _ => (onward_syscall .save).bind fun ok => ?_
  cases ok with
  | false => exact Moves.pure ()
  | true => exact hfile fun _ => some B

theorem onward_deleteElem (s : Source) : Moves (Onward (T := T)) (deleteElem env s) := by
  refine (onward_syscall .delete).bind fun ok => ?_
  cases ok with
  | false => exact fun w => ⟨⟨[], rfl⟩, rfl, rfl⟩
  | true => exact fun w => ⟨⟨[unblacklist s], rfl⟩, rfl, rfl⟩

theorem onward_refreshAllowlist [Sub T] [LE T] [DecidableLE T] (now : T) (b : Brain T) :
    Moves Onward (refreshAllowlist env args fds now b) := by
  unfold refreshAllowlist
  refine Moves.ite ?_ (Moves.pure b)
  refine (onward_dumpMap _ _ _).bind fun r => ?_
  cases r with
  | none => exact Moves.pure b
  | some cache =>
    refine Moves.ite ?_ (Moves.pure _)
    refine (onward_dumpMap _ _ _).bind fun r => ?_
    cases r with
    | none => exact Moves.pure _
    | some cacheV6 => exact Moves.pure _

theorem onward_readMaps : Moves (Onward (T := T)) (readMaps env fds) := by
  unfold readMaps
  refine (onward_dumpMap _ _ _).bind fun r => ?_
  cases r with
  | none => exact Moves.pure _
  | some blacklist =>
    refine (onward_dumpMap _ _ _).bind fun r => ?_
    cases r with
    | none => exact Moves.pure _
    | some counts =>
      refine (onward_dumpOpened _ _).bind fun r => ?_
      cases r with
      | none => exact Moves.pure _
      | some blacklistV6 =>
        refine (onward_dumpOpened _ _).bind fun r => ?_
        cases r with
        | none => exact Moves.pure _
        | some countsV6 => exact onward_getGlobalTokens.bind fun _ => Moves.pure _

variable (env args fds) in
theorem onward_look [Sub T] [LE T] [DecidableLE T] (now : T) (b : Brain T) : Moves Onward (look env args fds now b) :=
  (onward_refreshAllowlist now b).bind fun _ => onward_readMaps.bind fun _ => Moves.pure _

theorem onward_metric {f : MetricsState → MetricsState} (hf : ∀ m, (f m).globalPpsExceeded = m.globalPpsExceeded) :
    Moves (Onward (T := T)) (metric f) := Moves.modify fun w => ⟨⟨[], rfl⟩, hf w.metrics, rfl⟩

theorem onward_logLine (line : LogLine) (hline : isShieldsUp line = false) :
    Moves (Onward (T := T)) (logLine line) := by
  refine Moves.modify fun w => ⟨⟨[], rfl⟩, rfl, ?_⟩
  have hnone : [line].countP isShieldsUp = 0 := by
    rw [List.countP_singleton, hline]
    rfl
  rw [List.countP_append, hnone, Nat.add_zero]

/-- The loop over the dump raises no alarm. -/
theorem onward_detect [Add T] (now : T) (dump cache : Dict Text UInt32) (B : Dict Text T) :
    Moves Onward (detect env args now dump cache B) := by
  refine Moves.foldlM (fun B ip => ?_) B
  unfold detectOne
  refine Moves.ite ?_ (Moves.pure B)
  exact Moves.bind (onward_metric fun _ => rfl) fun _ => (onward_saveCheckpoint _).bind fun _ =>
    Moves.bind (onward_logLine _ rfl) fun _ => Moves.pure _

theorem onward_unblock (ip : Text) : Moves (Onward (T := T)) (unblock env fds ip) := by
  unfold unblock delMapU32 delMapU32V6
  refine Moves.ite (Moves.ite ?_ (Moves.pure true)) ?_
  · cases ipToKeyV6 ip with
    | none => exact Moves.abort
    | some a => exact onward_deleteElem (.v6 a)
  · cases ipToKey ip with
    | none => exact Moves.abort
    | some a => exact onward_deleteElem (.v4 a)

theorem onward_expireOne (B : Dict Text T) (ip : Text) : Moves Onward (expireOne env fds B ip) := by
  refine (onward_unblock ip).bind fun ok => ?_
  cases ok with
  | false => exact Moves.pure _
  | true =>
    exact Moves.bind (onward_metric fun _ => rfl) fun _ => Moves.bind (onward_logLine _ rfl) fun _ => Moves.pure _

/-- Nor does the loop over the tracked blocks. -/
theorem onward_expire [LE T] [DecidableLE T] (now : T) (B : Dict Text T) : Moves Onward (expire env fds now B) := by
  unfold expire
  refine Moves.ite (Moves.pure B) ?_
  exact (Moves.foldlM onward_expireOne B).bind fun B' => (onward_saveCheckpoint B').bind fun _ => Moves.pure _

theorem onward_publish (s : Sight) (B : Dict Text T) : Moves Onward (publish args s B) := by
  unfold publish
  refine Moves.bind (onward_metric fun _ => rfl) fun _ => Moves.bind (onward_metric fun _ => rfl) fun _ => ?_
  exact Moves.ite (Moves.pure ()) (onward_logLine _ rfl)

/-! ## The sample of a tick -/

/-- The system calls `cs`, from the `n`-th on, all succeed. -/
def Answered (env : ℕ → Interrupt) (n : ℕ) : List Call → Prop
  | [] => True
  | c :: cs => (env n).outcome c = .ok ∧ Answered env (n + 1) cs

instance (env : ℕ → Interrupt) (n : ℕ) (cs : List Call) : Decidable (Answered env n cs) := by
  induction cs generalizing n with
  | nil => exact isTrue trivial
  | cons c cs ih => exact @instDecidableAnd _ _ _ (ih (n + 1))

/-- The dumps that a tick makes of a map, if it is open. -/
def dumpsOf (fd : Option ℕ) : List Call := if opened fd then [.dump] else []

/-- The system calls of a tick up to its read of the global bucket. -/
def reads (fds : Fds) : List Call := [.dump, .dump] ++ dumpsOf fds.blacklistV6 ++ dumpsOf fds.meterV6 ++ [.tokens]

/-- What is left of the reads, if none has failed so far; `none` is an `OSError`. -/
def StillReading (env : ℕ → Interrupt) (φ : Prop) (cs : List Call) {α : Type} (r : Option α) (w : World T) : Prop :=
  if r.isSome then φ ↔ Answered env w.turn cs else ¬ φ

theorem syscall_answered {φ : Prop} (c : Call) (cs : List Call) :
    Triple (fun w : World T => φ ↔ Answered env w.turn (c :: cs)) (syscall env c)
      (fun ok w => if ok then φ ↔ Answered env w.turn cs else ¬ φ) fun _ => True := by
  intro w hw
  unfold syscall
  cases ho : (env w.turn).outcome c with
  | ok => exact hw.trans ⟨fun h => h.2, fun h => ⟨ho, h⟩⟩
  | error =>
    show ¬ φ
    intro hφ
    have hok := (hw.1 hφ).1
    rw [ho] at hok
    cases hok
  | kill => exact trivial

theorem dumpMap_answered {φ : Prop} {cs : List Call} {α : Type} [DecidableEq α] (text : α → Text)
    (keys : Interrupt → List (List Event × α)) (sel : Kernel → Dict α UInt32) :
    Triple (fun w : World T => φ ↔ Answered env w.turn (.dump :: cs)) (dumpMap env text keys sel)
      (StillReading env φ cs) fun _ => True := by
  unfold dumpMap
  refine fun w hw => ?_
  rw [bind_some (x := Proc.get) rfl]
  refine (syscall_answered .dump cs).bind (fun ok => ?_) w hw
  cases ok with
  | false => exact Triple.pure fun w hw => hw
  | true => exact fun w hw => hw

theorem dumpOpened_answered {φ : Prop} {cs : List Call} (fd : Option ℕ) (sel : Kernel → Dict Ip6 UInt32) :
    Triple (fun w : World T => φ ↔ Answered env w.turn (dumpsOf fd ++ cs)) (dumpOpened env fd sel)
      (StillReading env φ cs) fun _ => True := by
  unfold dumpOpened dumpsOf
  cases opened fd with
  | false => exact Triple.pure fun w hw => hw
  | true => exact dumpMap_answered keyToIpV6 Interrupt.keysV6 sel

/-- A read of the bucket that a failure has cut short, or that went through. -/
def Sampled (φ : Prop) [Decidable φ] (t : ℤ) (w : World T) : Prop := t = if φ then w.kernel.level else 0

theorem getGlobalTokens_answered {φ : Prop} [Decidable φ] :
    Triple (fun w : World T => φ ↔ Answered env w.turn [.tokens]) (getGlobalTokens env) (Sampled φ) fun _ => True := by
  refine (syscall_answered .tokens []).bind fun ok => ?_
  cases ok with
  | false => exact Triple.pure fun w hw => (if_neg hw).symm
  | true => exact fun w hw => (if_pos (hw.2 trivial)).symm

/-- The reading half of a tick samples the bucket when its calls are answered. -/
theorem readMaps_answered {φ : Prop} [Decidable φ] :
    Triple (fun w : World T => φ ↔ Answered env w.turn (reads fds)) (readMaps env fds)
      (fun s => Sampled φ s.globalTokens)
      fun _ => True := by
  -- a dump that fails leaves the level at 0
  have hstop : ∀ s : Sight, s.globalTokens = 0 → Triple (fun _ : World T => ¬ φ) (Pure.pure s)
      (fun s => Sampled φ s.globalTokens) fun _ => True :=
    fun s hs => Triple.pure fun w hφ => by unfold Sampled; rw [hs, if_neg hφ]
  unfold readMaps reads
  rw [List.append_assoc, List.append_assoc]
  refine (dumpMap_answered _ _ _).bind fun r => ?_
  cases r with
  | none => exact hstop _ rfl
  | some blacklist =>
    refine (dumpMap_answered _ _ _).bind fun r => ?_
    cases r with
    | none => exact hstop _ rfl
    | some counts =>
      refine (dumpOpened_answered _ _).bind fun r => ?_
      cases r with
      | none => exact hstop _ rfl
      | some blacklistV6 =>
        refine (dumpOpened_answered _ _).bind fun r => ?_
        cases r with
        | none => exact hstop _ rfl
        | some countsV6 => exact getGlobalTokens_answered.bind fun t => Triple.pure fun w hw => hw

theorem refreshAllowlist_prev [Sub T] [LE T] [DecidableLE T] (now : T) (b : Brain T) :
    Triple (fun _ : World T => True) (refreshAllowlist env args fds now b)
      (fun b' _ => b'.prevGlobalTokens = b.prevGlobalTokens) fun _ => True := by
  have hdump : ∀ {α : Type} [DecidableEq α] (text : α → Text) (keys : Interrupt → List (List Event × α))
      (sel : Kernel → Dict α UInt32),
      Triple (fun _ : World T => True) (dumpMap env text keys sel) (fun _ _ => True) fun _ => True := by
    intro α _ text keys sel w hw
    unfold Post
    split <;> trivial
  unfold refreshAllowlist
  refine Triple.ite (fun _ => ?_) fun _ => Triple.pure fun _ _ => rfl
  refine (hdump _ _ _).bind fun r => ?_
  cases r with
  | none => exact Triple.pure fun _ _ => rfl
  | some cache =>
    refine Triple.ite (fun _ => ?_) fun _ => Triple.pure fun _ _ => rfl
    refine (hdump _ _ _).bind fun r => ?_
    cases r with
    | none => exact Triple.pure fun _ _ => rfl
    | some cacheV6 => exact Triple.pure fun _ _ => rfl

end Onward

/-! ## A tick -/

section Sample

open Proc

variable {T : Type} [Sub T] [LE T] [DecidableLE T]
variable (env : ℕ → Interrupt) (args : Args T) (fds : Fds)

/-- The kernel when the reads of a tick are over. -/
def sampledKernel (now : T) (b : Brain T) (w : World T) : Kernel := (look env args fds now b w).1.kernel

/-- The level that a tick reads from the global bucket; `none` if one of its reads fails. -/
def sample (now : T) (b : Brain T) (w : World T) : Option ℤ :=
  if Answered env (refreshAllowlist env args fds now b w).1.turn (reads fds) then
    some (sampledKernel env args fds now b w).level
  else none

variable {env args fds} {now : T} {b b₁ : Brain T} {w w₁ : World T} {s : Sight}

/-- What a tick has seen of the bucket is its sample. -/
theorem look_sample (h : look env args fds now b w = (w₁, some (b₁, s))) :
    b₁.prevGlobalTokens = b.prevGlobalTokens ∧ s.globalTokens = (sample env args fds now b w).getD 0 := by
  obtain ⟨v, b', v', s', hrefresh, hread⟩ :=
    bind_isSome (x := refreshAllowlist env args fds now b) (by rw [← look, h]; rfl)
  have hprev := (refreshAllowlist_prev now b).of_some trivial hrefresh
  have hlook := h
  unfold look at hlook
  rw [bind_some hrefresh] at hlook
  obtain ⟨u, s₁, u', r, hmaps, hpure⟩ := bind_isSome (x := readMaps env fds) (by rw [hlook]; rfl)
  rw [bind_some hmaps] at hlook
  cases hlook
  -- the sample is that of the dumps, whose first call comes right after the refresh
  have hsampled := readMaps_answered (φ := Answered env v.turn (reads fds)).of_some Iff.rfl hmaps
  refine ⟨hprev, ?_⟩
  unfold sample sampledKernel
  rw [h, hrefresh, hsampled]
  split
  · rfl
  · rfl

end Sample

section Ticks

open Proc

variable {T : Type} [Add T] [LE T] [DecidableLE T]
variable {env : ℕ → Interrupt} {args : Args T} {fds : Fds} {now : T} {b b' : Brain T} {w w' : World T} {s : Sight}

variable (env args fds now b s) in
/-- What acting does after the check of the bucket. -/
theorem act_eq : ∃ x : Proc (World T) (Brain T), Moves Onward x ∧
    (∀ v, Post (fun b' _ => b'.prevGlobalTokens = s.globalTokens) (fun _ => True) (x v)) ∧
    act env args fds now b s = shieldsUp s.globalTokens b.prevGlobalTokens >>= fun _ => x := by
  refine ⟨_, ?_, ?_, rfl⟩
  · exact (onward_detect now _ _ _).bind fun _ => (onward_detect now _ _ _).bind fun _ =>
      (onward_expire now _).bind fun B =>
      (onward_publish s B).bind fun _ => Moves.pure _
  · have hany : ∀ {α : Type} (x : Proc (World T) α), Triple (fun _ => True) x (fun _ _ => True) fun _ => True := by
      intro α x v _
      unfold Post
      split <;> trivial
    exact fun v => ((hany _).bind fun _ => (hany _).bind fun _ => (hany _).bind fun _ => (hany _).bind fun _ =>
      Triple.pure (P := fun _ => True) (Q := fun (b' : Brain T) _ => b'.prevGlobalTokens = s.globalTokens) fun _ _ =>
        rfl) v trivial

variable (env args fds now b w s) in
/-- A tick raises an alarm when the level has come down to zero. -/
theorem act_moves : (∃ es, run w.kernel es = (act env args fds now b s w).1.kernel) ∧
    (Alarm w (act env args fds now b s w).1 ↔ s.globalTokens ≤ 0 ∧ s.globalTokens < b.prevGlobalTokens) := by
  obtain ⟨x, hmoves, -, hact⟩ := act_eq env args fds now b s
  rw [hact]
  unfold shieldsUp
  split
  · rename_i hguard
    -- one count and one line, and then none
    have hfirst : (do metric MetricsState.incGlobalPpsExceeded; logLine (.shieldsUp s.globalTokens)) w =
        ({ w with metrics := w.metrics.incGlobalPpsExceeded, log := w.log ++ [.shieldsUp s.globalTokens] },
          some ()) := rfl
    rw [bind_some hfirst]
    have hrest :=
      hmoves { w with metrics := w.metrics.incGlobalPpsExceeded, log := w.log ++ [.shieldsUp s.globalTokens] }
    have hlog := hrest.logged
    rw [List.countP_append] at hlog
    exact ⟨hrest.history, fun _ => hguard, fun _ => ⟨hrest.counted, hlog⟩⟩
  · rename_i hguard
    have hrest := hmoves w
    refine ⟨hrest.history, fun halarm => absurd (halarm.counted.symm.trans hrest.counted) (by omega),
      fun h => absurd h hguard⟩

/-- The sample is kept for the next tick. -/
theorem act_prev (h : act env args fds now b s w = (w', some b')) : b'.prevGlobalTokens = s.globalTokens := by
  obtain ⟨x, -, hprev, hact⟩ := act_eq env args fds now b s
  rw [hact] at h
  obtain ⟨v, _, v', _, hfirst, _⟩ := bind_isSome (x := shieldsUp s.globalTokens b.prevGlobalTokens) (by rw [h]; rfl)
  rw [bind_some hfirst] at h
  have hpost := hprev v
  rwa [h] at hpost

variable [Sub T]

/-- **A tick raises the alarm** exactly when its reads end and its sample is not above 0 and below that of the
tick before. -/
theorem alarm_of_tick : Alarm w (tick env args fds now b w).1 ↔
    (look env args fds now b w).2.isSome = true ∧ (sample env args fds now b w).getD 0 ≤ 0 ∧
      (sample env args fds now b w).getD 0 < b.prevGlobalTokens := by
  have honward := onward_look env args fds now b w
  unfold tick
  cases hlook : look env args fds now b w with
  | mk w₁ r =>
    rw [hlook] at honward
    cases r with
    -- killed while it reads: no alarm
    | none =>
      rw [bind_none hlook]
      constructor
      · intro halarm
        have := halarm.counted.symm.trans honward.counted
        omega
      · intro h
        cases h.1
    | some r =>
      obtain ⟨b₁, s⟩ := r
      obtain ⟨hprev, hsample⟩ := look_sample hlook
      rw [bind_some hlook, ← hsample, ← hprev]
      have hact := (act_moves env args fds now b₁ w₁ s).2
      refine ⟨fun halarm => ⟨rfl, hact.1 ⟨?_, ?_⟩⟩, fun h => ?_⟩
      · rw [halarm.counted, honward.counted]
      · rw [halarm.logged, honward.logged]
      · have halarm := hact.2 h.2
        exact ⟨by rw [halarm.counted, honward.counted], by rw [halarm.logged, honward.logged]⟩

/-- What a tick that returns remembers, and where it leaves the kernel. -/
theorem tick_sample (h : tick env args fds now b w = (w', some b')) :
    b'.prevGlobalTokens = (sample env args fds now b w).getD 0 ∧
      ∃ es, run (sampledKernel env args fds now b w) es = w'.kernel := by
  obtain ⟨v, ⟨b₁, s⟩, v', r, hlook, hact⟩ := bind_isSome (x := look env args fds now b) (by rw [← tick, h]; rfl)
  unfold tick at h
  rw [bind_some hlook] at h
  have hmoves := (act_moves env args fds now b₁ v s).1
  refine ⟨(act_prev h).trans (look_sample hlook).2, ?_⟩
  unfold sampledKernel
  rw [hlook]
  change act env args fds now b₁ s v = _ at h
  rwa [h] at hmoves

end Ticks

/-! ## Runs -/

section Runs

open Proc

variable {T : Type} [Add T] [Sub T] [Zero T] [LE T] [DecidableLE T]
variable (env : ℕ → Interrupt) (args : Args T) (fds : Fds) (nows : List T) (w₀ : World T)

/-- In the process that starts on `w₀` and passes through its loop at the times `nows`, one tick begins at `now` with
the brain `b` in the world `w`, and the next one at `now'` with `b'` in `w'`. -/
structure Successive (now now' : T) (b b' : Brain T) (w w' : World T) : Prop where
  reached : ∃ v b₀ pre post, start env fds w₀ = (v, some b₀) ∧ nows = pre ++ now :: now' :: post ∧
    ticks env args fds pre b₀ v = (w, some b)
  first : tick env args fds now b w = (w', some b')

/-- Every alarm after the first tick has a frame behind it that the global bucket has dropped since the tick before
read it. -/
def SoundAlarms : Prop :=
  ∀ now now' b b' w w', Successive env args fds nows w₀ now now' b b' w w' → Alarm w' (tick env args fds now' b' w').1 →
    DroppedSince (sampledKernel env args fds now b w) (sampledKernel env args fds now' b' w')

/-- A sample, and the one before it, tell whether the bucket has dropped a frame: a level of 0, or a failed read,
does not come after a level above 0, and a level below 0 does not come after a failed read. -/
structure Conclusive (prev now : Option ℤ) : Prop where
  zero : now.getD 0 = 0 → prev.getD 0 ≤ 0
  below : now.getD 0 < 0 → prev.isSome = true

/-- Every sample after the first is conclusive. -/
def ConclusiveSamples : Prop :=
  ∀ now now' b b' w w', Successive env args fds nows w₀ now now' b b' w w' →
    Conclusive (sample env args fds now b w) (sample env args fds now' b' w')

variable {env args fds nows w₀} {now now' : T} {b b' : Brain T} {w w' : World T}

/-- The host goes from one sample to the next. -/
theorem Successive.history (h : Successive env args fds nows w₀ now now' b b' w w') :
    ∃ es, run (sampledKernel env args fds now b w) es = sampledKernel env args fds now' b' w' := by
  obtain ⟨es, hes⟩ := (tick_sample h.first).2
  obtain ⟨es', hes'⟩ := (onward_look env args fds now' b' w').history
  refine ⟨es ++ es', ?_⟩
  rw [run_append, hes]
  exact hes'

/-- **Sound alarms.** In any run of the process whose samples are conclusive, whatever the frames, the failures and
the kills, an alarm after the first tick means that the global bucket has dropped a frame since the tick before. -/
theorem alarms_sound (h : ConclusiveSamples env args fds nows w₀) : SoundAlarms env args fds nows w₀ := by
  intro now now' b b' w w' hsucc halarm
  have hprev := (tick_sample hsucc.first).1
  obtain ⟨-, hlow, hfall⟩ := alarm_of_tick.1 halarm
  obtain ⟨hzero, hbelow⟩ := h now now' b b' w w' hsucc
  rw [hprev] at hfall
  -- the level is below 0, so that both reads went through
  have hneg : (sample env args fds now' b' w').getD 0 < 0 := by
    by_contra hpos
    have := hzero (by omega)
    omega
  have hsome := hbelow hneg
  unfold sample at hneg hfall hsome
  split at hsome
  · rename_i hanswered
    rw [if_pos hanswered] at hfall
    split at hneg
    · rename_i hanswered'
      rw [if_pos hanswered'] at hfall
      exact drops_of_fall hsucc.history hneg hfall
    · exact absurd hneg (by decide)
  · cases hsome

/-- The ticks of a run of two. -/
theorem Successive.of_two {t t' : T} (h : Successive env args fds [t, t'] w₀ now now' b b' w w') :
    now = t ∧ now' = t' ∧ start env fds w₀ = (w, some b) ∧ tick env args fds t b w = (w', some b') := by
  obtain ⟨⟨v, b₀, pre, post, hstart, hsplit, hpre⟩, hfirst⟩ := h
  cases pre with
  | nil =>
    cases hsplit
    cases hpre
    exact ⟨rfl, rfl, hstart, hfirst⟩
  | cons t₁ pre =>
    have hlen := congrArg List.length hsplit
    simp only [List.cons_append, List.length_cons, List.length_append, List.length_nil] at hlen
    omega

/-- A sample that is not conclusive raises the alarm, whatever the global bucket has done. -/
theorem alarm_of_inconclusive (hsucc : Successive env args fds nows w₀ now now' b b' w w')
    (hread : (look env args fds now' b' w').2.isSome = true)
    (h : ¬ Conclusive (sample env args fds now b w) (sample env args fds now' b' w')) :
    Alarm w' (tick env args fds now' b' w').1 := by
  refine alarm_of_tick.2 ⟨hread, ?_⟩
  rw [(tick_sample hsucc.first).1]
  by_contra hquiet
  refine h ⟨fun hzero => ?_, fun hneg => ?_⟩
  · by_contra hpos
    exact hquiet ⟨hzero.le, by omega⟩
  · -- a failed read counts as 0
    cases hprev : sample env args fds now b w with
    | some l => rfl
    | none =>
      rw [hprev] at hquiet
      exact absurd ⟨hneg.le, hneg⟩ hquiet

end Runs

/-! ## Two ticks -/

/-- The host right after its boot. -/
def bootedWorld : World ℕ := ⟨Kernel.init 1, none, MetricsState.init, [], [], 0⟩

/-- One frame, and the system calls that fail: the rest of the host is idle. -/
def oneFrame (turn : ℕ) (now : UInt64) (fails : ℕ → Bool) : ℕ → Interrupt := fun n =>
  ⟨if n = turn then [.frame now quiet (ip4Frame 10 0 1 5 6)] else [],
    fun _ => if fails n then .error else .ok, [], [], .old⟩

/-- The brain before its start. -/
def unborn : Brain ℕ := ⟨Dict.empty, Dict.empty, Dict.empty, 0, 0⟩

theorem some_getD {α : Type} {o : Option α} (h : o.isSome = true) (a : α) : some (o.getD a) = o := by
  obtain ⟨x, rfl⟩ := Option.isSome_iff_exists.1 h
  rfl

section TwoTicks

variable (env : ℕ → Interrupt)

/-- The brain and the world of the booted host before its first tick, at 100. -/
def beforeFirst : Brain ℕ × World ℕ :=
  ((start env allOpen bootedWorld).2.getD unborn, (start env allOpen bootedWorld).1)

/-- And before its second tick, at 101. -/
def beforeSecond : Brain ℕ × World ℕ :=
  ((tick env thirtySeconds allOpen 100 (beforeFirst env).1 (beforeFirst env).2).2.getD unborn,
    (tick env thirtySeconds allOpen 100 (beforeFirst env).1 (beforeFirst env).2).1)

/-- Both samples. -/
def twoSamples : Option ℤ × Option ℤ :=
  (sample env thirtySeconds allOpen 100 (beforeFirst env).1 (beforeFirst env).2,
    sample env thirtySeconds allOpen 101 (beforeSecond env).1 (beforeSecond env).2)

variable {env}

theorem conclusive_of_two (h : Conclusive (twoSamples env).1 (twoSamples env).2) :
    ConclusiveSamples env thirtySeconds allOpen [100, 101] bootedWorld := by
  intro now now' b b' w w' hsucc
  obtain ⟨rfl, rfl, hstart, hfirst⟩ := hsucc.of_two
  have hbefore : beforeFirst env = (b, w) := by rw [beforeFirst, hstart]; rfl
  have hbefore' : beforeSecond env = (b', w') := by rw [beforeSecond, hbefore, hfirst]; rfl
  rwa [twoSamples, hbefore, hbefore'] at h

variable (env) in
theorem successive_of_two (hstart : (start env allOpen bootedWorld).2.isSome = true)
    (hfirst : (tick env thirtySeconds allOpen 100 (beforeFirst env).1 (beforeFirst env).2).2.isSome = true) :
    Successive env thirtySeconds allOpen [100, 101] bootedWorld 100 101 (beforeFirst env).1 (beforeSecond env).1
      (beforeFirst env).2 (beforeSecond env).2 where
  reached := by
    refine ⟨(beforeFirst env).2, (beforeFirst env).1, [], [], ?_, rfl, rfl⟩
    rw [beforeFirst, some_getD hstart]
  first := by rw [beforeSecond, some_getD hfirst]

end TwoTicks

/-- A packet that finds the bucket empty comes between the samples of two ticks. -/
theorem alarms_sound_overload :
    SoundAlarms (oneFrame 12 0 fun _ => false) thirtySeconds allOpen [100, 101] bootedWorld ∧
      Alarm (beforeSecond (oneFrame 12 0 fun _ => false)).2
        (tick (oneFrame 12 0 fun _ => false) thirtySeconds allOpen 101
        (beforeSecond (oneFrame 12 0 fun _ => false)).1 (beforeSecond (oneFrame 12 0 fun _ => false)).2).1 := by
  have hsamples : twoSamples (oneFrame 12 0 fun _ => false) = (some 0, some (-1)) := by decide +kernel
  refine ⟨alarms_sound (conclusive_of_two ?_), ?_, ?_⟩
  · rw [hsamples]
    exact ⟨by decide, fun _ => rfl⟩
  · decide +kernel
  · decide +kernel

/-- A packet fills the bucket before the first tick, and a dump of the second tick fails. -/
def idleHost : ℕ → Interrupt := oneFrame 0 200000000 fun n => decide (n = 8)

/-- **An alarm without traffic.** The bucket is almost full at the first tick, and no frame arrives before
the second. -/
theorem alarm_without_traffic : ¬ SoundAlarms idleHost thirtySeconds allOpen [100, 101] bootedWorld := by
  intro hsound
  have hsucc := successive_of_two idleHost (by decide +kernel) (by decide +kernel)
  have hdropped := hsound 100 101 _ _ _ _ hsucc ⟨by decide +kernel, by decide +kernel⟩
  -- not a single event between the two samples
  obtain ⟨pre, e, post, hsplit, -⟩ := hdropped.drops [] (by decide +kernel)
  exact absurd hsplit (by simp)

end FluxGuard
