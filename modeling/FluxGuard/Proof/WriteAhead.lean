import FluxGuard.Data.Writes
import FluxGuard.Proof.Trace

/-!
# The file is ahead of the log

The brain saves a new block before it logs it, and logs a release before it saves without it. So what
the log says is blocked is in the checkpoint file, wherever the process is killed, but for a kill inside a
save: the file is truncated when it is opened.

* `Ahead`: every address whose last word in the log is a block, and of which no delete has gone wrong,
  is in the file.
* `tick_covers`: a tick keeps it, also when it is killed, as long as no save fails or leaves a torn file.
* `ahead_run`: it holds at every point of a run of the host, and what the brain tracks has it too.
-/

namespace FluxGuard

open Proc

/-- What a line of the log says about an address: it is blocked, or released. -/
def LogLine.word : LogLine → Option (Text × Bool)
  | .autoBlock ip _ => some (ip, true)
  | .unblock ip _ => some (ip, false)
  | .shieldsUp _ | .tick .. => none

variable {T : Type}

/-- What the log says, line by line, about an address. -/
def World.words (w : World T) : Writes Text := w.log.filterMap LogLine.word

/-- The checkpoint file can be written and read, and a save that is killed leaves a whole file: the old one,
or the new. -/
structure Untorn (env : ℕ → Interrupt) : Prop where
  save : ¬ Fails env .save
  load : ¬ Fails env .load
  whole : ∀ n, (env n).outcome .save = .kill → (env n).remains ≠ .torn

/-- Every delete of an address from its blacklist has removed it. -/
def Released (w : World T) (ip : Text) : Prop := ∀ d ∈ w.deletes, addressed ip = some d.1 → d.2 = .removed

/-- The addresses whose last word is a block are among some, unless a delete of theirs has gone wrong. -/
def Held (S : Set Text) (w : World T) : Prop := ∀ ip, Released w ip → w.words.last ip = some true → ip ∈ S

/-- The addresses in the checkpoint file. -/
def World.filed (w : World T) : Set Text := { ip | ∃ d, w.file = some d ∧ ip ∈ d }

/-- **The file is ahead of the log.** -/
def Ahead (w : World T) : Prop := Held w.filed w

/-- The file is ahead of the log, and so are the tracked blocks. -/
def Covers (B : Dict Text T) (w : World T) : Prop := Held { ip | ip ∈ B } w ∧ Ahead w

variable {env : ℕ → Interrupt} {args : Args T} {fds : Fds} {w w' : World T} {S S' : Set Text} {B : Dict Text T}

/-- More addresses hold too. -/
theorem Held.mono (h : Held S w) (hS : S ⊆ S') : Held S' w := fun ip hr hw => hS (h ip hr hw)

/-! ## Steps that write nothing -/

/-- Neither the file nor a word of the log nor a delete. -/
structure Unwritten (w w' : World T) : Prop where
  file : w'.file = w.file
  words : w'.words = w.words
  deletes : w'.deletes = w.deletes

instance : IsPreorder (World T) Unwritten where
  refl _ := ⟨rfl, rfl, rfl⟩
  trans _ _ _ h h' := ⟨h'.file.trans h.file, h'.words.trans h.words, h'.deletes.trans h.deletes⟩

theorem Held.congr (h : Held S w) (hw : w'.words = w.words) (hd : w.deletes ⊆ w'.deletes) : Held S w' := by
  intro ip hr hword
  rw [hw] at hword
  exact h ip (fun d hmem haddr => hr d (hd hmem) haddr) hword

/-- What writes no word keeps the file ahead. -/
theorem Unwritten.ahead (h : Unwritten w w') (hw : Ahead w) : Ahead w' := by
  have hfiled : w'.filed = w.filed := by
    unfold World.filed
    rw [h.file]
  unfold Ahead
  rw [hfiled]
  exact hw.congr h.words (h.deletes ▸ List.Subset.refl _)

/-- So does the dict it is written from. -/
theorem Unwritten.covers (h : Unwritten w w') (hw : Covers B w) : Covers B w' :=
  ⟨hw.1.congr h.words (h.deletes ▸ List.Subset.refl _), h.ahead hw.2⟩

theorem covers_of_moves {α : Type} {x : Proc (World T) α} (hx : Moves Unwritten x) :
    Triple (Covers B) x (fun _ => Covers B) Ahead := by
  intro w hw
  have hafter := (hx w).covers hw
  cases hrun : x w with
  | mk w' r =>
    rw [hrun] at hafter
    cases r with
    | none => exact hafter.2
    | some a => exact hafter

theorem unwritten_metric (f : MetricsState → MetricsState) : Moves Unwritten (metric (T := T) f) :=
  Moves.modify fun _ => ⟨rfl, rfl, rfl⟩

theorem unwritten_logLine {l : LogLine} (hl : l.word = none) : Moves Unwritten (logLine (T := T) l) := by
  refine Moves.modify fun w => ⟨rfl, ?_, rfl⟩
  unfold World.words
  rw [List.filterMap_append, List.filterMap_cons_none hl, List.filterMap_nil, List.append_nil]

theorem unwritten_syscall (c : Call) : Moves Unwritten (syscall (T := T) env c) := by
  intro w
  unfold syscall
  cases (env w.turn).outcome c with
  | ok => exact ⟨rfl, rfl, rfl⟩
  | error => exact ⟨rfl, rfl, rfl⟩
  | kill => exact ⟨rfl, rfl, rfl⟩

theorem unwritten_dumpMap {α : Type} [DecidableEq α] (text : α → Text) (keys : Interrupt → List (List Event × α))
    (sel : Kernel → Dict α UInt32) : Moves Unwritten (dumpMap (T := T) env text keys sel) := by
  refine Moves.get.bind fun w => (unwritten_syscall .dump).bind fun ok => ?_
  cases ok with
  | true => exact Moves.get.bind fun w' => (Moves.modify fun _ => ⟨rfl, rfl, rfl⟩).bind fun _ => Moves.pure _
  | false => exact Moves.pure none

theorem unwritten_setMapU32 (ip : Text) (v : UInt32) : Moves Unwritten (setMapU32 (T := T) env ip v) := by
  unfold setMapU32
  cases ipToKey ip with
  | none => exact Moves.abort
  | some a =>
    refine (unwritten_syscall .set).bind fun ok => ?_
    cases ok with
    | true => exact Moves.modify fun _ => ⟨rfl, rfl, rfl⟩
    | false => exact Moves.pure ()

theorem unwritten_setMapU32V6 (ip : Text) (v : UInt32) : Moves Unwritten (setMapU32V6 (T := T) env ip v) := by
  unfold setMapU32V6
  cases ipToKeyV6 ip with
  | none => exact Moves.abort
  | some a =>
    refine (unwritten_syscall .set).bind fun ok => ?_
    cases ok with
    | true => exact Moves.modify fun _ => ⟨rfl, rfl, rfl⟩
    | false => exact Moves.pure ()

theorem unwritten_getGlobalTokens : Moves Unwritten (getGlobalTokens (T := T) env) := by
  refine (unwritten_syscall .tokens).bind fun ok => ?_
  cases ok with
  | true => exact Moves.get.bind fun w => Moves.pure _
  | false => exact Moves.pure 0

/-- The reading half of a tick writes no word. -/
theorem unwritten_look [Sub T] [LE T] [DecidableLE T] (now : T) (b : Brain T) :
    Moves Unwritten (look env args fds now b) :=
  moves_look (fun sel => unwritten_dumpMap _ _ sel)
    (fun sel => unwritten_dumpMap _ _ sel) unwritten_getGlobalTokens now b

/-! ## Steps that write -/

/-- A call that does not fail: it goes through, or the process is killed. -/
theorem answered {P : World T → Prop} (hP : ∀ w w', Unwritten w w' → P w → P w') {c : Call}
    (hno : ¬ Fails env c) :
    Triple P (syscall env c) (fun ok w => ok = true ∧ P w) P := by
  intro w hw
  have hcall := hP w _ (@unwritten_syscall T env c w) hw
  unfold syscall at hcall ⊢
  cases ho : (env w.turn).outcome c with
  | ok =>
    rw [ho] at hcall
    exact ⟨rfl, hcall⟩
  | error => exact absurd ⟨w.turn, ho⟩ hno
  | kill =>
    rw [ho] at hcall
    exact hcall

/-- A save puts the tracked blocks into the file; one that is killed leaves the old ones there, or the new. -/
theorem save_covers (hsaves : Untorn env) :
    Triple (Covers B) (saveCheckpoint env B) (fun _ w => Covers B w ∧ w.file = some B) Ahead := by
  have hnew : ∀ w : World T, Covers B w → Covers B { w with file := some B } := by
    intro w hw
    have hheld : Held { ip | ip ∈ B } { w with file := some B } := hw.1.congr rfl (List.Subset.refl _)
    exact ⟨hheld, hheld.mono fun ip hip => ⟨B, rfl, hip⟩⟩
  have hopen : Triple (Covers B)
      (Proc.modify fun w => { w with file := (env w.turn).remains.file w.file (some B) })
      (fun _ w => Covers B { w with file := some B } ∧ ((env w.turn).outcome .save = .kill → Ahead w)) Ahead := by
    refine Triple.modify fun w hw => ⟨hnew w hw, fun hkill => ?_⟩
    change (env w.turn).outcome .save = .kill at hkill
    cases hr : (env w.turn).remains with
    | old => exact hw.2
    | torn => exact absurd hr (hsaves.whole _ hkill)
    | new => exact (hnew w hw).2
  have hcall :
    Triple (fun w : World T => Covers B { w with file := some B } ∧ ((env w.turn).outcome .save = .kill → Ahead w))
      (syscall env .save) (fun ok w => ok = true ∧ Covers B { w with file := some B }) Ahead := by
    intro w hw
    unfold syscall
    cases ho : (env w.turn).outcome .save with
    | ok => exact ⟨rfl, Unwritten.covers ⟨rfl, rfl, rfl⟩ hw.1⟩
    | error => exact absurd ⟨w.turn, ho⟩ hsaves.save
    | kill => exact Unwritten.ahead ⟨rfl, rfl, rfl⟩ (hw.2 ho)
  refine hopen.bind fun _ => hcall.bind fun ok => Triple.and_pre fun hok => ?_
  subst hok
  exact Triple.modify fun w hw => ⟨hw, rfl⟩

theorem words_logLine (w : World T) {l : LogLine} {p : Text × Bool} (hl : l.word = some p) :
    ({ w with log := w.log ++ [l] } : World T).words = w.words ++ [p] := by
  unfold World.words
  rw [List.filterMap_append, List.filterMap_cons_some hl, List.filterMap_nil]

/-- A new block is saved before it is logged. -/
theorem detectOne_covers [Add T] (hsaves : Untorn env) (now : T) (cache : Dict Text UInt32) (ip : Text) :
    Triple (Covers B) (detectOne env args now cache B ip) (fun B' => Covers B') Ahead := by
  refine Triple.ite (fun _ => ?_) fun _ => Triple.pure fun w hw => hw
  set B' := B.set ip (now + args.cooldownSec)
  have hgrow : Triple (Covers B) (metric (T := T) MetricsState.incBlockEvents) (fun _ => Covers B') Ahead :=
    (covers_of_moves (unwritten_metric _)).post fun _ w hw =>
      ⟨hw.1.mono fun ip' hip' => Dict.mem_set.2 (Or.inr hip'), hw.2⟩
  refine Triple.bind hgrow fun _ => (save_covers hsaves).bind fun _ => Triple.bind (Q := fun _ => Covers B') ?_ fun _ =>
    Triple.pure fun w hw => hw
  refine Triple.modify fun w hw => ?_
  obtain ⟨⟨hheld, -⟩, hfile⟩ := hw
  have hafter : Held { ip | ip ∈ B' } { w with log := w.log ++ [.autoBlock ip B'.size] } := by
    intro ip' hr hword
    rw [words_logLine w rfl, Writes.last_append] at hword
    split at hword
    · rename_i heq
      subst heq
      exact Dict.mem_set.2 (Or.inl rfl)
    · exact hheld ip' hr hword
  exact ⟨hafter, hafter.mono fun ip' hip' => ⟨B', hfile, hip'⟩⟩

/-- The loop over the dump saves each block before the next. -/
theorem detect_covers [Add T] (hsaves : Untorn env) (now : T) (dump cache : Dict Text UInt32) :
    Triple (Covers B) (detect env args now dump cache B) (fun B' => Covers B') Ahead :=
  Triple.foldlM (I := fun _ B => Covers B) (fun _ ip _ _ _ => detectOne_covers hsaves now cache ip) B

/-- A delete goes on record, also if it goes wrong. -/
theorem deleteElem_covers {s : Source} {ip : Text} (hs : addressed ip = some s) :
    Triple (Covers B) (deleteElem (T := T) env s) (fun ok w => Covers B w ∧ (ok = false → ¬ Released w ip)) Ahead := by
  have hrecord : ∀ (w : World T) (k : Kernel) (d : Deletion), Covers B w →
      Covers B { w with kernel := k, deletes := w.deletes ++ [(s, d)] } := by
    intro w k d hw
    have hsub : w.deletes ⊆ w.deletes ++ [(s, d)] := List.subset_append_left _ _
    exact ⟨hw.1.congr rfl hsub, hw.2.congr rfl hsub⟩
  have hwrong : ∀ (w : World T) (k : Kernel) (d : Deletion), d ≠ .removed →
      ¬ Released { w with kernel := k, deletes := w.deletes ++ [(s, d)] } ip := by
    intro w k d hd hr
    exact hd (hr (s, d) (List.mem_append_right _ (List.mem_singleton_self _)) hs)
  refine (covers_of_moves (unwritten_syscall .delete)).bind fun ok => ?_
  cases ok with
  | true =>
    intro w hw
    refine ⟨hrecord w _ _ hw, fun hok => ?_⟩
    exact hwrong w _ _ (of_decide_eq_false hok)
  | false =>
    intro w hw
    exact ⟨hrecord w w.kernel _ hw, fun _ => hwrong w w.kernel _ (by decide)⟩

/-- An unblock that fails releases nothing. -/
theorem unblock_covers (ip : Text) :
    Triple (Covers B) (unblock env fds ip) (fun ok w => Covers B w ∧ (ok = false → ¬ Released w ip)) Ahead := by
  unfold unblock delMapU32 delMapU32V6
  refine Triple.ite (fun hcolon => Triple.ite (fun _ => ?_) fun _ => ?_) fun hcolon => ?_
  · cases ha : ipToKeyV6 ip with
    | none => exact Triple.abort fun w hw => hw.2
    | some a =>
      apply deleteElem_covers
      rw [addressed_of_colon hcolon, ha]
      rfl
  · exact Triple.pure fun w hw => ⟨hw, fun h => nomatch h⟩
  · cases ha : ipToKey ip with
    | none => exact Triple.abort fun w hw => hw.2
    | some a =>
      apply deleteElem_covers
      rw [addressed_of_not_colon hcolon, ha]
      rfl

/-- An address may leave the tracked blocks when the log does not say that it is blocked. -/
theorem Covers.erase {ip : Text} (h : Covers B w) (hip : Released w ip → w.words.last ip ≠ some true) :
    Covers (B.erase ip) w := by
  refine ⟨fun ip' hr hword => ?_, h.2⟩
  refine Dict.mem_erase.2 ⟨?_, h.1 ip' hr hword⟩
  rintro rfl
  exact hip hr hword

/-- A release is logged before the file is saved without it. -/
theorem expireOne_covers (ip : Text) : Triple (Covers B) (expireOne env fds B ip) (fun B' => Covers B') Ahead := by
  refine (unblock_covers ip).bind fun ok => ?_
  cases ok with
  | false => exact Triple.pure fun w hw => hw.1.erase fun hr => absurd hr (hw.2 rfl)
  | true =>
    have hmetric :
      Triple (fun w : World T => Covers B w ∧ (true = false → ¬ Released w ip)) (metric MetricsState.incUnblockEvents)
        (fun _ => Covers B) Ahead := (covers_of_moves (unwritten_metric _)).pre fun w hw => hw.1
    refine Triple.bind hmetric fun _ => Triple.bind (Q := fun _ => Covers (B.erase ip)) ?_ fun _ =>
      Triple.pure fun w hw => hw
    refine Triple.modify fun w hw => ?_
    have hwords := words_logLine w (l := .unblock ip (B.size - 1)) rfl
    have hheld : ∀ S, Held S w → Held S { w with log := w.log ++ [.unblock ip (B.size - 1)] } := by
      intro S hS ip' hr hword
      rw [hwords, Writes.last_append] at hword
      split at hword
      · cases hword
      · exact hS ip' hr hword
    refine Covers.erase ⟨hheld _ hw.1, hheld _ hw.2⟩ fun _ => ?_
    rw [hwords, Writes.last_append, if_pos rfl]
    intro h
    cases h

/-- The loop over the tracked blocks saves what is left. -/
theorem expire_covers [LE T] [DecidableLE T] (hsaves : Untorn env) (now : T) :
    Triple (Covers B) (expire env fds now B) (fun B' => Covers B') Ahead := by
  refine Triple.ite (fun _ => Triple.pure fun w hw => hw) fun _ => ?_
  refine (Triple.foldlM (I := fun _ B => Covers B) (fun _ ip _ _ _ => expireOne_covers ip) B).bind fun B' => ?_
  exact (save_covers hsaves).bind fun _ => Triple.pure fun w hw => hw.1

/-! ## Runs -/

theorem unwritten_shieldsUp (g g' : ℤ) : Moves Unwritten (shieldsUp (T := T) g g') :=
  Moves.ite (Moves.bind (unwritten_metric _) fun _ => unwritten_logLine rfl) (Moves.pure ())

theorem unwritten_publish (s : Sight) (B : Dict Text T) : Moves Unwritten (publish args s B) := by
  unfold publish
  refine Moves.bind (unwritten_metric _) fun _ => Moves.bind (unwritten_metric _) fun _ => ?_
  exact Moves.ite (Moves.pure ()) (unwritten_logLine rfl)

/-- **A tick** keeps the file ahead of the log. -/
theorem tick_covers [Add T] [Sub T] [LE T] [DecidableLE T] (hsaves : Untorn env) (now : T) (b : Brain T) :
    Triple (Covers b.blockedUntil) (tick env args fds now b) (fun b' => Covers b'.blockedUntil) Ahead := by
  have hlook : Triple (Covers b.blockedUntil) (look env args fds now b)
      (fun p w => p.1.blockedUntil = b.blockedUntil ∧ Covers b.blockedUntil w) Ahead :=
    ((ends_look now b).and (covers_of_moves (unwritten_look now b))).weaken (fun _ hw => ⟨trivial, hw⟩)
      (fun _ _ hw => ⟨hw.1.2, hw.2⟩) fun _ hw => hw.2
  refine hlook.bind fun p => Triple.and_pre fun hp => ?_
  rw [← hp]
  refine (covers_of_moves (unwritten_shieldsUp _ _)).bind fun _ => ?_
  refine (detect_covers hsaves now _ _).bind fun B => (detect_covers hsaves now _ _).bind fun B => ?_
  refine (expire_covers hsaves now).bind fun B => ?_
  exact (covers_of_moves (unwritten_publish p.2 B)).bind fun _ => Triple.pure fun w hw => hw

theorem unwritten_reapply (ip : Text) : Moves Unwritten (reapply (T := T) env fds ip) := by
  unfold reapply
  exact Moves.ite (Moves.ite (unwritten_setMapU32V6 ip 1) (Moves.pure ())) (unwritten_setMapU32 ip 1)

/-- **A start** reads what the log has on record. -/
theorem start_covers [Zero T] (hsaves : Untorn env) :
    Triple Ahead (start (T := T) env fds) (fun b => Covers b.blockedUntil) Ahead := by
  refine Triple.bind (Q := fun _ => Ahead) ?_ fun _ => ?_
  · exact Triple.modify fun w hw => Unwritten.ahead ⟨rfl, rfl, rfl⟩ hw
  refine Triple.bind (Q := fun B => Covers B) ?_ fun B => ?_
  · unfold loadCheckpoint
    refine (answered (fun _ _ h hw => h.ahead hw) hsaves.load).bind fun ok => Triple.and_pre fun hok => ?_
    subst hok
    intro w hw
    refine ⟨fun ip hr hword => ?_, hw⟩
    obtain ⟨d, hd, hip⟩ := hw ip hr hword
    show ip ∈ w.file.getD Dict.empty
    rw [hd]
    exact hip
  refine Triple.bind (Q := fun _ => Covers B) ?_ fun _ => Triple.pure fun w hw => hw
  exact covers_of_moves (Moves.foldlM (fun _ ip => unwritten_reapply ip) ())

/-- **The file is ahead of the log** at every point of a run. Let no save and no load fail, and no save be killed
between its open, which truncates the file, and its last write; the process may be killed anywhere else.
Then every address whose last line in the log is an `AUTO_BLOCK` is in the checkpoint file and among the
tracked blocks, unless a delete of it from its blacklist has gone wrong. -/
theorem ahead_run [Add T] [Sub T] [Zero T] [LE T] [DecidableLE T] (hsaves : Untorn env) (s₀ : System T)
    (hproc : s₀.proc = none) (hfile : ∀ ip, s₀.world.words.last ip = some true → ∃ d, s₀.world.file = some d ∧ ip ∈ d)
    (acts : List (SystemAct T)) (n : ℕ) (hn : n ≤ acts.length) (ip : Text)
    (hreleased : Released (sysAt env args fds s₀ acts n).world ip)
    (hword : (sysAt env args fds s₀ acts n).world.words.last ip = some true) :
    (∃ d, (sysAt env args fds s₀ acts n).world.file = some d ∧ ip ∈ d) ∧
      ∀ b, (sysAt env args fds s₀ acts n).proc = some b → ip ∈ b.blockedUntil := by
  have hrun : ∀ m ≤ acts.length, (sysAt env args fds s₀ acts m).Holds Ahead fun b => Covers b.blockedUntil := by
    intro m hm
    induction m with
    | zero =>
      rw [sysAt_zero, System.Holds, hproc]
      exact fun ip _ hword => hfile ip hword
    | succ m ih =>
      rw [sysAt_succ env args fds s₀ acts hm]
      refine System.holds_step (start_covers hsaves) (fun now b => tick_covers hsaves now b) (fun b w hw => hw.2) ?_
        (ih (by omega))
      exact fun cpus t _ w hw => Unwritten.ahead ⟨rfl, rfl, rfl⟩ hw
  have hholds := hrun n hn
  unfold System.Holds at hholds
  cases hp : (sysAt env args fds s₀ acts n).proc with
  | none =>
    rw [hp] at hholds
    exact ⟨hholds ip hreleased hword, fun b hb => nomatch hb⟩
  | some b =>
    rw [hp] at hholds
    refine ⟨hholds.2 ip hreleased hword, fun b' hb => ?_⟩
    cases hb
    exact hholds.1 ip hreleased hword

/-- In its tenth system call a brain is killed if it is about to save; every other call goes through. -/
def tenthSave (n : ℕ) : Call → Outcome
  | .save => if n = 9 then .kill else .ok
  | _ => .ok

/-- Each dump looks up the victim and `10.0.1.6`, and the tenth call does not open the checkpoint file. -/
def cutShort : ℕ → Interrupt := fun n =>
  { calm n with
    keys := [([], 0x0501000A), ([], 0x0601000A)]
    outcome := tenthSave n }

/-- The victim and `10.0.1.6` are on the blacklist, and the brain has not run yet. -/
def bothListed : System ℕ :=
  { victimListed ℕ with
    world := { (victimListed ℕ).world with
      kernel := (victimListed ℕ).world.kernel.step (.v4 (.blacklist 0x0601000A 1)) } }

/-- The brain starts again after the tick in which it is killed. -/
def startedAgain : List (SystemAct ℕ) := [.start, .tick 100, .start, .tick 101]

/-- The victim is saved and logged, then the save of the other block is killed. -/
theorem ahead_run_cutShort :
    (sysAt cutShort thirtySeconds allOpen bothListed startedAgain 2).proc = none ∧
      (∃ d, (sysAt cutShort thirtySeconds allOpen bothListed startedAgain 4).world.file = some d ∧ victim.text ∈ d) ∧
      ∀ b, (sysAt cutShort thirtySeconds allOpen bothListed startedAgain 4).proc = some b →
        victim.text ∈ b.blockedUntil := by
  have hdeletes : (sysAt cutShort thirtySeconds allOpen bothListed startedAgain 4).world.deletes = [] := by
    decide +kernel
  refine ⟨Option.isNone_iff_eq_none.1 (by decide +kernel), ahead_run ⟨?_, ?_, ?_⟩ bothListed rfl ?_
    startedAgain 4 (by decide) victim.text ?_ (by decide +kernel)⟩
  · rintro ⟨n, h⟩
    change (if n = 9 then Outcome.kill else Outcome.ok) = .error at h
    split at h <;> cases h
  · rintro ⟨n, h⟩
    cases h
  · intro n _ htorn
    cases htorn
  · intro ip hword
    cases hword
  · intro d hd
    rw [hdeletes] at hd
    cases hd

end FluxGuard
