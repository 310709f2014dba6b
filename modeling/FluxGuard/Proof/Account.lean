import FluxGuard.Data.Journal
import FluxGuard.Proof.Lifecycle

/-!
# The books of the brain

Three records say what the brain has blocked: its dictionary, the counters of the metrics and
the JSON log. `Books` ties them to one journal of the tracked addresses. Its recorded entries
are the lines of the log; a delete that fails takes an address out of the dictionary without a
line or a count.

* `Silent`: what leaves the log, the metrics and the deletes alone.
* `books_tick`: a tick keeps the books.
* `exact_accounting`: so do a start and any number of ticks.
-/

namespace FluxGuard

variable {T : Type}

/-- The source that an address text is parsed to. -/
def addressed (ip : Text) : Option Source :=
  if ':' ∈ ip then (ipToKeyV6 ip).map .v6 else (ipToKey ip).map .v4

/-- The journal entry of a log line. -/
def LogLine.entry : LogLine → Option (Entry Text)
  | .autoBlock ip count => some (.added ip count)
  | .unblock ip count => some (.removed ip count)
  | .shieldsUp _ | .tick .. => none

/-- A delete that raised an `OSError`. -/
def failed (d : Source × Deletion) : Bool := decide (d.2 ≠ .removed)

/-- The three records agree on a journal `J` that began with the addresses `K₀` in the world `w₀`. -/
structure Books (K₀ : Finset Text) (w₀ : World T) (J : List (Entry Text)) (B : Dict Text T) (w : World T) : Prop where
  fits : Journal.Fits K₀ J
  keys : Journal.replay K₀ J = B.keys.toFinset
  /-- The lines of the log are the recorded entries. -/
  log : ∃ lines, w.log = w₀.log ++ lines ∧ lines.filterMap LogLine.entry = Journal.recorded J
  /-- The failed deletes are the lost entries. -/
  deletes : ∃ ds, w.deletes = w₀.deletes ++ ds ∧
    List.Forall₂ (fun ip d => addressed ip = some d.1) (J.filterMap Entry.lostKey) (ds.filter failed)
  blockEvents : w.metrics.blockEvents = w₀.metrics.blockEvents + J.countP Entry.isAdded
  unblockEvents : w.metrics.unblockEvents = w₀.metrics.unblockEvents + J.countP Entry.isRemoved

/-! ## What is silent -/

/-- A world with these records. -/
structure World.At (l : List LogLine) (ds : List (Source × Deletion)) (m : MetricsState) (w : World T) : Prop where
  log : w.log = l
  deletes : w.deletes = ds
  metrics : w.metrics = m

open Proc

/-- A program that leaves the records as they are. -/
def Silent {α : Type} (x : Proc (World T) α) : Prop :=
  ∀ l ds m, Triple (World.At l ds m) x (fun _ => World.At l ds m) fun _ => True

/-- The log, the deletes and the metrics at the start may be given a name. -/
theorem at_pre {α : Type} {P : World T → Prop} {x : Proc (World T) α} {Q : α → World T → Prop} {C : World T → Prop}
    (h : ∀ w₁, P w₁ → Triple (World.At w₁.log w₁.deletes w₁.metrics) x Q C) : Triple P x Q C :=
  fun w hw => h w hw w ⟨rfl, rfl, rfl⟩

namespace Silent

variable {α β : Type} {x : Proc (World T) α} {env : ℕ → Interrupt}

theorem pure (a : α) : Silent (Pure.pure a : Proc (World T) α) := fun _ _ _ => Triple.pure fun _ h => h

theorem abort : Silent (Proc.abort : Proc (World T) α) := fun _ _ _ => Triple.abort fun _ _ => trivial

/-- Of two silent parts the whole is silent. -/
theorem bind {f : α → Proc (World T) β} (hx : Silent x) (hf : ∀ a, Silent (f a)) : Silent (x >>= f) :=
  fun l ds m => (hx l ds m).bind fun a => hf a l ds m

theorem get : Silent (Proc.get : Proc (World T) (World T)) := fun _ _ _ _ hw => hw

theorem kernel (f : Kernel → Kernel) : Silent (Proc.modify fun w : World T => { w with kernel := f w.kernel }) :=
  fun _ _ _ => Triple.modify fun _ h => ⟨h.log, h.deletes, h.metrics⟩

/-- A loop over silent rounds is silent. -/
theorem foldlM {l : List α} {f : β → α → Proc (World T) β} (hf : ∀ b a, Silent (f b a)) (b : β) :
    Silent (l.foldlM f b) := by
  induction l generalizing b with
  | nil => exact pure b
  | cons a l ih =>
    rw [List.foldlM_cons]
    exact (hf b a).bind ih

theorem syscall (c : Call) : Silent (T := T) (FluxGuard.syscall env c) := by
  intro l ds m w hw
  unfold FluxGuard.syscall
  cases (env w.turn).outcome c with
  | ok => exact ⟨hw.log, hw.deletes, hw.metrics⟩
  | error => exact ⟨hw.log, hw.deletes, hw.metrics⟩
  | kill => exact trivial

/-- A walk over a map logs nothing and counts nothing. -/
theorem dumpMap {α : Type} [DecidableEq α] (text : α → Text) (keys : Interrupt → List (List Event × α))
    (sel : Kernel → Dict α UInt32) : Silent (T := T) (FluxGuard.dumpMap env text keys sel) := by
  refine get.bind fun w => (syscall .dump).bind fun ok => ?_
  cases ok with
  | true => exact get.bind fun w' => (kernel fun _ => _).bind fun _ => pure _
  | false => exact pure none

theorem dumpMapU32 (sel : Kernel → Dict Ip4 UInt32) : Silent (T := T) (FluxGuard.dumpMapU32 env sel) := dumpMap _ _ _

theorem dumpMapU32V6 (sel : Kernel → Dict Ip6 UInt32) :
    Silent (T := T) (FluxGuard.dumpMapU32V6 env sel) := dumpMap _ _ _

theorem getGlobalTokens : Silent (T := T) (FluxGuard.getGlobalTokens env) := by
  refine (syscall .tokens).bind fun ok => ?_
  cases ok with
  | true => exact get.bind fun w => pure _
  | false => exact pure 0

theorem setMapU32 (ip : Text) (v : UInt32) : Silent (T := T) (FluxGuard.setMapU32 env ip v) := by
  unfold FluxGuard.setMapU32
  cases ipToKey ip with
  | none => exact abort
  | some a =>
    refine (syscall .set).bind fun ok => ?_
    cases ok with
    | true => exact kernel fun k => k.step (.v4 (.blacklist a v))
    | false => exact pure ()

theorem setMapU32V6 (ip : Text) (v : UInt32) : Silent (T := T) (FluxGuard.setMapU32V6 env ip v) := by
  unfold FluxGuard.setMapU32V6
  cases ipToKeyV6 ip with
  | none => exact abort
  | some a =>
    refine (syscall .set).bind fun ok => ?_
    cases ok with
    | true => exact kernel fun k => k.step (.v6 (.blacklist a v))
    | false => exact pure ()

theorem saveCheckpoint (B : Dict Text T) : Silent (FluxGuard.saveCheckpoint env B) := by
  have hfile : ∀ f : World T → Option (Dict Text T), Silent (Proc.modify fun w => { w with file := f w }) :=
    fun _ _ _ _ => Triple.modify fun _ h => ⟨h.log, h.deletes, h.metrics⟩
  refine (hfile _).bind fun _ => (syscall .save).bind fun ok => ?_
  cases ok with
  | true => exact hfile fun _ => some B
  | false => exact pure ()

/-- Nor does the refresh of the allowlist cache. -/
theorem refreshAllowlist [Sub T] [LE T] [DecidableLE T] (args : Args T) (fds : Fds) (now : T) (b : Brain T) :
    Silent (FluxGuard.refreshAllowlist env args fds now b) := by
  unfold FluxGuard.refreshAllowlist
  split
  · refine (dumpMapU32 _).bind fun r => ?_
    cases r with
    | none => exact pure b
    | some cache =>
      dsimp only
      split
      · refine (dumpMapU32V6 _).bind fun r => ?_
        cases r with
        | none => exact pure _
        | some cacheV6 => exact pure _
      · exact pure _
  · exact pure b

theorem dumpOpened (fd : Option ℕ) (sel : Kernel → Dict Ip6 UInt32) :
    Silent (T := T) (FluxGuard.dumpOpened env fd sel) := by
  unfold FluxGuard.dumpOpened
  split
  · exact dumpMapU32V6 sel
  · exact pure _

/-- The four dumps at the start of a tick are silent. -/
theorem readMaps (fds : Fds) : Silent (T := T) (FluxGuard.readMaps env fds) := by
  refine (dumpMapU32 _).bind fun r => ?_
  cases r with
  | none => exact pure _
  | some blacklist =>
    refine (dumpMapU32 _).bind fun r => ?_
    cases r with
    | none => exact pure _
    | some counts =>
      refine (dumpOpened _ _).bind fun r => ?_
      cases r with
      | none => exact pure _
      | some blacklistV6 =>
        refine (dumpOpened _ _).bind fun r => ?_
        cases r with
        | none => exact pure _
        | some countsV6 => exact getGlobalTokens.bind fun _ => pure _

/-- The reading half of a tick is silent. -/
theorem look [Sub T] [LE T] [DecidableLE T] (args : Args T) (fds : Fds) (now : T) (b : Brain T) :
    Silent (FluxGuard.look env args fds now b) :=
  (refreshAllowlist args fds now b).bind fun _ => (readMaps fds).bind fun _ => pure _

end Silent

/-! ## One entry -/

section Entries

variable {K₀ : Finset Text} {w₀ w₁ w : World T} {J : List (Entry Text)} {B : Dict Text T}

/-- A block set is an address added to those tracked. -/
theorem keys_set (B : Dict Text T) (ip : Text) (D : T) : (B.set ip D).keys.toFinset = insert ip B.keys.toFinset := by
  ext a
  rw [List.mem_toFinset, Finset.mem_insert, List.mem_toFinset]
  exact Dict.mem_set

/-- A block erased is an address taken from them. -/
theorem keys_erase (B : Dict Text T) (ip : Text) : (B.erase ip).keys.toFinset = B.keys.toFinset.erase ip := by
  ext a
  rw [List.mem_toFinset, Finset.mem_erase, List.mem_toFinset]
  exact Dict.mem_erase

/-- The dict is as large as the set of its keys. -/
theorem size_eq_card (B : Dict Text T) : B.size = B.keys.toFinset.card := by
  rw [Dict.size_eq_keys]
  exact (List.toFinset_card_of_nodup B.nodup).symm

/-- Lines that are no entry, and other metrics, are none of the books' business. -/
theorem Books.congr (h : Books K₀ w₀ J B w₁) (lines : List LogLine) {m : MetricsState}
    (hw : World.At (w₁.log ++ lines) w₁.deletes m w) (hlines : lines.filterMap LogLine.entry = [])
    (hb : m.blockEvents = w₁.metrics.blockEvents) (hu : m.unblockEvents = w₁.metrics.unblockEvents) :
    Books K₀ w₀ J B w where
  fits := h.fits
  keys := h.keys
  log := by
    obtain ⟨old, hlog, hentries⟩ := h.log
    refine ⟨old ++ lines, ?_, ?_⟩
    · rw [hw.log, hlog, List.append_assoc]
    · rw [List.filterMap_append, hlines, List.append_nil, hentries]
  deletes := by rw [hw.deletes]; exact h.deletes
  blockEvents := by rw [hw.metrics, hb, h.blockEvents]
  unblockEvents := by rw [hw.metrics, hu, h.unblockEvents]

/-- The books are only about the two block counters of the metrics. -/
theorem Books.congr_metrics (h : Books K₀ w₀ J B w₁) {m : MetricsState} (hw : World.At w₁.log w₁.deletes m w)
    (hb : m.blockEvents = w₁.metrics.blockEvents) (hu : m.unblockEvents = w₁.metrics.unblockEvents) :
    Books K₀ w₀ J B w := by
  refine h.congr [] ?_ rfl hb hu
  rw [List.append_nil]
  exact hw

/-- A detected block: one key, one count and one line more. -/
theorem Books.add (h : Books K₀ w₀ J B w₁) {ip : Text} (hip : ip ∉ B) (D : T)
    (hw : World.At (w₁.log ++ [.autoBlock ip (B.set ip D).size]) w₁.deletes w₁.metrics.incBlockEvents w) :
    Books K₀ w₀ (J ++ [.added ip (B.set ip D).size]) (B.set ip D) w where
  fits := by
    refine Journal.fits_append h.fits ⟨⟨?_, ?_⟩, trivial⟩
    · rw [h.keys, List.mem_toFinset]
      exact hip
    · rw [h.keys, ← keys_set B ip D, ← size_eq_card]
  keys := by rw [Journal.replay_append, h.keys, keys_set]; rfl
  log := by
    obtain ⟨old, hlog, hentries⟩ := h.log
    refine ⟨old ++ [.autoBlock ip (B.set ip D).size], ?_, ?_⟩
    · rw [hw.log, hlog, List.append_assoc]
    · rw [List.filterMap_append, hentries, Journal.recorded, Journal.recorded, List.filter_append]
      rfl
  deletes := by
    rw [hw.deletes, List.filterMap_append,
      show [Entry.added ip ((B.set ip D).size : ℤ)].filterMap Entry.lostKey = [] from rfl,
      List.append_nil]
    exact h.deletes
  blockEvents := by
    rw [hw.metrics, List.countP_append, MetricsState.incBlockEvents, h.blockEvents]
    rfl
  unblockEvents := by
    rw [hw.metrics, List.countP_append, MetricsState.incBlockEvents, h.unblockEvents]
    rfl

/-- A delete that went through: one key less, one count and one line more. -/
theorem Books.remove (h : Books K₀ w₀ J B w₁) {ip : Text} (hip : ip ∈ B) {ds : List (Source × Deletion)}
    (hds : ds.filter failed = [])
    (hw : World.At (w₁.log ++ [.unblock ip (B.size - 1)]) (w₁.deletes ++ ds) w₁.metrics.incUnblockEvents w) :
    Books K₀ w₀ (J ++ [.removed ip (B.size - 1)]) (B.erase ip) w where
  fits := by
    refine Journal.fits_append h.fits ⟨⟨?_, ?_⟩, trivial⟩
    · rw [h.keys, List.mem_toFinset]
      exact hip
    · have hcard := Finset.card_erase_add_one (List.mem_toFinset.2 hip : ip ∈ B.keys.toFinset)
      rw [h.keys, size_eq_card]
      omega
  keys := by rw [Journal.replay_append, h.keys, keys_erase]; rfl
  log := by
    obtain ⟨old, hlog, hentries⟩ := h.log
    refine ⟨old ++ [.unblock ip (B.size - 1)], ?_, ?_⟩
    · rw [hw.log, hlog, List.append_assoc]
    · rw [List.filterMap_append, hentries, Journal.recorded, Journal.recorded, List.filter_append]
      rfl
  deletes := by
    obtain ⟨old, hdel, hlost⟩ := h.deletes
    refine ⟨old ++ ds, ?_, ?_⟩
    · rw [hw.deletes, hdel, List.append_assoc]
    · rw [List.filterMap_append, show [Entry.removed ip ((B.size : ℤ) - 1)].filterMap Entry.lostKey = [] from rfl,
        List.filter_append, hds, List.append_nil, List.append_nil]
      exact hlost
  blockEvents := by
    rw [hw.metrics, List.countP_append, MetricsState.incUnblockEvents, h.blockEvents]
    rfl
  unblockEvents := by
    rw [hw.metrics, List.countP_append, MetricsState.incUnblockEvents, h.unblockEvents]
    rfl

/-- A delete that failed: one key less, and nothing on record. -/
theorem Books.lose (h : Books K₀ w₀ J B w₁) {ip : Text} (hip : ip ∈ B) {d : Source × Deletion}
    (haddr : addressed ip = some d.1) (hd : failed d = true)
    (hw : World.At w₁.log (w₁.deletes ++ [d]) w₁.metrics w) : Books K₀ w₀ (J ++ [.lost ip]) (B.erase ip) w where
  fits := by
    refine Journal.fits_append h.fits ⟨?_, trivial⟩
    rw [h.keys]
    exact List.mem_toFinset.2 hip
  keys := by rw [Journal.replay_append, h.keys, keys_erase]; rfl
  log := by
    obtain ⟨old, hlog, hentries⟩ := h.log
    refine ⟨old, by rw [hw.log, hlog], ?_⟩
    rw [hentries, Journal.recorded, Journal.recorded, List.filter_append]
    exact (List.append_nil _).symm
  deletes := by
    obtain ⟨old, hdel, hlost⟩ := h.deletes
    refine ⟨old ++ [d], ?_, ?_⟩
    · rw [hw.deletes, hdel, List.append_assoc]
    · rw [List.filterMap_append, List.filter_append, List.filter_cons_of_pos hd]
      exact List.rel_append hlost (.cons haddr .nil)
  blockEvents := by rw [hw.metrics, List.countP_append, h.blockEvents]; rfl
  unblockEvents := by rw [hw.metrics, List.countP_append, h.unblockEvents]; rfl

end Entries

/-! ## A tick -/

/-- The records agree on some journal. -/
def Booked (K₀ : Finset Text) (w₀ : World T) (B : Dict Text T) (w : World T) : Prop := ∃ J, Books K₀ w₀ J B w

section Tick

variable {env : ℕ → Interrupt} {args : Args T} {fds : Fds} {K₀ : Finset Text} {w₀ : World T} {B : Dict Text T}

/-- What is silent leaves the books in order. -/
theorem booked_silent {α : Type} {x : Proc (World T) α} (hx : Silent x) :
    Triple (Booked K₀ w₀ B) x (fun _ => Booked K₀ w₀ B) fun _ => True := by
  refine at_pre fun w₁ ⟨J, h⟩ => (hx _ _ _).post fun _ w hw => ⟨J, ?_⟩
  exact h.congr_metrics hw rfl rfl

/-- A metric changes the metrics and nothing else of the three. -/
theorem at_metric {l : List LogLine} {ds : List (Source × Deletion)} {m : MetricsState}
    (f : MetricsState → MetricsState)
    {C : World T → Prop} : Triple (World.At l ds m) (metric f) (fun _ => World.At l ds (f m)) C :=
  Triple.modify fun _ hw => ⟨hw.log, hw.deletes, by dsimp only; rw [hw.metrics]⟩

/-- A line is put at the end of the log. -/
theorem at_logLine {l : List LogLine} {ds : List (Source × Deletion)} {m : MetricsState} (line : LogLine)
    {C : World T → Prop} : Triple (World.At l ds m) (logLine line) (fun _ => World.At (l ++ [line]) ds m) C :=
  Triple.modify fun _ hw => ⟨by dsimp only; rw [hw.log], hw.deletes, hw.metrics⟩

/-- The shields line is in neither book. -/
theorem booked_shieldsUp (globalTokens prevGlobalTokens : ℤ) :
    Triple (Booked K₀ w₀ B) (shieldsUp globalTokens prevGlobalTokens) (fun _ => Booked K₀ w₀ B) fun _ => True := by
  unfold shieldsUp
  refine Triple.ite (fun _ => ?_) fun _ => Triple.pure fun _ h => h
  refine at_pre fun w₁ ⟨J, h⟩ => (at_metric _).bind fun _ => (at_logLine _).post fun _ w hw => ⟨J, ?_⟩
  exact h.congr _ hw rfl rfl rfl

/-- A new block is one `AUTO_BLOCK` line and one block counted. -/
theorem booked_detectOne [Add T] (now : T) (cache : Dict Text UInt32) (ip : Text) :
    Triple (Booked K₀ w₀ B) (detectOne env args now cache B ip) (fun B' => Booked K₀ w₀ B') fun _ => True := by
  unfold detectOne
  refine Triple.ite (fun hnew => ?_) fun _ => Triple.pure fun _ h => h
  refine at_pre fun w₁ ⟨J, h⟩ => (at_metric _).bind fun _ => (Silent.saveCheckpoint _ _ _ _).bind fun _ =>
    (at_logLine _).bind fun _ => Triple.pure fun w hw => ?_
  exact ⟨_, h.add hnew.1 _ hw⟩

/-- The loop over the dump keeps the books, whatever it finds. -/
theorem booked_detect [Add T] (now : T) (dump cache : Dict Text UInt32) :
    Triple (Booked K₀ w₀ B) (detect env args now dump cache B) (fun B' => Booked K₀ w₀ B') fun _ => True :=
  Triple.foldlM (I := fun _ B' => Booked K₀ w₀ B') (fun _ ip _ _ _ => booked_detectOne now cache ip) B

/-- A delete of an address: it goes through and all its system calls do, or one of them fails. -/
theorem at_unblock {l : List LogLine} {ds : List (Source × Deletion)} {m : MetricsState} (ip : Text) :
    Triple (World.At l ds m) (unblock (T := T) env fds ip)
      (fun ok w => if ok = true then ∃ new, new.filter failed = [] ∧ World.At l (ds ++ new) m w
        else ∃ d, addressed ip = some d.1 ∧ failed d = true ∧ World.At l (ds ++ [d]) m w)
      fun _ => True := by
  -- either family: the system call answers, or it raises
  have hdelete : ∀ s, addressed ip = some s → Triple (World.At l ds m) (deleteElem (T := T) env s)
      (fun ok w => if ok = true then ∃ new, new.filter failed = [] ∧ World.At l (ds ++ new) m w
        else ∃ d, addressed ip = some d.1 ∧ failed d = true ∧ World.At l (ds ++ [d]) m w)
      fun _ => True := by
    intro s hs
    refine (Silent.syscall _ _ _ _).bind fun ok => ?_
    cases ok with
    | true =>
      intro w hw
      have hat : World.At l (ds ++ [(s, w.kernel.deletion s)]) m
          { w with kernel := w.kernel.step (unblacklist s), deletes := w.deletes ++ [(s, w.kernel.deletion s)] } :=
        ⟨hw.log, by dsimp only; rw [hw.deletes], hw.metrics⟩
      -- the call answers, and the kernel may still not have had the key
      by_cases hd : w.kernel.deletion s = .removed
      · show if decide (w.kernel.deletion s = .removed) = true then _ else _
        rw [if_pos (decide_eq_true hd)]
        exact ⟨_, by simp [failed, hd], hat⟩
      · show if decide (w.kernel.deletion s = .removed) = true then _ else _
        rw [if_neg (by rw [decide_eq_true_eq]; exact hd)]
        exact ⟨_, hs, decide_eq_true hd, hat⟩
    -- a failed call is a failed delete of a key that may still be there
    | false =>
      intro w hw
      exact ⟨(s, .failed), hs, rfl, hw.log, by dsimp only; rw [hw.deletes], hw.metrics⟩
  unfold unblock
  -- with a colon it is taken for IPv6; a text that does not parse raises before any delete
  by_cases hcolon : ':' ∈ ip
  · rw [if_pos hcolon]
    refine Triple.ite (fun _ => ?_) fun _ => Triple.pure fun w hw => ?_
    · unfold delMapU32V6
      cases ha : ipToKeyV6 ip with
      | none => exact Triple.abort fun _ _ => trivial
      | some a => exact hdelete _ (by rw [addressed, if_pos hcolon, ha]; rfl)
    · rw [if_pos rfl]
      exact ⟨[], rfl, by rw [List.append_nil]; exact hw⟩
  · rw [if_neg hcolon]
    unfold delMapU32
    cases ha : ipToKey ip with
    | none => exact Triple.abort fun _ _ => trivial
    | some a => exact hdelete _ (by rw [addressed, if_neg hcolon, ha]; rfl)

/-- A block expired is one delete, counted and logged as it went. -/
theorem booked_expireOne {ip : Text} (hip : ip ∈ B) :
    Triple (Booked K₀ w₀ B) (expireOne env fds B ip) (fun B' w => B' = B.erase ip ∧ Booked K₀ w₀ B' w)
      fun _ => True := by
  refine at_pre fun w₁ ⟨J, h⟩ => (at_unblock ip).bind fun ok => ?_
  cases ok with
  -- the delete went through: the event is counted, then logged
  | true =>
    refine Triple.pre (P := fun w => ∃ new : List (Source × Deletion), new.filter failed = [] ∧
      World.At w₁.log (w₁.deletes ++ new) w₁.metrics w) (Triple.exists_pre fun new => Triple.and_pre fun hnew => ?_)
      fun w hw => by rwa [if_pos rfl] at hw
    exact (at_metric _).bind fun _ => (at_logLine _).bind fun _ => Triple.pure fun w hw =>
      ⟨rfl, _, h.remove hip hnew hw⟩
  -- the delete failed: the address is dropped from the tracked ones all the same
  | false =>
    refine Triple.pre (P := fun w => ∃ d, addressed ip = some d.1 ∧ failed d = true ∧
      World.At w₁.log (w₁.deletes ++ [d]) w₁.metrics w) ?_ fun w hw => by rwa [if_neg Bool.false_ne_true] at hw
    exact Triple.pure fun w ⟨d, haddr, hd, hw⟩ => ⟨rfl, _, h.lose hip haddr hd hw⟩

/-- The loop over the tracked blocks keeps the books. -/
theorem booked_expire [LE T] [DecidableLE T] (now : T) :
    Triple (Booked K₀ w₀ B) (expire env fds now B) (fun B' => Booked K₀ w₀ B') fun _ => True := by
  unfold expire
  refine Triple.ite (fun _ => Triple.pure fun _ h => h) fun _ => ?_
  -- what is due and not yet deleted is still tracked
  have hloop := Triple.foldlM (l := expired now B) (f := expireOne (T := T) env fds) (C := fun _ => True)
    (I := fun done B' w => (∀ a ∈ B, a ∉ done → a ∈ B') ∧ Booked K₀ w₀ B' w) ?_ B
  · refine Triple.bind (hloop.pre fun w hw => ⟨fun a ha _ => ha, hw⟩) fun B' => ?_
    refine Triple.and_pre fun _ => ?_
    exact (booked_silent (Silent.saveCheckpoint B')).bind fun _ => Triple.pure fun _ h => h
  · intro done ip rest B' hl
    have hnodup := nodup_expired now B
    rw [hl] at hnodup
    have hdone : ip ∉ done := fun h => List.disjoint_of_nodup_append hnodup h List.mem_cons_self
    have hmem : ip ∈ B := by
      obtain ⟨D, hD, -⟩ := (mem_expired now).1 (show ip ∈ expired now B by rw [hl]; simp)
      exact Dict.mem_iff_isSome.2 (by rw [hD]; rfl)
    refine Triple.and_pre fun hkeep => (booked_expireOne (hkeep ip hmem hdone)).post fun B'' w hw => ?_
    obtain ⟨rfl, hbooked⟩ := hw
    -- the others are still to come, and only this one is gone
    refine ⟨?_, hbooked⟩
    intro a ha hnot
    rw [List.mem_append, not_or, List.mem_singleton] at hnot
    exact Dict.mem_erase.2 ⟨hnot.2, hkeep a ha hnot.1⟩

/-- What a tick publishes is not in the books. -/
theorem booked_publish (s : Sight) :
    Triple (Booked K₀ w₀ B) (publish args s B) (fun _ => Booked K₀ w₀ B) fun _ => True := by
  unfold publish
  refine at_pre fun w₁ ⟨J, h⟩ => (at_metric _).bind fun _ => (at_metric _).bind fun _ => ?_
  refine Triple.ite (fun _ => Triple.pure fun w hw => ⟨J, ?_⟩) fun _ => (at_logLine _).post fun _ w hw => ⟨J, ?_⟩
  · exact h.congr_metrics hw rfl rfl
  · exact h.congr _ hw rfl rfl rfl

variable [Add T] [LE T] [DecidableLE T]

/-- The acting half of a tick keeps the books. -/
theorem booked_act (now : T) (b : Brain T) (s : Sight) :
    Triple (Booked K₀ w₀ b.blockedUntil) (act env args fds now b s) (fun b' => Booked K₀ w₀ b'.blockedUntil)
      fun _ => True :=
  (booked_shieldsUp _ _).bind fun _ => (booked_detect now _ _).bind fun _ => (booked_detect now _ _).bind fun _ =>
    (booked_expire now).bind fun _ => (booked_publish s).bind fun _ => Triple.pure fun _ h => h

variable (env args fds) in
/-- **A tick keeps the books.** -/
theorem books_tick [Sub T] (now : T) (b : Brain T) :
    Triple (Booked K₀ w₀ b.blockedUntil) (tick env args fds now b) (fun b' => Booked K₀ w₀ b'.blockedUntil)
      fun _ => True := by
  -- reading the maps writes no line and no counter; acting on them does
  refine Triple.bind (Q := fun r w => r.1.blockedUntil = b.blockedUntil ∧ Booked K₀ w₀ b.blockedUntil w) ?_
    fun r => Triple.and_pre fun hr => ?_
  · intro w hw
    have hquiet : Silent (look env args fds now b) := Silent.look args fds now b
    have hknown : Known w.file w.deletes ∅ w := ⟨rfl, rfl, fun _ h => (nomatch h)⟩
    have hsilent := booked_silent hquiet w hw
    have hlook := look_spec args fds (Spared.empty env) now b w hknown
    cases hx : look env args fds now b w with
    | mk w' r =>
      rw [hx] at hsilent hlook
      cases r with
      | some r => exact ⟨hlook.2.2, hsilent⟩
      | none => exact trivial
  · rw [← hr]
    exact booked_act now r.1 r.2

end Tick

/-! ## A run of the process -/

section Run

variable {env : ℕ → Interrupt} {args : Args T} {fds : Fds}

/-- The loop of `monitor`, at the given times. -/
def ticks [Add T] [Sub T] [LE T] [DecidableLE T] (env : ℕ → Interrupt) (args : Args T) (fds : Fds) (nows : List T)
    (b : Brain T) : Proc (World T) (Brain T) :=
  nows.foldlM (fun b now => tick env args fds now b) b

variable (env fds) in
/-- A start begins new metrics, and leaves the log and the deletes as they are. -/
theorem at_start [Zero T] (w : World T) :
    Post (fun _ => World.At w.log w.deletes MetricsState.init) (fun _ => True) (start env fds w) := by
  have hreapply : ∀ ip, Silent (T := T) (reapply env fds ip) := by
    intro ip
    unfold reapply
    split
    · split
      · exact Silent.setMapU32V6 ip 1
      · exact Silent.pure ()
    · exact Silent.setMapU32 ip 1
  have hload : Silent (T := T) (loadCheckpoint env) := by
    refine (Silent.syscall .load).bind fun ok => ?_
    cases ok with
    | true => exact Silent.get.bind fun _ => Silent.pure _
    | false => exact Silent.pure _
  -- the metrics are new, and restoring the blocks touches none of the records
  have htriple : Triple (World.At w.log w.deletes w.metrics) (start (T := T) env fds)
      (fun _ => World.At w.log w.deletes MetricsState.init) fun _ => True :=
    Triple.bind (Triple.modify fun _ hw => ⟨hw.log, hw.deletes, rfl⟩) fun _ => (hload _ _ _).bind fun B =>
      (Silent.foldlM (fun _ ip => hreapply ip) () _ _ _).bind fun _ => Triple.pure fun _ h => h
  exact htriple w ⟨rfl, rfl, rfl⟩

variable [Add T] [Sub T] [LE T] [DecidableLE T]

/-- So do any number of ticks. -/
theorem booked_ticks {K₀ : Finset Text} {w₀ : World T} (nows : List T) (b : Brain T) :
    Triple (Booked K₀ w₀ b.blockedUntil) (ticks env args fds nows b) (fun b' => Booked K₀ w₀ b'.blockedUntil)
      fun _ => True :=
  Triple.foldlM (I := fun _ b w => Booked K₀ w₀ b.blockedUntil w) (fun _ now _ b' _ => books_tick env args fds now b') b

/-- **Exact accounting.** After a start and any number of ticks, the AUTO_BLOCK and UNBLOCK lines since
the start are the recorded entries of a journal of the tracked addresses whose lost entries are the
failed deletes. It fits, from the restored addresses to those tracked now, and the counters balance. -/
theorem exact_accounting [Zero T] {w₀ w₁ w : World T} {b₀ b : Brain T} {nows : List T}
    (hstart : start env fds w₀ = (w₁, some b₀)) (hrun : ticks env args fds nows b₀ w₁ = (w, some b)) :
    ∃ J lines ds, w.log = w₀.log ++ lines ∧ w.deletes = w₀.deletes ++ ds ∧
      lines.filterMap LogLine.entry = Journal.recorded J ∧
      List.Forall₂ (fun ip d => addressed ip = some d.1) (J.filterMap Entry.lostKey) (ds.filter failed) ∧
      Journal.Fits b₀.blockedUntil.keys.toFinset J ∧
      Journal.replay b₀.blockedUntil.keys.toFinset J = b.blockedUntil.keys.toFinset ∧
      b₀.blockedUntil.size + w.metrics.blockEvents =
        w.metrics.unblockEvents + (ds.filter failed).length + b.blockedUntil.size := by
  have hat := at_start env fds w₀
  rw [hstart] at hat
  -- at the start the journal is empty
  have hbooks : Booked b₀.blockedUntil.keys.toFinset w₁ b₀.blockedUntil w₁ := by
    refine ⟨[], trivial, rfl, ⟨[], (List.append_nil _).symm, rfl⟩, ⟨[], (List.append_nil _).symm, .nil⟩, ?_, ?_⟩
    · exact (Nat.add_zero _).symm
    · exact (Nat.add_zero _).symm
  obtain ⟨J, h⟩ := (booked_ticks nows b₀).of_some hbooks hrun
  obtain ⟨lines, hlog, hentries⟩ := h.log
  obtain ⟨ds, hdel, hlost⟩ := h.deletes
  refine ⟨J, lines, ds, ?_, ?_, hentries, hlost, h.fits, h.keys, ?_⟩
  · rw [hlog, hat.log]
  · rw [hdel, hat.deletes]
  -- the balance of the journal, with the counters in place of its entries
  · have hbalance := Journal.balance h.fits
    have hb := h.blockEvents
    have hu := h.unblockEvents
    rw [hat.metrics] at hb hu
    rw [h.keys, ← size_eq_card, ← size_eq_card, hlost.length_eq] at hbalance
    simp only [MetricsState.init] at hb hu
    omega

end Run

/-- The brain restarts, detects the victim at 100 and lifts its block at 131. -/
theorem exact_accounting_victim :
    ∃ w₁ b₀ w b, start calm allOpen (victimListed ℕ).world = (w₁, some b₀) ∧
      ticks calm thirtySeconds allOpen [100, 131] b₀ w₁ = (w, some b) ∧
      ∃ J lines ds, w.log = (victimListed ℕ).world.log ++ lines ∧ w.deletes = (victimListed ℕ).world.deletes ++ ds ∧
        lines.filterMap LogLine.entry = Journal.recorded J ∧
        List.Forall₂ (fun ip d => addressed ip = some d.1) (J.filterMap Entry.lostKey) (ds.filter failed) ∧
        Journal.Fits b₀.blockedUntil.keys.toFinset J ∧
        Journal.replay b₀.blockedUntil.keys.toFinset J = b.blockedUntil.keys.toFinset ∧
        b₀.blockedUntil.size + w.metrics.blockEvents =
          w.metrics.unblockEvents + (ds.filter failed).length + b.blockedUntil.size := by
  have hsome :
      ((start calm allOpen >>= ticks calm thirtySeconds allOpen [100, 131]) (victimListed ℕ).world).2.isSome =
        true := by
    decide +kernel
  obtain ⟨w₁, b₀, w, b, hstart, hrun⟩ := bind_isSome hsome
  exact ⟨w₁, b₀, w, b, hstart, hrun, exact_accounting hstart hrun⟩

/-- Every delete fails; the rest is calm. -/
def deleteFails : ℕ → Interrupt := fun n => { calm n with outcome := fun | .delete => .error | _ => .ok }

/-- The victim is detected at 100, and its delete fails at 131. -/
def lostRun : World ℕ × Option (Brain ℕ) :=
  (start deleteFails allOpen >>= ticks deleteFails thirtySeconds allOpen [100, 131]) (victimListed ℕ).world

/-- **A failed delete is on no record.** Nothing was restored, one block was counted and logged and none
was lifted, and nothing is tracked. -/
theorem failed_delete_unrecorded :
    (start deleteFails allOpen (victimListed ℕ).world).2.map (fun b => b.blockedUntil.size) = some 0 ∧
      lostRun.2.map (fun b => b.blockedUntil.keys) = some [] ∧
      lostRun.1.metrics.blockEvents = 1 ∧ lostRun.1.metrics.unblockEvents = 0 ∧
      lostRun.1.log.filterMap LogLine.entry = [.added victim.text 1] := by
  refine ⟨?_, ?_, ?_, ?_, ?_⟩
  · decide +kernel
  · decide +kernel
  · decide +kernel
  · decide +kernel
  · decide +kernel

end FluxGuard
