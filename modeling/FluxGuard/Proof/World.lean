import FluxGuard.Model.World
import FluxGuard.Proof.IpText
import FluxGuard.Proof.View

/-!
# What a system call does

One triple per call of the brain: the file and the deletes so far stay as they are unless
the call is about them, and a source that is listed stays listed while nobody else takes it
off (`Known`).

* `Source.text_injective`, `Source.text_colon`: the texts of keys tell the keys apart, and
  tell the families apart.
* `dumpMap_spec`: a dump returns texts of keys of its own family, and what it returns of a
  blacklist is listed.
* `deleteElem_spec`: a delete removes its own source only.
-/

namespace FluxGuard

/-! ## Sources and texts -/

namespace Source

theorem text_colon (s : Source) : ':' ∈ s.text ↔ ∃ a, s = .v6 a := by
  cases s with
  | v4 a => simp [text, colon_not_mem_keyToIp a]
  | v6 a => simp [text, colon_mem_keyToIpV6 a]

/-- Two sources have two texts. -/
theorem text_injective : Function.Injective text := by
  intro s s' h
  -- the colon tells the families apart, the parser the keys of one family
  have hcolon := (text_colon s).symm.trans ((iff_of_eq (congrArg (':' ∈ ·) h)).trans (text_colon s'))
  cases s with
  | v4 a => cases s' with
    | v4 a' => exact congrArg v4 (keyToIp_injective h)
    | v6 a' => simp at hcolon
  | v6 a => cases s' with
    | v4 a' => simp at hcolon
    | v6 a' => exact congrArg v6 (keyToIpV6_injective h)

end Source

/-! ## Staying listed -/

/-- Only its own delete takes a source off the blacklist. -/
theorem Kernel.act_unblacklist {k : Kernel} {s : Source} {e : Event} (h : k.act s e = .unblacklist) :
    e = FluxGuard.unblacklist s := by
  have hop : ∀ {α : Type} [DecidableEq α] {n m : ℕ} {maps : IpMaps α n m} {a : α} {op : MapOp α},
      maps.act a op = .unblacklist → op = .unblacklist a := by
    intro α _ n m maps a op h
    cases op with
    | unblacklist b =>
      simp only [IpMaps.act] at h
      split at h
      · rename_i he; rw [he]
      · cases h
    | allow b v | disallow b | blacklist b v | evictMeter b | evictRate b =>
      simp only [IpMaps.act] at h
      split at h <;> cases h
  -- only a map operation on the family of `s` can be its delete
  cases e with
  | frame now host data =>
    simp only [Kernel.act] at h
    split at h <;> cases h
  | v4 op => cases s with
    | v4 a => rw [hop h]; rfl
    | v6 a => cases h
  | v6 op => cases s with
    | v4 a => cases h
    | v6 a => rw [hop h]; rfl
  | protoSet p action => cases h
  | protoDel p => cases h

/-- A listed source stays listed until then. -/
theorem View.listed_step {v : View} (h : v.listed = true) {a : Act} (ha : a ≠ .unblacklist) :
    (v.step a).listed = true := by
  cases a with
  | packet now host filtered room =>
    rw [View.step, View.listed_packet, h, Bool.true_or]
  | unblacklist => exact absurd rfl ha
  | blacklist => rfl
  | allow | disallow | evictMeter | evictRate | idle => exact h

theorem Kernel.listed_step {k : Kernel} {s : Source} (h : (k.view s).listed = true) {e : Event}
    (he : e ≠ unblacklist s) : ((k.step e).view s).listed = true := by
  rw [Kernel.view_step]
  exact View.listed_step h fun ha => he (Kernel.act_unblacklist ha)

/-- The same over a run. -/
theorem listed_run {s : Source} {es : List Event} (hes : ∀ e ∈ es, e ≠ unblacklist s) {k : Kernel}
    (h : (k.view s).listed = true) : ((run k es).view s).listed = true := by
  induction es generalizing k with
  | nil => exact h
  | cons e es ih =>
    exact ih (fun e' he' => hes e' (List.mem_cons_of_mem _ he')) (Kernel.listed_step h (hes e List.mem_cons_self))

theorem unblacklist_injective : Function.Injective unblacklist := by
  intro s s' h
  cases s <;> cases s' <;> simp_all [unblacklist]

/-- The rest of the host does not take `s` off its blacklist. -/
structure Interrupt.Spares (i : Interrupt) (s : Source) : Prop where
  events : ∀ e ∈ i.events, e ≠ unblacklist s
  keys : ∀ p ∈ i.keys, ∀ e ∈ p.1, e ≠ unblacklist s
  keysV6 : ∀ p ∈ i.keysV6, ∀ e ∈ p.1, e ≠ unblacklist s

/-- What is known of a world: the file, the deletes so far, and some sources that are listed. -/
structure Known {T : Type} (F : Option (Dict Text T)) (ds : List (Source × Deletion)) (L : Set Source)
    (w : World T) : Prop where
  file : w.file = F
  deletes : w.deletes = ds
  listed : ∀ s ∈ L, (w.kernel.view s).listed = true

section Calls

variable {T : Type} {env : ℕ → Interrupt} {F : Option (Dict Text T)} {ds : List (Source × Deletion)} {L : Set Source}

/-- Fewer sources are listed too. -/
theorem Known.mono {w : World T} (h : Known F ds L w) {L' : Set Source} (hL : L' ⊆ L) : Known F ds L' w :=
  ⟨h.file, h.deletes, fun s hs => h.listed s (hL hs)⟩

/-- Some call of a kind fails. -/
def Fails (env : ℕ → Interrupt) (c : Call) : Prop := ∃ n, (env n).outcome c = .error

/-- The process is killed during some call. -/
def Killed (env : ℕ → Interrupt) : Prop := ∃ n c, (env n).outcome c = .kill

/-- The sources of `L` are spared throughout. -/
def Spared (env : ℕ → Interrupt) (L : Set Source) : Prop := ∀ s ∈ L, ∀ n, (env n).Spares s

theorem Spared.empty (env : ℕ → Interrupt) : Spared env ∅ := fun _ h => nomatch h

open Proc

/-- A call keeps what is listed, and fails only where the environment makes it. -/
theorem syscall_spec (hspare : Spared env L) (c : Call) :
    Triple (Known F ds L) (syscall env c) (fun ok w => Known F ds L w ∧ (ok = false → Fails env c))
      (fun w => Known F ds L w ∧ Killed env) := by
  intro w hw
  have hw' : Known F ds L { w with kernel := run w.kernel (env w.turn).events, turn := w.turn + 1 } :=
    ⟨hw.file, hw.deletes, fun s hs => listed_run (hspare s hs w.turn).events (hw.listed s hs)⟩
  unfold syscall
  cases ho : (env w.turn).outcome c with
  | ok => exact ⟨hw', fun h => by cases h⟩
  | error => exact ⟨hw', fun _ => ⟨_, ho⟩⟩
  | kill => exact ⟨hw', _, c, ho⟩

/-- A map's keys are all listed, in a map that says which sources are. -/
def Lists {α : Type} [DecidableEq α] (sel : Kernel → Dict α UInt32) (src : α → Source) : Prop :=
  ∀ k a v, (sel k).get? a = some v → (k.view (src a)).listed = true

theorem lists_v4 : Lists (fun k => k.v4.blacklistMap.entries) Source.v4 := by
  intro k a v h
  show (k.v4.blacklistMap.entries.get? a).isSome = true
  rw [h]; rfl

theorem lists_v6 : Lists (fun k => k.v6.blacklistMap.entries) Source.v6 := by
  intro k a v h
  show (k.v6.blacklistMap.entries.get? a).isSome = true
  rw [h]; rfl

/-- A dump under way: sources of `L` stay listed, what is returned are texts of keys, and those of
a blacklist are listed. -/
structure Looked {α : Type} [DecidableEq α] (src : α → Source) (sel : Kernel → Dict α UInt32)
    (keys : List (List Event × α)) (L : Set Source) (p : Kernel × Dict Text UInt32) : Prop where
  listed : ∀ s ∈ L, (p.1.view s).listed = true
  text : ∀ ip ∈ p.2, ∃ a, ip = (src a).text
  shown : Lists sel src → ∀ s, (∀ q ∈ keys, ∀ e ∈ q.1, e ≠ unblacklist s) → s.text ∈ p.2 →
    (p.1.view s).listed = true

/-- One key more is looked up. -/
theorem Looked.step {α : Type} [DecidableEq α] {src : α → Source} {sel : Kernel → Dict α UInt32}
    {keys : List (List Event × α)} {p : Kernel × Dict Text UInt32} (h : Looked src sel keys L p)
    (hspare : ∀ s ∈ L, ∀ q ∈ keys, ∀ e ∈ q.1, e ≠ unblacklist s) {q : List Event × α} (hq : q ∈ keys) :
    Looked src sel keys L (lookup (fun a => (src a).text) sel p q) := by
  unfold lookup
  -- others act first; then the key is there, or it is skipped
  refine ⟨fun s hs => listed_run (hspare s hs q hq) (h.listed s hs), fun ip hip => ?_, fun hlists s hs hmem => ?_⟩
  · simp only at hip
    split at hip
    · rcases Dict.mem_set.1 hip with rfl | hip
      · exact ⟨_, rfl⟩
      · exact h.text ip hip
    · exact h.text ip hip
  · simp only at hmem
    split at hmem
    · rename_i v hget
      rcases Dict.mem_set.1 hmem with heq | hmem
      · rw [Source.text_injective heq]
        exact hlists _ _ _ hget
      · exact listed_run (hs q hq) (h.shown hlists s hs hmem)
    · exact listed_run (hs q hq) (h.shown hlists s hs hmem)

/-- A dump keeps the spared sources listed, and shows texts of keys. -/
theorem looked_foldl {α : Type} [DecidableEq α] (src : α → Source) {sel : Kernel → Dict α UInt32}
    {keys : List (List Event × α)} {k : Kernel} (hspare : ∀ s ∈ L, ∀ q ∈ keys, ∀ e ∈ q.1, e ≠ unblacklist s)
    (hL : ∀ s ∈ L, (k.view s).listed = true) :
    Looked src sel keys L (keys.foldl (lookup (fun a => (src a).text) sel) (k, Dict.empty)) :=
  List.foldlRecOn keys _ ⟨hL, fun _ hip => (nomatch hip), fun _ _ _ hs => (nomatch hs)⟩
    fun _ h _ hq => h.step hspare hq

/-- The spared sources whose text is in a dump. -/
def shown (env : ℕ → Interrupt) {α : Type} (src : α → Source) (res : Dict Text UInt32) : Set Source :=
  { s | (∃ a, s = src a) ∧ s.text ∈ res ∧ ∀ n, (env n).Spares s }

/-- A dump, given what others do to its keys. -/
theorem dumpMap_spec (hspare : Spared env L) {α : Type} [DecidableEq α] (src : α → Source)
    {keys : Interrupt → List (List Event × α)} (sel : Kernel → Dict α UInt32)
    (hkeys : ∀ (i : Interrupt) s, i.Spares s → ∀ p ∈ keys i, ∀ e ∈ p.1, e ≠ unblacklist s) :
    Triple (Known F ds L) (dumpMap env (fun a => (src a).text) keys sel)
      (fun r w => Known F ds L w ∧ (r = none → Fails env .dump) ∧
        ∀ res, r = some res → (∀ ip ∈ res, ∃ a, ip = (src a).text) ∧
          (Lists sel src → Known F ds (L ∪ shown env src res) w))
      (fun w => Known F ds L w ∧ Killed env) := by
  intro w hw
  have hcall := syscall_spec hspare .dump w hw
  unfold dumpMap
  rw [bind_some (x := Proc.get) rfl]
  cases hc : syscall env .dump w with
  | mk w' ok =>
    rw [hc] at hcall
    cases ok with
    | none => rw [bind_none hc]; exact hcall
    | some ok =>
      rw [bind_some hc]
      cases ok with
      | false => exact ⟨hcall.1, fun _ => hcall.2 rfl, fun res h => nomatch h⟩
      | true =>
        -- the lookups, one key after the other
        obtain ⟨hL, htext, hlist⟩ := looked_foldl src (k := w'.kernel)
          (fun s hs => hkeys _ s (hspare s hs w.turn)) hcall.1.listed
        refine ⟨⟨hcall.1.file, hcall.1.deletes, hL⟩, fun h => (by cases h), fun res h => ?_⟩
        cases h
        refine ⟨htext, fun hlists => ⟨hcall.1.file, hcall.1.deletes, fun s hs => ?_⟩⟩
        rcases hs with hs | ⟨-, hs, hspare⟩
        · exact hL s hs
        · exact hlist hlists s (hkeys _ s (hspare w.turn)) hs

/-- The same of the call for IPv4. -/
theorem dumpMapU32_spec (hspare : Spared env L) (sel : Kernel → Dict Ip4 UInt32) :
    Triple (Known F ds L) (dumpMapU32 env sel)
      (fun r w => Known F ds L w ∧ (r = none → Fails env .dump) ∧
        ∀ res, r = some res → (∀ ip ∈ res, ∃ a, ip = (Source.v4 a).text) ∧
          (Lists sel .v4 → Known F ds (L ∪ shown env .v4 res) w))
      (fun w => Known F ds L w ∧ Killed env) :=
  dumpMap_spec hspare Source.v4 sel fun _ _ h => h.keys

/-- The same of the call for IPv6. -/
theorem dumpMapU32V6_spec (hspare : Spared env L) (sel : Kernel → Dict Ip6 UInt32) :
    Triple (Known F ds L) (dumpMapU32V6 env sel)
      (fun r w => Known F ds L w ∧ (r = none → Fails env .dump) ∧
        ∀ res, r = some res → (∀ ip ∈ res, ∃ a, ip = (Source.v6 a).text) ∧
          (Lists sel .v6 → Known F ds (L ∪ shown env .v6 res) w))
      (fun w => Known F ds L w ∧ Killed env) :=
  dumpMap_spec hspare Source.v6 sel fun _ _ h => h.keysV6

theorem getGlobalTokens_spec (hspare : Spared env L) :
    Triple (Known F ds L) (getGlobalTokens env) (fun _ => Known F ds L) (fun w => Known F ds L w ∧ Killed env) := by
  refine (syscall_spec hspare .tokens).bind fun ok => ?_
  cases ok with
  | false => exact Triple.pure fun w hw => hw.1
  | true => exact fun w hw => hw.1

/-- A map operation that is no delete of a source of `L` keeps them listed. -/
theorem Known.step {w : World T} (h : Known F ds L w) {e : Event} (he : ∀ s ∈ L, e ≠ unblacklist s) :
    Known F ds L { w with kernel := w.kernel.step e } :=
  ⟨h.file, h.deletes, fun s hs => Kernel.listed_step (h.listed s hs) (he s hs)⟩

theorem setMapU32_spec (hspare : Spared env L) {a : Ip4} {v : UInt32} :
    Triple (Known F ds L) (setMapU32 env (Source.v4 a).text v) (fun _ => Known F ds L)
      (fun w => Known F ds L w ∧ Killed env) := by
  unfold setMapU32
  rw [show ipToKey (Source.v4 a).text = some a from ipToKey_keyToIp a]
  refine (syscall_spec hspare .set).bind fun ok => ?_
  cases ok with
  | false => exact Triple.pure fun w hw => hw.1
  | true => exact Triple.modify fun w hw => hw.1.step fun s _ h => by cases s <;> cases h

theorem setMapU32V6_spec (hspare : Spared env L) {a : Ip6} {v : UInt32} :
    Triple (Known F ds L) (setMapU32V6 env (Source.v6 a).text v) (fun _ => Known F ds L)
      (fun w => Known F ds L w ∧ Killed env) := by
  unfold setMapU32V6
  rw [show ipToKeyV6 (Source.v6 a).text = some a from ipToKeyV6_keyToIpV6 a]
  refine (syscall_spec hspare .set).bind fun ok => ?_
  cases ok with
  | false => exact Triple.pure fun w hw => hw.1
  | true => exact Triple.modify fun w hw => hw.1.step fun s _ h => by cases s <;> cases h

/-- A delete is recorded, with what it found. -/
theorem deleteElem_spec (hspare : Spared env L) (s : Source) :
    Triple (Known F ds L) (deleteElem env s)
      (fun _ w => ∃ d, Known F (ds ++ [(s, d)]) (L \ {s}) w ∧ (d = .failed → Fails env .delete) ∧
        (s ∈ L → d ≠ .absent))
      (fun w => Known F ds L w ∧ Killed env) := by
  refine (syscall_spec hspare .delete).bind fun ok => ?_
  cases ok with
  | false =>
    refine fun w hw =>
      ⟨.failed, ⟨hw.1.file, ?_, fun s' hs' => hw.1.listed s' hs'.1⟩, fun _ => hw.2 rfl, fun _ h => by cases h⟩
    rw [← hw.1.deletes]
  | true =>
    intro w hw
    -- the delete takes `s` off and leaves the other sources listed
    refine ⟨w.kernel.deletion s, ⟨hw.1.file, ?_, fun s' hs' => ?_⟩, ?_, fun hs => ?_⟩
    · rw [← hw.1.deletes]
    · exact Kernel.listed_step (hw.1.listed s' hs'.1) fun h => hs'.2 (unblacklist_injective h).symm
    · unfold Kernel.deletion
      split <;> exact fun h => by cases h
    · unfold Kernel.deletion
      rw [if_pos (hw.1.listed s hs)]
      intro h
      exact by cases h

/-- A save puts the blocks into the file; one that does not go through leaves what it leaves. -/
theorem saveCheckpoint_spec (hspare : Spared env L) (B : Dict Text T) :
    Triple (Known F ds L) (saveCheckpoint env B)
      (fun _ w => Known (some B) ds L w ∨ (∃ r : Remains, Known (r.file F (some B)) ds L w) ∧ Fails env .save)
      (fun w => ∃ n, Known ((env n).remains.file F (some B)) ds L w ∧ (env n).outcome .save = .kill) := by
  have hcall : Triple (fun w : World T => Known ((env w.turn).remains.file F (some B)) ds L w) (syscall env .save)
      (fun ok w => (∃ r : Remains, Known (r.file F (some B)) ds L w) ∧ (ok = false → Fails env .save))
      (fun w => ∃ n, Known ((env n).remains.file F (some B)) ds L w ∧ (env n).outcome .save = .kill) := by
    intro w hw
    have hafter : Known ((env w.turn).remains.file F (some B)) ds L
        { w with kernel := run w.kernel (env w.turn).events, turn := w.turn + 1 } :=
      ⟨hw.file, hw.deletes, fun s hs => listed_run (hspare s hs w.turn).events (hw.listed s hs)⟩
    unfold syscall
    cases ho : (env w.turn).outcome .save with
    | ok => exact ⟨⟨_, hafter⟩, fun h => by cases h⟩
    | error => exact ⟨⟨_, hafter⟩, fun _ => ⟨_, ho⟩⟩
    | kill => exact ⟨_, hafter, ho⟩
  have hopen : Triple (Known F ds L)
      (Proc.modify fun w => { w with file := (env w.turn).remains.file w.file (some B) })
      (fun _ w => Known ((env w.turn).remains.file F (some B)) ds L w)
      (fun w => ∃ n, Known ((env n).remains.file F (some B)) ds L w ∧ (env n).outcome .save = .kill) :=
    Triple.modify fun w hw => ⟨by rw [hw.file], hw.deletes, hw.listed⟩
  refine hopen.bind fun _ => hcall.bind fun ok => ?_
  cases ok with
  | false => exact Triple.pure fun w hw => Or.inr ⟨hw.1, hw.2 rfl⟩
  | true => exact Triple.modify fun w ⟨⟨_, hw⟩, _⟩ => Or.inl ⟨rfl, hw.deletes, hw.listed⟩

/-- The checkpoint gives the file, or nothing. -/
theorem loadCheckpoint_spec (hspare : Spared env L) :
    Triple (Known F ds L) (loadCheckpoint env)
      (fun B w => Known F ds L w ∧ (B = F.getD Dict.empty ∨ B = Dict.empty ∧ Fails env .load))
      (fun w => Known F ds L w ∧ Killed env) := by
  refine (syscall_spec hspare .load).bind fun ok => ?_
  cases ok with
  | false => exact Triple.pure fun w hw => ⟨hw.1, Or.inr ⟨rfl, hw.2 rfl⟩⟩
  | true => exact fun w hw => ⟨hw.1, Or.inl (by rw [hw.1.file])⟩

end Calls

end FluxGuard
