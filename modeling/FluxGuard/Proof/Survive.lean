import FluxGuard.Proof.Account
import FluxGuard.Proof.Allowlist
import FluxGuard.Proof.Checkpoint

/-!
# Start-up on any checkpoint

What `load_checkpoint` accepts is interpreted later: the restore and the expiry parse its keys
as addresses, and a key that is none ends the process with a `ValueError`. One value that is
no number makes `load_checkpoint` drop the valid entries too.

* `loadCheckpoint_floats`, `loadCheckpoint_not_floats`: what is loaded of a content.
* `start_ends`, `ticks_end`: with keys that are addresses, a start and its ticks run to their end.
* `survives_iff`: when a content lets every run complete and is restored in full.
* `bogus_entry`: a checkpoint of one entry that no brain survives.
-/

namespace FluxGuard

open Checkpoint hiding loadCheckpoint saveCheckpoint
open Allowlist (readable readable_pyStr)

/-! ## The content of the file -/

/-- The members of the object in the file, if it holds one. -/
def entries (file : File) : List (PyStr × Json) :=
  match (file.bind decodeUtf8).bind loads with
  | some (.obj members) => (Dict.ofItems members).items
  | _ => []

theorem pyStr_injective : Function.Injective pyStr := List.map_injective_iff.2 ofChar_injective

section Content

variable (ofStr : PyStr → Option PyFloat) (file : File)

/-- Every key can be printed. -/
def Encodable : Prop := ∀ e ∈ entries file, ∃ ip : Text, e.1 = pyStr ip

/-- Every value is a number for `float`. -/
def Floats : Prop := ∀ e ∈ entries file, (pyFloat ofStr e.2).isSome = true

/-- An entry with the deadline `x`. -/
def Deadline (key : PyStr) (x : PyFloat) : Prop := ∃ v, (key, v) ∈ entries file ∧ pyFloat ofStr v = some x

/-- A valid entry: an address of the source `s` and a deadline. -/
structure Valid (key : PyStr) (s : Source) (x : PyFloat) : Prop where
  deadline : Deadline ofStr file key x
  address : addressed (readable key) = some s

variable {ofStr file}

theorem nodup_entries : ((entries file).map Prod.fst).Nodup := by
  unfold entries
  split
  · exact (Dict.ofItems _).nodup
  · exact List.nodup_nil

/-- The checkpoint is loaded entry by entry. -/
theorem loadCheckpoint_entries : Checkpoint.loadCheckpoint ofStr file =
    (((entries file).mapM fun m => (pyFloat ofStr m.2).map fun x => (m.1, x)).map Dict.ofItems).getD Dict.empty := by
  unfold Checkpoint.loadCheckpoint entries
  cases file with
  | none => rfl
  | some bytes =>
    dsimp only [Option.bind_some]
    cases (decodeUtf8 bytes).bind loads with
    | none => rfl
    | some v =>
      cases v with
      | obj members => rfl
      | null | bool b | int z | float x | str s | arr items => rfl

/-- What is read of members whose keys are texts and whose values are numbers. -/
theorem readMembers {l : List (PyStr × Json)} (htext : ∀ e ∈ l, ∃ ip : Text, e.1 = pyStr ip)
    (hfloat : ∀ e ∈ l, (pyFloat ofStr e.2).isSome = true) :
    ∃ items : List (Text × PyFloat), l.mapM (fun m => (pyFloat ofStr m.2).map fun x => (m.1, x)) =
      some (pyItems items) ∧
      (pyItems items).map Prod.fst = l.map Prod.fst ∧
      ∀ ip x, (ip, x) ∈ items ↔ ∃ v, (pyStr ip, v) ∈ l ∧ pyFloat ofStr v = some x := by
  induction l with
  | nil => exact ⟨[], rfl, rfl, fun ip x => by simp⟩
  | cons e l ih =>
    obtain ⟨items, hread, hkeys, hmem⟩ := ih (fun e he => htext e (List.mem_cons_of_mem _ he))
      fun e he => hfloat e (List.mem_cons_of_mem _ he)
    obtain ⟨key, v⟩ := e
    obtain ⟨ip₀, rfl⟩ : ∃ ip : Text, key = pyStr ip := htext (key, v) List.mem_cons_self
    obtain ⟨x₀, hx₀⟩ := Option.isSome_iff_exists.1 (hfloat (pyStr ip₀, v) List.mem_cons_self)
    dsimp only at hx₀
    refine ⟨(ip₀, x₀) :: items, ?_, ?_, fun ip x => ?_⟩
    · rw [List.mapM_cons, hread]
      dsimp only
      rw [hx₀]
      rfl
    · show pyStr ip₀ :: (pyItems items).map Prod.fst = _
      rw [hkeys]
      rfl
    · rw [List.mem_cons, hmem]
      constructor
      · rintro (heq | ⟨v', hv', hx⟩)
        · cases heq
          exact ⟨v, List.mem_cons_self, hx₀⟩
        · exact ⟨v', List.mem_cons_of_mem _ hv', hx⟩
      · rintro ⟨v', hv', hx⟩
        rcases List.mem_cons.1 hv' with heq | hv'
        · rw [Prod.mk.injEq] at heq
          obtain ⟨hip, rfl⟩ := heq
          rw [hx₀] at hx
          cases hx
          exact Or.inl (by rw [pyStr_injective hip])
        · exact Or.inr ⟨v', hv', hx⟩

/-- **What is loaded** of a content whose values are numbers: a block for each entry. -/
theorem loadCheckpoint_floats (htext : Encodable file) (hfloat : Floats ofStr file) :
    ∃ blocks : Dict Text PyFloat, Checkpoint.loadCheckpoint ofStr file = pyBlocks blocks ∧
      ∀ ip x, blocks.get? ip = some x ↔ Deadline ofStr file (pyStr ip) x := by
  obtain ⟨items, hread, hkeys, hmem⟩ := readMembers htext hfloat
  have hpy : ((pyItems items).map Prod.fst).Nodup := by
    rw [hkeys]
    exact nodup_entries
  have hnodup : (items.map Prod.fst).Nodup := by
    have hmap : (pyItems items).map Prod.fst = (items.map Prod.fst).map pyStr := by
      unfold pyItems
      rw [List.map_map, List.map_map]
      rfl
    rw [hmap] at hpy
    exact hpy.of_map _
  refine ⟨⟨items, hnodup⟩, ?_, fun ip x => ?_⟩
  · rw [loadCheckpoint_entries, hread]
    exact Dict.ext_items (Dict.items_ofItems hpy)
  · rw [← Dict.mem_items_iff]
    exact hmem ip x

/-- **One value that is no number, and nothing is loaded.** -/
theorem loadCheckpoint_not_floats (h : ¬ Floats ofStr file) : Checkpoint.loadCheckpoint ofStr file = Dict.empty := by
  have hnone : ∀ l : List (PyStr × Json), (¬ ∀ e ∈ l, (pyFloat ofStr e.2).isSome = true) →
      l.mapM (fun m => (pyFloat ofStr m.2).map fun x => (m.1, x)) = none := by
    intro l
    induction l with
    | nil => exact fun h => absurd (fun e he => nomatch he) h
    | cons e l ih =>
      intro h
      rw [List.mapM_cons]
      cases hx : pyFloat ofStr e.2 with
      | none => rfl
      | some x =>
        rw [ih fun hl => h fun e' he' => ?_]
        · rfl
        · rcases List.mem_cons.1 he' with rfl | he'
          · rw [hx]
            rfl
          · exact hl e' he'
  rw [loadCheckpoint_entries, hnone _ h]
  rfl

end Content

/-! ## Programs that run to their end -/

section Ends

open Proc

variable {T : Type} {env : ℕ → Interrupt} {args : Args T} {fds : Fds}

/-- Only a kill ends `x` early, and what it returns satisfies `φ`. -/
def Ends (env : ℕ → Interrupt) {α : Type} (x : Proc (World T) α) (φ : α → Prop) : Prop :=
  Triple (fun _ => True) x (fun a _ => φ a) fun _ => Killed env

namespace Ends

variable {α β : Type} {x : Proc (World T) α} {φ : α → Prop} {ψ : β → Prop}

theorem pure {a : α} (h : φ a) : Ends env (Pure.pure a : Proc (World T) α) φ := Triple.pure fun _ _ => h

theorem bind {f : α → Proc (World T) β} (hx : Ends env x φ) (hf : ∀ a, φ a → Ends env (f a) ψ) : Ends env (x >>= f) ψ :=
  Triple.bind hx fun a => Triple.pre (Triple.and_pre (hf a)) fun _ h => ⟨h, trivial⟩

theorem ite {c : Prop} [Decidable c] {y : Proc (World T) α} (hx : c → Ends env x φ) (hy : ¬ c → Ends env y φ) :
    Ends env (if c then x else y) φ := Triple.ite hx hy

theorem foldlM {l : List α} {f : β → α → Proc (World T) β} (hf : ∀ b, ∀ a ∈ l, ψ b → Ends env (f b a) ψ)
    {b : β} (hb : ψ b) :
    Ends env (l.foldlM f b) ψ := by
  refine Triple.pre (Triple.foldlM (I := fun _ b _ => ψ b) (fun done a rest b hl => ?_) b) fun _ _ => hb
  have ha : a ∈ l := by
    rw [hl]
    exact List.mem_append_right _ List.mem_cons_self
  exact Triple.pre (Triple.and_pre (hf b a ha)) fun _ h => ⟨h, trivial⟩

end Ends

/-- A key that is parsed is an address. -/
def Recognized (fds : Fds) (ip : Text) : Prop := fds.reaches ip = true → (addressed ip).isSome = true

theorem reaches_of_colon {ip : Text} (h : ':' ∈ ip) : fds.reaches ip = opened fds.blacklistV6 := by
  unfold Fds.reaches
  rw [decide_eq_false (not_not.2 h), Bool.false_or]

theorem reaches_of_not_colon {ip : Text} (h : ':' ∉ ip) : fds.reaches ip = true := by
  unfold Fds.reaches
  rw [decide_eq_true h, Bool.true_or]

theorem addressed_of_colon {ip : Text} (h : ':' ∈ ip) : addressed ip = (ipToKeyV6 ip).map .v6 := if_pos h

theorem addressed_of_not_colon {ip : Text} (h : ':' ∉ ip) : addressed ip = (ipToKey ip).map .v4 := if_neg h

theorem addressed_text (s : Source) : addressed s.text = some s := by
  cases s with
  | v4 a =>
    rw [addressed_of_not_colon (show ':' ∉ (Source.v4 a).text from colon_not_mem_keyToIp a),
      show ipToKey (Source.v4 a).text = some a from ipToKey_keyToIp a]
    rfl
  | v6 a =>
    rw [addressed_of_colon (show ':' ∈ (Source.v6 a).text from colon_mem_keyToIpV6 a),
      show ipToKeyV6 (Source.v6 a).text = some a from ipToKeyV6_keyToIpV6 a]
    rfl

theorem recognized_text (s : Source) : Recognized fds s.text := fun _ => by rw [addressed_text]; rfl

theorem ends_syscall (c : Call) : Ends (T := T) env (syscall env c) fun _ => True := by
  intro w _
  unfold syscall
  cases ho : (env w.turn).outcome c with
  | ok => exact trivial
  | error => exact trivial
  | kill => exact ⟨_, c, ho⟩

theorem ends_modify (f : World T → World T) : Ends env (Proc.modify f) fun _ => True := Triple.modify fun _ _ => trivial

theorem ends_saveCheckpoint (B : Dict Text T) : Ends env (saveCheckpoint env B) fun _ => True := by
  refine (ends_modify _).bind fun _ _ => (ends_syscall .save).bind fun ok _ => ?_
  cases ok with
  | false => exact Ends.pure trivial
  | true => exact ends_modify _

theorem ends_deleteElem (s : Source) : Ends (T := T) env (deleteElem env s) fun _ => True := by
  refine (ends_syscall .delete).bind fun ok _ => ?_
  cases ok with
  | false => exact fun w _ => trivial
  | true => exact fun w _ => trivial

/-- An address that is parsed ends in a system call. -/
theorem ends_reapply {ip : Text} (h : Recognized fds ip) : Ends (T := T) env (reapply env fds ip) fun _ => True := by
  have hset : ∀ (e : Event), Ends (T := T) env (do
      if ← syscall env .set then Proc.modify fun w => { w with kernel := w.kernel.step e }) fun _ => True := by
    refine fun e => (ends_syscall .set).bind fun ok _ => ?_
    cases ok with
    | false => exact Ends.pure trivial
    | true => exact ends_modify _
  unfold reapply
  by_cases hcolon : ':' ∈ ip
  · rw [if_pos hcolon]
    refine Ends.ite (fun hopen => ?_) fun _ => Ends.pure trivial
    have hsome := h (by rw [reaches_of_colon hcolon]; exact hopen)
    rw [addressed_of_colon hcolon, Option.isSome_map] at hsome
    obtain ⟨a, ha⟩ := Option.isSome_iff_exists.1 hsome
    unfold setMapU32V6
    rw [ha]
    exact hset (.v6 (.blacklist a 1))
  · rw [if_neg hcolon]
    have hsome := h (reaches_of_not_colon hcolon)
    rw [addressed_of_not_colon hcolon, Option.isSome_map] at hsome
    obtain ⟨a, ha⟩ := Option.isSome_iff_exists.1 hsome
    unfold setMapU32
    rw [ha]
    exact hset (.v4 (.blacklist a 1))

theorem ends_unblock {ip : Text} (h : Recognized fds ip) : Ends (T := T) env (unblock env fds ip) fun _ => True := by
  unfold unblock
  by_cases hcolon : ':' ∈ ip
  · rw [if_pos hcolon]
    refine Ends.ite (fun hopen => ?_) fun _ => Ends.pure trivial
    have hsome := h (by rw [reaches_of_colon hcolon]; exact hopen)
    rw [addressed_of_colon hcolon, Option.isSome_map] at hsome
    obtain ⟨a, ha⟩ := Option.isSome_iff_exists.1 hsome
    unfold delMapU32V6
    rw [ha]
    exact ends_deleteElem (.v6 a)
  · rw [if_neg hcolon]
    have hsome := h (reaches_of_not_colon hcolon)
    rw [addressed_of_not_colon hcolon, Option.isSome_map] at hsome
    obtain ⟨a, ha⟩ := Option.isSome_iff_exists.1 hsome
    unfold delMapU32
    rw [ha]
    exact ends_deleteElem (.v4 a)

/-! ## A tick -/

/-- The brain tracks nothing that it could not parse. -/
def Tracks (fds : Fds) (B : Dict Text T) : Prop := ∀ ip ∈ B, Recognized fds ip

/-- A recognised address may be tracked. -/
theorem Tracks.set {B : Dict Text T} (h : Tracks fds B) {ip : Text} (hip : Recognized fds ip) (D : T) :
    Tracks fds (B.set ip D) := by
  intro a ha
  rcases Dict.mem_set.1 ha with rfl | ha
  · exact hip
  · exact h a ha

/-- A tracked address may be forgotten. -/
theorem Tracks.erase {B : Dict Text T} (h : Tracks fds B) (ip : Text) : Tracks fds (B.erase ip) :=
  fun a ha => h a (Dict.mem_erase.1 ha).2

/-- The loop over the dump ends. -/
theorem ends_detect [Add T] (now : T) {dump cache : Dict Text UInt32} (hdump : ∀ ip ∈ dump, ∃ s : Source, ip = s.text)
    {B : Dict Text T} (hB : Tracks fds B) : Ends env (detect env args now dump cache B) (Tracks fds) := by
  refine Ends.foldlM (fun B ip hip hB => ?_) hB
  obtain ⟨s, rfl⟩ := hdump ip hip
  unfold detectOne
  refine Ends.ite (fun _ => ?_) fun _ => Ends.pure hB
  exact Ends.bind (ends_modify _) fun _ _ => (ends_saveCheckpoint _).bind fun _ _ =>
    Ends.bind (ends_modify _) fun _ _ => Ends.pure (hB.set (recognized_text s) _)

/-- The loop over the tracked blocks ends when their addresses are recognised. -/
theorem ends_expire [LE T] [DecidableLE T] (now : T) {B : Dict Text T} (hB : Tracks fds B) :
    Ends env (expire env fds now B) (Tracks fds) := by
  unfold expire
  refine Ends.ite (fun _ => Ends.pure hB) fun _ => ?_
  have hrec : ∀ ip ∈ expired now B, Recognized fds ip := by
    intro ip hip
    obtain ⟨D, hD, -⟩ := (mem_expired now).1 hip
    exact hB ip (Dict.mem_iff_isSome.2 (by rw [hD]; rfl))
  have hloop : Ends env ((expired now B).foldlM (expireOne env fds) B) (Tracks fds) := by
    refine Ends.foldlM (fun B' ip hip hB' => ?_) hB
    refine (ends_unblock (hrec ip hip)).bind fun ok _ => ?_
    cases ok with
    | false => exact Ends.pure (hB'.erase ip)
    | true =>
      exact Ends.bind (ends_modify _) fun _ _ => Ends.bind (ends_modify _) fun _ _ => Ends.pure (hB'.erase ip)
  exact hloop.bind fun B' hB' => (ends_saveCheckpoint B').bind fun _ _ => Ends.pure hB'

theorem ends_publish (s : Sight) (B : Dict Text T) : Ends env (publish args s B) fun _ => True := by
  unfold publish
  refine Ends.bind (ends_modify _) fun _ _ => Ends.bind (ends_modify _) fun _ _ => ?_
  exact Ends.ite (fun _ => Ends.pure trivial) fun _ => ends_modify _

theorem ends_shieldsUp (globalTokens prevGlobalTokens : ℤ) :
    Ends (T := T) env (shieldsUp globalTokens prevGlobalTokens) fun _ => True :=
  Ends.ite (fun _ => Ends.bind (ends_modify _) fun _ _ => ends_modify _) fun _ => Ends.pure trivial

/-- The reading half of a tick ends. -/
theorem ends_look [Sub T] [LE T] [DecidableLE T] (now : T) (b : Brain T) :
    Ends env (look env args fds now b) fun r => r.2.Texts fds ∧ r.1.blockedUntil = b.blockedUntil := by
  intro w _
  have hlook := look_spec args fds (Spared.empty env) now b w ⟨rfl, rfl, fun _ h => nomatch h⟩
  cases hx : look env args fds now b w with
  | mk w' r =>
    rw [hx] at hlook
    cases r with
    | none => exact hlook.2
    | some r => exact hlook.2

variable [Add T] [Sub T] [LE T] [DecidableLE T]

/-- **A tick runs to its end**, whatever the addresses it tracks. -/
theorem ends_tick (now : T) {b : Brain T} (hb : Tracks fds b.blockedUntil) :
    Ends env (tick env args fds now b) fun b' => Tracks fds b'.blockedUntil := by
  refine (ends_look now b).bind fun r hr => ?_
  have htracks : Tracks fds r.1.blockedUntil := by
    rw [hr.2]
    exact hb
  have hv4 : ∀ ip ∈ r.2.blacklist, ∃ s : Source, ip = s.text := by
    intro ip hip
    obtain ⟨a, rfl⟩ := hr.1.v4 ip hip
    exact ⟨.v4 a, rfl⟩
  have hv6 : ∀ ip ∈ r.2.blacklistV6, ∃ s : Source, ip = s.text := by
    intro ip hip
    obtain ⟨-, a, rfl⟩ := hr.1.v6 ip hip
    exact ⟨.v6 a, rfl⟩
  exact (ends_shieldsUp _ _).bind fun _ _ => (ends_detect now hv4 htracks).bind fun B hB =>
    (ends_detect now hv6 hB).bind fun B hB => (ends_expire now hB).bind fun B hB =>
    (ends_publish r.2 B).bind fun _ _ => Ends.pure hB

variable (env args) in
/-- So does any number of ticks. -/
theorem ends_ticks (nows : List T) {b : Brain T} (hb : Tracks fds b.blockedUntil) :
    Ends env (ticks env args fds nows b) fun b' => Tracks fds b'.blockedUntil :=
  Ends.foldlM (ψ := fun b : Brain T => Tracks fds b.blockedUntil) (fun _ now _ hb => ends_tick now hb) hb

end Ends

/-! ## Putting the blocks back -/

theorem BpfHash.card_keys {α β : Type} [DecidableEq α] {n : ℕ} (m : BpfHash α β n) :
    m.entries.keys.toFinset.card = m.entries.size :=
  (List.toFinset_card_of_nodup m.entries.nodup).trans (Dict.size_eq_keys m.entries).symm

theorem BpfHash.mem_update_of_room {α β : Type} [DecidableEq α] {n : ℕ} {m : BpfHash α β n} {all : Finset α}
    {k : α} (v : β)
    (hall : ∀ a ∈ m, a ∈ all) (hk : k ∈ all) (hcard : all.card ≤ n) : k ∈ m.update k v := by
  rw [BpfHash.mem_update]
  by_cases hmem : k ∈ m
  · exact Or.inl hmem
  · -- the keys of the map are some of the others
    refine Or.inr ⟨rfl, ?_⟩
    have hsub : insert k m.entries.keys.toFinset ⊆ all := by
      intro a ha
      rcases Finset.mem_insert.1 ha with rfl | ha
      · exact hk
      · exact hall a (List.mem_toFinset.1 ha)
    have hle := Finset.card_le_card hsub
    rw [Finset.card_insert_of_notMem (fun h => hmem (List.mem_toFinset.1 h)), BpfHash.card_keys] at hle
    omega

/-- The event that puts a source on its blacklist. -/
def enlist : Source → Event
  | .v4 a => .v4 (.blacklist a 1)
  | .v6 a => .v6 (.blacklist a 1)

theorem listed_v4 {k : Kernel} {a : Ip4} : (k.view (.v4 a)).listed = true ↔ a ∈ k.v4.blacklistMap :=
  k.v4.listed_iff a

theorem listed_v6 {k : Kernel} {a : Ip6} : (k.view (.v6 a)).listed = true ↔ a ∈ k.v6.blacklistMap :=
  k.v6.listed_iff a

theorem listed_enlist {k : Kernel} {s s' : Source} (h : ((k.step (enlist s')).view s).listed = true) :
    (k.view s).listed = true ∨ s = s' := by
  cases s with
  | v4 a =>
    rw [listed_v4] at h ⊢
    cases s' with
    | v4 a' =>
      rcases BpfHash.mem_update.1 (show a ∈ k.v4.blacklistMap.update a' 1 from h) with h | h
      · exact Or.inl h
      · exact Or.inr (congrArg _ h.1)
    | v6 a' => exact Or.inl h
  | v6 a =>
    rw [listed_v6] at h ⊢
    cases s' with
    | v4 a' => exact Or.inl h
    | v6 a' =>
      rcases BpfHash.mem_update.1 (show a ∈ k.v6.blacklistMap.update a' 1 from h) with h | h
      · exact Or.inl h
      · exact Or.inr (congrArg _ h.1)

theorem listed_of_run {k : Kernel} {ss : List Source} {s : Source}
    (h : ((run k (ss.map enlist)).view s).listed = true) :
    (k.view s).listed = true ∨ s ∈ ss := by
  induction ss generalizing k with
  | nil => exact Or.inl h
  | cons s' ss ih =>
    rcases ih h with h | h
    · exact (listed_enlist h).imp_right fun heq => by rw [heq]; exact List.mem_cons_self
    · exact Or.inr (List.mem_cons_of_mem _ h)

/-- What is listed stays listed while more is. -/
theorem listed_run_enlist {k : Kernel} {s : Source} (ss : List Source) (h : (k.view s).listed = true) :
    ((run k (ss.map enlist)).view s).listed = true := by
  refine listed_run (fun e he => ?_) h
  obtain ⟨s', -, rfl⟩ := List.mem_map.1 he
  cases s <;> cases s' <;> exact fun h => nomatch h

/-- The blacklists of `k` have room for the sources of `new`. -/
structure Room (k : Kernel) (new : Set Source) : Prop where
  v4 : ∃ all : Finset Ip4, (∀ a, (k.view (.v4 a)).listed = true ∨ .v4 a ∈ new → a ∈ all) ∧ all.card ≤ MAX_ENTRIES
  v6 : ∃ all : Finset Ip6, (∀ a, (k.view (.v6 a)).listed = true ∨ .v6 a ∈ new → a ∈ all) ∧ all.card ≤ MAX_ENTRIES_V6

/-- A listed source takes only its own room. -/
theorem Room.step {k : Kernel} {new : Set Source} (h : Room k new) {s : Source} (hs : s ∈ new) :
    Room (k.step (enlist s)) new where
  v4 := by
    obtain ⟨all, hall, hcard⟩ := h.v4
    refine ⟨all, fun a ha => hall a ?_, hcard⟩
    rcases ha with ha | ha
    · exact (listed_enlist ha).imp_right fun heq => by rw [heq]; exact hs
    · exact Or.inr ha
  v6 := by
    obtain ⟨all, hall, hcard⟩ := h.v6
    refine ⟨all, fun a ha => hall a ?_, hcard⟩
    rcases ha with ha | ha
    · exact (listed_enlist ha).imp_right fun heq => by rw [heq]; exact hs
    · exact Or.inr ha

/-- Where there is room it is listed. -/
theorem Room.listed {k : Kernel} {new : Set Source} (h : Room k new) {s : Source} (hs : s ∈ new) :
    ((k.step (enlist s)).view s).listed = true := by
  cases s with
  | v4 a =>
    obtain ⟨all, hall, hcard⟩ := h.v4
    exact listed_v4.2
      (BpfHash.mem_update_of_room 1 (fun a' ha' => hall a' (Or.inl (listed_v4.2 ha'))) (hall a (Or.inr hs)) hcard)
  | v6 a =>
    obtain ⟨all, hall, hcard⟩ := h.v6
    exact listed_v6.2
      (BpfHash.mem_update_of_room 1 (fun a' ha' => hall a' (Or.inl (listed_v6.2 ha'))) (hall a (Or.inr hs)) hcard)

/-- With room for all of them, they are all listed. -/
theorem Room.listed_run {k : Kernel} {new : Set Source} (h : Room k new) {ss : List Source}
    (hss : ∀ s ∈ ss, s ∈ new) {s : Source}
    (hs : s ∈ ss) : ((run k (ss.map enlist)).view s).listed = true := by
  induction ss generalizing k with
  | nil => cases hs
  | cons s' ss ih =>
    have hnew := hss s' List.mem_cons_self
    rcases List.mem_cons.1 hs with rfl | hs
    · exact listed_run_enlist ss (h.listed hnew)
    · exact ih (h.step hnew) (fun s hs => hss s (List.mem_cons_of_mem _ hs)) hs

/-- What is listed in the end has found room. -/
theorem room_of_listed {k : Kernel} (k' : Kernel) {new : Set Source}
    (hold : ∀ s, (k.view s).listed = true → (k'.view s).listed = true)
    (hnew : ∀ s ∈ new, (k'.view s).listed = true) : Room k new where
  v4 := by
    refine ⟨k'.v4.blacklistMap.entries.keys.toFinset, fun a ha => List.mem_toFinset.2 (listed_v4.1 ?_), ?_⟩
    · exact ha.elim (hold _) (hnew _)
    · rw [BpfHash.card_keys]
      exact k'.v4.blacklistMap.size_le
  v6 := by
    refine ⟨k'.v6.blacklistMap.entries.keys.toFinset, fun a ha => List.mem_toFinset.2 (listed_v6.1 ?_), ?_⟩
    · exact ha.elim (hold _) (hnew _)
    · rw [BpfHash.card_keys]
      exact k'.v6.blacklistMap.size_le

/-! ## Start -/

section Start

open Proc

variable {T : Type} {env : ℕ → Interrupt} {fds : Fds} {F : Option (Dict Text T)} {k : Kernel}

/-- The source that a key is restored to. -/
def restoredSource (fds : Fds) (ip : Text) : Option Source := if fds.reaches ip then addressed ip else none

/-- The rest of the host is idle, and every system call succeeds. -/
structure Idle (env : ℕ → Interrupt) : Prop where
  events : ∀ n, (env n).events = []
  outcome : ∀ n c, (env n).outcome c = .ok

theorem idle_syscall (h : Idle env) (c : Call) (w : World T) :
    syscall env c w = ({ w with turn := w.turn + 1 }, some true) := by
  unfold syscall
  rw [h.outcome, h.events]
  rfl

theorem Idle.not_killed (h : Idle env) : ¬ Killed env := by
  rintro ⟨n, c, hkill⟩
  rw [h.outcome] at hkill
  cases hkill

/-- A system call in an idle host, and what it does. -/
theorem set_restores {ip : Text} {s : Source} (hs : addressed ip = some s) (hreach : fds.reaches ip = true) :
    Triple (fun w : World T => Idle env → w.kernel = k)
      (do if ← syscall env .set then Proc.modify fun w => { w with kernel := w.kernel.step (enlist s) })
      (fun _ w => Recognized fds ip ∧ (Idle env → w.kernel = run k ((restoredSource fds ip).toList.map enlist)))
        fun _ => True := by
  intro w hw
  have hrec : Recognized fds ip := fun _ => by rw [hs]; rfl
  have hsource : restoredSource fds ip = some s := by rw [restoredSource, if_pos hreach, hs]
  cases hcall : syscall env .set w with
  | mk w' r =>
    cases r with
    | none => rw [bind_none hcall]; exact trivial
    | some ok =>
      rw [bind_some hcall]
      have hidle : Idle env → w'.kernel = k ∧ ok = true := by
        intro h
        rw [idle_syscall h] at hcall
        cases hcall
        exact ⟨hw h, rfl⟩
      rw [hsource]
      cases ok with
      | false => exact ⟨hrec, fun h => nomatch (hidle h).2⟩
      | true =>
        refine ⟨hrec, fun h => ?_⟩
        show w'.kernel.step (enlist s) = k.step (enlist s)
        rw [(hidle h).1]

/-- Putting back one address parses it, and puts its source on the blacklist. -/
theorem reapply_restores (ip : Text) :
    Triple (fun w : World T => Idle env → w.kernel = k) (reapply env fds ip)
      (fun _ w => Recognized fds ip ∧ (Idle env → w.kernel = run k ((restoredSource fds ip).toList.map enlist)))
        fun _ => True := by
  unfold reapply
  by_cases hcolon : ':' ∈ ip
  · have haddr : addressed ip = (ipToKeyV6 ip).map .v6 := addressed_of_colon hcolon
    rw [if_pos hcolon]
    refine Triple.ite (fun hopen => ?_) fun hclosed => Triple.pure fun w hw => ?_
    · unfold setMapU32V6
      cases ha : ipToKeyV6 ip with
      | none => exact Triple.abort fun _ _ => trivial
      | some a =>
        rw [ha] at haddr
        exact set_restores haddr ((reaches_of_colon hcolon).trans hopen)
    · have hreach : ¬ fds.reaches ip = true := by rw [reaches_of_colon hcolon]; exact hclosed
      refine ⟨fun h => absurd h hreach, fun h => ?_⟩
      rw [restoredSource, if_neg hreach]
      exact hw h
  · have haddr : addressed ip = (ipToKey ip).map .v4 := addressed_of_not_colon hcolon
    rw [if_neg hcolon]
    unfold setMapU32
    cases ha : ipToKey ip with
    | none => exact Triple.abort fun _ _ => trivial
    | some a =>
      rw [ha] at haddr
      exact set_restores haddr (reaches_of_not_colon hcolon)

/-- A load that does not fail finds the content of the file. -/
theorem loadCheckpoint_loads : Triple (fun w : World T => w.file = F ∧ (Idle env → w.kernel = k)) (loadCheckpoint env)
    (fun B w => (¬ Fails env .load → B = F.getD Dict.empty) ∧ (Idle env → w.kernel = k)) fun _ => True := by
  intro w hw
  unfold loadCheckpoint
  cases hcall : syscall env .load w with
  | mk w' r =>
    cases r with
    | none => rw [bind_none hcall]; exact trivial
    | some ok =>
      rw [bind_some hcall]
      have hsame : w'.file = F ∧ (Idle env → w'.kernel = k) ∧ (ok = false → Fails env .load) := by
        have hknown := syscall_spec (Spared.empty env) .load w ⟨rfl, rfl, fun _ h => nomatch h⟩
        rw [hcall] at hknown
        refine ⟨hknown.1.file.trans hw.1, fun h => ?_, hknown.2⟩
        rw [idle_syscall h] at hcall
        cases hcall
        exact hw.2 h
      cases ok with
      | false => exact ⟨fun h => absurd (hsame.2.2 rfl) h, hsame.2.1⟩
      | true => exact ⟨fun _ => by rw [hsame.1], hsame.2.1⟩

variable [Zero T]

variable (env fds F k) in
/-- **A start parses all that it loads**, and on an idle host it restores it. -/
theorem start_restores :
    Triple (fun w : World T => w.file = F ∧ (Idle env → w.kernel = k)) (start env fds)
      (fun b w => (¬ Fails env .load → b.blockedUntil = F.getD Dict.empty) ∧ Tracks fds b.blockedUntil ∧
        (Idle env → w.kernel = run k ((b.blockedUntil.keys.filterMap (restoredSource fds)).map enlist)))
      fun _ => True := by
  refine Triple.bind (Q := fun _ (w : World T) => w.file = F ∧ (Idle env → w.kernel = k)) (fun w hw => hw) fun _ => ?_
  refine loadCheckpoint_loads.bind fun B => Triple.and_pre fun hB => ?_
  have hloop := Triple.foldlM (l := B.keys) (f := fun (_ : Unit) ip => reapply (T := T) env fds ip) (C := fun _ => True)
    (I := fun done _ w => (∀ ip ∈ done, Recognized fds ip) ∧
      (Idle env → w.kernel = run k ((done.filterMap (restoredSource fds)).map enlist))) ?_ ()
  · refine Triple.bind (hloop.pre fun w hw => ⟨fun _ h => (nomatch h), hw⟩) fun _ => Triple.pure fun w hw => ?_
    exact ⟨hB, hw.1, hw.2⟩
  · intro done ip rest _ _
    refine Triple.and_pre fun hdone => (reapply_restores ip).post fun _ w hw => ⟨fun a ha => ?_, fun h => ?_⟩
    · rcases List.mem_append.1 ha with ha | ha
      · exact hdone a ha
      · rw [List.mem_singleton.1 ha]
        exact hw.1
    · have hone : [ip].filterMap (restoredSource fds) = (restoredSource fds ip).toList := by
        cases hs : restoredSource fds ip <;> simp [hs]
      rw [hw.2 h, List.filterMap_append, List.map_append, run_append, hone]

/-- A start with addresses to parse runs to its end. -/
theorem ends_start (hF : Tracks fds (F.getD Dict.empty)) :
    Triple (fun w : World T => w.file = F) (start env fds) (fun b _ => Tracks fds b.blockedUntil) fun _ =>
      Killed env := by
  refine Triple.bind (Q := fun _ (w : World T) => w.file = F) (fun w hw => hw) fun _ => ?_
  have hload : Triple (fun w : World T => w.file = F) (loadCheckpoint env) (fun B _ => Tracks fds B) fun _ =>
      Killed env := by
    intro w hw
    have hspec := loadCheckpoint_spec (Spared.empty env) w ⟨rfl, rfl, fun _ h => nomatch h⟩
    cases hx : loadCheckpoint env w with
    | mk w' r =>
      rw [hx] at hspec
      cases r with
      | none => exact hspec.2
      | some B =>
        rcases hspec.2 with rfl | ⟨rfl, -⟩
        · rw [hw]
          exact hF
        · intro _ h
          exact nomatch h
  refine hload.bind fun B => ?_
  have hrest : Tracks fds B → Ends (T := T) env
      (do B.keys.foldlM (fun _ ip => reapply env fds ip) (); pure (⟨B, Dict.empty, Dict.empty, 0, 0⟩ : Brain T))
      fun b => Tracks fds b.blockedUntil :=
    fun hB => (Ends.foldlM (ψ := fun _ => True) (fun _ ip hip _ => ends_reapply (hB ip hip)) trivial).bind
      fun _ _ => Ends.pure hB
  exact Triple.pre (Triple.and_pre hrest) fun _ h => ⟨h, trivial⟩

end Start

/-! ## Surviving a content -/

section Survive

open Proc

variable {T : Type} [Add T] [Sub T] [Zero T] [LE T] [DecidableLE T]
variable (ofStr : PyStr → Option PyFloat) (time : PyFloat → T) (fds : Fds) (k : Kernel) (file : File)

/-- The brain finds this content, its deadlines as times of the brain. -/
def Holds (w : World T) : Prop :=
  ∃ blocks, Checkpoint.loadCheckpoint ofStr file = pyBlocks blocks ∧ w.file.getD Dict.empty = blocks.mapValues time

/-- A host with the kernel `k` survives the content. -/
structure Survives : Prop where
  /-- Every run that nobody kills goes through its start and its ticks. -/
  completes : ∀ (env : ℕ → Interrupt) (args : Args T) (nows : List T) (w : World T), ¬ Killed env → w.kernel = k →
    Holds ofStr time file w → ((start env fds >>= ticks env args fds nows) w).2.isSome = true
  /-- A start on an idle host tracks every valid entry, and its source is listed. -/
  restores : ∀ (env : ℕ → Interrupt) (w : World T), Idle env → w.kernel = k → Holds ofStr time file w →
    ∀ key s x, Valid ofStr file key s x → ∃ ip w' b, key = pyStr ip ∧ start env fds w = (w', some b) ∧
      b.blockedUntil.get? ip = some (time x) ∧ (w'.kernel.view s).listed = true

/-- The content has nothing in it that would stop the brain or cost a valid entry. -/
structure Usable : Prop where
  /-- Where every value is a number, every key whose map is open is an address. -/
  recognized : Floats ofStr file → ∀ key x, Deadline ofStr file key x → Recognized fds (readable key)
  /-- Beside a valid entry every value is a number; and its map is open, or lists it already. -/
  whole : ∀ key s x, Valid ofStr file key s x →
    Floats ofStr file ∧ (fds.reaches (readable key) = true ∨ (k.view s).listed = true)
  room : Room k { s | ∃ key x, Valid ofStr file key s x }

variable {ofStr time fds k file}

theorem pyBlocks_injective : Function.Injective pyBlocks := by
  intro B B' h
  have hitems : pyItems B.items = pyItems B'.items := congrArg Dict.items h
  refine Dict.ext_items (List.map_injective_iff.2 (fun p q hpq => ?_) hitems)
  rw [Prod.mk.injEq] at hpq
  exact Prod.ext (pyStr_injective hpq.1) hpq.2

/-- The key of a deadline, where every key can be printed. -/
theorem printed (htext : Encodable file) {key : PyStr} {x : PyFloat} (h : Deadline ofStr file key x) :
    ∃ ip, key = pyStr ip := by
  obtain ⟨v, hv, -⟩ := h
  exact htext _ hv

/-- What is loaded, entry by entry. -/
theorem get?_loaded (htext : Floats ofStr file → Encodable file) {blocks : Dict Text PyFloat}
    (h : Checkpoint.loadCheckpoint ofStr file = pyBlocks blocks) (ip : Text) (x : PyFloat) :
    blocks.get? ip = some x ↔ Floats ofStr file ∧ Deadline ofStr file (pyStr ip) x := by
  by_cases hfloat : Floats ofStr file
  · obtain ⟨blocks', hload, hget⟩ := loadCheckpoint_floats (htext hfloat) hfloat
    rw [pyBlocks_injective (h.symm.trans hload), hget, and_iff_right hfloat]
  · rw [loadCheckpoint_not_floats hfloat] at h
    rw [pyBlocks_eq_empty.1 h.symm]
    constructor
    · intro hnone
      cases hnone
    · intro hx
      exact absurd hx.1 hfloat

variable (ofStr) in
/-- What is loaded is a dict of floats. -/
theorem exists_loaded (htext : Floats ofStr file → Encodable file) :
    ∃ blocks, Checkpoint.loadCheckpoint ofStr file = pyBlocks blocks := by
  by_cases hfloat : Floats ofStr file
  · obtain ⟨blocks, hload, -⟩ := loadCheckpoint_floats (htext hfloat) hfloat
    exact ⟨blocks, hload⟩
  · exact ⟨Dict.empty, loadCheckpoint_not_floats hfloat⟩

/-- The maps of one family are all open or all closed. -/
theorem reaches_congr {ip ip' : Text} {s : Source} (h : addressed ip = some s) (h' : addressed ip' = some s) :
    fds.reaches ip = fds.reaches ip' := by
  by_cases hcolon : ':' ∈ ip
  · by_cases hcolon' : ':' ∈ ip'
    · rw [reaches_of_colon hcolon, reaches_of_colon hcolon']
    · rw [addressed_of_colon hcolon] at h
      rw [addressed_of_not_colon hcolon'] at h'
      obtain ⟨a, -, rfl⟩ := Option.map_eq_some_iff.1 h
      obtain ⟨a', -, heq⟩ := Option.map_eq_some_iff.1 h'
      cases heq
  · by_cases hcolon' : ':' ∈ ip'
    · rw [addressed_of_not_colon hcolon] at h
      rw [addressed_of_colon hcolon'] at h'
      obtain ⟨a, -, rfl⟩ := Option.map_eq_some_iff.1 h
      obtain ⟨a', -, heq⟩ := Option.map_eq_some_iff.1 h'
      cases heq
    · rw [reaches_of_not_colon hcolon, reaches_of_not_colon hcolon']

/-- What survives is usable. -/
theorem Survives.usable (htext : Floats ofStr file → Encodable file) (h : Survives ofStr time fds k file) :
    Usable ofStr fds k file := by
  -- an idle host that finds the content
  obtain ⟨blocks, hload⟩ := exists_loaded ofStr htext
  let env : ℕ → Interrupt := fun _ => ⟨[], fun _ => .ok, [], [], .old⟩
  let w : World T := ⟨k, some (blocks.mapValues time), MetricsState.init, [], [], 0⟩
  have hidle : Idle env := ⟨fun _ => rfl, fun _ _ => rfl⟩
  have hholds : Holds ofStr time file w := ⟨blocks, hload, rfl⟩
  obtain ⟨w', b, _, _, hstart, -⟩ := bind_isSome (h.completes env ⟨0, 0, true⟩ [] w hidle.not_killed rfl hholds)
  obtain ⟨hB, htracks, hkernel⟩ :=
    (start_restores env fds (some (blocks.mapValues time)) k).of_some ⟨rfl, fun _ => rfl⟩ hstart
  replace hB : b.blockedUntil = blocks.mapValues time := hB fun ⟨n, hn⟩ => nomatch hn
  replace hkernel := hkernel hidle
  have hrestored : ∀ key s x, Valid ofStr file key s x →
      ∃ ip, key = pyStr ip ∧ b.blockedUntil.get? ip = some (time x) ∧ (w'.kernel.view s).listed = true := by
    intro key s x hvalid
    obtain ⟨ip, v, b', hip, hstart', hget, hlisted⟩ := h.restores env w hidle rfl hholds key s x hvalid
    rw [hstart] at hstart'
    cases hstart'
    exact ⟨ip, hip, hget, hlisted⟩
  refine ⟨fun hfloat key x hx => ?_, fun key s x hvalid => ?_, room_of_listed w'.kernel (fun s hs => ?_) fun s hs => ?_⟩
  · obtain ⟨ip, rfl⟩ := printed (htext hfloat) hx
    rw [readable_pyStr]
    refine htracks ip ?_
    rw [hB, Dict.mem_iff_isSome, Dict.get?_mapValues, (get?_loaded htext hload ip x).2 ⟨hfloat, hx⟩]
    rfl
  -- a valid entry was tracked, so that it was loaded, and listed, so that its map is open
  · obtain ⟨ip, rfl, hget, hlisted⟩ := hrestored key s x hvalid
    have haddress := hvalid.address
    rw [readable_pyStr] at haddress ⊢
    rw [hB, Dict.get?_mapValues] at hget
    obtain ⟨x', hx', -⟩ := Option.map_eq_some_iff.1 hget
    refine ⟨((get?_loaded htext hload ip x').1 hx').1, ?_⟩
    rw [hkernel] at hlisted
    rcases listed_of_run hlisted with hlisted | hmem
    · exact Or.inr hlisted
    · obtain ⟨ip', -, hsource⟩ := List.mem_filterMap.1 hmem
      unfold restoredSource at hsource
      split at hsource
      · rename_i hreach
        rw [reaches_congr haddress hsource]
        exact Or.inl hreach
      · cases hsource
  · rw [hkernel]
    exact listed_run_enlist _ hs
  · obtain ⟨key, x, hvalid⟩ := hs
    obtain ⟨ip, -, -, hlisted⟩ := hrestored key s x hvalid
    exact hlisted

/-- What is usable survives. -/
theorem Usable.survives (htext : Floats ofStr file → Encodable file) (h : Usable ofStr fds k file) :
    Survives ofStr time fds k file := by
  have htracks : ∀ (w : World T), Holds ofStr time file w → Tracks fds (w.file.getD Dict.empty) := by
    rintro w ⟨blocks, hload, hfile⟩ ip hip
    rw [hfile, Dict.mem_iff_isSome, Dict.get?_mapValues, Option.isSome_map] at hip
    obtain ⟨x, hx⟩ := Option.isSome_iff_exists.1 hip
    obtain ⟨hfloat, hdeadline⟩ := (get?_loaded htext hload ip x).1 hx
    have hrecognized := h.recognized hfloat (pyStr ip) x hdeadline
    rwa [readable_pyStr] at hrecognized
  have hcompletes : ∀ (env : ℕ → Interrupt) (args : Args T) (nows : List T) (w : World T), ¬ Killed env →
      Holds ofStr time file w → ((start env fds >>= ticks env args fds nows) w).2.isSome = true := by
    intro env args nows w hkill hholds
    have hrun := (ends_start (htracks w hholds)).bind fun b =>
      Triple.pre (Triple.and_pre fun hb => ends_ticks env args nows hb) fun _ hb => ⟨hb, trivial⟩
    have hpost := hrun w rfl
    cases hx : (start env fds >>= ticks env args fds nows) w with
    | mk w' r =>
      rw [hx] at hpost
      cases r with
      | some b => rfl
      | none => exact absurd hpost hkill
  refine ⟨fun env args nows w hkill _ hholds => hcompletes env args nows w hkill hholds, ?_⟩
  intro env w hidle hk hholds key s x hvalid
  obtain ⟨w', b, _, _, hstart, -⟩ := bind_isSome (hcompletes env ⟨0, 0, true⟩ [] w hidle.not_killed hholds)
  obtain ⟨hB, -, hkernel⟩ := (start_restores env fds w.file k).of_some ⟨rfl, fun _ => hk⟩ hstart
  obtain ⟨blocks, hload, hfile⟩ := hholds
  have hload_ok : ¬ Fails env .load := by
    rintro ⟨n, hn⟩
    rw [hidle.outcome] at hn
    cases hn
  replace hB : b.blockedUntil = blocks.mapValues time := (hB hload_ok).trans hfile
  replace hkernel := hkernel hidle
  obtain ⟨hfloat, hopen⟩ := h.whole key s x hvalid
  obtain ⟨ip, rfl⟩ := printed (htext hfloat) hvalid.deadline
  have haddress := hvalid.address
  rw [readable_pyStr] at hopen haddress
  have hget := (get?_loaded htext hload ip x).2 ⟨hfloat, hvalid.deadline⟩
  refine ⟨ip, w', b, rfl, hstart, by rw [hB, Dict.get?_mapValues, hget]; rfl, ?_⟩
  rw [hkernel]
  rcases hopen with hreach | hlisted
  · -- its source is one of those that are put back, and there is room for them all
    refine h.room.listed_run (fun s' hs' => ?_) (List.mem_filterMap.2 ⟨ip, ?_, ?_⟩)
    · obtain ⟨ip', hip', hsource⟩ := List.mem_filterMap.1 hs'
      have hmem : ip' ∈ b.blockedUntil := hip'
      rw [hB, Dict.mem_iff_isSome, Dict.get?_mapValues, Option.isSome_map] at hmem
      obtain ⟨x', hx'⟩ := Option.isSome_iff_exists.1 hmem
      unfold restoredSource at hsource
      split at hsource
      · exact ⟨pyStr ip', x', ((get?_loaded htext hload ip' x').1 hx').2, by rwa [readable_pyStr]⟩
      · cases hsource
    · show ip ∈ b.blockedUntil
      rw [hB, Dict.mem_iff_isSome, Dict.get?_mapValues, hget]
      rfl
    · rw [restoredSource, if_pos hreach, haddress]
  · exact listed_run_enlist _ hlisted

/-- **When a content is survived**: where no key stops the restore, no value costs a valid entry, and the
maps have room. -/
theorem survives_iff (htext : Floats ofStr file → Encodable file) :
    Survives ofStr time fds k file ↔ Usable ofStr fds k file :=
  ⟨fun h => h.usable htext, fun h => h.survives htext⟩

end Survive

/-! ## Contents that the brain has saved -/

section Saved

variable {ofStr : PyStr → Option PyFloat} {fds : Fds} {k : Kernel} (blocks : Dict Text PyFloat)

/-- A saved checkpoint has the entries of its dict. -/
theorem entries_saved : entries (some (saved blocks)) = floatItems blocks.items := by
  have hkeys : (floatItems blocks.items).map Prod.fst = (pyItems blocks.items).map Prod.fst := by
    unfold floatItems pyItems
    rw [List.map_map, List.map_map]
    rfl
  unfold entries saved
  rw [Option.bind_some, decodeUtf8_encodeUtf8, Option.bind_some, loads_dumpsItems]
  exact Dict.items_ofItems (hkeys ▸ nodup_pyItems blocks)

theorem encodable_saved : Encodable (some (saved blocks)) := by
  intro e he
  rw [entries_saved] at he
  obtain ⟨p, -, rfl⟩ := List.mem_map.1 he
  exact ⟨p.1, rfl⟩

theorem deadline_saved {ip : Text} {x : PyFloat} (h : Deadline ofStr (some (saved blocks)) (pyStr ip) x) :
    blocks.get? ip = some x := by
  obtain ⟨v, hv, hx⟩ := h
  rw [entries_saved] at hv
  obtain ⟨p, hp, heq⟩ := List.mem_map.1 hv
  rw [Prod.mk.injEq] at heq
  obtain ⟨hip, rfl⟩ := heq
  cases hx
  rw [← pyStr_injective hip]
  exact Dict.mem_items_iff.1 hp

/-- What the brain has saved of canonical addresses can be used, where there is room for it. -/
theorem usable_saved (hkeys : ∀ ip ∈ blocks, fds.reaches ip = true ∧ ∃ s : Source, ip = s.text)
    (hroom : Room k { s | s.text ∈ blocks }) : Usable ofStr fds k (some (saved blocks)) := by
  have hmem : ∀ key x, Deadline ofStr (some (saved blocks)) key x → ∃ ip ∈ blocks, key = pyStr ip := by
    intro key x hx
    obtain ⟨ip, rfl⟩ := printed (encodable_saved blocks) hx
    refine ⟨ip, ?_, rfl⟩
    rw [Dict.mem_iff_isSome, deadline_saved blocks hx]
    rfl
  have hfloat : Floats ofStr (some (saved blocks)) := by
    intro e he
    rw [entries_saved] at he
    obtain ⟨p, -, rfl⟩ := List.mem_map.1 he
    rfl
  have hsource : ∀ key s x, Valid ofStr (some (saved blocks)) key s x → s.text ∈ blocks := by
    intro key s x hvalid
    obtain ⟨ip, hip, rfl⟩ := hmem key x hvalid.deadline
    obtain ⟨s', hs'⟩ := (hkeys ip hip).2
    have haddress := hvalid.address
    rw [readable_pyStr, hs', addressed_text] at haddress
    cases haddress
    rwa [← hs']
  refine ⟨fun _ key x hx => ?_, fun key s x hvalid => ⟨hfloat, Or.inl ?_⟩, ?_⟩
  · obtain ⟨ip, hip, rfl⟩ := hmem key x hx
    obtain ⟨s, rfl⟩ := (hkeys ip hip).2
    rw [readable_pyStr]
    exact recognized_text s
  · obtain ⟨ip, hip, rfl⟩ := hmem key x hvalid.deadline
    rw [readable_pyStr]
    exact (hkeys ip hip).1
  · refine ⟨?_, ?_⟩
    · obtain ⟨all, hall, hcard⟩ := hroom.v4
      exact ⟨all, fun a ha => hall a (ha.imp_right fun ⟨key, x, hvalid⟩ => hsource key _ x hvalid), hcard⟩
    · obtain ⟨all, hall, hcard⟩ := hroom.v6
      exact ⟨all, fun a ha => hall a (ha.imp_right fun ⟨key, x, hvalid⟩ => hsource key _ x hvalid), hcard⟩

end Saved

/-- A brain that keeps time in seconds: the one deadline below. -/
def seconds : PyFloat → ℕ := fun _ => 30

/-- The checkpoint of one block survives a restart. -/
theorem survives_oneBlock : Survives (fun _ => none) seconds allOpen (Kernel.init 1) (some (saved oneBlock)) := by
  refine (survives_iff fun _ => encodable_saved oneBlock).2 (usable_saved oneBlock (fun ip hip => ?_) ⟨?_, ?_⟩)
  · rcases Dict.mem_set.1 hip with rfl | hip
    · exact ⟨by decide, victim, by decide⟩
    · exact nomatch hip
  · refine ⟨{0x0501000A}, fun a ha => Finset.mem_singleton.2 ?_, by decide⟩
    rcases ha with ha | ha
    · exact nomatch ha
    · rcases Dict.mem_set.1 (show (Source.v4 a).text ∈ oneBlock from ha) with ha | ha
      · have hvictim : (Source.v4 a).text = victim.text := ha.trans (by decide)
        cases Source.text_injective hvictim
        rfl
      · exact nomatch ha
  · refine ⟨∅, fun a ha => ?_, by decide⟩
    rcases ha with ha | ha
    · exact nomatch ha
    · rcases Dict.mem_set.1 (show (Source.v6 a).text ∈ oneBlock from ha) with ha | ha
      · have hvictim : (Source.v6 a).text = victim.text := ha.trans (by decide)
        exact nomatch Source.text_injective hvictim
      · exact nomatch ha

/-- A valid entry, and one that is no address. -/
def localhostBlock : Dict Text PyFloat := oneBlock.set "localhost".toList thirty

/-- **A checkpoint that no brain survives**: it is an object of strings and numbers. -/
theorem bogus_entry : ¬ Survives (fun _ => none) seconds allOpen (Kernel.init 1) (some (saved localhostBlock)) := by
  intro h
  have hrun := h.completes (fun _ => ⟨[], fun _ => .ok, [], [], .old⟩) thirtySeconds []
    ⟨Kernel.init 1, some (localhostBlock.mapValues seconds), MetricsState.init, [], [], 0⟩
      (fun ⟨_, _, hkill⟩ => nomatch hkill)
    rfl ⟨localhostBlock, loadCheckpoint_saved localhostBlock, rfl⟩
  exact absurd hrun (by decide +kernel)

end FluxGuard
