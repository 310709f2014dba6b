import FluxGuard.Data.Ledger
import FluxGuard.Model.Brain
import FluxGuard.Proof.World

/-!
# One tick follows the ledger

`blocked_until` is a ledger of deadlines, and the checkpoint file holds the same one. A tick
takes it one step: what the dumps show anew gets a deadline, what is due is deleted from the
map of its family and let go.

* `start_spec`: a start restores the ledger of the file.
* `act_spec`: a tick that runs to its end is a step of the ledger (`Acted`); one that is
  killed leaves the file at the ledger with some of the new deadlines (`Cut`).
-/

namespace FluxGuard

variable {T : Type}

/-! ## Dictionaries as ledgers -/

/-- A dict with an entry set is a ledger updated. -/
theorem get?_set_eq (d : Dict Text T) (ip : Text) (D : T) : (d.set ip D).get? = Function.update d.get? ip (some D) := by
  funext a
  rw [Dict.get?_set, Function.update_apply]

/-- A dict with an entry erased is a ledger without it. -/
theorem get?_erase_eq (d : Dict Text T) (ip : Text) : (d.erase ip).get? = Function.update d.get? ip none := by
  funext a
  rw [Dict.get?_erase, Function.update_apply]

/-- Every key of a ledger is the text of a source. -/
def Canonical (ℓ : Ledger Text T) : Prop := ∀ ip, ℓ ip ≠ none → ∃ s : Source, ip = s.text

/-- A source's own text keeps the ledger canonical. -/
theorem Canonical.update {ℓ : Ledger Text T} (h : Canonical ℓ) (s : Source) (D : Option T) :
    Canonical (Function.update ℓ s.text D) := by
  intro ip hip
  by_cases he : ip = s.text
  · exact ⟨s, he⟩
  · rw [Function.update_of_ne he] at hip; exact h ip hip

theorem canonical_empty : Canonical (Dict.empty : Dict Text T).get? := fun _ h => absurd rfl h

/-- The checkpoint file can be written and read, and stays intact: a save that is killed has not opened it. -/
structure Saves (env : ℕ → Interrupt) : Prop where
  save : ¬ Fails env .save
  load : ¬ Fails env .load
  intact : ∀ n, (env n).outcome .save = .kill → (env n).remains = .old

/-- The ledger that a checkpoint file holds. -/
def ledgerOf (F : Option (Dict Text T)) : Ledger Text T := (F.getD Dict.empty).get?

/-- The file holds the ledger `ℓ`, in the brain's own spelling, as far as saves go through. -/
structure Filed (env : ℕ → Interrupt) (ℓ : Ledger Text T) (F : Option (Dict Text T)) : Prop where
  canonical : Canonical (ledgerOf F)
  ledger : Saves env → ledgerOf F = ℓ

/-- The file holds the ledger `ℓ`, unless a save failed. -/
def Kept (env : ℕ → Interrupt) (ds : List (Source × Deletion)) (L : Set Source) (ℓ : Ledger Text T)
    (w : World T) : Prop :=
  ∃ F, Filed env ℓ F ∧ Known F ds L w

section Tick

variable {env : ℕ → Interrupt} {args : Args T} {fds : Fds} {ds : List (Source × Deletion)} {L : Set Source}
variable {ℓ : Ledger Text T} {w : World T}

/-- Fewer sources are listed too. -/
theorem Kept.mono (h : Kept env ds L ℓ w) {L' : Set Source} (hL : L' ⊆ L) : Kept env ds L' ℓ w := by
  obtain ⟨F, hF, hw⟩ := h
  exact ⟨F, hF, hw.file, hw.deletes, fun s hs => hw.listed s (hL hs)⟩

open Proc

/-- Metrics and the log are not part of what is kept. -/
theorem Kept.congr (h : Kept env ds L ℓ w) {w' : World T} (hf : w'.file = w.file) (hd : w'.deletes = w.deletes)
    (hk : w'.kernel = w.kernel) : Kept env ds L ℓ w' := by
  obtain ⟨F, hF, hw⟩ := h
  exact ⟨F, hF, hf.trans hw.file, hd.trans hw.deletes, fun s hs => hk ▸ hw.listed s hs⟩

theorem metric_spec (f : MetricsState → MetricsState) {C : World T → Prop} :
    Triple (Kept env ds L ℓ) (metric f) (fun _ => Kept env ds L ℓ) C :=
  Triple.modify fun _ hw => hw.congr rfl rfl rfl

theorem logLine_spec (line : LogLine) {C : World T → Prop} :
    Triple (Kept env ds L ℓ) (logLine line) (fun _ => Kept env ds L ℓ) C :=
  Triple.modify fun _ hw => hw.congr rfl rfl rfl

/-- A save takes the file to a new ledger. -/
theorem save_spec (hspare : Spared env L) {B : Dict Text T} (hB : Canonical B.get?) :
    Triple (Kept env ds L ℓ) (saveCheckpoint env B) (fun _ => Kept env ds L B.get?)
      (fun w => Kept env ds L ℓ w ∧ Killed env) := by
  refine Triple.exists_pre fun F => Triple.and_pre fun hF => ?_
  have hremains : ∀ r : Remains, Canonical (ledgerOf (r.file F (some B))) := by
    intro r
    cases r with
    | old => exact hF.canonical
    | torn => exact canonical_empty
    | new => exact hB
  refine (saveCheckpoint_spec hspare B).weaken (fun _ h => h) (fun _ w hw => ?_) fun w ⟨n, hw, hkill⟩ => ?_
  · rcases hw with hw | ⟨⟨r, hw⟩, hfail⟩
    · exact ⟨some B, ⟨hB, fun _ => rfl⟩, hw⟩
    · exact ⟨_, ⟨hremains r, fun hsaves => absurd hfail hsaves.save⟩, hw⟩
  · refine ⟨⟨_, ⟨hremains _, fun hsaves => ?_⟩, hw⟩, n, .save, hkill⟩
    rw [hsaves.intact n hkill]
    exact hF.ledger hsaves

/-! ## Start -/

/-- Putting a block back changes no file, and takes nothing off. -/
theorem reapply_spec (hspare : Spared env L) {F : Option (Dict Text T)} (s : Source) :
    Triple (Known F ds L) (reapply env fds s.text) (fun _ => Known F ds L)
      (fun w => Known F ds L w ∧ Killed env) := by
  unfold reapply
  cases s with
  | v4 a =>
    rw [if_neg (show ':' ∉ (Source.v4 a).text from colon_not_mem_keyToIp a)]
    exact setMapU32_spec hspare
  | v6 a =>
    rw [if_pos (show ':' ∈ (Source.v6 a).text from colon_mem_keyToIpV6 a)]
    exact Triple.ite (fun _ => setMapU32V6_spec hspare) fun _ => Triple.pure fun _ h => h

variable (fds) in
/-- **A start restores the ledger of the file.** -/
theorem start_spec [Zero T] (hspare : Spared env L) {F : Option (Dict Text T)} (hF : Canonical (ledgerOf F)) :
    Triple (Known F ds L) (start env fds)
      (fun b w => Known F ds L w ∧ Canonical b.blockedUntil.get? ∧ (Saves env → b.blockedUntil.get? = ledgerOf F))
      (fun w => Known F ds L w ∧ Killed env) := by
  refine (Triple.modify (Q := fun _ => Known F ds L) fun _ hw => ⟨hw.file, hw.deletes, hw.listed⟩).bind fun _ => ?_
  refine (loadCheckpoint_spec hspare).bind fun B => ?_
  have hB : (B = F.getD Dict.empty ∨ B = Dict.empty ∧ Fails env .load) →
      Canonical B.get? ∧ (Saves env → B.get? = ledgerOf F) := by
    rintro (rfl | ⟨rfl, hfail⟩)
    · exact ⟨hF, fun _ => rfl⟩
    · exact ⟨canonical_empty, fun hsaves => absurd hfail hsaves.load⟩
  refine Triple.pre (P := fun w => (B = F.getD Dict.empty ∨ B = Dict.empty ∧ Fails env .load) ∧ Known F ds L w)
    (Triple.and_pre fun h => ?_) fun w hw => ⟨hw.2, hw.1⟩
  refine (Triple.foldlM (I := fun _ _ => Known F ds L) (fun done ip rest _ hl => ?_) ()).bind fun _ =>
    Triple.pure fun w hw => ⟨hw, hB h⟩
  have hmem : ip ∈ B := by
    show ip ∈ B.keys
    rw [hl]; simp
  obtain ⟨s, rfl⟩ := (hB h).1 ip (by rw [Ne, Dict.get?_eq_none_iff]; exact not_not.2 hmem)
  exact reapply_spec hspare s

/-! ## Looking -/

/-- The spared sources that a tick's dumps show. -/
def Sight.seen (env : ℕ → Interrupt) (s : Sight) : Set Source := shown env .v4 s.blacklist ∪ shown env .v6 s.blacklistV6

/-- There is a map to delete this address from. -/
def Fds.reaches (fds : Fds) (ip : Text) : Bool := decide (':' ∉ ip) || opened fds.blacklistV6

/-- The dumps hold texts of their own family, of maps that are open. -/
structure Sight.Texts (fds : Fds) (s : Sight) : Prop where
  v4 : ∀ ip ∈ s.blacklist, ∃ a, ip = (Source.v4 a).text
  v6 : ∀ ip ∈ s.blacklistV6, opened fds.blacklistV6 = true ∧ ∃ a, ip = (Source.v6 a).text

theorem Spared.shown (h : Spared env L) {α : Type} (src : α → Source) (res : Dict Text UInt32) :
    Spared env (L ∪ FluxGuard.shown env src res) := by
  rintro s (hs | ⟨-, -, hs⟩)
  · exact h s hs
  · exact hs

theorem shown_empty {α : Type} (src : α → Source) : FluxGuard.shown env src Dict.empty = ∅ :=
  Set.eq_empty_iff_forall_notMem.2 fun _ h => nomatch h.2.1

/-- A dump of an opened map shows what it saw. -/
theorem dumpOpened_spec (hspare : Spared env L) {F : Option (Dict Text T)} (fd : Option ℕ)
    (sel : Kernel → Dict Ip6 UInt32) :
    Triple (Known F ds L) (dumpOpened env fd sel)
      (fun r w => Known F ds L w ∧ ∀ res, r = some res →
        (∀ ip ∈ res, opened fd = true ∧ ∃ a, ip = (Source.v6 a).text) ∧
          (Lists sel .v6 → Known F ds (L ∪ shown env .v6 res) w))
      (fun w => Known F ds L w ∧ Killed env) := by
  unfold dumpOpened
  refine Triple.ite (fun hopen => (dumpMapU32V6_spec hspare sel).post fun r w h =>
      ⟨h.1, fun res hres => ⟨fun ip hip => ⟨hopen, (h.2.2 res hres).1 ip hip⟩, (h.2.2 res hres).2⟩⟩)
    fun _ => Triple.pure fun w hw => ⟨hw, fun res h => ?_⟩
  cases h
  refine ⟨fun _ hip => (nomatch hip), fun _ => ?_⟩
  rw [shown_empty, Set.union_empty]
  exact hw

/-- The four dumps show what they saw. -/
theorem readMaps_spec (hspare : Spared env L) {F : Option (Dict Text T)} :
    Triple (Known F ds L) (readMaps env fds) (fun s w => Known F ds (L ∪ s.seen env) w ∧ s.Texts fds)
      (fun w => Known F ds L w ∧ Killed env) := by
  have hempty : ∀ w, Known F ds L w → Known F ds (L ∪ Sight.empty.seen env) w ∧ Sight.empty.Texts fds := by
    refine fun w hw => ⟨?_, ⟨fun _ h => (nomatch h), fun _ h => (nomatch h)⟩⟩
    rw [show Sight.empty.seen env = ∅ by simp [Sight.seen, Sight.empty, shown_empty], Set.union_empty]
    exact hw
  refine (dumpMapU32_spec hspare _).bind fun r => ?_
  cases r with
  | none => exact Triple.pure fun w hw => hempty w hw.1
  | some blacklist =>
    refine Triple.weaken (P := fun w => (∀ ip ∈ blacklist, ∃ a, ip = (Source.v4 a).text) ∧
        Known F ds (L ∪ shown env .v4 blacklist) w) (Triple.and_pre fun htext => ?_)
      (fun w hw => ⟨(hw.2.2 _ rfl).1, (hw.2.2 _ rfl).2 lists_v4⟩) (fun _ _ h => h)
      (C := fun w => Known F ds (L ∪ shown env .v4 blacklist) w ∧ Killed env)
      fun w hw => ⟨hw.1.mono Set.subset_union_left, hw.2⟩
    have hspare₁ := hspare.shown .v4 blacklist
    -- a sight with the IPv4 dump only
    have hfirst : ∀ (counts : Dict Text UInt32) w, Known F ds (L ∪ shown env .v4 blacklist) w →
        Known F ds (L ∪ Sight.seen env { Sight.empty with blacklist := blacklist, counts := counts }) w ∧
          Sight.Texts fds { Sight.empty with blacklist := blacklist, counts := counts } := by
      refine fun counts w hw => ⟨?_, ⟨htext, fun _ h => nomatch h⟩⟩
      rw [show Sight.seen env { Sight.empty with blacklist := blacklist, counts := counts } =
        shown env .v4 blacklist by simp [Sight.seen, Sight.empty, shown_empty]]
      exact hw
    refine (dumpMapU32_spec hspare₁ _).bind fun r => ?_
    cases r with
    | none => exact Triple.pure fun w hw => hfirst Dict.empty w hw.1
    | some counts =>
      refine Triple.pre (P := Known F ds (L ∪ shown env .v4 blacklist)) ?_ fun w hw => hw.1
      refine (dumpOpened_spec hspare₁ _ _).bind fun r => ?_
      cases r with
      | none => exact Triple.pure fun w hw => hfirst counts w hw.1
      | some blacklistV6 =>
        refine Triple.weaken
          (P := fun w => (∀ ip ∈ blacklistV6, opened fds.blacklistV6 = true ∧ ∃ a, ip = (Source.v6 a).text) ∧
            Known F ds (L ∪ shown env .v4 blacklist ∪ shown env .v6 blacklistV6) w) (Triple.and_pre fun htextV6 => ?_)
          (fun w hw => ⟨(hw.2 _ rfl).1, (hw.2 _ rfl).2 lists_v6⟩) (fun _ _ h => h)
          (C := fun w => Known F ds (L ∪ shown env .v4 blacklist ∪ shown env .v6 blacklistV6) w ∧ Killed env)
          fun w hw => ⟨hw.1.mono Set.subset_union_left, hw.2⟩
        have hspare₂ := hspare₁.shown .v6 blacklistV6
        have hall : ∀ (s : Sight), s.blacklist = blacklist → s.blacklistV6 = blacklistV6 → ∀ w,
            Known F ds (L ∪ shown env .v4 blacklist ∪ shown env .v6 blacklistV6) w →
            Known F ds (L ∪ s.seen env) w ∧ s.Texts fds := by
          rintro s rfl rfl w hw
          exact ⟨by rw [Set.union_assoc] at hw; exact hw, htext, htextV6⟩
        refine (dumpOpened_spec hspare₂ _ _).bind fun r => ?_
        cases r with
        | none => exact Triple.pure fun w hw => hall _ rfl rfl w hw.1
        | some countsV6 =>
          refine Triple.pre (P := Known F ds (L ∪ shown env .v4 blacklist ∪ shown env .v6 blacklistV6)) ?_
            fun w hw => hw.1
          exact (getGlobalTokens_spec hspare₂).bind fun _ => Triple.pure fun w hw => hall _ rfl rfl w hw

/-- The refresh of the allowlist cache tracks nothing. -/
theorem refreshAllowlist_spec [Sub T] [LE T] [DecidableLE T] (hspare : Spared env L)
    {F : Option (Dict Text T)} (now : T)
    (b : Brain T) :
    Triple (Known F ds L) (refreshAllowlist env args fds now b)
      (fun b' w => Known F ds L w ∧ b'.blockedUntil = b.blockedUntil) (fun w => Known F ds L w ∧ Killed env) := by
  unfold refreshAllowlist
  refine Triple.ite (fun _ => ?_) fun _ => Triple.pure fun w hw => ⟨hw, rfl⟩
  refine (dumpMapU32_spec hspare _).bind fun r => ?_
  cases r with
  | none => exact Triple.pure fun w hw => ⟨hw.1, rfl⟩
  | some cache =>
    refine Triple.ite (fun _ => ?_) fun _ => Triple.pure fun w hw => ⟨hw.1, rfl⟩
    refine Triple.pre (P := Known F ds L) ?_ fun w hw => hw.1
    refine (dumpMapU32V6_spec hspare _).bind fun r => ?_
    cases r with
    | none => exact Triple.pure fun w hw => ⟨hw.1, rfl⟩
    | some cacheV6 => exact Triple.pure fun w hw => ⟨hw.1, rfl⟩

variable (args fds) in
/-- A look changes no file; what it shows of the blacklists is listed. -/
theorem look_spec [Sub T] [LE T] [DecidableLE T] (hspare : Spared env L) {F : Option (Dict Text T)} (now : T)
    (b : Brain T) :
    Triple (Known F ds L) (look env args fds now b)
      (fun r w => Known F ds (L ∪ r.2.seen env) w ∧ r.2.Texts fds ∧ r.1.blockedUntil = b.blockedUntil)
      (fun w => Known F ds L w ∧ Killed env) := by
  refine (refreshAllowlist_spec hspare now b).bind fun b' => ?_
  refine Triple.pre (P := fun w => b'.blockedUntil = b.blockedUntil ∧ Known F ds L w) (Triple.and_pre fun hb => ?_)
    fun w hw => ⟨hw.2, hw.1⟩
  exact (readMaps_spec hspare).bind fun s => Triple.pure fun w hw => ⟨hw.1, hw.2, hb⟩

/-! ## Detection -/

section Detect

variable [Add T] (now : T) {cache : Dict Text UInt32}

/-- One address of a dump. -/
theorem detectOne_spec (hspare : Spared env L) {B : Dict Text T} (hB : Canonical B.get?) (s : Source) :
    Triple (Kept env ds L B.get?) (detectOne env args now cache B s.text)
      (fun B' w => Kept env ds L B'.get? w ∧ Canonical B'.get? ∧
        B'.get? = if s.text ∉ B ∧ s.text ∉ cache then Function.update B.get? s.text (some (now + args.cooldownSec))
          else B.get?)
      (fun w => Kept env ds L B.get? w ∧ Killed env) := by
  unfold detectOne
  refine Triple.ite (fun hnew => ?_) fun hnew => Triple.pure fun w hw => ⟨hw, hB, by rw [if_neg hnew]⟩
  have hB' : Canonical (B.set s.text (now + args.cooldownSec)).get? := by
    rw [get?_set_eq]; exact hB.update s _
  refine (metric_spec _).bind fun _ => (save_spec hspare hB').bind fun _ => (logLine_spec _).bind fun _ => ?_
  exact Triple.pure fun w hw => ⟨hw, hB', by rw [if_pos hnew, get?_set_eq]⟩

/-- **Detection** gives the new addresses of a dump their deadline, one after another. -/
theorem detect_spec (hspare : Spared env L) {dump : Dict Text UInt32} (hdump : ∀ ip ∈ dump, ∃ s : Source, ip = s.text)
    {B : Dict Text T} (hB : Canonical B.get?) :
    Triple (Kept env ds L B.get?) (detect env args now dump cache B)
      (fun B' w => Kept env ds L B'.get? w ∧ Canonical B'.get? ∧
        B'.get? = Ledger.detect B.get? { ip | ip ∈ dump ∧ ip ∉ cache } (now + args.cooldownSec))
      (fun w => ∃ part ⊆ { ip | ip ∈ dump ∧ ip ∉ cache },
        Kept env ds L (Ledger.detect B.get? part (now + args.cooldownSec)) w ∧ Killed env) := by
  set D := now + args.cooldownSec
  -- after the part `done` of the dump
  let I : List Text → Dict Text T → World T → Prop := fun done B' w =>
    Canonical B'.get? ∧ B'.get? = Ledger.detect B.get? { ip | ip ∈ done ∧ ip ∉ cache } D ∧ Kept env ds L B'.get? w
  refine Triple.weaken (Triple.foldlM (l := dump.keys) (I := I) (fun done ip rest B' hl => ?_) B)
    (fun w hw => ⟨hB, by simp, hw⟩) (fun B' w hw => ⟨hw.2.2, hw.1, hw.2.1⟩) fun _ h => h
  obtain ⟨s, rfl⟩ := hdump ip (show ip ∈ dump.keys by rw [hl]; simp)
  refine Triple.and_pre fun hB' => Triple.and_pre fun hℓ => ?_
  refine (detectOne_spec now hspare hB' s).weaken (fun _ h => h) (fun B'' w hw => ⟨hw.2.1, ?_, hw.1⟩) fun w hw => ?_
  · rw [hw.2.2, hℓ]
    have hmem : s.text ∈ B' ↔ Ledger.detect B.get? { ip | ip ∈ done ∧ ip ∉ cache } D s.text ≠ none := by
      rw [← hℓ, Ne, Dict.get?_eq_none_iff, not_not]
    by_cases hcache : s.text ∈ cache
    · rw [if_neg fun h => h.2 hcache]
      congr 1
      ext ip
      simp only [Set.mem_ofPred_eq, List.mem_append, List.mem_singleton]
      constructor
      · intro h
        exact ⟨Or.inl h.1, h.2⟩
      · intro h
        exact ⟨h.1.resolve_right fun he => h.2 (he ▸ hcache), h.2⟩
    · have hinsert : { ip | ip ∈ done ++ [s.text] ∧ ip ∉ cache } = insert s.text { ip | ip ∈ done ∧ ip ∉ cache } := by
        ext ip
        simp only [Set.mem_ofPred_eq, List.mem_append, List.mem_singleton, Set.mem_insert_iff]
        constructor
        · rintro ⟨h | h, hc⟩
          · exact Or.inr ⟨h, hc⟩
          · exact Or.inl h
        · rintro (rfl | h)
          · exact ⟨Or.inr rfl, hcache⟩
          · exact ⟨Or.inl h.1, h.2⟩
      rw [hinsert]
      by_cases hB'' : s.text ∈ B'
      · rw [if_neg fun h => h.1 hB'', Ledger.detect_insert_of_ne_none (hmem.1 hB'')]
      · rw [if_pos ⟨hB'', hcache⟩, Ledger.detect_insert_of_none (not_not.1 (mt hmem.2 hB''))]
  · rw [hℓ] at hw
    refine ⟨_, fun ip hip => ⟨?_, hip.2⟩, hw.1, hw.2⟩
    show ip ∈ dump.keys
    rw [hl]
    exact List.mem_append_left _ hip.1

end Detect

/-! ## Expiry -/

/-- The deletes for some addresses: one each, from the map of its own family. -/
structure Deleted (env : ℕ → Interrupt) (fds : Fds) (gone : List Text) (L : Set Source)
    (new : List (Source × Deletion)) : Prop where
  sources : new.map (fun d => d.1.text) = gone.filter fds.reaches
  failed : ∀ d ∈ new, d.2 = .failed → Fails env .delete
  found : ∀ d ∈ new, d.1 ∈ L → d.2 ≠ .absent

theorem Deleted.nil : Deleted env fds [] L [] := ⟨rfl, fun _ h => (nomatch h), fun _ h => (nomatch h)⟩

/-- Deletes one after the other. -/
theorem Deleted.append {gone : List Text} {new new' : List (Source × Deletion)}
    (h : Deleted env fds gone L new) {s : Source}
    (h' : Deleted env fds [s.text] (L \ { s | s.text ∈ gone }) new') (hs : s.text ∉ gone) :
    Deleted env fds (gone ++ [s.text]) L (new ++ new') where
  sources := by rw [List.map_append, List.filter_append, h.sources, h'.sources]
  failed d hd := (List.mem_append.1 hd).elim (h.failed d) (h'.failed d)
  found d hd hL := by
    rcases List.mem_append.1 hd with hd | hd
    · exact h.found d hd hL
    · have htext : d.1.text ∈ [s.text].filter fds.reaches := h'.sources ▸ List.mem_map_of_mem hd
      have heq : d.1 = s := Source.text_injective (List.mem_singleton.1 (List.mem_filter.1 htext).1)
      exact h'.found d hd ⟨hL, fun hmem => hs (heq ▸ hmem)⟩

/-- To unblock is one delete at most. -/
theorem unblock_spec (hspare : Spared env L) {F : Option (Dict Text T)} (s : Source) :
    Triple (Known F ds L) (unblock env fds s.text)
      (fun _ w => ∃ new, Known F (ds ++ new) (L \ {s}) w ∧ Deleted env fds [s.text] L new)
      (fun w => Known F ds L w ∧ Killed env) := by
  have hdelete : fds.reaches s.text = true → Triple (Known F ds L) (deleteElem env s)
      (fun _ w => ∃ new, Known F (ds ++ new) (L \ {s}) w ∧ Deleted env fds [s.text] L new)
      (fun w => Known F ds L w ∧ Killed env) := by
    intro hreach
    refine (deleteElem_spec hspare s).post fun _ w hw => ?_
    obtain ⟨d, hknown, hfail, hfound⟩ := hw
    refine ⟨_, hknown, ?_, fun d' hd' => ?_, fun d' hd' => ?_⟩
    · rw [List.filter_cons_of_pos hreach]; rfl
    · cases List.mem_singleton.1 hd'; exact hfail
    · cases List.mem_singleton.1 hd'; exact hfound
  unfold unblock
  cases s with
  | v4 a =>
    have hcolon : ':' ∉ (Source.v4 a).text := colon_not_mem_keyToIp a
    rw [if_neg hcolon, delMapU32, show ipToKey (Source.v4 a).text = some a from ipToKey_keyToIp a]
    exact hdelete (by simp [Fds.reaches, hcolon])
  | v6 a =>
    have hcolon : ':' ∈ (Source.v6 a).text := colon_mem_keyToIpV6 a
    rw [if_pos hcolon]
    refine Triple.ite (fun hopen => ?_) fun hclosed => Triple.pure fun w hw =>
      ⟨[], ?_, ?_, fun _ h => (nomatch h), fun _ h => (nomatch h)⟩
    · rw [delMapU32V6, show ipToKeyV6 (Source.v6 a).text = some a from ipToKeyV6_keyToIpV6 a]
      exact hdelete (by simp [Fds.reaches, hopen])
    · rw [List.append_nil]; exact hw.mono Set.sdiff_subset
    · rw [List.filter_cons_of_neg (by simp [Fds.reaches, hcolon, hclosed])]; rfl

/-- A block expired is one entry fewer, and the delete. -/
theorem expireOne_spec (hspare : Spared env L) (B : Dict Text T) (s : Source) :
    Triple (Kept env ds L ℓ) (expireOne env fds B s.text)
      (fun B' w => B'.get? = Function.update B.get? s.text none ∧
        ∃ new, Kept env (ds ++ new) (L \ {s}) ℓ w ∧ Deleted env fds [s.text] L new)
      (fun w => Kept env ds L ℓ w ∧ Killed env) := by
  have hunblock : Triple (Kept env ds L ℓ) (unblock env fds s.text)
      (fun _ w => ∃ new, Deleted env fds [s.text] L new ∧ Kept env (ds ++ new) (L \ {s}) ℓ w)
      (fun w => Kept env ds L ℓ w ∧ Killed env) :=
    Triple.exists_pre fun F => Triple.and_pre fun hF => (unblock_spec hspare s).weaken (fun _ hw => hw)
      (fun _ w ⟨new, hw, hdel⟩ => ⟨new, hdel, F, hF, hw⟩) fun w hw => ⟨⟨F, hF, hw.1⟩, hw.2⟩
  refine hunblock.bind fun ok => Triple.exists_pre fun new => Triple.and_pre fun hdel => ?_
  have hdone : ∀ w, Kept env (ds ++ new) (L \ {s}) ℓ w → (B.erase s.text).get? = Function.update B.get? s.text none ∧
      ∃ new, Kept env (ds ++ new) (L \ {s}) ℓ w ∧ Deleted env fds [s.text] L new :=
    fun w hw => ⟨get?_erase_eq B s.text, new, hw, hdel⟩
  cases ok with
  | false => exact Triple.pure hdone
  | true => exact (metric_spec _).bind fun _ => (logLine_spec _).bind fun _ => Triple.pure hdone

section Expire

variable [LE T] [DecidableLE T] (now : T)

/-- Expired are those whose deadline has come. -/
theorem mem_expired {B : Dict Text T} {ip : Text} : ip ∈ expired now B ↔ ∃ D, B.get? ip = some D ∧ D ≤ now := by
  unfold expired
  simp only [List.mem_map, List.mem_filter, decide_eq_true_eq, Prod.exists, exists_and_right, exists_eq_right,
    Dict.mem_items_iff]

theorem nodup_expired (B : Dict Text T) : (expired now B).Nodup := B.nodup.sublist (List.filter_sublist.map _)

/-- Without what is due, the ledger has expired. -/
theorem ledger_expired (B : Dict Text T) :
    (fun ip => if ip ∈ expired now B then none else B.get? ip) = Ledger.expire B.get? now := by
  funext ip
  cases hD : B.get? ip with
  | none => rw [ite_self, (Ledger.expire_eq_none_iff (ℓ := B.get?)).2 fun D hD' => by rw [hD] at hD'; cases hD']
  | some D =>
    by_cases hdue : D ≤ now
    · rw [if_pos ((mem_expired now).2 ⟨D, hD, hdue⟩)]
      exact (Ledger.expire_eq_none_iff.2 fun D' hD' => by rw [hD] at hD'; cases hD'; exact hdue).symm
    · have hmem : ip ∉ expired now B := fun h => by
        obtain ⟨D', hD', hdue'⟩ := (mem_expired now).1 h
        rw [hD] at hD'
        cases hD'
        exact hdue hdue'
      rw [if_neg hmem]
      exact (Ledger.expire_eq_some_iff.2 ⟨hD, hdue⟩).symm

/-- What is left is canonical. -/
theorem Canonical.expire (h : Canonical ℓ) : Canonical (ℓ.expire now) := by
  intro ip hip
  obtain ⟨D, hD⟩ := Option.ne_none_iff_exists'.1 hip
  exact h ip (by rw [(Ledger.expire_eq_some_iff.1 hD).1]; exact Option.some_ne_none _)

/-- **Expiry** deletes what is due, and nothing else. -/
theorem expire_spec (hspare : Spared env L) {B : Dict Text T} (hB : Canonical B.get?) :
    Triple (Kept env ds L B.get?) (expire env fds now B)
      (fun B' w => B'.get? = Ledger.expire B.get? now ∧ ∃ new,
        Kept env (ds ++ new) (L \ { s | s.text ∈ expired now B }) B'.get? w ∧ Deleted env fds (expired now B) L new)
      (fun w => ∃ gone new, gone ⊆ expired now B ∧ Kept env (ds ++ new) ∅ B.get? w ∧ Deleted env fds gone L new ∧
        Killed env) := by
  unfold expire
  refine Triple.ite (fun hnone => Triple.pure fun w hw => ?_) fun _ => ?_
  · have hℓ : B.get? = Ledger.expire B.get? now := by
      rw [← ledger_expired, hnone]
      simp
    rw [hnone]
    exact ⟨hℓ, [], by rw [List.append_nil]; exact hw.mono Set.sdiff_subset, Deleted.nil⟩
  -- after the part `done` of what is due
  let I : List Text → Dict Text T → World T → Prop := fun done B' w =>
    ∃ new, (B'.get? = (fun ip => if ip ∈ done then none else B.get? ip) ∧ Deleted env fds done L new) ∧
      Kept env (ds ++ new) (L \ { s | s.text ∈ done }) B.get? w
  have hloop : Triple (Kept env ds L B.get?) ((expired now B).foldlM (expireOne env fds) B) (I (expired now B))
      (fun w => ∃ gone new, gone ⊆ expired now B ∧ Kept env (ds ++ new) ∅ B.get? w ∧ Deleted env fds gone L new ∧
        Killed env) := by
    refine (Triple.foldlM (I := I) (fun done ip rest B' hl => ?_) B).pre
      fun w hw => ⟨[], ⟨by simp, Deleted.nil⟩, by rw [List.append_nil]; exact hw.mono Set.sdiff_subset⟩
    have hmem : ip ∈ expired now B := by rw [hl]; simp
    have hnew : ip ∉ done := by
      have := nodup_expired now B
      rw [hl, List.nodup_append] at this
      intro h
      exact this.2.2 ip h ip List.mem_cons_self rfl
    obtain ⟨D, hD, -⟩ := (mem_expired now).1 hmem
    obtain ⟨s, rfl⟩ := hB ip (by rw [hD]; exact Option.some_ne_none _)
    refine Triple.exists_pre fun new => Triple.and_pre fun h => ?_
    refine (expireOne_spec (fun s hs => hspare s hs.1) B' s).weaken (fun _ hw => hw) (fun B'' w hw => ?_) fun w hw => ?_
    · obtain ⟨hB'', new', hkept, hdel⟩ := hw
      refine ⟨new ++ new', ⟨?_, h.2.append hdel hnew⟩, ?_⟩
      · rw [hB'', h.1]
        funext ip
        rw [Function.update_apply]
        simp only [List.mem_append, List.mem_singleton]
        by_cases he : ip = s.text
        · rw [if_pos he, if_pos (Or.inr he)]
        · simp only [he, or_false, if_false]
      · rw [← List.append_assoc]
        refine hkept.mono fun s' hs' => ⟨⟨hs'.1, fun hd => hs'.2 (List.mem_append_left _ hd)⟩, fun he => hs'.2 ?_⟩
        rw [Set.mem_singleton_iff.1 he]
        exact List.mem_append_right _ (List.mem_singleton_self _)
    · refine ⟨done, new, fun ip hip => ?_, hw.1.mono (Set.empty_subset _), h.2, hw.2⟩
      rw [hl]
      exact List.mem_append_left _ hip
  refine hloop.bind fun B' => Triple.exists_pre fun new => Triple.and_pre fun h => ?_
  have hℓ : B'.get? = Ledger.expire B.get? now := h.1.trans (ledger_expired now B)
  have hB' : Canonical B'.get? := hℓ ▸ hB.expire now
  refine ((save_spec (fun s hs => hspare s hs.1) hB').bind fun _ => Triple.pure (fun w hw => ⟨hℓ, new, hw, h.2⟩)).weaken
    (fun _ hw => hw) (fun _ _ hw => hw) fun w hw => ⟨_, new, fun _ h => h, hw.1.mono (Set.empty_subset _), h.2, hw.2⟩

end Expire

/-! ## A whole tick -/

/-- The addresses of the dumps that are not on the cached allowlist of their family. -/
def Sight.new (s : Sight) (b : Brain T) : Set Text :=
  { ip | ip ∈ s.blacklist ∧ ip ∉ b.allowlistCache } ∪ { ip | ip ∈ s.blacklistV6 ∧ ip ∉ b.allowlistV6Cache }

section Noticed

variable [Sub T] [LE T] [DecidableLE T] (env args fds) (now : T)

/-- The addresses that a tick would notice: in its dumps, and not on its cached allowlist. -/
def noticed (b : Brain T) (w : World T) : Set Text :=
  { ip | ∃ w₁ b₁ s, look env args fds now b w = (w₁, some (b₁, s)) ∧ ip ∈ s.new b₁ }

variable {env args fds}

/-- A tick notices what it sees and does not track. -/
theorem noticed_of_look {b b₁ : Brain T} {w₁ : World T} {s : Sight}
    (h : look env args fds now b w = (w₁, some (b₁, s))) : noticed env args fds now b w = s.new b₁ := by
  ext ip
  constructor
  · rintro ⟨w₂, b₂, s₂, h₂, hip⟩
    rw [h] at h₂
    cases h₂
    exact hip
  · intro hip
    exact ⟨w₁, b₁, s, h, hip⟩

end Noticed

section Act

variable [Add T] [LE T] [DecidableLE T] (env args fds ds L ℓ) (now : T) (fresh : Set Text)

/-- A tick that runs to its end: the ledger makes its step, and the deletes are those of the
addresses it lets go. -/
structure Acted (new : List (Source × Deletion)) (ℓ' : Ledger Text T) (w : World T) : Prop where
  ledger : ℓ' = ℓ.tick now args.cooldownSec fresh
  canonical : Canonical ℓ'
  deleted : ∃ gone : List Text, (∀ ip, ip ∈ gone ↔ ip ∈ ℓ.due now args.cooldownSec fresh) ∧ Deleted env fds gone L new
  kept : Kept env (ds ++ new) (L \ { s | s.text ∈ ℓ.due now args.cooldownSec fresh }) ℓ' w

/-- A tick that is killed: the file has some of the new deadlines and all the old ones, and no
delete is of an address that the tick would not have let go. -/
structure Cut (new : List (Source × Deletion)) (w : World T) : Prop where
  killed : Killed env
  deleted : ∃ gone : List Text, (∀ ip ∈ gone, ip ∈ ℓ.due now args.cooldownSec fresh) ∧ Deleted env fds gone L new
  kept : ∃ part ⊆ fresh, Kept env (ds ++ new) ∅ (ℓ.detect part (now + args.cooldownSec)) w

end Act

section WholeTick

variable [Add T] [LE T] [DecidableLE T] (now : T)

variable (args fds ds) in
/-- **A tick follows the ledger**, given what it saw. -/
theorem act_spec (hspare : Spared env L) {b : Brain T} (hB : Canonical b.blockedUntil.get?) {s : Sight}
    (hs : s.Texts fds) :
    Triple (Kept env ds L b.blockedUntil.get?) (act env args fds now b s)
      (fun b' w => ∃ new, Acted env args fds ds L b.blockedUntil.get? now (s.new b) new b'.blockedUntil.get? w)
      (fun w => ∃ new, Cut env args fds ds L b.blockedUntil.get? now (s.new b) new w) := by
  set ℓ : Ledger Text T := b.blockedUntil.get?
  set D := now + args.cooldownSec
  have hv4 : ∀ ip ∈ s.blacklist, ∃ s' : Source, ip = s'.text := fun ip hip => (hs.v4 ip hip).imp' _ fun _ h => h
  have hv6 : ∀ ip ∈ s.blacklistV6, ∃ s' : Source, ip = s'.text := fun ip hip => (hs.v6 ip hip).2.imp' _ fun _ h => h
  have hcut : ∀ part ⊆ s.new b, ∀ w, Kept env ds L (ℓ.detect part D) w ∧ Killed env →
      ∃ new, Cut env args fds ds L ℓ now (s.new b) new w :=
    fun part hpart w hw => ⟨[], hw.2, ⟨[], fun _ h => (nomatch h), Deleted.nil⟩, part, hpart, by
      rw [List.append_nil]; exact hw.1.mono (Set.empty_subset _)⟩
  have hshields : Triple (Kept env ds L ℓ) (shieldsUp s.globalTokens b.prevGlobalTokens) (fun _ => Kept env ds L ℓ)
      (fun w => ∃ new, Cut env args fds ds L ℓ now (s.new b) new w) :=
    Triple.ite (fun _ => (metric_spec _).bind fun _ => logLine_spec _) fun _ => Triple.pure fun _ h => h
  refine hshields.bind fun _ => ?_
  -- the IPv4 dump
  refine ((detect_spec now hspare hv4 hB).weaken (fun _ h => h)
    (R := fun B' w => (Canonical B'.get? ∧ B'.get? = ℓ.detect { ip | ip ∈ s.blacklist ∧ ip ∉ b.allowlistCache } D) ∧
      Kept env ds L B'.get? w)
    (fun _ w hw => ⟨hw.2, hw.1⟩) fun w hw => ?_).bind fun B₁ => Triple.and_pre fun h₁ => ?_
  · obtain ⟨part, hpart, hw⟩ := hw
    exact hcut part (hpart.trans Set.subset_union_left) w hw
  -- the IPv6 dump
  refine ((detect_spec now hspare hv6 h₁.1).weaken (fun _ h => h)
    (R := fun B' w => (Canonical B'.get? ∧ B'.get? = ℓ.detect (s.new b) D) ∧ Kept env ds L B'.get? w)
    (fun B₂ w hw => ⟨⟨hw.2.1, by rw [hw.2.2, h₁.2, Ledger.detect_detect]; rfl⟩, hw.1⟩) fun w hw => ?_).bind
      fun B₂ => Triple.and_pre fun h₂ => ?_
  · obtain ⟨part, hpart, hw⟩ := hw
    rw [h₁.2, Ledger.detect_detect] at hw
    exact hcut _ (Set.union_subset_union_right _ hpart) w hw
  have hdue : ∀ ip, ip ∈ expired now B₂ ↔ ip ∈ ℓ.due now args.cooldownSec (s.new b) := fun ip => by
    rw [mem_expired, h₂.2]; rfl
  refine ((expire_spec now hspare h₂.1).weaken (fun _ h => h)
    (R := fun B' w => ∃ new,
      (B'.get? = ℓ.tick now args.cooldownSec (s.new b) ∧ Deleted env fds (expired now B₂) L new) ∧
      Kept env (ds ++ new) (L \ { s | s.text ∈ expired now B₂ }) B'.get? w)
    (fun B₃ w ⟨hB₃, new, hw, hdel⟩ => ⟨new, ⟨by rw [hB₃, h₂.2]; rfl, hdel⟩, hw⟩) fun w hw => ?_).bind
      fun B₃ => Triple.exists_pre fun new => Triple.and_pre fun h₃ => ?_
  · obtain ⟨gone, new, hgone, hw, hdel, hkilled⟩ := hw
    rw [h₂.2] at hw
    exact ⟨new, hkilled, ⟨gone, fun ip hip => (hdue ip).1 (hgone hip), hdel⟩, _, subset_rfl, hw⟩
  have hpublish : ∀ C : World T → Prop, Triple (Kept env (ds ++ new) (L \ { s | s.text ∈ expired now B₂ }) B₃.get?)
      (publish args s B₃) (fun _ => Kept env (ds ++ new) (L \ { s | s.text ∈ expired now B₂ }) B₃.get?) C :=
    fun C => (metric_spec _).bind fun _ => (metric_spec _).bind fun _ =>
      Triple.ite (fun _ => Triple.pure fun _ h => h) fun _ => logLine_spec _
  refine (hpublish _).bind fun _ => Triple.pure fun w hw => ⟨new, h₃.1, ?_, ⟨_, hdue, h₃.2⟩, ?_⟩
  · show Canonical B₃.get?
    rw [h₃.1]
    have := h₂.1.expire now
    rwa [h₂.2] at this
  · simp only [hdue] at hw
    exact hw

variable [Sub T]

/-- The sources that are known to be listed once a tick has looked. -/
def lookedAt (L : Set Source) (fresh : Set Text) (env : ℕ → Interrupt) : Set Source :=
  L ∪ { s | s.text ∈ fresh ∧ ∀ n, (env n).Spares s }

variable (args fds) in
/-- **One tick is one step of the ledger.** -/
theorem tick_spec (hspare : Spared env L) {b : Brain T} (hB : Canonical b.blockedUntil.get?)
    (hw : Kept env ds L b.blockedUntil.get? w) :
    Post
      (fun b' w' => ∃ new, Acted env args fds ds (lookedAt L (noticed env args fds now b w) env) b.blockedUntil.get? now
        (noticed env args fds now b w) new b'.blockedUntil.get? w')
      (fun w' => ∃ new, Cut env args fds ds (lookedAt L (noticed env args fds now b w) env) b.blockedUntil.get? now
        (noticed env args fds now b w) new w')
      (tick env args fds now b w) := by
  obtain ⟨F, hF, hknown⟩ := hw
  have hlook := look_spec args fds hspare now b w hknown
  unfold tick
  cases h : look env args fds now b w with
  | mk w₁ r =>
    rw [h] at hlook
    cases r with
    | none =>
      rw [bind_none h]
      refine ⟨[], hlook.2, ⟨[], fun _ h => (nomatch h), Deleted.nil⟩, ∅, Set.empty_subset _, ?_⟩
      rw [Ledger.detect_empty, List.append_nil]
      exact ⟨F, hF, hlook.1.mono (Set.empty_subset _)⟩
    | some r =>
      obtain ⟨b₁, s⟩ := r
      obtain ⟨hseen, htexts, hb⟩ := hlook
      simp only at hseen htexts hb
      rw [bind_some h, noticed_of_look now h]
      have hL : lookedAt L (s.new b₁) env ⊆ L ∪ s.seen env := by
        rintro s' (hs' | ⟨hnew, hs'⟩)
        · exact Or.inl hs'
        · rcases hnew with ⟨hmem, -⟩ | ⟨hmem, -⟩
          · obtain ⟨a, ha⟩ := htexts.v4 _ hmem
            exact Or.inr (Or.inl ⟨⟨a, Source.text_injective ha⟩, hmem, hs'⟩)
          · obtain ⟨-, a, ha⟩ := htexts.v6 _ hmem
            exact Or.inr (Or.inr ⟨⟨a, Source.text_injective ha⟩, hmem, hs'⟩)
      have hspare' : Spared env (lookedAt L (s.new b₁) env) := by
        rintro s' (hs' | hs')
        · exact hspare s' hs'
        · exact hs'.2
      have hact := act_spec args fds ds now hspare' (b := b₁) (by rw [hb]; exact hB) htexts w₁
        (by rw [hb]; exact ⟨F, hF, hseen.mono hL⟩)
      rw [hb] at hact
      exact hact

end WholeTick

end Tick

end FluxGuard
