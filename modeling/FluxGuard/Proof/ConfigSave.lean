import FluxGuard.Model.ConfigSave
import FluxGuard.Proof.Checkpoint
import FluxGuard.Proof.Config
import FluxGuard.Proof.JsonLocal

/-!
# What `save_config` saves, `load_config` loads

* `asdict_spec`: what is saved of a configuration, field by field.
* `loadConfig_configBytes`: the whole file loads as what was saved.
* `save_load_config`: **whatever `load_config` returns is saved and loaded back**, and saving that again
  changes nothing.
* `interrupted_save_config`: whatever happens during a save, the next load finds the old file, the new one or
  none that it can read.
-/

namespace FluxGuard

open FluxGuardConfig

/-! ## Copies -/

/-- `asdict` copies a list item by item. -/
theorem asdictItems_eq (vs : List Json) : asdictItems vs = vs.map asdictInner := by
  induction vs with
  | nil => rfl
  | cons v vs ih => rw [asdictItems, ih, List.map_cons]

/-- It copies a dict value by value. -/
theorem asdictMembers_eq (ms : List (PyStr × Json)) : asdictMembers ms = ms.map fun m => (m.1, asdictInner m.2) := by
  induction ms with
  | nil => rfl
  | cons m ms ih =>
    obtain ⟨k, v⟩ := m
    rw [asdictMembers, ih, List.map_cons]

/-- The copy of a value that can be written can be written. -/
theorem writable_asdictInner {v : Json} (hv : v.Writable) : (asdictInner v).Writable := by
  induction hv with
  | null => exact .null
  | bool b => exact .bool b
  | int h => exact .int h
  | float x => exact .float x
  | str h => exact .str h
  | @arr vs h ih =>
    rw [asdictInner, asdictItems_eq]
    exact .arr (List.forall_mem_map.2 ih)
  | @obj ms hkeys h ih =>
    rw [asdictInner, asdictMembers_eq]
    have hmem : ∀ m ∈ (Dict.ofItems (ms.map fun m => (m.1, asdictInner m.2))).items, ∃ m' ∈ ms,
        (m'.1, asdictInner m'.2) = m :=
      fun m hm => List.mem_map.1 (Dict.mem_of_ofItems hm)
    refine .obj ?_ ?_
    · intro m hm
      obtain ⟨m', hm', rfl⟩ := hmem m hm
      exact hkeys m' hm'
    · intro m hm
      obtain ⟨m', hm', rfl⟩ := hmem m hm
      exact ih m' hm'

/-- A copy of a copy is the copy. -/
theorem asdictInner_asdictInner {v : Json} (hv : v.Writable) : asdictInner (asdictInner v) = asdictInner v := by
  induction hv with
  | null => rfl
  | bool b => rfl
  | int h => rfl
  | float x => rfl
  | str h => rfl
  | @arr vs h ih =>
    rw [asdictInner, asdictInner, asdictItems_eq, asdictItems_eq, List.map_map]
    exact congrArg Json.arr (List.map_congr_left ih)
  | @obj ms hkeys h ih =>
    rw [asdictInner, asdictInner, asdictMembers_eq, asdictMembers_eq]
    -- the keys of the copy are distinct, and its values are copies
    have hsame : (Dict.ofItems (ms.map fun m => (m.1, asdictInner m.2))).items.map (fun m => (m.1, asdictInner m.2)) =
        (Dict.ofItems (ms.map fun m => (m.1, asdictInner m.2))).items := by
      refine (List.map_congr_left fun m hm => ?_).trans (List.map_id _)
      obtain ⟨m', hm', rfl⟩ := List.mem_map.1 (Dict.mem_of_ofItems hm)
      exact Prod.ext rfl (ih m' hm')
    rw [hsame, Dict.items_ofItems (Dict.nodup _)]

/-! ## What can be saved -/

/-- The attributes have values that can be written. -/
def FluxGuardConfig.Writable (cfg : FluxGuardConfig) : Prop := ∀ m ∈ cfg.dict.items, m.2.Writable

theorem writable_configFields : ∀ f ∈ configFields, f.2.Writable := by
  have hdigits : ∀ n ∈ [1000, 500000, 900, 256, 9090, 8080], (Nat.toDigits 10 n).length ≤ 4300 := by decide
  have hint : ∀ n ∈ [1000, 500000, 900, 256, 9090, 8080], (Json.int (n : ℕ)).Writable := fun n hn => .int (hdigits n hn)
  intro f hf
  simp only [configFields, List.mem_cons, List.not_mem_nil, or_false] at hf
  rcases hf with rfl | rfl | rfl | rfl | rfl | rfl | rfl | rfl | rfl | rfl | rfl | rfl | rfl | rfl | rfl | rfl |
    rfl | rfl | rfl
  · exact .str (joined_pyStr _)
  · exact .str (joined_pyStr _)
  · exact .str (joined_pyStr _)
  · exact hint 1000 (by decide)
  · exact hint 500000 (by decide)
  · exact .float _
  · exact hint 900 (by decide)
  · exact hint 256 (by decide)
  · exact .float _
  · exact .str (joined_pyStr _)
  · exact .str (joined_pyStr _)
  · exact .str (joined_pyStr _)
  · exact hint 9090 (by decide)
  · exact .str (joined_pyStr _)
  · exact hint 8080 (by decide)
  · exact .str List.isChain_nil
  · exact .arr (by simp)
  · exact .bool false
  · exact .bool true

/-- The defaults can be written. -/
theorem writable_default : FluxGuardConfig.default.Writable := by
  unfold FluxGuardConfig.Writable
  rw [items_default]
  exact writable_configFields

variable {other : PyStr → Bool} {cfg : FluxGuardConfig}

/-- A value that can be written may be set. -/
theorem FluxGuardConfig.Writable.set (h : cfg.Writable) (key : PyStr) {val : Json} (hval : val.Writable) :
    FluxGuardConfig.Writable ⟨cfg.dict.set key val⟩ := by
  intro m hm
  have hget := Dict.mem_items_iff.1 (show (m.1, m.2) ∈ (cfg.dict.set key val).items from hm)
  rw [Dict.get?_set] at hget
  split at hget
  · rw [← Option.some.inj hget]
    exact hval
  · exact h (m.1, m.2) (Dict.mem_items_iff.2 hget)

theorem writable_of_mem_obj {members : List (PyStr × Json)} (h : (Json.obj members).Writable) :
    ∀ m ∈ members, m.2.Writable := by
  cases h with
  | obj hkeys hvals => exact hvals

/-- So may it through `setattr`. -/
theorem FluxGuardConfig.Writable.setattr (h : cfg.Writable) {key : PyStr} {val : Json} (hval : val.Writable)
    {cfg' : FluxGuardConfig} (hset : cfg.setattr key val = .ok cfg') : cfg'.Writable := by
  unfold FluxGuardConfig.setattr at hset
  split at hset
  · cases hset
  · cases hset
  · split at hset
    · cases hset
      intro m hm
      exact writable_of_mem_obj hval m (Dict.mem_of_ofItems hm)
    · cases hset
  · cases hset
    exact h.set key hval

/-- A file whose values can be written leaves a configuration that can. -/
theorem FluxGuardConfig.Writable.assign (h : cfg.Writable) {items : List (PyStr × Json)}
    (hitems : ∀ m ∈ items, m.2.Writable) :
    (cfg.assign other items).1.Writable := by
  induction items generalizing cfg with
  | nil => exact h
  | cons m items ih =>
    obtain ⟨key, val⟩ := m
    rw [List.forall_mem_cons] at hitems
    rw [FluxGuardConfig.assign]
    split
    · split
      · rename_i cfg' hset
        exact ih (h.setattr hitems.1 hset) hitems.2
      · exact h
    · exact ih h hitems.2

/-- **Every configuration that is loaded can be written.** -/
theorem writable_loadConfig (other : PyStr → Bool) (file : ConfigFile) : (loadConfig other file).1.Writable := by
  cases hobj : file.object with
  | none =>
    rw [loadConfig_no_object other hobj]
    exact writable_default
  | some values =>
    cases file with
    | missing => cases hobj
    | unreadable => cases hobj
    | content bytes =>
      unfold ConfigFile.object at hobj
      unfold loadConfig
      dsimp only at hobj ⊢
      split at hobj
      · rename_i members hparse
        cases hobj
        obtain ⟨text, -, hload⟩ := Option.bind_eq_some_iff.1 hparse
        rw [hparse]
        exact writable_default.assign fun m hm =>
          writable_of_mem_obj (writable_of_loads hload) m (Dict.mem_of_ofItems hm)
      · cases hobj

/-- An attribute of a configuration that can be written can be written. -/
theorem FluxGuardConfig.Writable.getattr (h : cfg.Writable) {key : PyStr} {val : Json}
    (hval : cfg.getattr key = some val) :
    val.Writable := by
  unfold FluxGuardConfig.getattr at hval
  rcases Option.or_eq_some_iff.1 hval with hown | ⟨-, hclass⟩
  · exact h (key, val) (Dict.mem_items_iff.2 hown)
  · unfold classAttr at hclass
    split at hclass
    · cases hclass
    · exact writable_configFields _ (Dict.mem_of_ofItems (Dict.mem_items_iff.2 hclass))

/-! ## What is saved -/

/-- The fields of the class are those of the object, and all are set. -/
structure FluxGuardConfig.Complete (cfg : FluxGuardConfig) : Prop where
  own : pyName "__dataclass_fields__" ∉ cfg.dict
  drop : (cfg.getattr (pyName "drop_protocols")).isSome = true

/-- Every field but the list of protocols has a class attribute. -/
theorem isSome_classAttr {key : PyStr} (h : key ∈ configNames) (hne : key ≠ pyName "drop_protocols") :
    (classAttr key).isSome = true := by
  unfold classAttr
  rw [if_neg hne]
  refine Dict.mem_iff_isSome.1 ?_
  rw [Dict.mem_def, show (Dict.ofItems configFields).items = configFields from items_default]
  exact h

/-- A complete configuration has every field. -/
theorem FluxGuardConfig.Complete.isSome (h : cfg.Complete) {key : PyStr} (hkey : key ∈ configNames) :
    (cfg.getattr key).isSome = true := by
  by_cases hdrop : key = pyName "drop_protocols"
  · rw [hdrop]
    exact h.drop
  · unfold FluxGuardConfig.getattr
    rw [Option.isSome_or, isSome_classAttr hkey hdrop, Bool.or_true]

theorem mapM_eq_map {α β : Type} {f : α → Option β} {g : α → β} {l : List α} (h : ∀ a ∈ l, f a = some (g a)) :
    l.mapM f = some (l.map g) := by
  induction l with
  | nil => rfl
  | cons a l ih =>
    rw [List.forall_mem_cons] at h
    rw [List.mapM_cons, h.1, ih h.2]
    rfl

/-- The copies of the fields. -/
def FluxGuardConfig.copies (cfg : FluxGuardConfig) : List (PyStr × Json) :=
  configNames.map fun key => (key, asdictInner ((cfg.getattr key).getD .null))

/-- The copies are of the fields, in order. -/
theorem keys_copies (cfg : FluxGuardConfig) : cfg.copies.map Prod.fst = configNames := by
  unfold FluxGuardConfig.copies
  rw [List.map_map]
  exact List.map_id configNames

/-- The dict of a complete configuration is that of its copies. -/
theorem asdict_copies (h : cfg.Complete) : cfg.asdict = some (Dict.ofItems cfg.copies) := by
  have hfields : cfg.fields = some configNames := by
    unfold FluxGuardConfig.fields
    rw [Dict.get?_eq_none_iff.2 h.own]
  have hitems : configNames.mapM (fun key => (cfg.getattr key).map fun val => (key, asdictInner val)) =
      some cfg.copies := by
    refine mapM_eq_map fun key hkey => ?_
    obtain ⟨val, hval⟩ := Option.isSome_iff_exists.1 (h.isSome hkey)
    rw [hval, Option.getD_some, Option.map_some]
  unfold FluxGuardConfig.asdict
  rw [hfields]
  simp only [Option.bind_eq_bind, Option.bind_some, hitems]

/-- **What `asdict` copies**: every field, under its name and with its value. -/
theorem asdict_spec (h : cfg.Complete) :
    ∃ d, cfg.asdict = some d ∧ d.keys = configNames ∧
      ∀ key ∈ configNames, d.get? key = (cfg.getattr key).map asdictInner := by
  have hdict : (Dict.ofItems cfg.copies).items = cfg.copies :=
    Dict.items_ofItems (by rw [keys_copies]; exact nodup_configNames)
  refine ⟨_, asdict_copies h, ?_, fun key hkey => ?_⟩
  · unfold Dict.keys
    rw [hdict, keys_copies]
  · obtain ⟨val, hval⟩ := Option.isSome_iff_exists.1 (h.isSome hkey)
    rw [hval, Option.map_some, ← Dict.mem_items_iff, hdict]
    exact List.mem_map.2 ⟨key, hkey, by rw [hval, Option.getD_some]⟩

/-- Configurations whose fields have the same copies are saved alike. -/
theorem asdict_congr {cfg' : FluxGuardConfig} (h : cfg.Complete) (h' : cfg'.Complete)
    (hsame : ∀ key ∈ configNames, (cfg'.getattr key).map asdictInner = (cfg.getattr key).map asdictInner) :
    cfg'.asdict = cfg.asdict := by
  have hcopies : cfg'.copies = cfg.copies := by
    refine List.map_congr_left fun key hkey => ?_
    have hvals := hsame key hkey
    obtain ⟨val, hval⟩ := Option.isSome_iff_exists.1 (h.isSome hkey)
    obtain ⟨val', hval'⟩ := Option.isSome_iff_exists.1 (h'.isSome hkey)
    rw [hval, hval'] at hvals ⊢
    exact congrArg (Prod.mk key) (Option.some.inj hvals)
  rw [asdict_copies h, asdict_copies h', hcopies]

/-! ## Loading it back -/

variable {d : Dict PyStr Json}

theorem descriptor_configNames : ∀ key ∈ configNames, descriptor key = none := by decide +kernel

theorem joined_configNames : ∀ key ∈ configNames, Joined key := by
  unfold Joined
  decide +kernel

theorem mem_of_mapM {α β : Type} {f : α → Option β} {l : List α} {bs : List β} (h : l.mapM f = some bs) :
    ∀ b ∈ bs, ∃ a ∈ l, f a = some b := by
  induction l generalizing bs with
  | nil =>
    cases h
    exact fun b hb => nomatch hb
  | cons a l ih =>
    rw [List.mapM_cons] at h
    obtain ⟨b, hb, h⟩ := Option.bind_eq_some_iff.1 h
    obtain ⟨bs', hbs, h⟩ := Option.bind_eq_some_iff.1 h
    cases h
    refine List.forall_mem_cons.2 ⟨⟨a, List.mem_cons_self, hb⟩, fun b' hb' => ?_⟩
    obtain ⟨a', ha', hf⟩ := ih hbs b' hb'
    exact ⟨a', List.mem_cons_of_mem a ha', hf⟩

/-- What is saved can be written. -/
theorem writable_asdict (hw : cfg.Writable) (h : cfg.asdict = some d) : (Json.obj d.items).Writable := by
  obtain ⟨names, hnames, h⟩ := Option.bind_eq_some_iff.1 h
  obtain ⟨items, hitems, h⟩ := Option.bind_eq_some_iff.1 h
  cases h
  have hsub : ∀ key ∈ names, key ∈ configNames := by
    unfold FluxGuardConfig.fields at hnames
    split at hnames
    · cases hnames
      exact fun key hkey => hkey
    · cases hnames
      exact fun key hkey => nomatch hkey
    · cases hnames
  have hmem : ∀ m ∈ (Dict.ofItems items).items, m.1 ∈ configNames ∧ m.2.Writable := by
    intro m hm
    obtain ⟨key, hkey, hfield⟩ := mem_of_mapM hitems m (Dict.mem_of_ofItems hm)
    obtain ⟨val, hval, rfl⟩ := Option.map_eq_some_iff.1 hfield
    exact ⟨hsub key hkey, writable_asdictInner (hw.getattr hval)⟩
  exact .obj (fun m hm => joined_configNames _ (hmem m hm).1) fun m hm => (hmem m hm).2

/-- **The whole file loads as what was saved.** -/
theorem loadConfig_configBytes (other : PyStr → Bool) (hw : (Json.obj d.items).Writable)
    (hkeys : d.keys = configNames) :
    (loadConfig other (.content (configBytes d))).2 = none ∧
      (loadConfig other (.content (configBytes d))).1.Holds d := by
  have hobj : (ConfigFile.content (configBytes d)).object = some d := by
    unfold ConfigFile.object configBytes
    dsimp only
    rw [decodeUtf8_encodeUtf8, Option.bind_some, loads_dumps _ hw]
    exact congrArg some (Dict.ext_items (Dict.items_ofItems d.nodup))
  have hplain : ∀ m ∈ d.items, descriptor m.1 = none ∧ (other m.1 = true → m.1 ∈ configNames) := by
    intro m hm
    have hmem : m.1 ∈ configNames := hkeys ▸ List.mem_map.2 ⟨m, hm, rfl⟩
    exact ⟨descriptor_configNames _ hmem, fun _ => hmem⟩
  constructor
  · have hreport := (loadConfig_object other hobj).2
    have hnone : d.items.any refuses = false := by
      rw [List.any_eq_false]
      intro m hm
      rw [refuses_of_plain (hplain m hm).1]
      exact Bool.false_ne_true
    rw [hnone, Option.isSome_eq_false_iff, Option.isNone_iff_eq_none] at hreport
    exact hreport
  · have hall : AllOrNothing other (.content (configBytes d)) := by
      refine all_or_nothing_plain fun values hvalues => ?_
      cases hobj.symm.trans hvalues
      exact hplain
    exact hall.all d hobj

/-- A file that is cut short is reported, and the defaults stay. -/
theorem loadConfig_cut (other : PyStr → Bool) (hw : (Json.obj d.items).Writable) {bytes : List UInt8}
    (hp : bytes <+: configBytes d)
    (hne : bytes ≠ configBytes d) : loadConfig other (.content bytes) = (.default, some .malformed) := by
  have hnone : (decodeUtf8 bytes).bind loads = none := by
    cases h : decodeUtf8 bytes with
    | none => rfl
    | some p =>
      have hcut : p ≠ dumps (.indented 2) (.obj d.items) := by
        rintro rfl
        exact hne (encodeUtf8_of_decodeUtf8 h).symm
      exact loads_dumps_cut _ hw (prefix_of_decodeUtf8 hp h) hcut
  unfold loadConfig
  dsimp only
  rw [hnone]

/-! ## The disk -/

section Disk

open Checkpoint Proc

variable {bytes left : List UInt8}

/-- A file that is closed without an error holds everything. -/
theorem close_whole (w : Write) (raised : Bool) :
    Triple (Written bytes left) (close w left raised)
      (fun _ g => Piece bytes g ∧ (raised = false → w.outcome ≠ .error → g = some bytes)) (Piece bytes) := by
  intro g hg
  have hspec : Triple (Written bytes left) (close w left raised) (fun _ => Piece bytes) (Piece bytes) :=
    close_spec w raised
  have hpiece := hspec g hg
  obtain ⟨done, rfl, hdone⟩ := hg
  unfold close at hpiece ⊢
  cases hw : w.outcome with
  | ok =>
    rw [hw] at hpiece
    refine ⟨hpiece, fun hraised _ => ?_⟩
    subst hraised
    exact congrArg some hdone
  | error =>
    rw [hw] at hpiece
    exact ⟨hpiece, fun _ hne => absurd rfl hne⟩
  | kill =>
    rw [hw] at hpiece
    exact hpiece

variable (disk : Disk) (cfg : FluxGuardConfig) (f : File)

/-- What an exception or a kill can leave of a save. -/
def Interrupted (g : File) : Prop := g = f ∨ g = some [] ∨ ∃ d, cfg.asdict = some d ∧ Piece (configBytes d) g

/-- **A save that returns has written every byte**; one that does not leaves the old file or a piece of the new one. -/
theorem saveConfig_spec : Triple (· = f) (saveConfig disk cfg)
    (fun _ g => ∃ d, cfg.asdict = some d ∧ g = some (configBytes d)) (Interrupted cfg f) := by
  have hold : Triple (· = f) (Proc.abort : Proc File Unit)
    (fun _ g => ∃ d, cfg.asdict = some d ∧ g = some (configBytes d))
      (Interrupted cfg f) := Triple.abort fun _ h => Or.inl h
  unfold saveConfig
  cases hm : disk.makedirs with
  | kill => exact hold
  | error => exact hold
  | ok =>
    cases ho : disk.openFile with
    | kill => exact hold
    | error => exact hold
    | ok =>
      cases hd : cfg.asdict with
      | none =>
        -- there is nothing to flush
        have hopen : Triple (· = f) (Proc.modify fun _ => some []) (fun _ => Written [] []) (Interrupted cfg f) :=
          Triple.modify fun _ _ => ⟨[], rfl, rfl⟩
        have hempty : ∀ g, Piece [] g → Interrupted cfg f g := by
          rintro g ⟨done, rfl, hdone⟩
          exact Or.inr (Or.inl (congrArg some (List.prefix_nil.1 hdone)))
        refine hopen.bind fun _ => ?_
        exact ((close_spec disk.close true).weaken (fun _ h => h) (fun _ _ h => h) hempty).bind fun _ =>
          Triple.abort hempty
      | some d =>
        have hpiece : ∀ g, Piece (configBytes d) g → Interrupted cfg f g := fun g h => Or.inr (Or.inr ⟨d, hd, h⟩)
        have hopen : Triple (· = f) (Proc.modify fun _ => some []) (fun _ => Written (configBytes d) (configBytes d))
            (Interrupted cfg f) := Triple.modify fun _ _ => ⟨[], rfl, rfl⟩
        refine hopen.bind fun _ =>
          ((dump_spec disk.writes (configBytes d)).weaken (fun _ h => h) (fun _ _ h => h) hpiece).bind ?_
        rintro ⟨left, raised⟩
        refine ((close_whole disk.close raised).weaken (fun _ h => h) (fun _ _ h => h) hpiece).bind fun _ => ?_
        refine Triple.ite (fun _ => Triple.abort fun g h => hpiece g h.1) fun hok => Triple.pure fun g h => ?_
        rw [not_or, Bool.not_eq_true] at hok
        exact ⟨d, rfl, h.2 hok.1 hok.2⟩

/-- A dump in which every write goes through does not raise. -/
theorem dump_ok (ws : List ℕ) (left : List UInt8) (f : File) :
    ∃ g left', dump (ws.map (⟨·, .ok⟩)) left f = (g, some (left', false)) := by
  induction ws generalizing left f with
  | nil => exact ⟨f, left, rfl⟩
  | cons n ws ih => exact ih (left.drop n) (some (f.getD [] ++ left.take n))

/-- On a working file the whole text is written. -/
theorem saveConfig_working {cfg : FluxGuardConfig} (h : cfg.asdict = some d) (writes : List ℕ) (f : File) :
    saveConfig (.working writes) cfg f = (some (configBytes d), some ()) := by
  have hspec := saveConfig_spec (.working writes) cfg f f rfl
  have hreturns : (saveConfig (.working writes) cfg f).2 = some () := by
    obtain ⟨g, left, hdump⟩ := dump_ok writes (configBytes d) (some [])
    have hrun : saveConfig (.working writes) cfg f =
        ((dump (writes.map (⟨·, .ok⟩)) (configBytes d) >>= fun r => do
          close ⟨0, .ok⟩ r.1 r.2
          if r.2 = true ∨ Outcome.ok = .error then Proc.abort else pure ()) (some []) : File × Option Unit) := by
      unfold saveConfig Disk.working
      rw [h]
      rfl
    rw [hrun, bind_some hdump]
    rfl
  cases hs : saveConfig (.working writes) cfg f with
  | mk g r =>
    rw [hs] at hspec hreturns
    cases hreturns
    obtain ⟨d', hd', rfl⟩ := hspec
    cases h.symm.trans hd'
    rfl

end Disk

/-! ## Round trips -/

/-- A configuration that holds its values is complete. -/
theorem FluxGuardConfig.Holds.complete {values : Dict PyStr Json} (h : cfg.Holds values) : cfg.Complete where
  own hmem := absurd (h.others _ hmem) (by decide +kernel)
  drop := by
    have hmem : (pyName "drop_protocols", Json.arr []) ∈ configFields := by simp [configFields]
    rw [h.fields _ hmem]
    rfl

/-- A configuration that can be written is loaded back, field by field. -/
theorem saveConfig_roundtrip (other : PyStr → Bool) (hw : cfg.Writable) (h : cfg.Complete) (writes : List ℕ)
    (f : Checkpoint.File) :
    ∃ d, saveConfig (.working writes) cfg f = (some (configBytes d), some ()) ∧
      (loadConfig other (.content (configBytes d))).2 = none ∧
      (∀ key ∈ configNames, (loadConfig other (.content (configBytes d))).1.getattr key =
        (cfg.getattr key).map asdictInner) ∧
      (loadConfig other (.content (configBytes d))).1.asdict = cfg.asdict := by
  obtain ⟨d, hd, hkeys, hget⟩ := asdict_spec h
  obtain ⟨hreport, hholds⟩ := loadConfig_configBytes other (writable_asdict hw hd) hkeys
  have hfield : ∀ key ∈ configNames,
      (loadConfig other (.content (configBytes d))).1.getattr key = (cfg.getattr key).map asdictInner := by
    intro key hkey
    obtain ⟨field, hf, rfl⟩ := List.mem_map.1 hkey
    obtain ⟨val, hval⟩ := Option.isSome_iff_exists.1 (h.isSome hkey)
    rw [hholds.fields field hf, hget field.1 hkey, hval]
    rfl
  refine ⟨d, saveConfig_working hd writes f, hreport, hfield, asdict_congr h hholds.complete fun key hkey => ?_⟩
  rw [hfield key hkey]
  cases hval : cfg.getattr key with
  | none => rfl
  | some val => exact congrArg some (asdictInner_asdictInner (hw.getattr hval))

/-- **Whatever `load_config` returns is saved and loaded back**, field by field and without a warning; and what is
loaded back is saved as the same file. -/
theorem save_load_config (other : PyStr → Bool) (file : ConfigFile) (h : (loadConfig other file).1.Complete)
    (writes : List ℕ)
    (f : Checkpoint.File) :
    let cfg := (loadConfig other file).1
    let saved := saveConfig (.working writes) cfg f
    let loaded := loadConfig other (.ofBytes saved.1)
    saved.2 = some () ∧ loaded.2 = none ∧
      (∀ key ∈ configNames, loaded.1.getattr key = (cfg.getattr key).map asdictInner) ∧
        loaded.1.asdict = cfg.asdict := by
  obtain ⟨d, hsaved, hloaded⟩ := saveConfig_roundtrip other (writable_loadConfig other file) h writes f
  simp only [hsaved]
  exact ⟨trivial, hloaded⟩

/-- `{"api_port": 9999, "verbose": true}` -/
def portText : Text := "\x7b\"api_port\": 9999, \"verbose\": true\x7d".toList

/-- Two settings, the rest left out. -/
def portValues : Dict PyStr Json := Dict.ofItems [(pyName "api_port", .int 9999), (pyName "verbose", .bool true)]

theorem holds_port : (loadConfig (fun _ => false) (.content (encodeUtf8 portText))).1.Holds portValues := by
  have hloads : loads portText = some (.obj [(pyName "api_port", .int 9999), (pyName "verbose", .bool true)]) := rfl
  have hobj : (ConfigFile.content (encodeUtf8 portText)).object = some portValues := by
    unfold ConfigFile.object
    dsimp only
    rw [decodeUtf8_encodeUtf8, Option.bind_some, hloads]
    rfl
  refine (all_or_nothing_plain fun values hvalues => ?_).all portValues hobj
  cases hobj.symm.trans hvalues
  have hkeys : ∀ m ∈ portValues.items, descriptor m.1 = none := by decide +kernel
  exact fun m hm => ⟨hkeys m hm, fun h => nomatch h⟩

theorem save_load_port : (loadConfig (fun _ => false) (.ofBytes (saveConfig (.working [100])
    (loadConfig (fun _ => false) (.content (encodeUtf8 portText))).1 none).1)).1.getattr (pyName "api_port") =
      some (.int 9999) := by
  have hport : (pyName "api_port", Json.int 8080) ∈ configFields := by simp [configFields]
  rw [(save_load_config (fun _ => false) (.content (encodeUtf8 portText)) holds_port.complete [100] none).2.2.1 _
    (List.mem_map.2 ⟨_, hport, rfl⟩), holds_port.fields _ hport]
  rfl

/-- **Whatever happens during a save**, the next load finds what it would have found before it, or defaults that it
warns of, or the file that was to be saved; and a save that returns has saved it. -/
theorem interrupted_save_config (other : PyStr → Bool) (file : ConfigFile) (disk : Checkpoint.Disk)
    (f : Checkpoint.File) :
    let cfg := (loadConfig other file).1
    let saved := saveConfig disk cfg f
    let loaded := loadConfig other (.ofBytes saved.1)
    saved.2 = none ∧ loaded = loadConfig other (.ofBytes f) ∨
      saved.2 = none ∧ loaded = (.default, some .malformed) ∨
      ∃ d, cfg.asdict = some d ∧ saved.1 = some (configBytes d) := by
  intro cfg saved loaded
  have hw : cfg.Writable := writable_loadConfig other file
  have hspec := saveConfig_spec disk cfg f f rfl
  obtain ⟨g, r, hs⟩ : ∃ g r, saved = (g, r) := ⟨_, _, rfl⟩
  have hloaded : loaded = loadConfig other (.ofBytes g) := by
    show loadConfig other (.ofBytes saved.1) = _
    rw [hs]
  rw [show saveConfig disk cfg f = (g, r) from hs] at hspec
  rw [hloaded, hs]
  cases r with
  | some u => exact Or.inr (Or.inr hspec)
  | none =>
    rcases hspec with rfl | rfl | ⟨d, hd, bytes, rfl, hp⟩
    · exact Or.inl ⟨rfl, rfl⟩
    · exact Or.inr (Or.inl ⟨rfl, rfl⟩)
    · by_cases hne : bytes = configBytes d
      · exact Or.inr (Or.inr ⟨d, hd, by rw [hne]⟩)
      · exact Or.inr (Or.inl ⟨rfl, loadConfig_cut other (writable_asdict hw hd) hp hne⟩)

end FluxGuard
