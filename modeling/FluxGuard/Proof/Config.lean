import FluxGuard.Model.Config
import FluxGuard.Proof.Json

/-!
# What `load_config` loads

The loop assigns to a live object, so that the outcome hangs on names that are no fields: a key
that `setattr` refuses ends the loop half-way, `__dict__` replaces all attributes at once, and a
name of the class is assigned like a field.

* `assign_spec`: what the loop leaves, name by name.
* `all_or_nothing_iff`: a file is loaded all or nothing if and only if none of this matters.
* `all_or_nothing_plain`: in particular when its keys are fields or no attributes at all.
-/

namespace FluxGuard

open FluxGuardConfig

variable (other : PyStr → Bool)

/-! ## The keys of a file -/

/-- `setattr` refuses to assign this value to this name. -/
def refuses (m : PyStr × Json) : Bool :=
  match descriptor m.1, m.2 with
  | some .dict, .obj _ => false
  | some _, _ => true
  | none, _ => false

theorem refuses_of_plain {m : PyStr × Json} (h : descriptor m.1 = none) : refuses m = false := by
  unfold refuses
  rw [h]

/-- A member that is refused raises. -/
theorem setattr_of_refuses (cfg : FluxGuardConfig) {key : PyStr} {val : Json} (h : refuses (key, val) = true) :
    ∃ e, cfg.setattr key val = .error e := by
  unfold refuses at h
  unfold setattr
  cases hd : descriptor key with
  | none =>
    rw [hd] at h
    cases h
  | some d =>
    rw [hd] at h
    cases d with
    | cls => exact ⟨_, rfl⟩
    | weakref => exact ⟨_, rfl⟩
    | dict =>
      cases val with
      | obj members => cases h
      | null => exact ⟨_, rfl⟩
      | bool b => exact ⟨_, rfl⟩
      | int z => exact ⟨_, rfl⟩
      | float x => exact ⟨_, rfl⟩
      | str s => exact ⟨_, rfl⟩
      | arr l => exact ⟨_, rfl⟩

/-- The only descriptor that takes a value from a file is `__dict__`, and it takes objects. -/
theorem of_not_refuses {key : PyStr} {val : Json} {d : Descriptor} (hd : descriptor key = some d)
    (h : refuses (key, val) = false) : d = .dict ∧ ∃ members, val = .obj members := by
  unfold refuses at h
  rw [hd] at h
  cases d with
  | cls => cases h
  | weakref => cases h
  | dict =>
    cases val with
    | obj members => exact ⟨rfl, members, rfl⟩
    | null => cases h
    | bool b => cases h
    | int z => cases h
    | float x => cases h
    | str s => cases h
    | arr l => cases h

/-- One more key: `__dict__` makes everything before it void. -/
def restart (p : Dict PyStr Json × List (PyStr × Json)) (m : PyStr × Json) : Dict PyStr Json × List (PyStr × Json) :=
  match descriptor m.1, m.2 with
  | some .dict, .obj members => (Dict.ofItems members, [])
  | _, _ => (p.1, p.2 ++ [m])

/-- A plain member is assigned after those before it. -/
theorem restart_of_plain {p : Dict PyStr Json × List (PyStr × Json)} {m : PyStr × Json} (h : descriptor m.1 = none) :
    restart p m = (p.1, p.2 ++ [m]) := by
  unfold restart
  rw [h]

/-- A new `__dict__` forgets what was assigned before it. -/
theorem restart_dict {p : Dict PyStr Json × List (PyStr × Json)} {key : PyStr} (h : descriptor key = some .dict)
    (members : List (PyStr × Json)) : restart p (key, .obj members) = (Dict.ofItems members, []) := by
  unfold restart
  rw [h]

/-- The attributes to start from and the keys that are then assigned: those up to the first that is refused. -/
def startingPoint (items : List (PyStr × Json)) : Dict PyStr Json × List (PyStr × Json) :=
  (items.takeWhile fun m => !refuses m).foldl restart (FluxGuardConfig.default.dict, [])

/-- The value of a key in a list of items. -/
def entry (items : List (PyStr × Json)) (key : PyStr) : Option Json := (items.find? fun m => m.1 = key).map Prod.snd

/-- The last of two equal keys counts. -/
theorem entry_append (items : List (PyStr × Json)) (key : PyStr) (val : Json) (name : PyStr) :
    entry (items ++ [(key, val)]) name = (entry items name).or (if name = key then some val else none) := by
  unfold entry
  rw [List.find?_append, Option.map_or, List.find?_singleton]
  congr 1
  by_cases h : name = key
  · simp [h]
  · simp [h, Ne.symm h]

theorem entry_eq_none_iff {items : List (PyStr × Json)} {key : PyStr} :
    entry items key = none ↔ key ∉ items.map Prod.fst := by
  unfold entry
  rw [Option.map_eq_none_iff, List.find?_eq_none]
  simp only [List.mem_map, not_exists, not_and, decide_eq_true_eq]

/-- What is found is in the file. -/
theorem mem_of_entry {items : List (PyStr × Json)} {key : PyStr} {val : Json} (h : entry items key = some val) :
    (key, val) ∈ items := by
  obtain ⟨m, hm, rfl⟩ := Option.map_eq_some_iff.1 h
  have hkey := List.find?_some hm
  rw [decide_eq_true_iff] at hkey
  subst hkey
  exact List.mem_of_find?_eq_some hm

/-- The keys that are assigned are keys of the file, and none for a descriptor. -/
theorem mem_foldl_restart {items : List (PyStr × Json)} (hok : ∀ m ∈ items, refuses m = false)
    {p : Dict PyStr Json × List (PyStr × Json)} {m : PyStr × Json} (h : m ∈ (items.foldl restart p).2) :
    m ∈ p.2 ∨ m ∈ items ∧ descriptor m.1 = none := by
  induction items generalizing p with
  | nil => exact Or.inl h
  | cons q items ih =>
    rw [List.forall_mem_cons] at hok
    rw [List.foldl_cons] at h
    rcases ih hok.2 h with h | ⟨h, hd⟩
    · obtain ⟨key, val⟩ := q
      cases hq : descriptor key with
      | none =>
        rw [restart_of_plain hq, List.mem_append] at h
        rcases h with h | h
        · exact Or.inl h
        · cases List.mem_singleton.1 h
          exact Or.inr ⟨List.mem_cons_self, hq⟩
      | some d =>
        obtain ⟨rfl, members, rfl⟩ := of_not_refuses hq hok.1
        rw [restart_dict hq] at h
        cases h
    · exact Or.inr ⟨List.mem_cons_of_mem q h, hd⟩

/-- After the last `__dict__` the members are plain. -/
theorem mem_startingPoint {items : List (PyStr × Json)} {m : PyStr × Json} (h : m ∈ (startingPoint items).2) :
    m ∈ items ∧ descriptor m.1 = none := by
  have hok : ∀ m ∈ items.takeWhile fun m => !refuses m, refuses m = false := by
    intro m hm
    simpa using List.mem_takeWhile_imp hm
  rcases mem_foldl_restart hok h with h | ⟨h, hd⟩
  · cases h
  · exact ⟨(List.takeWhile_sublist _).subset h, hd⟩

/-! ## The loop -/

/-- The attributes after some keys have been assigned: those that were attributes have their values. -/
def Assigned (base : Dict PyStr Json) (keys : List (PyStr × Json)) (cfg : FluxGuardConfig) : Prop :=
  ∀ name, cfg.dict.get? name =
    if hasattr other ⟨base⟩ name then (entry keys name).or (base.get? name) else base.get? name

variable {other} {base : Dict PyStr Json} {keys : List (PyStr × Json)} {cfg : FluxGuardConfig}

/-- Before the first member the attributes are those of the start. -/
theorem Assigned.start (base : Dict PyStr Json) : Assigned other base [] ⟨base⟩ := by
  intro name
  split <;> rfl

/-- Assigning makes no name an attribute that was none. -/
theorem Assigned.hasattr (h : Assigned other base keys cfg) (name : PyStr) :
    cfg.hasattr other name = FluxGuardConfig.hasattr other ⟨base⟩ name := by
  have hname := h name
  cases hbase : FluxGuardConfig.hasattr other ⟨base⟩ name with
  | false =>
    rw [hbase, if_neg Bool.false_ne_true] at hname
    unfold FluxGuardConfig.hasattr getattr at hbase ⊢
    rw [hname]
    exact hbase
  | true =>
    rw [hbase, if_pos rfl] at hname
    unfold FluxGuardConfig.hasattr getattr at hbase ⊢
    rw [hname]
    cases hentry : entry keys name with
    | none => exact hbase
    | some v => simp

/-- A member sets its attribute when the object has one of that name. -/
theorem Assigned.cons (h : Assigned other base keys cfg) {key : PyStr} (hkey : key ∉ keys.map Prod.fst) (val : Json) :
    Assigned other base (keys ++ [(key, val)]) (if cfg.hasattr other key then ⟨cfg.dict.set key val⟩ else cfg) := by
  intro name
  rw [h.hasattr key, entry_append]
  by_cases hname : name = key
  · subst hname
    have hnone : entry keys name = none := entry_eq_none_iff.2 hkey
    rw [if_pos rfl, hnone]
    cases hbase : FluxGuardConfig.hasattr other ⟨base⟩ name with
    | true => simp
    | false =>
      have := h name
      rw [hbase] at this
      simpa using this
  · rw [if_neg hname, Option.or_none, ← h name]
    split
    · exact Dict.get?_set_ne _ _ hname
    · rfl

/-! Its three kinds of steps: a plain name, a value that is refused, and `__dict__`. -/

variable {key : PyStr} {val : Json} {items : List (PyStr × Json)}

/-- A plain member is set, and the rest assigned. -/
theorem assign_plain (h : descriptor key = none) :
    cfg.assign other ((key, val) :: items) =
      FluxGuardConfig.assign other (if cfg.hasattr other key then ⟨cfg.dict.set key val⟩ else cfg) items := by
  have hset : cfg.setattr key val = .ok ⟨cfg.dict.set key val⟩ := by
    unfold setattr
    rw [h]
  rw [FluxGuardConfig.assign, hset]
  split
  · rfl
  · rfl

/-- An object has every attribute of its class. -/
theorem hasattr_descriptor {d : Descriptor} (h : descriptor key = some d) : cfg.hasattr other key = true := by
  unfold FluxGuardConfig.hasattr
  rw [h]
  rfl

variable (other cfg items) in
/-- At a member that is refused the assignment ends. -/
theorem assign_refused (h : refuses (key, val) = true) :
    ∃ e, cfg.assign other ((key, val) :: items) = (cfg, some e) := by
  obtain ⟨e, he⟩ := setattr_of_refuses cfg h
  cases hd : descriptor key with
  | none =>
    rw [refuses_of_plain hd] at h
    cases h
  | some d =>
    refine ⟨e, ?_⟩
    rw [FluxGuardConfig.assign, hasattr_descriptor hd, if_pos rfl, he]

/-- A new `__dict__` is where the rest goes on from. -/
theorem assign_dict (h : descriptor key = some .dict) (members : List (PyStr × Json)) :
    cfg.assign other ((key, .obj members) :: items) = FluxGuardConfig.assign other ⟨Dict.ofItems members⟩ items := by
  have hset : cfg.setattr key (.obj members) = .ok ⟨Dict.ofItems members⟩ := by
    unfold setattr
    rw [h]
  rw [FluxGuardConfig.assign, hasattr_descriptor h, if_pos rfl, hset]

/-- **The loop**, from any point of it: what it leaves, and whether it ends with an exception. -/
theorem assign_spec (h : Assigned other base keys cfg) (hnodup : ((keys ++ items).map Prod.fst).Nodup) :
    Assigned other ((items.takeWhile fun m => !refuses m).foldl restart (base, keys)).1
        ((items.takeWhile fun m => !refuses m).foldl restart (base, keys)).2 (cfg.assign other items).1 ∧
      (cfg.assign other items).2.isSome = items.any refuses := by
  induction items generalizing base keys cfg with
  | nil => exact ⟨h, rfl⟩
  | cons m items ih =>
    obtain ⟨key, val⟩ := m
    rw [List.any_cons]
    cases hrefuses : refuses (key, val) with
    -- the loop ends here
    | true =>
      obtain ⟨e, he⟩ := assign_refused other cfg items hrefuses
      rw [he, List.takeWhile_cons_of_neg (by simp [hrefuses])]
      exact ⟨h, rfl⟩
    | false =>
      rw [List.takeWhile_cons_of_pos (by rw [hrefuses]; rfl), List.foldl_cons, Bool.false_or]
      rw [List.map_append, List.map_cons, List.nodup_append] at hnodup
      cases hd : descriptor key with
      | none =>
        have hkey : key ∉ keys.map Prod.fst := fun hmem => hnodup.2.2 key hmem key List.mem_cons_self rfl
        rw [assign_plain hd, restart_of_plain hd]
        refine ih (h.cons hkey val) ?_
        rw [List.append_assoc, List.map_append, List.nodup_append]
        exact hnodup
      -- the attributes are replaced
      | some d =>
        obtain ⟨rfl, members, rfl⟩ := of_not_refuses hd hrefuses
        rw [assign_dict hd, restart_dict hd]
        exact ih (Assigned.start _) (List.nodup_cons.1 hnodup.2.1).2

/-! ## All or nothing -/

/-- The JSON object in a file. -/
def ConfigFile.object : ConfigFile → Option (Dict PyStr Json)
  | .content bytes =>
    match (decodeUtf8 bytes).bind loads with
    | some (.obj members) => some (Dict.ofItems members)
    | _ => none
  | _ => none

/-- Every field has its value in `values`, or else its default, and there is no other attribute. -/
structure FluxGuardConfig.Holds (cfg : FluxGuardConfig) (values : Dict PyStr Json) : Prop where
  fields : ∀ f ∈ configFields, cfg.getattr f.1 = some ((values.get? f.1).getD f.2)
  others : ∀ name ∈ cfg.dict, name ∈ configNames

variable (other) in
/-- **Loading is all or nothing**: the fields get the values of the object and nothing else changes; and where
`load_config` reports that it is using defaults, they are the defaults. -/
structure AllOrNothing (file : ConfigFile) : Prop where
  all : ∀ values, file.object = some values → (loadConfig other file).1.Holds values
  nothing : (loadConfig other file).2.isSome = true → (loadConfig other file).1.Holds Dict.empty

variable (other) in
/-- The keys of an object do no harm. -/
structure Harmless (values : Dict PyStr Json) : Prop where
  /-- With a key that is refused, the fields it names are at their defaults. -/
  refused : values.items.any refuses = true → ∀ f ∈ configFields, ∀ v, values.get? f.1 = some v → v = f.2
  /-- A field that is not assigned is right from the start. -/
  unassigned : ∀ f ∈ configFields,
    entry (startingPoint values.items).2 f.1 = none ∨ hasattr other ⟨(startingPoint values.items).1⟩ f.1 = false →
      getattr ⟨(startingPoint values.items).1⟩ f.1 = some ((values.get? f.1).getD f.2)
  /-- The attributes at the start are fields. -/
  start : ∀ name ∈ (startingPoint values.items).1, name ∈ configNames
  /-- No key that is assigned is another name of the class. -/
  assigned : ∀ m ∈ (startingPoint values.items).2, other m.1 = true → m.1 ∈ configNames

/-- Reading a field that has been assigned or not. -/
theorem Assigned.getattr (h : Assigned other base keys cfg) (name : PyStr) :
    cfg.getattr name =
      if FluxGuardConfig.hasattr other ⟨base⟩ name then (entry keys name).or (FluxGuardConfig.getattr ⟨base⟩ name)
      else FluxGuardConfig.getattr ⟨base⟩ name := by
  unfold FluxGuardConfig.getattr
  rw [h name]
  split
  · rw [Option.or_assoc]
  · rfl

/-- The attributes are those of the start and those assigned. -/
theorem Assigned.mem (h : Assigned other base keys cfg) {name : PyStr} :
    name ∈ cfg.dict ↔ name ∈ base ∨ FluxGuardConfig.hasattr other ⟨base⟩ name = true ∧ name ∈ keys.map Prod.fst := by
  rw [Dict.mem_iff_isSome, Dict.mem_iff_isSome, h name]
  cases FluxGuardConfig.hasattr other ⟨base⟩ name with
  | false => simp
  | true =>
    rw [if_pos rfl, Option.isSome_or, Bool.or_eq_true, or_comm]
    refine or_congr Iff.rfl ⟨fun hentry => ⟨rfl, ?_⟩, fun hkey => ?_⟩
    · by_contra hkey
      rw [entry_eq_none_iff.2 hkey] at hentry
      cases hentry
    · by_contra hentry
      rw [Bool.not_eq_true, Option.isSome_eq_false_iff, Option.isNone_iff_eq_none] at hentry
      exact entry_eq_none_iff.1 hentry hkey.2

variable {file : ConfigFile} {values : Dict PyStr Json}

/-- What is loaded from a file with a JSON object. -/
theorem loadConfig_object (other : PyStr → Bool) (h : file.object = some values) :
    Assigned other (startingPoint values.items).1 (startingPoint values.items).2 (loadConfig other file).1 ∧
      (loadConfig other file).2.isSome = values.items.any refuses := by
  have hload : loadConfig other file = FluxGuardConfig.default.assign other values.items := by
    cases file with
    | missing => cases h
    | unreadable => cases h
    | content bytes =>
      unfold ConfigFile.object at h
      unfold loadConfig
      dsimp only at h ⊢
      split at h
      · rename_i members hparse
        cases h
        rw [hparse]
      · cases h
  rw [hload]
  exact assign_spec (Assigned.start FluxGuardConfig.default.dict) values.nodup

theorem nodup_configNames : configNames.Nodup := by decide +kernel

theorem items_default : FluxGuardConfig.default.dict.items = configFields := Dict.items_ofItems nodup_configNames

/-- A default configuration has its defaults. -/
theorem get?_default {f : PyStr × Json} (hf : f ∈ configFields) : FluxGuardConfig.default.dict.get? f.1 = some f.2 :=
  Dict.mem_items_iff.1 (by rw [items_default]; exact hf)

/-- What has a class attribute is a field. -/
theorem mem_of_classAttr {key : PyStr} (h : (classAttr key).isSome = true) : key ∈ configNames := by
  unfold classAttr at h
  split at h
  · cases h
  · have hmem : key ∈ FluxGuardConfig.default.dict := Dict.mem_iff_isSome.2 h
    rw [Dict.mem_def, items_default] at hmem
    exact hmem

/-- The defaults are what an empty file gives. -/
theorem holds_default : FluxGuardConfig.default.Holds Dict.empty where
  fields f hf := by
    unfold getattr
    rw [get?_default hf]
    rfl
  others name h := by
    rw [Dict.mem_def, items_default] at h
    exact h

/-- Without a JSON object the defaults are loaded. -/
theorem loadConfig_no_object (other : PyStr → Bool) (h : file.object = none) :
    (loadConfig other file).1 = .default := by
  cases file with
  | missing => rfl
  | unreadable => rfl
  | content bytes =>
    unfold ConfigFile.object at h
    unfold loadConfig
    dsimp only at h ⊢
    split at h
    · cases h
    · rename_i hparse
      split
      · rfl
      · rename_i members hmembers
        exact absurd hmembers (hparse members)
      · rfl

/-- Where the defaults are reported, a file that is loaded all or nothing names no field with another value. -/
theorem AllOrNothing.refused (h : AllOrNothing other file) (hobj : file.object = some values)
    (hany : values.items.any refuses = true) {f : PyStr × Json} (hf : f ∈ configFields) {v : Json}
    (hv : values.get? f.1 = some v) :
    v = f.2 := by
  have hall := (h.all values hobj).fields f hf
  have hnothing := (h.nothing (by rw [(loadConfig_object other hobj).2]; exact hany)).fields f hf
  rw [hall, hv] at hnothing
  exact Option.some.inj hnothing

/-- Only a harmless object is loaded all or nothing. -/
theorem AllOrNothing.harmless (h : AllOrNothing other file) (hobj : file.object = some values) :
    Harmless other values := by
  obtain ⟨hassigned, hreport⟩ := loadConfig_object other hobj
  have hall := h.all values hobj
  refine ⟨fun hany f hf v hv => h.refused hobj hany hf hv, ?_, ?_, ?_⟩
  · intro f hf hnot
    have hfield := hall.fields f hf
    rw [hassigned.getattr] at hfield
    rcases hnot with hnone | hattr
    · rw [hnone, Option.none_or, ite_self] at hfield
      exact hfield
    · rw [hattr, if_neg Bool.false_ne_true] at hfield
      exact hfield
  · intro name hname
    exact hall.others name (hassigned.mem.2 (Or.inl hname))
  · intro m hm hother
    by_contra hfield
    -- another name of the class becomes an attribute
    have hattr : hasattr other ⟨(startingPoint values.items).1⟩ m.1 = true := by
      unfold FluxGuardConfig.hasattr
      rw [hother, decide_eq_true hfield]
      simp
    exact hfield (hall.others m.1 (hassigned.mem.2 (Or.inr ⟨hattr, List.mem_map_of_mem hm⟩)))

/-- An attribute that is no field is one from the start or another name of the class. -/
theorem attribute_cases {name : PyStr} (hattr : FluxGuardConfig.hasattr other ⟨base⟩ name = true)
    (hd : descriptor name = none)
    (hfield : name ∉ configNames) : name ∈ base ∨ other name = true := by
  unfold FluxGuardConfig.hasattr at hattr
  rw [hd, Option.isSome_none, Bool.false_or, Bool.or_eq_true, Bool.and_eq_true] at hattr
  rcases hattr with hattr | ⟨hother, -⟩
  · unfold FluxGuardConfig.getattr at hattr
    rw [Option.isSome_or, Bool.or_eq_true] at hattr
    rcases hattr with hbase | hclass
    · exact Or.inl (Dict.mem_iff_isSome.2 hbase)
    · exact absurd (mem_of_classAttr hclass) hfield
  · exact Or.inr hother

/-- A harmless object gives the fields its values. -/
theorem Harmless.holds (hsafe : Harmless other values)
    (hassigned : Assigned other (startingPoint values.items).1 (startingPoint values.items).2 cfg) :
    cfg.Holds values := by
  constructor
  · intro f hf
    rw [hassigned.getattr]
    cases hattr : FluxGuardConfig.hasattr other ⟨(startingPoint values.items).1⟩ f.1 with
    | false =>
      rw [if_neg Bool.false_ne_true]
      exact hsafe.unassigned f hf (Or.inr hattr)
    | true =>
      rw [if_pos rfl]
      cases hentry : entry (startingPoint values.items).2 f.1 with
      | none => exact hsafe.unassigned f hf (Or.inl hentry)
      | some v =>
        have hvalue : values.get? f.1 = some v := Dict.mem_items_iff.1 (mem_startingPoint (mem_of_entry hentry)).1
        rw [hvalue]
        rfl
  · intro name hname
    rcases hassigned.mem.1 hname with hname | ⟨hattr, hkey⟩
    · exact hsafe.start name hname
    · obtain ⟨m, hm, rfl⟩ := List.mem_map.1 hkey
      by_contra hfield
      rcases attribute_cases hattr (mem_startingPoint hm).2 hfield with hbase | hother
      · exact hfield (hsafe.start m.1 hbase)
      · exact hfield (hsafe.assigned m hm hother)

/-- A file without an object, or with a harmless one, is loaded all or nothing. -/
theorem allOrNothing_of_harmless (h : ∀ values, file.object = some values → Harmless other values) :
    AllOrNothing other file := by
  cases hobj : file.object with
  | none =>
    have hdefault := loadConfig_no_object other hobj
    constructor
    · intro values hvalues
      rw [hobj] at hvalues
      cases hvalues
    · intro _
      rw [hdefault]
      exact holds_default
  | some values =>
    obtain ⟨hassigned, hreport⟩ := loadConfig_object other hobj
    have hsafe := h values hobj
    have hall := hsafe.holds hassigned
    constructor
    · intro values' hvalues'
      cases hobj.symm.trans hvalues'
      exact hall
    · -- the fields that are named are at their defaults
      intro hreported
      rw [hreport] at hreported
      refine ⟨?_, hall.others⟩
      intro f hf
      rw [hall.fields f hf]
      cases hv : values.get? f.1 with
      | none => rfl
      | some v => exact congrArg some (hsafe.refused hreported f hf v hv)

variable (other file) in
/-- **Configuration loading is all or nothing** if and only if the object in the file, if there is one, is harmless. -/
theorem all_or_nothing_iff : AllOrNothing other file ↔ ∀ values, file.object = some values → Harmless other values := by
  constructor
  · intro h values hobj
    exact h.harmless hobj
  · intro h
    exact allOrNothing_of_harmless h

/-! ### Plain files -/

/-- Plain members alone restart nothing. -/
theorem foldl_restart_plain {items : List (PyStr × Json)} (h : ∀ m ∈ items, descriptor m.1 = none)
    {p : Dict PyStr Json × List (PyStr × Json)} : items.foldl restart p = (p.1, p.2 ++ items) := by
  induction items generalizing p with
  | nil => rw [List.foldl_nil, List.append_nil]
  | cons m items ih =>
    rw [List.forall_mem_cons] at h
    rw [List.foldl_cons, restart_of_plain h.1, ih h.2, List.append_assoc]
    rfl

/-- **A file whose keys are fields or no attributes at all** is loaded all or nothing. -/
theorem all_or_nothing_plain (h : ∀ values, file.object = some values → ∀ m ∈ values.items,
    descriptor m.1 = none ∧ (other m.1 = true → m.1 ∈ configNames)) : AllOrNothing other file := by
  apply allOrNothing_of_harmless
  intro values hobj
  have hplain := h values hobj
  have hrefuses : ∀ m ∈ values.items, refuses m = false := by
    intro m hm
    exact refuses_of_plain (hplain m hm).1
  have hstart : startingPoint values.items = (FluxGuardConfig.default.dict, values.items) := by
    unfold startingPoint
    rw [List.takeWhile_eq_self_iff.2 fun m hm => by rw [hrefuses m hm]; rfl]
    exact foldl_restart_plain fun m hm => (hplain m hm).1
  constructor
  · intro hany
    obtain ⟨m, hm, hrefused⟩ := List.any_eq_true.1 hany
    rw [hrefuses m hm] at hrefused
    cases hrefused
  · rw [hstart]
    intro f hf hnot
    have hdefault : getattr FluxGuardConfig.default f.1 = some f.2 := by
      unfold FluxGuardConfig.getattr
      rw [get?_default hf]
      rfl
    rcases hnot with hnone | hattr
    · have hunnamed : values.get? f.1 = none := hnone
      rw [hunnamed]
      exact hdefault
    · -- every field is an attribute
      have hfield : hasattr other FluxGuardConfig.default f.1 = true := by
        unfold FluxGuardConfig.hasattr
        rw [hdefault]
        simp
      rw [show hasattr other FluxGuardConfig.default f.1 = false from hattr] at hfield
      cases hfield
  · rw [hstart]
    exact holds_default.others
  · rw [hstart]
    exact fun m hm => (hplain m hm).2

/-! ### A file that is loaded half-way -/

/-- `{"api_port": 1234, "__class__": 5}` -/
def halfway : Text := "\x7b\"api_port\": 1234, \"__class__\": 5\x7d".toList

/-- A setting, and then an attribute that refuses its value. -/
def halfwayValues : Dict PyStr Json := Dict.ofItems [(pyName "api_port", .int 1234), (pyName "__class__", .int 5)]

theorem object_halfway : (ConfigFile.content (encodeUtf8 halfway)).object = some halfwayValues := by
  have hloads : loads halfway = some (.obj [(pyName "api_port", .int 1234), (pyName "__class__", .int 5)]) := rfl
  unfold ConfigFile.object
  dsimp only
  rw [decodeUtf8_encodeUtf8, Option.bind_some, hloads]
  rfl

/-- The port is loaded although the report is that the defaults are used. -/
theorem load_halfway : ¬ ∀ (other : PyStr → Bool) (file : ConfigFile), AllOrNothing other file := by
  intro h
  have hport : halfwayValues.get? (pyName "api_port") = some (.int 1234) := rfl
  have hfield : (pyName "api_port", Json.int 8080) ∈ configFields := by
    simp [configFields]
  have hany : halfwayValues.items.any refuses = true := by
    rfl
  have hvalue := (h (fun _ => false) _).refused object_halfway hany hfield hport
  injection hvalue with hint
  exact absurd hint (by decide)

end FluxGuard
