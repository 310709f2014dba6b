import Mathlib

/-!
# Insertion-ordered dictionaries

`Dict α β` is a list of key-value pairs with distinct keys, in order of first
insertion: the behaviour of Python's `dict`, and of any hash table whose
iteration order is fixed but otherwise arbitrary. Distinctness is a field, so
every lookup has at most one answer.

* `get?_set`, `get?_erase`: what an update does to every lookup.
* `size_set_of_mem`, `size_set_of_not_mem`: an update grows the table only for a
  new key.
* `mem_items_iff`: the pairs of the table are its lookups.
* `items_ofItems`: pairs with distinct keys go into a table as they are.
-/

namespace FluxGuard

/-- A finite map as a list of pairs with distinct keys. -/
structure Dict (α β : Type) where
  items : List (α × β)
  nodup : (items.map Prod.fst).Nodup

namespace Dict

variable {α β : Type}

instance [DecidableEq α] [DecidableEq β] : DecidableEq (Dict α β) := fun d e =>
  decidable_of_iff (d.items = e.items) (by cases d; cases e; simp)

/-- A dict is its items. -/
theorem ext_items {d e : Dict α β} (h : d.items = e.items) : d = e := by
  cases d; cases e; simp_all

/-- `{}`. -/
def empty : Dict α β := ⟨[], List.nodup_nil⟩

/-- The keys, oldest first. -/
def keys (d : Dict α β) : List α := d.items.map Prod.fst

/-- `len`. -/
def size (d : Dict α β) : ℕ := d.items.length

instance : Membership α (Dict α β) := ⟨fun d k => k ∈ d.keys⟩

theorem mem_def {d : Dict α β} {k : α} : k ∈ d ↔ k ∈ d.items.map Prod.fst := Iff.rfl

variable [DecidableEq α]

instance (d : Dict α β) (k : α) : Decidable (k ∈ d) := inferInstanceAs (Decidable (k ∈ d.keys))

/-- `get`, without a default. -/
def get? (d : Dict α β) (k : α) : Option β := (d.items.find? fun p => p.1 = k).map Prod.snd

/-- Replace the value of a present key in place, append an absent one. -/
def setItems (k : α) (v : β) : List (α × β) → List (α × β)
  | [] => [(k, v)]
  | p :: ps => if p.1 = k then (k, v) :: ps else p :: setItems k v ps

theorem map_fst_setItems (k : α) (v : β) (l : List (α × β)) :
    (setItems k v l).map Prod.fst =
      if k ∈ l.map Prod.fst then l.map Prod.fst else l.map Prod.fst ++ [k] := by
  induction l with
  | nil => simp [setItems]
  | cons p ps ih =>
    unfold setItems
    by_cases h : p.1 = k
    · simp [h]
    · rw [if_neg h, List.map_cons, ih]
      by_cases hk : k ∈ ps.map Prod.fst
      · rw [if_pos hk, if_pos (by simp [hk])]; simp
      · rw [if_neg hk, if_neg (by simp only [List.map_cons, List.mem_cons, not_or]; exact ⟨Ne.symm h, hk⟩)]
        simp

/-- `d[k] = v`: a present key keeps its place, a new one goes to the end. -/
def set (d : Dict α β) (k : α) (v : β) : Dict α β :=
  ⟨setItems k v d.items, by
    rw [map_fst_setItems]
    split
    · exact d.nodup
    · rename_i h
      exact List.nodup_append.2 ⟨d.nodup, by simp, by
        intro a ha b hb hab; simp at hb; subst hb; subst hab; exact h ha⟩⟩

/-- `pop(k, None)`. -/
def erase (d : Dict α β) (k : α) : Dict α β :=
  ⟨d.items.filter fun p => p.1 ≠ k, d.nodup.sublist (List.filter_sublist.map _)⟩

/-- The same keys with other values. -/
def mapValues {γ : Type} (f : β → γ) (d : Dict α β) : Dict α γ :=
  ⟨d.items.map fun p => (p.1, f p.2), by rw [List.map_map]; exact d.nodup⟩

@[simp] theorem get?_empty (k : α) : (empty : Dict α β).get? k = none := rfl

/-- Only an absent key has no value. -/
theorem get?_eq_none_iff {d : Dict α β} {k : α} : d.get? k = none ↔ k ∉ d := by
  rw [mem_def]
  unfold get?
  rw [Option.map_eq_none_iff, List.find?_eq_none]
  simp only [List.mem_map, not_exists, not_and, decide_eq_true_eq]

/-- A key is present if it has a value. -/
theorem mem_iff_isSome {d : Dict α β} {k : α} : k ∈ d ↔ (d.get? k).isSome := by
  rw [← not_iff_not, ← get?_eq_none_iff]; simp

/-- An item is a key with its value. -/
theorem mem_items_iff {d : Dict α β} {k : α} {v : β} : (k, v) ∈ d.items ↔ d.get? k = some v := by
  obtain ⟨l, hl⟩ := d
  unfold get?
  simp only
  induction l with
  | nil => simp
  | cons p ps ih =>
    rw [List.map_cons, List.nodup_cons] at hl
    by_cases h : p.1 = k
    · subst h
      have hno : (p.1, v) ∉ ps := fun hm => hl.1 (List.mem_map.2 ⟨_, hm, rfl⟩)
      simp only [List.mem_cons, hno, or_false, List.find?_cons, decide_true, Option.map_some,
        Option.some.injEq]
      constructor
      · intro he; rw [← he]
      · intro he; rw [← he]
    · have hne : (k, v) ≠ p := fun he => h (by rw [← he])
      simp only [List.mem_cons, hne, false_or, List.find?_cons, h, decide_false]
      exact ih hl.2

/-- The values after an assignment. -/
theorem get?_set (d : Dict α β) (k : α) (v : β) (a : α) :
    (d.set k v).get? a = if a = k then some v else d.get? a := by
  obtain ⟨l, hl⟩ := d
  unfold get? set
  simp only
  clear hl
  induction l with
  | nil =>
    by_cases h : a = k
    · subst h; simp [setItems]
    · simp [setItems, h, Ne.symm h]
  | cons p ps ih =>
    unfold setItems
    by_cases hp : p.1 = k
    · by_cases h : a = k
      · subst h; simp [hp]
      · have hpa : p.1 ≠ a := fun he => h (he ▸ hp)
        simp [hp, h, Ne.symm h]
    · rw [if_neg hp]
      by_cases hpa : p.1 = a
      · have h : a ≠ k := fun he => hp (hpa.trans he)
        simp [hpa, h]
      · simpa [List.find?_cons, hpa] using ih

@[simp] theorem get?_set_self (d : Dict α β) (k : α) (v : β) : (d.set k v).get? k = some v := by
  rw [get?_set, if_pos rfl]

theorem get?_set_ne (d : Dict α β) {k a : α} (v : β) (h : a ≠ k) : (d.set k v).get? a = d.get? a := by
  rw [get?_set, if_neg h]

/-- The values after a deletion. -/
theorem get?_erase (d : Dict α β) (k a : α) :
    (d.erase k).get? a = if a = k then none else d.get? a := by
  unfold get? erase
  simp only [List.find?_filter]
  by_cases h : a = k
  · subst h
    rw [if_pos rfl, Option.map_eq_none_iff, List.find?_eq_none]
    intro p _; simp
  · rw [if_neg h]
    congr 2
    funext p
    by_cases hp : p.1 = a
    · simp [hp, h]
    · simp [hp]

@[simp] theorem get?_erase_self (d : Dict α β) (k : α) : (d.erase k).get? k = none := by
  rw [get?_erase, if_pos rfl]

theorem get?_erase_ne (d : Dict α β) {k a : α} (h : a ≠ k) : (d.erase k).get? a = d.get? a := by
  rw [get?_erase, if_neg h]

theorem get?_mapValues {γ : Type} (f : β → γ) (d : Dict α β) (a : α) : (d.mapValues f).get? a = (d.get? a).map f := by
  unfold get? mapValues
  rw [List.find?_map, Option.map_map, Option.map_map]
  rfl

theorem mem_set {d : Dict α β} {k a : α} {v : β} : a ∈ d.set k v ↔ a = k ∨ a ∈ d := by
  rw [mem_iff_isSome, get?_set, mem_iff_isSome]
  by_cases h : a = k <;> simp [h]

theorem mem_erase {d : Dict α β} {k a : α} : a ∈ d.erase k ↔ a ≠ k ∧ a ∈ d := by
  rw [mem_iff_isSome, get?_erase, mem_iff_isSome]
  by_cases h : a = k <;> simp [h]

/-- A new key goes to the end. -/
theorem items_set_of_not_mem {d : Dict α β} {k : α} (v : β) (h : k ∉ d) :
    (d.set k v).items = d.items ++ [(k, v)] := by
  obtain ⟨l, hl⟩ := d
  rw [mem_def] at h
  unfold set
  simp only at h ⊢
  clear hl
  induction l with
  | nil => rfl
  | cons p ps ih =>
    rw [List.map_cons, List.mem_cons, not_or] at h
    rw [setItems, if_neg (Ne.symm h.1), ih h.2, List.cons_append]

/-- An assignment to a present key leaves the order alone. -/
theorem keys_set_of_mem {d : Dict α β} {k : α} (v : β) (h : k ∈ d) : (d.set k v).keys = d.keys := by
  unfold keys set
  simp only [map_fst_setItems]
  exact if_pos h

omit [DecidableEq α] in
theorem size_eq_keys (d : Dict α β) : d.size = d.keys.length := by simp [size, keys]

theorem size_set_of_mem {d : Dict α β} {k : α} (v : β) (h : k ∈ d) : (d.set k v).size = d.size := by
  rw [size_eq_keys, size_eq_keys, keys_set_of_mem v h]

theorem size_set_of_not_mem {d : Dict α β} {k : α} (v : β) (h : k ∉ d) :
    (d.set k v).size = d.size + 1 := by
  unfold size; rw [items_set_of_not_mem v h]; simp

/-- The table that a list of pairs builds, later pairs replacing earlier ones. -/
def ofItems (l : List (α × β)) : Dict α β := l.foldl (fun d p => d.set p.1 p.2) empty

/-- New keys assigned one after the other go to the end in that order. -/
theorem items_foldl_set (d : Dict α β) (l : List (α × β)) (h : ((d.items ++ l).map Prod.fst).Nodup) :
    (l.foldl (fun d p => d.set p.1 p.2) d).items = d.items ++ l := by
  induction l generalizing d with
  | nil => exact (List.append_nil _).symm
  | cons p l ih =>
    have hnot : p.1 ∉ d := by
      rw [mem_def]
      rw [List.map_append, List.map_cons] at h
      intro hm
      exact (List.nodup_append.1 h).2.2 p.1 hm p.1 List.mem_cons_self rfl
    have hset := items_set_of_not_mem p.2 hnot
    have happ : (d.set p.1 p.2).items ++ l = d.items ++ p :: l := by rw [hset, List.append_assoc]; rfl
    rw [List.foldl_cons, ih _ (by rw [happ]; exact h), happ]

/-- A dict of distinct keys has them in the order given. -/
theorem items_ofItems {l : List (α × β)} (h : (l.map Prod.fst).Nodup) : (ofItems l).items = l :=
  items_foldl_set empty l h

/-- A table holds pairs that it was built from. -/
theorem mem_of_ofItems {l : List (α × β)} {p : α × β} (h : p ∈ (ofItems l).items) : p ∈ l := by
  have hfold : ∀ (l : List (α × β)) (d : Dict α β), (l.foldl (fun d p => d.set p.1 p.2) d).get? p.1 = some p.2 →
      d.get? p.1 = some p.2 ∨ p ∈ l := by
    intro l
    induction l with
    | nil => exact fun d h => Or.inl h
    | cons q l ih =>
      intro d h
      rw [List.foldl_cons] at h
      rcases ih _ h with hset | hmem
      · rw [get?_set] at hset
        split at hset
        · rename_i heq
          exact Or.inr (List.mem_cons.2 (Or.inl (Prod.ext heq (Option.some.inj hset).symm)))
        · exact Or.inl hset
      · exact Or.inr (List.mem_cons_of_mem q hmem)
  rcases hfold l empty (mem_items_iff.1 h) with hempty | hmem
  · cases hempty
  · exact hmem

theorem size_erase_le (d : Dict α β) (k : α) : (d.erase k).size ≤ d.size :=
  List.length_filter_le _ _

end Dict

end FluxGuard
