import FluxGuard.Data.Dict

/-!
# Walking a table by its keys

A reader that is only ever told the next key walks a table that others change under it. `next` is
the answer: the key after the one asked about, or the first one for a key that is gone.

A chained hash table lists its keys bucket by bucket and puts a new one at the head of its bucket
(`insertHead`). `rank` is what a walk has left at a key: it falls with each step (`rank_next`), and a
change that leaves the key alone never raises it (`rank_filter`, `rank_insertHead`).
-/

namespace FluxGuard

namespace Walk

variable {α : Type} [DecidableEq α]

/-- The keys after `k`. -/
def after (k : α) : List α → List α
  | [] => []
  | a :: l => if a = k then l else after k l

/-- The key after `k`; the first one if there is no `k` or it is gone. -/
def next (keys : List α) : Option α → Option α
  | none => keys.head?
  | some k => if k ∈ keys then (after k keys).head? else keys.head?

@[simp] theorem after_self (k : α) (l : List α) : after k (k :: l) = l := if_pos rfl

theorem after_cons_of_ne {a k : α} (h : a ≠ k) (l : List α) : after k (a :: l) = after k l := if_neg h

/-- The keys after the first occurrence of a key. -/
theorem after_append {k : α} {l₁ : List α} (h : k ∉ l₁) (l₂ : List α) : after k (l₁ ++ k :: l₂) = l₂ := by
  induction l₁ with
  | nil => exact after_self k l₂
  | cons a l₁ ih =>
    rw [List.mem_cons, not_or] at h
    rw [List.cons_append, after_cons_of_ne (Ne.symm h.1), ih h.2]

/-- Going on from a key leaves fewer keys. -/
theorem length_after_lt {k : α} {l : List α} (h : k ∈ l) : (after k l).length < l.length := by
  induction l with
  | nil => exact absurd h List.not_mem_nil
  | cons a l ih =>
    rw [List.length_cons]
    by_cases ha : a = k
    · subst ha
      rw [after_self]
      exact Nat.lt_succ_self _
    · rw [after_cons_of_ne ha]
      exact (ih ((List.mem_cons.1 h).resolve_left (Ne.symm ha))).trans (Nat.lt_succ_self _)

theorem mem_of_mem_after {a k : α} {l : List α} (h : a ∈ after k l) : a ∈ l := by
  induction l with
  | nil => exact absurd h List.not_mem_nil
  | cons b l ih =>
    by_cases hb : b = k
    · subst hb
      rw [after_self] at h
      exact List.mem_cons_of_mem b h
    · rw [after_cons_of_ne hb] at h
      exact List.mem_cons_of_mem b (ih h)

theorem next_none (keys : List α) : next keys none = keys.head? := rfl

theorem next_of_mem {k : α} {keys : List α} (h : k ∈ keys) : next keys (some k) = (after k keys).head? := if_pos h

theorem next_of_not_mem {k : α} {keys : List α} (h : k ∉ keys) : next keys (some k) = keys.head? := if_neg h

/-- The answer is a key of the table. -/
theorem next_mem {keys : List α} {k : Option α} {k' : α} (h : next keys k = some k') : k' ∈ keys := by
  cases k with
  | none => exact List.mem_of_head? h
  | some k =>
    by_cases hk : k ∈ keys
    · rw [next_of_mem hk] at h
      exact mem_of_mem_after (List.mem_of_head? h)
    · rw [next_of_not_mem hk] at h
      exact List.mem_of_head? h

/-! ## Buckets -/

variable (bucket : α → ℕ)

/-- A new key goes to the head of its bucket. -/
def insertHead (k : α) (keys : List α) : List α := keys.orderedInsert (fun a b => bucket a ≤ bucket b) k

/-- The keys after `k` in its own bucket. -/
def chainAfter (k : α) (keys : List α) : List α := (after k keys).filter fun a => bucket a = bucket k

/-- What a walk at `k` has left, in a table of `n` buckets and at most `c` keys. -/
def rank (n c : ℕ) (keys : List α) (k : α) : ℕ := (n - 1 - bucket k) * c + (chainAfter bucket k keys).length

variable {bucket} {n c : ℕ} {keys : List α}

theorem rank_lt_bucket {k : α} (hk : k ∈ keys) (hc : keys.length ≤ c) :
    rank bucket n c keys k < (n - 1 - bucket k + 1) * c := by
  have hchain : (chainAfter bucket k keys).length < c :=
    ((List.length_filter_le _ _).trans_lt (length_after_lt hk)).trans_le hc
  unfold rank
  rw [Nat.succ_mul]
  exact Nat.add_lt_add_left hchain _

/-- A walk has less left than all buckets could hold. -/
theorem rank_lt {k : α} (hk : k ∈ keys) (hn : bucket k < n) (hc : keys.length ≤ c) : rank bucket n c keys k < n * c :=
  (rank_lt_bucket hk hc).trans_le (Nat.mul_le_mul_right c (by omega))

/-- **A step of the walk lowers the rank.** -/
theorem rank_next {k k' : α} (hsorted : keys.Pairwise fun a b => bucket a ≤ bucket b) (hnodup : keys.Nodup)
    (hk : k ∈ keys)
    (hn : ∀ a ∈ keys, bucket a < n) (hc : keys.length ≤ c) (h : next keys (some k) = some k') :
    rank bucket n c keys k' < rank bucket n c keys k := by
  have hk' := next_mem h
  rw [next_of_mem hk] at h
  obtain ⟨l₁, l₂, rfl, hnot⟩ := List.eq_append_cons_of_mem hk
  rw [after_append hnot] at h
  obtain ⟨l₃, rfl⟩ : ∃ l₃, l₂ = k' :: l₃ := List.head?_eq_some_iff.1 h
  have hnot' : k' ∉ l₁ ++ [k] := by
    rw [List.append_cons] at hnodup
    intro hm
    exact (List.nodup_append.1 hnodup).2.2 k' hm k' List.mem_cons_self rfl
  have hle : bucket k ≤ bucket k' := List.rel_of_pairwise_cons (List.pairwise_append.1 hsorted).2.1 List.mem_cons_self
  have hafter : after k' (l₁ ++ k :: k' :: l₃) = l₃ := by
    rw [List.append_cons, after_append hnot']
  rcases hle.lt_or_eq with hlt | heq
  · -- the walk has come to a later bucket
    have hn' := hn k' hk'
    calc rank bucket n c (l₁ ++ k :: k' :: l₃) k'
        < (n - 1 - bucket k' + 1) * c := rank_lt_bucket hk' hc
      _ ≤ (n - 1 - bucket k) * c := Nat.mul_le_mul_right c (by omega)
      _ ≤ rank bucket n c (l₁ ++ k :: k' :: l₃) k := Nat.le_add_right _ _
  · unfold rank chainAfter
    rw [hafter, after_append hnot, ← heq, List.filter_cons_of_pos (by simp [heq]), List.length_cons]
    omega

/-- Deletions of other keys do not raise the rank. -/
theorem rank_filter {k : α} (p : α → Bool) (hp : p k) : rank bucket n c (keys.filter p) k ≤ rank bucket n c keys k := by
  have hafter : after k (keys.filter p) = (after k keys).filter p := by
    induction keys with
    | nil => rfl
    | cons a l ih =>
      by_cases ha : a = k
      · subst ha
        rw [List.filter_cons_of_pos hp, after_self, after_self]
      · rw [after_cons_of_ne ha, ← ih]
        by_cases hpa : p a
        · rw [List.filter_cons_of_pos hpa, after_cons_of_ne ha]
        · rw [List.filter_cons_of_neg hpa]
  unfold rank chainAfter
  rw [hafter, List.filter_comm]
  exact Nat.add_le_add_left (List.length_filter_le _ _) _

omit [DecidableEq α] in
/-- A new key in a later bucket is not in this one's chain. -/
theorem filter_orderedInsert_of_gt {j k : α} (h : bucket k < bucket j) (l : List α) :
    (l.orderedInsert (fun a b => bucket a ≤ bucket b) j).filter (fun a => bucket a = bucket k) =
      l.filter fun a => bucket a = bucket k := by
  have hj : ¬ decide (bucket j = bucket k) = true := by
    rw [decide_eq_true_iff]
    exact h.ne'
  induction l with
  | nil =>
    rw [List.orderedInsert_nil]
    exact List.filter_cons_of_neg hj
  | cons a l ih =>
    rw [List.orderedInsert_cons]
    split
    · exact List.filter_cons_of_neg hj
    · rw [List.filter_cons, List.filter_cons, ih]

/-- A key that joins the bucket goes to its head, which the walk has passed. -/
theorem rank_insertHead {j k : α} (hjk : j ≠ k) (hk : k ∈ keys) :
    rank bucket n c (insertHead bucket j keys) k = rank bucket n c keys k := by
  have hchain : chainAfter bucket k (insertHead bucket j keys) = chainAfter bucket k keys := by
    unfold insertHead chainAfter
    induction keys with
    | nil => exact absurd hk List.not_mem_nil
    | cons a l ih =>
      rw [List.orderedInsert_cons]
      by_cases hle : bucket j ≤ bucket a
      · rw [if_pos hle, after_cons_of_ne hjk]
      · rw [if_neg hle]
        by_cases ha : a = k
        · subst ha
          rw [after_self, after_self]
          exact filter_orderedInsert_of_gt (not_le.1 hle) l
        · rw [after_cons_of_ne ha, after_cons_of_ne ha]
          exact ih ((List.mem_cons.1 hk).resolve_left (Ne.symm ha))
  unfold rank
  rw [hchain]

end Walk

/-! ## Tables -/

namespace Dict

variable {α β : Type} [DecidableEq α] (bucket : α → ℕ)

theorem keys_erase (d : Dict α β) (k : α) : (d.erase k).keys = d.keys.filter fun a => a ≠ k := by
  unfold keys erase
  rw [List.filter_map]
  rfl

/-- Write a pair as a new entry, at the head of its bucket; an entry of that key goes. -/
def place (k : α) (v : β) (d : Dict α β) : Dict α β :=
  ⟨(d.erase k).items.orderedInsert (fun p q => bucket p.1 ≤ bucket q.1) (k, v), by
    refine (((List.perm_orderedInsert _ _ _).map Prod.fst).nodup_iff).2 ?_
    rw [List.map_cons, List.nodup_cons]
    refine ⟨?_, (d.erase k).nodup⟩
    rw [← mem_def, mem_erase]
    exact fun h => h.1 rfl⟩

/-- A written entry goes to the head of its bucket. -/
theorem keys_place (k : α) (v : β) (d : Dict α β) :
    (place bucket k v d).keys = Walk.insertHead bucket k (d.erase k).keys :=
  List.map_orderedInsert _ _ Prod.fst _ _ (fun _ _ => Iff.rfl) fun _ _ => Iff.rfl

theorem size_place (k : α) (v : β) (d : Dict α β) : (place bucket k v d).size = (d.erase k).size + 1 :=
  List.orderedInsert_length _ _ _

theorem size_erase_lt {d : Dict α β} {k : α} (h : k ∈ d) : (d.erase k).size < d.size := by
  rw [size_eq_keys, size_eq_keys, keys_erase]
  exact List.length_filter_lt_length_iff_exists.2 ⟨k, h, by simp⟩

end Dict

/-- A chained hash table of at most `cap` entries, as its entries in walking order. -/
structure Table (α β : Type) (bucket : α → ℕ) (cap : ℕ) where
  dict : Dict α β
  sorted : dict.keys.Pairwise fun a b => bucket a ≤ bucket b
  size_le : dict.size ≤ cap

namespace Table

variable {α β : Type} [DecidableEq α] {bucket : α → ℕ} {cap : ℕ}

/-- The keys in the order of the walk. -/
def keys (t : Table α β bucket cap) : List α := t.dict.keys

omit [DecidableEq α] in
/-- A table is what it maps. -/
theorem ext_dict {t t' : Table α β bucket cap} (h : t.dict = t'.dict) : t = t' := by
  cases t
  cases t'
  cases h
  rfl

/-- A write that makes a new entry; a new key does not fit a full table. -/
def update (t : Table α β bucket cap) (k : α) (v : β) : Table α β bucket cap :=
  if h : k ∈ t.dict ∨ t.dict.size < cap then
    ⟨t.dict.place bucket k v, by
      rw [Dict.keys_place]
      refine List.Pairwise.orderedInsert _ _ ?_
      rw [Dict.keys_erase]
      exact t.sorted.filter _, by
      rw [Dict.size_place]
      have hle := t.size_le
      have herase := Dict.size_erase_le t.dict k
      rcases h with h | h
      · have := Dict.size_erase_lt h
        omega
      · omega⟩
  else t

/-- A write through the pointer to a present entry. -/
def store (t : Table α β bucket cap) (k : α) (v : β) : Table α β bucket cap :=
  if h : k ∈ t.dict then
    ⟨t.dict.set k v, by rw [Dict.keys_set_of_mem v h]; exact t.sorted,
      by rw [Dict.size_set_of_mem v h]; exact t.size_le⟩
  else t

/-- A deletion or an eviction. -/
def remove (t : Table α β bucket cap) (k : α) : Table α β bucket cap :=
  ⟨t.dict.erase k, by rw [Dict.keys_erase]; exact t.sorted.filter _, (Dict.size_erase_le _ _).trans t.size_le⟩

/-- An update of a table with room puts the entry in. -/
theorem items_update {t : Table α β bucket cap} {k : α} (h : t.dict.size < cap) (v : β) :
    (t.update k v).dict.items =
      (t.remove k).dict.items.orderedInsert (fun p q => bucket p.1 ≤ bucket q.1) (k, v) := by
  unfold update
  rw [dif_pos (Or.inr h)]
  rfl

theorem items_remove (t : Table α β bucket cap) (k : α) :
    (t.remove k).dict.items = t.dict.items.filter fun p => p.1 ≠ k := rfl

/-! ### What a change leaves of a walk -/

/-- A write through a pointer leaves the keys as they are. -/
theorem keys_store (t : Table α β bucket cap) (k : α) (v : β) : (t.store k v).keys = t.keys := by
  unfold store
  split
  · rename_i h
    exact Dict.keys_set_of_mem v h
  · rfl

theorem keys_remove (t : Table α β bucket cap) (k : α) : (t.remove k).keys = t.keys.filter fun a => a ≠ k :=
  Dict.keys_erase _ _

/-- An update puts the key in at the head of its bucket, or fails. -/
theorem keys_update (t : Table α β bucket cap) (k : α) (v : β) :
    (t.update k v).keys = Walk.insertHead bucket k (t.remove k).keys ∨ (t.update k v).keys = t.keys := by
  unfold update
  split
  · exact Or.inl (Dict.keys_place bucket k v t.dict)
  · exact Or.inr rfl

variable {n : ℕ} {t : Table α β bucket cap} {k : α}

/-- A deletion of another key keeps the walk's place and does not raise the rank. -/
theorem rank_remove {j : α} (hjk : j ≠ k) (hk : k ∈ t.keys) :
    k ∈ (t.remove j).keys ∧ Walk.rank bucket n cap (t.remove j).keys k ≤ Walk.rank bucket n cap t.keys k := by
  rw [keys_remove]
  have hkeep : decide (k ≠ j) = true := decide_eq_true hjk.symm
  exact ⟨List.mem_filter.2 ⟨hk, hkeep⟩, Walk.rank_filter _ hkeep⟩

/-- An update of another key keeps the walk's place and does not raise the rank. -/
theorem rank_update {j : α} (v : β) (hjk : j ≠ k) (hk : k ∈ t.keys) :
    k ∈ (t.update j v).keys ∧ Walk.rank bucket n cap (t.update j v).keys k ≤ Walk.rank bucket n cap t.keys k := by
  obtain ⟨hmem, hrank⟩ := rank_remove (n := n) hjk hk
  rcases keys_update t j v with h | h
  · rw [h, Walk.rank_insertHead hjk hmem]
    exact ⟨(List.mem_orderedInsert _).2 (Or.inr hmem), hrank⟩
  · rw [h]
    exact ⟨hk, le_rfl⟩

end Table

end FluxGuard
