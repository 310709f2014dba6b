import Mathlib

/-!
# Excerpts of a list

What a display keeps of a list that it cannot show whole: its last elements, and its greatest ones.

* `rtake_rtake_append`: the last elements of what was kept and what is new are the last of everything.
* `greatest_spec`: the first elements of a sorted list, which nothing outside is greater than.
-/

namespace FluxGuard

variable {α : Type}

/-! ## The last elements -/

theorem rtake_of_length_le {n : ℕ} {l : List α} (h : l.length ≤ n) : l.rtake n = l := by
  rw [List.rtake, Nat.sub_eq_zero_of_le h, List.drop_zero]

/-- Of what is kept, the last elements are the last of everything. -/
theorem rtake_rtake {m n : ℕ} (h : m ≤ n) (l : List α) : (l.rtake n).rtake m = l.rtake m := by
  rw [List.rtake_eq_reverse_take_reverse, List.rtake_eq_reverse_take_reverse, List.rtake_eq_reverse_take_reverse,
    List.reverse_reverse, List.take_take, min_eq_left h]

/-- The last `n` of a list need only its last `n` before. -/
theorem rtake_rtake_append (n : ℕ) (l l' : List α) : (l.rtake n ++ l').rtake n = (l ++ l').rtake n := by
  rw [List.rtake_eq_reverse_take_reverse, List.rtake_eq_reverse_take_reverse, List.rtake_eq_reverse_take_reverse,
    List.reverse_append, List.reverse_append, List.reverse_reverse, List.take_append, List.take_append, List.take_take,
    min_eq_left (Nat.sub_le _ _)]

/-! ## The greatest elements -/

variable {β : Type} [LinearOrder β]

/-- The `n` elements of the greatest keys, greatest first; of equal keys those that come first. -/
def greatest (key : α → β) (n : ℕ) (l : List α) : List α := (l.mergeSort fun a b => decide (key b ≤ key a)).take n

variable (key : α → β) (n : ℕ) (l : List α)

theorem sorted_mergeSort : (l.mergeSort fun a b => decide (key b ≤ key a)).Pairwise fun a b => key b ≤ key a := by
  have hsorted : (l.mergeSort fun a b => decide (key b ≤ key a)).Pairwise fun a b => decide (key b ≤ key a) = true := by
    apply List.pairwise_mergeSort
    · intro a b c hab hbc
      rw [decide_eq_true_eq] at *
      exact le_trans hbc hab
    · intro a b
      rw [Bool.or_eq_true, decide_eq_true_eq, decide_eq_true_eq]
      exact le_total _ _
  exact hsorted.imp of_decide_eq_true

/-- All of a short list are shown, and `n` of a long one. -/
theorem length_greatest : (greatest key n l).length = min n l.length := by
  rw [greatest, List.length_take, List.length_mergeSort]

theorem sorted_greatest : (greatest key n l).Pairwise fun a b => key b ≤ key a := (sorted_mergeSort key l).take

/-- No element is shown twice. -/
theorem nodup_greatest {γ : Type} {f : α → γ} (h : (l.map f).Nodup) : ((greatest key n l).map f).Nodup := by
  have hperm : ((l.mergeSort fun a b => decide (key b ≤ key a)).map f).Nodup :=
    ((List.mergeSort_perm l _).map f).nodup_iff.2 h
  exact hperm.sublist ((List.take_sublist n _).map f)

/-- What is left out is no greater than anything that is taken. -/
theorem greatest_spec {a : α} (ha : a ∈ l) : a ∈ greatest key n l ∨ ∀ b ∈ greatest key n l, key a ≤ key b := by
  have hmem : a ∈ l.mergeSort fun a b => decide (key b ≤ key a) := (List.mergeSort_perm l _).mem_iff.2 ha
  have hsorted := sorted_mergeSort key l
  rw [← List.take_append_drop n (l.mergeSort fun a b => decide (key b ≤ key a))] at hmem hsorted
  rcases List.mem_append.1 hmem with htaken | hleft
  · exact Or.inl htaken
  · right
    intro b hb
    exact (List.pairwise_append.1 hsorted).2.2 b hb a hleft

end FluxGuard
