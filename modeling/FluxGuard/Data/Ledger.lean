import Mathlib

/-!
# A ledger of deadlines

What a component that blocks for a fixed time is for: a `Ledger` gives some keys a deadline.
A key that is noticed without one gets one (`detect`), and a key whose deadline has come is
let go (`expire`). A deadline that is set is never moved.

* `tick_of_some`, `tick_of_due`: what one pass does to one key.
* `detect_insert_of_none`, `detect_insert_of_ne_none`: noticing one key more.
-/

namespace FluxGuard

/-- The deadlines of the keys that are blocked. -/
abbrev Ledger (α T : Type) := α → Option T

namespace Ledger

variable {α T : Type}

open Classical in
/-- Every noticed key without a deadline gets this one. -/
noncomputable def detect (ℓ : Ledger α T) (fresh : Set α) (deadline : T) : Ledger α T := fun a =>
  (ℓ a).or (if a ∈ fresh then some deadline else none)

/-- A tracked address keeps its deadline. -/
theorem detect_of_some {ℓ : Ledger α T} {a : α} {D : T} (h : ℓ a = some D) (fresh : Set α) (deadline : T) :
    ℓ.detect fresh deadline a = some D := by
  unfold detect; rw [h, Option.some_or]

/-- A new address gets the deadline. -/
theorem detect_of_none {ℓ : Ledger α T} {a : α} (h : ℓ a = none) {fresh : Set α} (hf : a ∈ fresh) (deadline : T) :
    ℓ.detect fresh deadline a = some deadline := by
  unfold detect; rw [h, Option.none_or, if_pos hf]

/-- What was not seen stays as it is. -/
theorem detect_of_not_mem (ℓ : Ledger α T) {a : α} {fresh : Set α} (hf : a ∉ fresh) (deadline : T) :
    ℓ.detect fresh deadline a = ℓ a := by
  unfold detect; rw [if_neg hf, Option.or_none]

/-- A noticed key has a deadline. -/
theorem exists_detect (ℓ : Ledger α T) {fresh : Set α} {a : α} (hf : a ∈ fresh) (deadline : T) :
    ∃ D, ℓ.detect fresh deadline a = some D := by
  cases ha : ℓ a with
  | some D => exact ⟨D, detect_of_some ha fresh deadline⟩
  | none => exact ⟨deadline, detect_of_none ha hf deadline⟩

/-- Only whether this key is noticed matters. -/
theorem detect_congr (ℓ : Ledger α T) {f g : Set α} {a : α} (h : a ∈ f ↔ a ∈ g) (deadline : T) :
    ℓ.detect f deadline a = ℓ.detect g deadline a := by
  unfold detect
  by_cases hf : a ∈ f
  · rw [if_pos hf, if_pos (h.1 hf)]
  · rw [if_neg hf, if_neg (mt h.2 hf)]

/-- A deadline was there before, or is the new one of a noticed key. -/
theorem of_detect {ℓ : Ledger α T} {fresh : Set α} {deadline : T} {a : α} {D : T}
    (h : ℓ.detect fresh deadline a = some D) : ℓ a = some D ∨ ℓ a = none ∧ a ∈ fresh ∧ D = deadline := by
  cases ha : ℓ a with
  | some D' => rw [detect_of_some ha] at h; exact Or.inl h
  | none =>
    by_cases hf : a ∈ fresh
    · rw [detect_of_none ha hf, Option.some.injEq] at h
      exact Or.inr ⟨rfl, hf, h.symm⟩
    · rw [detect_of_not_mem _ hf, ha] at h; cases h

@[simp] theorem detect_empty (ℓ : Ledger α T) (deadline : T) : ℓ.detect ∅ deadline = ℓ :=
  funext fun _ => detect_of_not_mem ℓ (Set.notMem_empty _) deadline

/-- Two detections with one deadline are one. -/
theorem detect_detect (ℓ : Ledger α T) (f g : Set α) (deadline : T) :
    (ℓ.detect f deadline).detect g deadline = ℓ.detect (f ∪ g) deadline := by
  funext a
  by_cases hf : a ∈ f
  · cases ha : ℓ a with
    | some D => rw [detect_of_some (detect_of_some ha f deadline), detect_of_some ha]
    | none => rw [detect_of_some (detect_of_none ha hf deadline), detect_of_none ha (Or.inl hf)]
  · have hfg : a ∈ g ↔ a ∈ f ∪ g := ⟨Or.inr, fun h => h.resolve_left hf⟩
    rw [← detect_congr ℓ hfg]
    unfold detect
    rw [if_neg hf, Option.or_none]

/-- Noticing a key that has no deadline. -/
theorem detect_insert_of_none [DecidableEq α] {ℓ : Ledger α T} {fresh : Set α} {deadline : T} {a : α}
    (h : ℓ.detect fresh deadline a = none) :
    ℓ.detect (insert a fresh) deadline = Function.update (ℓ.detect fresh deadline) a (some deadline) := by
  have ha : ℓ a = none := by
    cases ha : ℓ a with
    | some D => rw [detect_of_some ha] at h; cases h
    | none => rfl
  funext b
  by_cases hb : b = a
  · subst hb; rw [Function.update_self, detect_of_none ha (Set.mem_insert _ _)]
  · rw [Function.update_of_ne hb]
    exact detect_congr ℓ ⟨fun h => h.resolve_left hb, Or.inr⟩ _

/-- Noticing a key that has one. -/
theorem detect_insert_of_ne_none {ℓ : Ledger α T} {fresh : Set α} {deadline : T} {a : α}
    (h : ℓ.detect fresh deadline a ≠ none) : ℓ.detect (insert a fresh) deadline = ℓ.detect fresh deadline := by
  obtain ⟨D, hD⟩ := Option.ne_none_iff_exists'.1 h
  funext b
  by_cases hb : b = a
  · subst hb
    rcases of_detect hD with ha | ⟨ha, hf, -⟩
    · rw [detect_of_some ha, detect_of_some ha]
    · rw [Set.insert_eq_of_mem hf]
  · exact detect_congr ℓ ⟨fun h => h.resolve_left hb, Or.inr⟩ _

variable [LE T] [DecidableLE T]

/-- Every key whose deadline has come is let go. -/
def expire (ℓ : Ledger α T) (now : T) : Ledger α T := fun a => (ℓ a).filter fun D => ¬ D ≤ now

/-- What is not due stays. -/
theorem expire_eq_some_iff {ℓ : Ledger α T} {now : T} {a : α} {D : T} :
    ℓ.expire now a = some D ↔ ℓ a = some D ∧ ¬ D ≤ now := by
  unfold expire; rw [Option.filter_eq_some_iff, decide_eq_true_iff]

/-- What is due goes. -/
theorem expire_eq_none_iff {ℓ : Ledger α T} {now : T} {a : α} :
    ℓ.expire now a = none ↔ ∀ D, ℓ a = some D → D ≤ now := by
  unfold expire
  rw [Option.filter_eq_none_iff]
  simp only [decide_eq_true_eq, not_not]

variable [Add T]

/-- One pass at time `now`: what is noticed is blocked for `cooldown`, what is due is let go. -/
noncomputable def tick (ℓ : Ledger α T) (now cooldown : T) (fresh : Set α) : Ledger α T :=
  (ℓ.detect fresh (now + cooldown)).expire now

/-- The keys that a pass lets go. -/
def due (ℓ : Ledger α T) (now cooldown : T) (fresh : Set α) : Set α :=
  { a | ∃ D, ℓ.detect fresh (now + cooldown) a = some D ∧ D ≤ now }

/-- A deadline is kept until it comes. -/
theorem tick_of_some {ℓ : Ledger α T} {a : α} {D : T} (h : ℓ a = some D) {now : T} (hD : ¬ D ≤ now) (cooldown : T)
    (fresh : Set α) : ℓ.tick now cooldown fresh a = some D :=
  expire_eq_some_iff.2 ⟨detect_of_some h _ _, hD⟩

/-- A key that is due is let go. -/
theorem tick_of_due {ℓ : Ledger α T} {a : α} {fresh : Set α} {now cooldown : T} (h : a ∈ ℓ.due now cooldown fresh) :
    ℓ.tick now cooldown fresh a = none := by
  obtain ⟨D, hD, hdue⟩ := h
  exact expire_eq_none_iff.2 fun D' hD' => by rw [hD] at hD'; cases hD'; exact hdue

end Ledger

end FluxGuard
