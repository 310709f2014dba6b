import Mathlib

/-!
# A writer and a reader

A shared object whose methods exclude each other. One thread makes its calls in order,
another thread reads the object whenever it is scheduled.

* `mem_readings_iff`: what is read is what the object shows after some of the calls.
-/

namespace FluxGuard

/-- Whose turn it is. -/
inductive Turn
  | writer
  | reader
deriving DecidableEq

/-- The object, and the calls that the writer has yet to make. -/
structure Guarded (S C : Type) where
  state : S
  calls : List C

namespace Guarded

variable {S C R : Type} (call : S → C → S) (read : S → R)

/-- One method of the object, and what it returns to the reader. -/
def step (x : Guarded S C) : Turn → Guarded S C × Option R
  | .writer => match x.calls with
    | [] => (x, none)
    | c :: calls => (⟨call x.state c, calls⟩, none)
  | .reader => (x, some (read x.state))

/-- All that is read under a schedule. -/
def readings (x : Guarded S C) : List Turn → List R
  | [] => []
  | t :: schedule => (x.step call read t).2.toList ++ readings (x.step call read t).1 schedule

/-- The object after `n` turns of the writer. -/
def after (x : Guarded S C) (n : ℕ) : S := (x.calls.take n).foldl call x.state

/-- A writer's turn is one call more. -/
theorem after_step (x : Guarded S C) (n : ℕ) : (x.step call read .writer).1.after call n = x.after call (n + 1) := by
  cases x with
  | mk state calls =>
    cases calls with
    | nil => simp [after, step]
    | cons c calls => rfl

/-- **A reading is a state between two calls.** -/
theorem mem_readings_iff {x : Guarded S C} {schedule : List Turn} {r : R} :
    r ∈ x.readings call read schedule ↔
      ∃ done rest, schedule = done ++ .reader :: rest ∧ r = read (x.after call (done.count .writer)) := by
  induction schedule generalizing x with
  | nil =>
    refine ⟨fun h => (nomatch h), ?_⟩
    rintro ⟨done, rest, h, -⟩
    simp at h
  | cons t schedule ih =>
    have hsplit :
      (∃ done rest, t :: schedule = done ++ .reader :: rest ∧ r = read (x.after call (done.count .writer))) ↔
        (t = .reader ∧ r = read (x.after call 0)) ∨
        ∃ done rest, schedule = done ++ .reader :: rest ∧ r = read (x.after call ((t :: done).count .writer)) := by
      constructor
      · rintro ⟨done, rest, h, hr⟩
        cases done with
        | nil => exact Or.inl ⟨(List.cons.inj h).1, hr⟩
        | cons t' done =>
          obtain ⟨rfl, htail⟩ := List.cons.inj h
          exact Or.inr ⟨done, rest, htail, hr⟩
      · rintro (⟨rfl, hr⟩ | ⟨done, rest, rfl, hr⟩)
        · exact ⟨[], schedule, rfl, hr⟩
        · exact ⟨t :: done, rest, rfl, hr⟩
    rw [hsplit, readings, List.mem_append, ih]
    cases t with
    | writer =>
      have hnone : r ∉ (x.step call read .writer).2.toList := by
        cases x with
        | mk state calls => cases calls <;> exact List.not_mem_nil
      have hcount : ∀ done : List Turn, (Turn.writer :: done).count .writer = done.count .writer + 1 :=
        fun done => List.count_cons_self
      simp only [hnone, false_or, after_step, hcount, reduceCtorEq, false_and]
    | reader =>
      have hcount : ∀ done : List Turn, (Turn.reader :: done).count .writer = done.count .writer :=
        fun done => List.count_cons_of_ne (by decide)
      have hone : r ∈ (x.step call read .reader).2.toList ↔ r = read (x.after call 0) := List.mem_singleton
      simp only [hone, hcount, true_and]
      rfl

end Guarded

end FluxGuard
