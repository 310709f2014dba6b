import Mathlib

/-!
# Programs that can be stopped

`Proc σ α` is a program over a state `σ` that either returns an `α` or ends early: an
uncaught exception, or a kill from outside. The state of the world at that point stays.

`Triple P x Q C` says what holds after `x` when `P` holds before it: `Q` of the result if
`x` returns, and the crash condition `C` of the state if it does not.

* `Triple.bind`: sequencing; both parts share the crash condition.
* `Triple.foldlM`: a loop, by an invariant over the part of the list that is done.
* `Moves R x`: `x` takes every state along `R`, also when it ends early; for a preorder this
  goes through sequences and loops.
-/

namespace FluxGuard

/-- A program over `σ` that can end before it returns. -/
def Proc (σ α : Type) : Type := σ → σ × Option α

namespace Proc

variable {σ α β : Type}

instance : Monad (Proc σ) where
  pure a s := (s, some a)
  bind x f s := match x s with
    | (t, some a) => f a t
    | (t, none) => (t, none)

/-- End here. -/
def abort : Proc σ α := fun s => (s, none)

/-- The state, read. -/
def get : Proc σ σ := fun s => (s, some s)

/-- The state, changed. -/
def modify (f : σ → σ) : Proc σ Unit := fun s => (f s, some ())

/-- A program that returns hands on its result. -/
theorem bind_some {x : Proc σ α} {f : α → Proc σ β} {s t : σ} {a : α} (h : x s = (t, some a)) :
    (x >>= f) s = f a t := by
  show (match x s with | (t, some a) => f a t | (t, none) => (t, none)) = _
  rw [h]

/-- A program that is cut off cuts off what follows. -/
theorem bind_none {x : Proc σ α} {f : α → Proc σ β} {s t : σ} (h : x s = (t, none)) :
    (x >>= f) s = (t, none) := by
  show (match x s with | (t, some a) => f a t | (t, none) => (t, none)) = _
  rw [h]

/-- A sequence that returns is made of two parts that do. -/
theorem bind_isSome {x : Proc σ α} {f : α → Proc σ β} {s : σ} (h : ((x >>= f) s).2.isSome = true) :
    ∃ t a u b, x s = (t, some a) ∧ f a t = (u, some b) := by
  match hx : x s with
  | (t, none) =>
    rw [bind_none hx] at h
    exact nomatch h
  | (t, some a) =>
    rw [bind_some hx] at h
    obtain ⟨b, hb⟩ := Option.isSome_iff_exists.1 h
    exact ⟨t, a, (f a t).1, b, rfl, Prod.ext rfl hb⟩

/-- What holds after `x` returns, and after it ends early. -/
def Post (Q : α → σ → Prop) (C : σ → Prop) : σ × Option α → Prop
  | (t, some a) => Q a t
  | (t, none) => C t

/-- **A Hoare triple with a crash condition.** -/
def Triple (P : σ → Prop) (x : Proc σ α) (Q : α → σ → Prop) (C : σ → Prop) : Prop := ∀ s, P s → Post Q C (x s)

namespace Triple

variable {P P' : σ → Prop} {x : Proc σ α} {Q R : α → σ → Prop} {C C' : σ → Prop}

/-- The rule of consequence. -/
theorem weaken (h : Triple P x Q C) (hP : ∀ s, P' s → P s) (hQ : ∀ a s, Q a s → R a s) (hC : ∀ s, C s → C' s) :
    Triple P' x R C' := by
  intro s hs
  have := h s (hP s hs)
  cases hx : x s with
  | mk t r =>
    rw [hx] at this
    cases r with
    | some a => exact hQ a t this
    | none => exact hC t this

theorem post (h : Triple P x Q C) (hQ : ∀ a s, Q a s → R a s) : Triple P x R C :=
  h.weaken (fun _ hs => hs) hQ fun _ hs => hs

theorem pre (h : Triple P x Q C) (hP : ∀ s, P' s → P s) : Triple P' x Q C :=
  h.weaken hP (fun _ _ hs => hs) fun _ hs => hs

theorem pure {a : α} (h : ∀ s, P s → Q a s) : Triple P (Pure.pure a) Q C := h

theorem abort (h : ∀ s, P s → C s) : Triple P (Proc.abort : Proc σ α) Q C := h

theorem modify {f : σ → σ} {Q : Unit → σ → Prop} (h : ∀ s, P s → Q () (f s)) : Triple P (Proc.modify f) Q C := h

/-- The rule of sequence. -/
theorem bind {f : α → Proc σ β} {R : β → σ → Prop} (hx : Triple P x Q C) (hf : ∀ a, Triple (Q a) (f a) R C) :
    Triple P (x >>= f) R C := by
  intro s hs
  have := hx s hs
  cases h : x s with
  | mk t r =>
    rw [h] at this
    cases r with
    | some a => rw [bind_some h]; exact hf a t this
    | none => rw [bind_none h]; exact this

/-- A precondition with something unnamed in it. -/
theorem exists_pre {ι : Sort*} {P : ι → σ → Prop} (h : ∀ i, Triple (P i) x Q C) : Triple (fun s => ∃ i, P i s) x Q C :=
  fun s ⟨i, hs⟩ => h i s hs

/-- A precondition with a fact that is not about the state. -/
theorem and_pre {φ : Prop} (h : φ → Triple P x Q C) : Triple (fun s => φ ∧ P s) x Q C := fun s ⟨hφ, hs⟩ => h hφ s hs

/-- Two triples about one program hold together. -/
theorem and (h : Triple P x Q C) (h' : Triple P' x R C') :
    Triple (fun s => P s ∧ P' s) x (fun a s => Q a s ∧ R a s) fun s => C s ∧ C' s := by
  intro s hs
  have hQ := h s hs.1
  have hR := h' s hs.2
  cases hx : x s with
  | mk t r =>
    rw [hx] at hQ hR
    cases r with
    | some a => exact ⟨hQ, hR⟩
    | none => exact ⟨hQ, hR⟩

/-- A branch has to be verified where it is taken. -/
theorem ite {c : Prop} [Decidable c] {y : Proc σ α} (hx : c → Triple P x Q C) (hy : ¬ c → Triple P y Q C) :
    Triple P (if c then x else y) Q C := by
  split
  · exact hx ‹_›
  · exact hy ‹_›

/-- A loop over a list. `I done b` holds of the state once the part `done` is over, with `b` so far. -/
theorem foldlM {l : List α} {f : β → α → Proc σ β} {I : List α → β → σ → Prop}
    (hf : ∀ done a rest b, l = done ++ a :: rest → Triple (I done b) (f b a) (fun b' => I (done ++ [a]) b') C)
    (b : β) : Triple (I [] b) (l.foldlM f b) (I l) C := by
  have hloop : ∀ rest done b, l = done ++ rest → Triple (I done b) (rest.foldlM f b) (I l) C := by
    intro rest
    induction rest with
    | nil =>
      intro done b hl
      rw [List.append_nil] at hl
      subst hl
      exact Triple.pure fun s hs => hs
    | cons a rest ih =>
      intro done b hl
      rw [List.foldlM_cons]
      exact (hf done a rest b hl).bind fun b' => ih (done ++ [a]) b' (by rw [hl, List.append_assoc]; rfl)
  exact hloop l [] b rfl

/-- What a triple says about one run that returns. -/
theorem of_some (h : Triple P x Q C) {s t : σ} {a : α} (hs : P s) (hx : x s = (t, some a)) : Q a t := by
  have := h s hs
  rwa [hx] at this

end Triple

/-- `x` takes every state along `R`. -/
def Moves (R : σ → σ → Prop) (x : Proc σ α) : Prop := ∀ s, R s (x s).1

namespace Moves

variable {R : σ → σ → Prop} {x : Proc σ α}

theorem modify {f : σ → σ} (h : ∀ s, R s (f s)) : Moves R (Proc.modify f) := h

theorem ite {c : Prop} [Decidable c] {y : Proc σ α} (hx : Moves R x) (hy : Moves R y) :
    Moves R (if c then x else y) := by
  split
  · exact hx
  · exact hy

variable [IsPreorder σ R]

theorem pure (a : α) : Moves R (Pure.pure a : Proc σ α) := fun s => refl s

theorem abort : Moves R (Proc.abort : Proc σ α) := fun s => refl s

theorem get : Moves R (Proc.get : Proc σ σ) := fun s => refl s

theorem bind {f : α → Proc σ β} (hx : Moves R x) (hf : ∀ a, Moves R (f a)) : Moves R (x >>= f) := by
  intro s
  have hfirst := hx s
  cases h : x s with
  | mk t r =>
    rw [h] at hfirst
    cases r with
    | none => rw [bind_none h]; exact hfirst
    | some a => rw [bind_some h]; exact IsTrans.trans s t _ hfirst (hf a t)

theorem foldlM {l : List α} {f : β → α → Proc σ β} (hf : ∀ b a, Moves R (f b a)) (b : β) : Moves R (l.foldlM f b) := by
  induction l generalizing b with
  | nil => exact pure b
  | cons a l ih =>
    rw [List.foldlM_cons]
    exact (hf b a).bind ih

end Moves

end Proc

end FluxGuard
