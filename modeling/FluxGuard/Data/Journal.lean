import Mathlib

/-!
# Journals of a set of keys

A component that tracks a set of keys writes down what it does to it: which key comes in,
which goes out, and how many are tracked then. An entry may also go unrecorded (`lost`).

* `replay_append`, `fits_append`: a journal is replayed piece by piece.
* `balance`: in a journal that fits, what was there and what came in is what went out,
  what was lost and what is left.
-/

namespace FluxGuard

/-- One change of the tracked keys, with the number tracked right after it if it is on record. -/
inductive Entry (α : Type)
  | added (a : α) (count : ℤ)
  | removed (a : α) (count : ℤ)
  | lost (a : α)
deriving DecidableEq

namespace Entry

variable {α : Type} [DecidableEq α]

/-- An entry replayed on a set of keys. -/
def apply (K : Finset α) : Entry α → Finset α
  | .added a _ => insert a K
  | .removed a _ | .lost a => K.erase a

/-- The entry is about a key that can come in, or go out, and its count is right. -/
def Fits (K : Finset α) : Entry α → Prop
  | .added a count => a ∉ K ∧ count = (insert a K).card
  | .removed a count => a ∈ K ∧ count = (K.erase a).card
  | .lost a => a ∈ K

/-- A key was added. -/
def isAdded : Entry α → Bool
  | .added .. => true
  | _ => false

/-- A key was removed, and recorded as such. -/
def isRemoved : Entry α → Bool
  | .removed .. => true
  | _ => false

/-- The key of a change that is not on record. -/
def lostKey : Entry α → Option α
  | .lost a => some a
  | _ => none

end Entry

namespace Journal

variable {α : Type} [DecidableEq α]

/-- The keys that are left after a journal. -/
def replay (K : Finset α) (J : List (Entry α)) : Finset α := J.foldl Entry.apply K

/-- Every entry fits the keys at its place. -/
def Fits (K : Finset α) : List (Entry α) → Prop
  | [] => True
  | e :: J => e.Fits K ∧ Fits (e.apply K) J

/-- The changes that are on record. -/
def recorded (J : List (Entry α)) : List (Entry α) := J.filter fun e => e.lostKey.isNone

/-- A replay goes on where the first part left off. -/
theorem replay_append (K : Finset α) (J J' : List (Entry α)) : replay K (J ++ J') = replay (replay K J) J' :=
  List.foldl_append ..

/-- A journal that goes on fitting fits. -/
theorem fits_append {K : Finset α} {J J' : List (Entry α)} (h : Fits K J) (h' : Fits (replay K J) J') :
    Fits K (J ++ J') := by
  induction J generalizing K with
  | nil => exact h'
  | cons e J ih => exact ⟨h.1, ih h.2 h'⟩

/-- **The balance of a journal.** -/
theorem balance {K : Finset α} {J : List (Entry α)} (h : Fits K J) :
    K.card + J.countP Entry.isAdded =
      J.countP Entry.isRemoved + (J.filterMap Entry.lostKey).length + (replay K J).card := by
  induction J generalizing K with
  | nil => simp [replay]
  | cons e J ih =>
    obtain ⟨he, hJ⟩ := h
    have ih := ih hJ
    have hreplay : replay K (e :: J) = replay (e.apply K) J := rfl
    rw [hreplay, List.countP_cons, List.countP_cons]
    cases e with
    | added a count =>
      have hcard : (insert a K).card = K.card + 1 := Finset.card_insert_of_notMem he.1
      simp only [Entry.apply] at ih ⊢
      simp only [Entry.isAdded, Entry.isRemoved, List.filterMap_cons, Entry.lostKey]
      simp only [if_true, Bool.false_eq_true, if_false]
      omega
    | removed a count =>
      have hcard : (K.erase a).card + 1 = K.card := Finset.card_erase_add_one he.1
      simp only [Entry.apply] at ih ⊢
      simp only [Entry.isAdded, Entry.isRemoved, List.filterMap_cons, Entry.lostKey]
      simp only [if_true, Bool.false_eq_true, if_false]
      omega
    | lost a =>
      have hcard : (K.erase a).card + 1 = K.card := Finset.card_erase_add_one he
      simp only [Entry.apply] at ih ⊢
      simp only [Entry.isAdded, Entry.isRemoved, List.filterMap_cons, Entry.lostKey, List.length_cons]
      simp only [Bool.false_eq_true, if_false]
      omega

end Journal

end FluxGuard
