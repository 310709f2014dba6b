import FluxGuard.Data.Numeral

/-!
# Text operations

Python's `str` methods on lists of characters: `splitlines`, `split`, `replace`, `startswith`,
and `int` of a text.

* `splitLines_joinLines`: lines without line breaks, each ended by a newline, are split again.
* `getLast_splitWords`: the last word of a text.
* `pyInt_toDigits`: reading a printed number gives the number.
-/

namespace FluxGuard

/-! ## Lines -/

/-- The characters that `splitlines` splits at. -/
def isLineBreak (c : Char) : Bool :=
  c ∈ ['\n', '\r', '\x0b', '\x0c', '\x1c', '\x1d', '\x1e', '\u0085', '\u2028', '\u2029']

/-- `str.splitlines`. -/
def splitLines : Text → List Text
  | [] => []
  | '\r' :: '\n' :: s => [] :: splitLines s
  | c :: s =>
    if isLineBreak c then [] :: splitLines s
    else match splitLines s with
      | [] => [[c]]
      | l :: ls => (c :: l) :: ls

/-- `"\n".join`. -/
def joinLines (ls : List Text) : Text := ['\n'].intercalate ls

/-- No character of it ends a line for `splitlines`. -/
def OneLine (l : Text) : Prop := ∀ c ∈ l, isLineBreak c = false

/-- A line and its newline are split off. -/
theorem splitLines_line {l : Text} (h : OneLine l) (s : Text) : splitLines (l ++ '\n' :: s) = l :: splitLines s := by
  induction l with
  | nil =>
    rw [List.nil_append, splitLines]
    · exact if_pos (by decide)
    · intro s' hs'
      exact absurd hs' (by decide)
  | cons c l ih =>
    have hc : isLineBreak c = false := h c List.mem_cons_self
    have hcons : splitLines (c :: (l ++ '\n' :: s)) = (c :: l) :: splitLines s := by
      rw [splitLines]
      · rw [if_neg (by rw [hc]; exact Bool.false_ne_true), ih fun c' hc' => h c' (List.mem_cons_of_mem _ hc')]
      · intro s' hr
        rw [hr] at hc
        exact absurd hc (by decide)
    exact hcons

/-- Joining with a last empty line ends every line. -/
theorem joinLines_concat (ls : List Text) : joinLines (ls ++ [[]]) = ls.flatMap (· ++ ['\n']) := by
  unfold joinLines
  induction ls with
  | nil => rfl
  | cons l ls ih =>
    cases ls with
    | nil => simp [List.intercalate]
    | cons l' ls =>
      rw [List.flatMap_cons, ← ih]
      simp [List.intercalate, List.intersperse]

/-- Lines that were written one after the other are split again. -/
theorem splitLines_flatMap {ls : List Text} (h : ∀ l ∈ ls, OneLine l) : splitLines (ls.flatMap (· ++ ['\n'])) = ls := by
  induction ls with
  | nil => rfl
  | cons l ls ih =>
    rw [List.flatMap_cons, List.append_assoc, List.singleton_append, splitLines_line (h l List.mem_cons_self),
      ih fun l' hl' => h l' (List.mem_cons_of_mem _ hl')]

/-- **Lines are split as they were joined**, if the last one is empty. -/
theorem splitLines_joinLines {ls : List Text} (h : ∀ l ∈ ls, OneLine l) : splitLines (joinLines (ls ++ [[]])) = ls := by
  rw [joinLines_concat, splitLines_flatMap h]

/-- Two pieces of a line make a piece of a line. -/
theorem OneLine.append {a b : Text} (ha : OneLine a) (hb : OneLine b) : OneLine (a ++ b) := by
  intro c hc
  rcases List.mem_append.1 hc with hc | hc
  · exact ha c hc
  · exact hb c hc

/-! ## Words -/

/-- `str.isspace` of a character. -/
def isSpace (c : Char) : Bool :=
  (9 ≤ c.toNat ∧ c.toNat ≤ 13) ∨ (28 ≤ c.toNat ∧ c.toNat ≤ 32) ∨ c.toNat = 0x85 ∨ c.toNat = 0xa0 ∨ c.toNat = 0x1680 ∨
    (0x2000 ≤ c.toNat ∧ c.toNat ≤ 0x200a) ∨ c.toNat = 0x2028 ∨ c.toNat = 0x2029 ∨ c.toNat = 0x202f ∨ c.toNat = 0x205f ∨
    c.toNat = 0x3000

/-- `str.split()`. -/
def splitWords (s : Text) : List Text := (s.splitOnP isSpace).filter (· ≠ [])

/-- The word at the end of a text. -/
theorem getLast_splitWords (a : Text) {d : Text} (hne : d ≠ []) (hd : ∀ c ∈ d, isSpace c = false) :
    (splitWords (a ++ ' ' :: d)).getLast? = some d := by
  have hone : d.splitOnP isSpace = [d] := List.splitOnP_eq_singleton hd
  unfold splitWords
  rw [List.splitOnP_append_cons _ _ (by decide), hone, List.filter_append, List.filter_cons_of_pos (by simpa using hne),
    List.filter_nil, List.getLast?_concat]

/-- The part between the first two separators. -/
theorem splitOn_between {x : Char} {a b c : Text} (ha : x ∉ a) (hb : x ∉ b) (hc : x ∉ c) :
    ((a ++ x :: (b ++ x :: c)).splitOn x)[1]? = some b := by
  have hjoin : a ++ x :: (b ++ x :: c) = [x].intercalate [a, b, c] := by simp [List.intercalate, List.intersperse]
  rw [hjoin, List.splitOn_intercalate x (by simp [ha, hb, hc]) (by simp)]
  rfl

/-! ## Replacing and comparing -/

/-- `str.replace` of one character. -/
def replaceChar (old : Char) (new s : Text) : Text := s.flatMap fun c => if c = old then new else [c]

/-- What is not there is not replaced. -/
theorem replaceChar_of_not_mem {old : Char} (new : Text) {s : Text} (h : old ∉ s) : replaceChar old new s = s := by
  unfold replaceChar
  induction s with
  | nil => rfl
  | cons c s ih =>
    have hc : c ≠ old := fun he => h (he ▸ List.mem_cons_self)
    rw [List.flatMap_cons, if_neg hc, ih fun hs => h (List.mem_cons_of_mem _ hs)]
    rfl

/-- A decidable property of a literal, decided on its characters. -/
theorem literal {s : String} {l : Text} (h : s = String.ofList l) (p : Text → Bool) (hp : p l = true) :
    p s.toList = true := by
  rw [h, String.toList_ofList]
  exact hp

/-- Two literals of which none begins with the other. -/
def apart (p q : Text) : Bool := !p.isPrefixOf q && !q.isPrefixOf p

theorem isPrefixOf_of_apart {p q : Text} (h : apart p q = true) (rest : Text) : p.isPrefixOf (q ++ rest) = false := by
  unfold apart at h
  rw [Bool.and_eq_true, Bool.not_eq_true', Bool.not_eq_true'] at h
  rw [← Bool.not_eq_true, List.isPrefixOf_iff_prefix]
  intro hp
  rcases List.prefix_or_prefix_of_prefix hp (List.prefix_append q rest) with hpq | hqp
  · rw [← List.isPrefixOf_iff_prefix, h.1] at hpq
    cases hpq
  · rw [← List.isPrefixOf_iff_prefix, h.2] at hqp
    cases hqp

theorem isPrefixOf_append (p rest : Text) : p.isPrefixOf (p ++ rest) = true :=
  List.isPrefixOf_iff_prefix.2 (List.prefix_append p rest)

/-! ## Numbers -/

/-- The digits of an `int` literal, with single underscores between them. -/
def readDigits (s : Text) : Option ℕ :=
  if [] ∈ s.splitOn '_' then none else readDec (s.splitOn '_').flatten

/-- `int` of a word of ASCII characters. -/
def pyInt : Text → Option ℤ
  | '-' :: s => (readDigits s).map fun n : ℕ => -(n : ℤ)
  | '+' :: s => (readDigits s).map Int.ofNat
  | s => (readDigits s).map Int.ofNat

theorem readDigits_toDigits (n : ℕ) : readDigits (Nat.toDigits 10 n) = some n := by
  have hsplit : (Nat.toDigits 10 n).splitOn '_' = [Nat.toDigits 10 n] := by
    have hjoin : (['_'].intercalate [Nat.toDigits 10 n]).splitOn '_' = [Nat.toDigits 10 n] :=
      List.splitOn_intercalate '_' (by simp) (by simp)
    rwa [List.intercalate_singleton] at hjoin
  unfold readDigits
  rw [hsplit, if_neg (by simp), List.flatten_singleton, readDec_toDigits]

/-- `int` reads what was formatted. -/
theorem pyInt_toDigits (n : ℕ) : pyInt (Nat.toDigits 10 n) = some (n : ℤ) := by
  have hsign : ∀ c s, Nat.toDigits 10 n = c :: s → hexVal c ≠ none := by
    intro c s h hc
    exact not_mem_toDigits (n := n) hc (by decide) (by decide) (h ▸ List.mem_cons_self)
  have hdigits := readDigits_toDigits n
  cases h : Nat.toDigits 10 n with
  | nil => exact absurd h Nat.toDigits_ne_nil
  | cons c s =>
    have hc := hsign c s h
    rw [h] at hdigits
    unfold pyInt
    split
    · rename_i s' heq
      rw [(List.cons.inj heq).1] at hc
      exact absurd (by decide) hc
    · rename_i s' heq
      rw [(List.cons.inj heq).1] at hc
      exact absurd (by decide) hc
    · rw [hdigits]
      rfl

/-- A printed number is a word. -/
theorem isSpace_toDigits {n : ℕ} {c : Char} (h : c ∈ Nat.toDigits 10 n) : isSpace c = false := by
  obtain ⟨d, hd, rfl⟩ := exists_digitChar_of_mem_toDigits (by decide) h
  have key : ∀ d < 10, isSpace (Nat.digitChar d) = false := by decide
  exact key d hd

theorem oneLine_toDigits (n : ℕ) : OneLine (Nat.toDigits 10 n) := by
  intro c h
  obtain ⟨d, hd, rfl⟩ := exists_digitChar_of_mem_toDigits (by decide) h
  have key : ∀ d < 10, isLineBreak (Nat.digitChar d) = false := by decide
  exact key d hd

end FluxGuard
