import FluxGuard.Data.Json

/-!
# Writing any value

`json.dump` of any value, in the layouts that `separators` and `indent` give. `Json.Writable`
are the values that the writer takes and the reader returns: no two neighbours in a string are
the halves of one character, and no integer has more than 4300 digits.
-/

namespace FluxGuard

/-- `separators` and `indent`. -/
structure Layout where
  itemSep : Text
  keySep : Text
  indent : Option ℕ
  itemSep_eq : ∃ n, itemSep = ',' :: List.replicate n ' '
  keySep_eq : ∃ n, keySep = ':' :: List.replicate n ' '

namespace Layout

/-- What `json.dump` writes by default. -/
def plain : Layout := ⟨[',', ' '], [':', ' '], none, ⟨1, rfl⟩, ⟨1, rfl⟩⟩

/-- `indent=n`, which leaves no blank at the end of a line. -/
def indented (n : ℕ) : Layout := ⟨[','], [':', ' '], some n, ⟨0, rfl⟩, ⟨1, rfl⟩⟩

/-- `separators=(",", ":")`. -/
def compact : Layout := ⟨[','], [':'], none, ⟨0, rfl⟩, ⟨0, rfl⟩⟩

/-- The start of a line at a level of nesting. -/
def newline (L : Layout) (level : ℕ) : Text :=
  match L.indent with
  | none => []
  | some n => '\n' :: List.replicate (n * level) ' '

end Layout

/-- `int.__repr__`. -/
def dumpsInt (z : ℤ) : Text := (if z < 0 then ['-'] else []) ++ Nat.toDigits 10 z.natAbs

mutual

/-- The text of a value that stands at a level of nesting. -/
def dumpsValue (L : Layout) (level : ℕ) : Json → Text
  | .null => ['n', 'u', 'l', 'l']
  | .bool true => ['t', 'r', 'u', 'e']
  | .bool false => ['f', 'a', 'l', 's', 'e']
  | .int z => dumpsInt z
  | .float x => dumpsFloat x
  | .str s => dumpsStr s
  | .arr [] => ['[', ']']
  | .arr (v :: vs) =>
    '[' :: (L.newline (level + 1) ++ dumpsValue L (level + 1) v ++ dumpsElems L (level + 1) vs ++
      L.newline level ++ [']'])
  | .obj [] => ['\x7b', '\x7d']
  | .obj (m :: ms) =>
    '\x7b' :: (L.newline (level + 1) ++ dumpsPair L (level + 1) m ++ dumpsPairs L (level + 1) ms ++
      L.newline level ++ ['\x7d'])

/-- The elements after the first. -/
def dumpsElems (L : Layout) (level : ℕ) : List Json → Text
  | [] => []
  | v :: vs => L.itemSep ++ L.newline level ++ dumpsValue L level v ++ dumpsElems L level vs

/-- A member of an object in this layout. -/
def dumpsPair (L : Layout) (level : ℕ) : PyStr × Json → Text
  | (k, v) => dumpsStr k ++ L.keySep ++ dumpsValue L level v

/-- The members after the first. -/
def dumpsPairs (L : Layout) (level : ℕ) : List (PyStr × Json) → Text
  | [] => []
  | m :: ms => L.itemSep ++ L.newline level ++ dumpsPair L level m ++ dumpsPairs L level ms

end

/-- `json.dumps`. -/
def dumps (L : Layout) (v : Json) : Text := dumpsValue L 0 v

/-! ## What can be written -/

/-- The first and the second half of a character beyond the basic plane. -/
def isHigh (u : CodePoint) : Prop := 0xd800 ≤ u.val ∧ u.val ≤ 0xdbff

/-- The second half of a surrogate pair. -/
def isLow (u : CodePoint) : Prop := 0xdc00 ≤ u.val ∧ u.val ≤ 0xdfff

instance (u : CodePoint) : Decidable (isHigh u) := inferInstanceAs (Decidable (_ ∧ _))

instance (u : CodePoint) : Decidable (isLow u) := inferInstanceAs (Decidable (_ ∧ _))

/-- No two neighbours are the halves of one character. -/
def Joined (s : PyStr) : Prop := s.IsChain fun u v => ¬ (isHigh u ∧ isLow v)

/-- The values that can be written and read back. A longer integer is a `ValueError` in both directions. -/
inductive Json.Writable : Json → Prop
  | null : Writable .null
  | bool (b : Bool) : Writable (.bool b)
  | int {z : ℤ} (h : (Nat.toDigits 10 z.natAbs).length ≤ 4300) : Writable (.int z)
  | float (x : PyFloat) : Writable (.float x)
  | str {s : PyStr} (h : Joined s) : Writable (.str s)
  | arr {vs : List Json} (h : ∀ v ∈ vs, Writable v) : Writable (.arr vs)
  | obj {ms : List (PyStr × Json)} (hkeys : ∀ m ∈ ms, Joined m.1) (h : ∀ m ∈ ms, Writable m.2) : Writable (.obj ms)

example : dumps (.indented 2) (.obj [(pyStr ['a'], .arr [.int (-1), .null]), (pyStr ['b'], .obj [])]) =
    "\x7b\n  \x22a\x22: [\n    -1,\n    null\n  ],\n  \x22b\x22: \x7b\x7d\n\x7d".toList := by decide

end FluxGuard
