import FluxGuard.Data.Float64

/-!
# JSON

What Python's `json` module reads and writes. A text file holds characters; a Python `str`
holds code points, since a `\u` escape can name half a surrogate pair. The reader is the
standard scanner: strict strings, an integer of at most 4300 digits, `NaN` and
`Infinity`, backtracking before an incomplete fraction or exponent. The writer is
`json.dump` of a dictionary from strings to floats, with everything but printable ASCII
escaped.
-/

namespace FluxGuard

/-- A character of a Python `str`. -/
abbrev CodePoint := Fin 0x110000

instance CodePoint.neZero : NeZero 0x110000 := ⟨by decide⟩

/-- A Python string: any code points, lone surrogates among them. -/
abbrev PyStr := List CodePoint

/-- The code point of a character. -/
def CodePoint.ofChar (c : Char) : CodePoint :=
  ⟨c.toNat, by
    rcases c.valid with h | h
    · exact Nat.lt_trans h (by decide)
    · exact h.2⟩

/-- A Python string without surrogates. -/
def pyStr (s : Text) : PyStr := s.map CodePoint.ofChar

/-- What `json.loads` returns. -/
inductive Json
  | null
  | bool (b : Bool)
  | int (z : ℤ)
  | float (x : PyFloat)
  | str (s : PyStr)
  | arr (items : List Json)
  | obj (members : List (PyStr × Json))

/-! ## Writing -/

/-- `\uXXXX` for a UTF-16 code unit. -/
def escapeUnit (n : ℕ) : Text :=
  ['\\', 'u', Nat.digitChar (n / 4096 % 16), Nat.digitChar (n / 256 % 16), Nat.digitChar (n / 16 % 16),
    Nat.digitChar (n % 16)]

/-- The first half of the surrogate pair of a code point beyond the basic plane. -/
def highHalf (n : ℕ) : ℕ := 0xd800 + (n - 0x10000) / 0x400

/-- The second half of a surrogate pair. -/
def lowHalf (n : ℕ) : ℕ := 0xdc00 + (n - 0x10000) % 0x400

/-- `ESCAPE_ASCII` on one code point: what is not printable ASCII is escaped, beyond the first plane as
a surrogate pair. -/
def escapeChar (c : CodePoint) : Text :=
  match c.val with
  | 0x22 => ['\\', '"']
  | 0x5c => ['\\', '\\']
  | 0x0a => ['\\', 'n']
  | 0x0d => ['\\', 'r']
  | 0x09 => ['\\', 't']
  | 0x0c => ['\\', 'f']
  | 0x08 => ['\\', 'b']
  | n =>
    if 0x20 ≤ n ∧ n ≤ 0x7e then [Char.ofNat n]
    else if n < 0x10000 then escapeUnit n
    else escapeUnit (highHalf n) ++ escapeUnit (lowHalf n)

/-- `json.dumps` of a string. -/
def dumpsStr (s : PyStr) : Text := '"' :: (s.flatMap escapeChar ++ ['"'])

/-- `float.__repr__`, and JavaScript's names for the rest. -/
def dumpsFloat : PyFloat → Text
  | .finite x => x.shortest.numeral.text
  | .inf neg => (if neg then ['-'] else []) ++ ['I', 'n', 'f', 'i', 'n', 'i', 't', 'y']
  | .nan => ['N', 'a', 'N']

/-- A member of an object, with the default separators. -/
def dumpsMember (m : PyStr × PyFloat) : Text := dumpsStr m.1 ++ (':' :: ' ' :: dumpsFloat m.2)

/-- The members of an object, and its closing brace. -/
def dumpsMembers : List (PyStr × PyFloat) → Text
  | [] => ['\x7d']
  | m :: ms => dumpsMember m ++ ((if ms = [] then [] else [',', ' ']) ++ dumpsMembers ms)

/-- `json.dumps` of a dict of floats. -/
def dumpsItems (items : List (PyStr × PyFloat)) : Text := '\x7b' :: dumpsMembers items

/-! ## Reading -/

/-- A scanner reads a value off the front of a text. -/
abbrev Scan (α : Type) := Text → Option (α × Text)

/-- The whitespace of JSON. -/
def isWs (c : Char) : Bool := c = ' ' ∨ c = '\t' ∨ c = '\n' ∨ c = '\r'

/-- The text after its whitespace. -/
def skipWs (s : Text) : Text := s.dropWhile isWs

/-- An optional minus. -/
def scanSign : Text → Bool × Text
  | '-' :: s => (true, s)
  | s => (false, s)

/-- The digits before the point: `0` alone, or any that do not begin with it. -/
def scanInt : Scan Text
  | [] => none
  | '0' :: s => some (['0'], s)
  | c :: s => if c.isDigit then some (c :: s.takeWhile Char.isDigit, s.dropWhile Char.isDigit) else none

/-- A fraction, if a digit follows the point. -/
def scanFrac : Text → Text × Text
  | '.' :: c :: s =>
    if c.isDigit then (c :: s.takeWhile Char.isDigit, s.dropWhile Char.isDigit) else ([], '.' :: c :: s)
  | s => ([], s)

/-- The optional sign of an exponent. -/
def scanExpSign : Text → Bool × Text
  | '-' :: s => (true, s)
  | '+' :: s => (false, s)
  | s => (false, s)

/-- An exponent, if it has a digit. -/
def scanExp : Text → Option ℤ × Text
  | [] => (none, [])
  | c :: s =>
    if c = 'e' ∨ c = 'E' then
      let (neg, t) := scanExpSign s
      let value : ℤ := Nat.ofDigitChars 10 (t.takeWhile Char.isDigit) 0
      if t.takeWhile Char.isDigit = [] then (none, c :: s)
      else (some (if neg then -value else value), t.dropWhile Char.isDigit)
    else (none, c :: s)

/-- A number: an integer of at most 4300 digits, or the float that is nearest. -/
def scanNumber : Scan Json := fun s => do
  let (neg, s) := scanSign s
  let (int, s) ← scanInt s
  let (frac, s) := scanFrac s
  let (exp, s) := scanExp s
  if frac = [] ∧ exp = none then
    let value : ℤ := Nat.ofDigitChars 10 int 0
    if int.length ≤ 4300 then some (.int (if neg then -value else value), s) else none
  else
    some (.float (⟨neg, Nat.ofDigitChars 10 (int ++ frac) 0, exp.getD 0 - frac.length⟩ : Decimal).toFloat, s)

/-- The escapes of one letter. -/
def simpleEscape : Char → Option CodePoint
  | '"' => some 0x22
  | '\\' => some 0x5c
  | '/' => some 0x2f
  | 'b' => some 0x08
  | 'f' => some 0x0c
  | 'n' => some 0x0a
  | 'r' => some 0x0d
  | 't' => some 0x09
  | _ => none

/-- The code unit of four hexadecimal digits. -/
def hexUnit (a b c d : Char) : Option CodePoint := (readHex [a, b, c, d]).map (Fin.ofNat 0x110000)

/-- One more code point in front of what is scanned. -/
def consUnit (u : CodePoint) (r : Option (PyStr × Text)) : Option (PyStr × Text) := r.map fun r => (u :: r.1, r.2)

/-- The rest of a string, up to its closing quote; `\u` escapes one by one. -/
def scanUnits : Scan PyStr
  | [] => none
  | '"' :: s => some ([], s)
  | '\\' :: 'u' :: a :: b :: c :: d :: s => (hexUnit a b c d).bind fun u => consUnit u (scanUnits s)
  | '\\' :: c :: s => (simpleEscape c).bind fun u => consUnit u (scanUnits s)
  | c :: s => if c.toNat ≤ 0x1f then none else consUnit (CodePoint.ofChar c) (scanUnits s)

/-- Two escapes that form a surrogate pair are one code point. -/
def joinSurrogates : PyStr → PyStr
  | [] => []
  | [u] => [u]
  | h :: l :: s =>
    if (0xd800 ≤ h.val ∧ h.val ≤ 0xdbff) ∧ 0xdc00 ≤ l.val ∧ l.val ≤ 0xdfff then
      Fin.ofNat 0x110000 (0x10000 + (h.val - 0xd800) * 0x400 + (l.val - 0xdc00)) :: joinSurrogates s
    else h :: joinSurrogates (l :: s)

/-- The rest of a string, after its opening quote. -/
def scanString : Scan PyStr := fun s => (scanUnits s).map fun r => (joinSurrogates r.1, r.2)

/-- Items with commas between them, up to `close`. -/
def scanItems {α : Type} (item : Scan α) (close : Char) : ℕ → Scan (List α)
  | 0, _ => none
  | n + 1, s => (item s).bind fun i =>
    match skipWs i.2 with
    | [] => none
    | c :: r =>
      if c = close then some ([i.1], r)
      else if c = ',' then (scanItems item close n (skipWs r)).map fun l => (i.1 :: l.1, l.2)
      else none

/-- A member of an object, from the opening quote of its key on. -/
def scanMember (value : Scan Json) : Scan (PyStr × Json)
  | '"' :: s => (scanString s).bind fun k =>
    match skipWs k.2 with
    | ':' :: s => (value (skipWs s)).map fun v => ((k.1, v.1), v.2)
    | _ => none
  | _ => none

/-- The constants that `json` reads, `NaN` and the infinities among them. -/
def words : List (Text × Json) :=
  [(['n', 'u', 'l', 'l'], .null), (['t', 'r', 'u', 'e'], .bool true), (['f', 'a', 'l', 's', 'e'], .bool false),
    (['N', 'a', 'N'], .float .nan), (['I', 'n', 'f', 'i', 'n', 'i', 't', 'y'], .float (.inf false)),
    (['-', 'I', 'n', 'f', 'i', 'n', 'i', 't', 'y'], .float (.inf true))]

/-- One of these constants. -/
def scanWord : Scan Json := fun s =>
  (words.find? fun w => w.1.isPrefixOf s).map fun w => (w.2, s.drop w.1.length)

/-- A value at most `n` deep. Each level takes a character, so the length of the text is enough. -/
def scanValue : ℕ → Scan Json
  | 0, _ => none
  | n + 1, s =>
    match s with
    | '"' :: s => (scanString s).map fun r => (.str r.1, r.2)
    | '\x7b' :: s =>
      match skipWs s with
      | '\x7d' :: s => some (.obj [], s)
      | s => (scanItems (scanMember (scanValue n)) '\x7d' s.length s).map fun r => (.obj r.1, r.2)
    | '[' :: s =>
      match skipWs s with
      | ']' :: s => some (.arr [], s)
      | s => (scanItems (scanValue n) ']' s.length s).map fun r => (.arr r.1, r.2)
    | s => (scanWord s).or (scanNumber s)

/-- `json.loads`. -/
def loads (s : Text) : Option Json := do
  let (v, r) ← scanValue (s.length + 1) (skipWs s)
  if skipWs r = [] then some v else none

end FluxGuard
