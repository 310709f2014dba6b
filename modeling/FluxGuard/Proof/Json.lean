import FluxGuard.Data.Json

/-!
# What is written reads back

* `scanNumber_text`: the scanner reads the text of a float.
* `scanString_dumps`: a text survives its escapes.
* `loads_dumpsItems`: **a dumped dictionary loads as itself**.
* `loads_prefix`: **no proper prefix of it loads**.
-/

namespace FluxGuard

/-! ## Numbers -/

/-- The text does not go on with a digit. -/
def NoDigit (t : Text) : Prop := ∀ c s, t = c :: s → c.isDigit = false

/-- A number ends before such a text. -/
def Delimited (t : Text) : Prop := ∀ c s, t = c :: s → c.isDigit = false ∧ c ≠ '.' ∧ c ≠ 'e' ∧ c ≠ 'E'

theorem Delimited.noDigit {t : Text} (h : Delimited t) : NoDigit t := fun c s hc => (h c s hc).1

theorem NoDigit.cons {c : Char} (h : c.isDigit = false) (s : Text) : NoDigit (c :: s) := by
  intro c' s' heq
  cases heq
  exact h

/-- The digits end where the rest has none. -/
theorem NoDigit.span {ds t : Text} (hds : ∀ c ∈ ds, c.isDigit = true) (ht : NoDigit t) :
    (ds ++ t).takeWhile Char.isDigit = ds ∧ (ds ++ t).dropWhile Char.isDigit = t := by
  rw [List.takeWhile_append_of_pos hds, List.dropWhile_append_of_pos hds]
  cases t with
  | nil => exact ⟨List.append_nil ds, rfl⟩
  | cons c s =>
    have hc := ht c s rfl
    rw [List.takeWhile_cons_of_neg (by simp [hc]), List.dropWhile_cons_of_neg (by simp [hc])]
    exact ⟨List.append_nil ds, rfl⟩

/-- The integer part is read as it was written. -/
theorem scanInt_text (n : Numeral) {t : Text} (ht : NoDigit t) : scanInt (n.int ++ t) = some (n.int, t) := by
  rcases n.int_lead with h0 | ⟨c, s, hint, hc⟩
  · rw [h0]; rfl
  · have hdigits := n.int_digits
    rw [hint] at hdigits ⊢
    obtain ⟨htake, hdrop⟩ := ht.span fun d hd => hdigits d (List.mem_cons_of_mem c hd)
    rw [List.cons_append, scanInt.eq_3 _ _ hc, if_pos (hdigits c List.mem_cons_self), htake, hdrop]

/-- So is the fraction. -/
theorem scanFrac_text (n : Numeral) (h : n.frac ≠ []) {t : Text} (ht : NoDigit t) :
    scanFrac ('.' :: (n.frac ++ t)) = (n.frac, t) := by
  have hdigits := n.frac_digits
  cases hf : n.frac with
  | nil => exact absurd hf h
  | cons c s =>
    rw [hf] at hdigits
    obtain ⟨htake, hdrop⟩ := ht.span fun d hd => hdigits d (List.mem_cons_of_mem c hd)
    rw [List.cons_append, scanFrac.eq_1, if_pos (hdigits c List.mem_cons_self), htake, hdrop]

theorem scanFrac_of_ne {t : Text} (h : ∀ s, t ≠ '.' :: s) : scanFrac t = ([], t) :=
  scanFrac.eq_2 _ fun c s heq => h (c :: s) heq

/-- So is the exponent. -/
theorem scanExp_text (z : ℤ) {t : Text} (ht : NoDigit t) : scanExp (exponentText z ++ t) = (some z, t) := by
  have hdigits : ∀ c ∈ (if z.natAbs < 10 then ['0'] else []) ++ Nat.toDigits 10 z.natAbs, c.isDigit = true := by
    intro c hc
    rcases List.mem_append.1 hc with h | h
    · split at h
      · rw [List.mem_singleton.1 h]; rfl
      · cases h
    · exact Nat.isDigit_of_mem_toDigits (by decide) (Nat.le_refl 10) h
  have hval : Nat.ofDigitChars 10 ((if z.natAbs < 10 then ['0'] else []) ++ Nat.toDigits 10 z.natAbs) 0 = z.natAbs := by
    rw [Nat.ofDigitChars_append]
    split <;> exact Nat.ofDigitChars_ten_toDigits
  have hne : (if z.natAbs < 10 then ['0'] else []) ++ Nat.toDigits 10 z.natAbs ≠ [] :=
    List.append_ne_nil_of_right_ne_nil _ Nat.toDigits_ne_nil
  obtain ⟨htake, hdrop⟩ := ht.span hdigits
  have hsign : scanExpSign ((if z < 0 then '-' else '+') ::
      ((if z.natAbs < 10 then ['0'] else []) ++ Nat.toDigits 10 z.natAbs ++ t)) =
      (decide (z < 0), (if z.natAbs < 10 then ['0'] else []) ++ Nat.toDigits 10 z.natAbs ++ t) := by
    by_cases hz : z < 0
    · rw [if_pos hz, decide_eq_true hz]; rfl
    · rw [if_neg hz, decide_eq_false hz]; rfl
  show scanExp ('e' :: (if z < 0 then '-' else '+') ::
      ((if z.natAbs < 10 then ['0'] else []) ++ Nat.toDigits 10 z.natAbs ++ t)) = _
  rw [scanExp, if_pos (Or.inl rfl)]
  simp only [hsign, htake, hdrop, if_neg hne, hval]
  congr 2
  by_cases hz : z < 0
  · rw [if_pos (decide_eq_true hz)]; omega
  · rw [if_neg (by simpa using hz)]; omega

theorem scanExp_of_ne {t : Text} (h : ∀ c s, t = c :: s → c ≠ 'e' ∧ c ≠ 'E') : scanExp t = (none, t) := by
  cases t with
  | nil => rfl
  | cons c s =>
    obtain ⟨h1, h2⟩ := h c s rfl
    rw [scanExp, if_neg (by simp [h1, h2])]

/-- What follows the digits before the point. -/
def Numeral.tail (n : Numeral) : Text :=
  (if n.frac = [] then [] else '.' :: n.frac) ++ (n.exp.map exponentText).getD []

/-- **The scanner reads the text of a float**, up to its end. -/
theorem scanNumber_text (n : Numeral) {t : Text} (ht : Delimited t) :
    scanNumber (n.text ++ t) = some (.float n.toDecimal.toFloat, t) := by
  -- the sign, then the integer part
  have hsign : scanSign (n.text ++ t) = (n.neg, n.int ++ (n.tail ++ t)) := by
    have hint : ∀ s, scanSign (n.int ++ s) = (false, n.int ++ s) := by
      intro s
      refine scanSign.eq_2 _ fun s' heq => ?_
      rcases n.int_lead with h0 | ⟨c, s₁, hc, -⟩
      · rw [h0] at heq
        exact absurd (List.cons.inj heq).1 (by decide)
      · have hd := n.int_digits c (by rw [hc]; exact List.mem_cons_self)
        rw [hc] at heq
        rw [(List.cons.inj heq).1] at hd
        exact absurd hd (by decide)
    unfold Numeral.text Numeral.tail
    cases n.neg with
    | true => simp [scanSign]
    | false => simp only [Bool.false_eq_true, if_false, List.nil_append, List.append_assoc]; exact hint _
  -- the exponent and what follows
  have hexp : scanExp ((n.exp.map exponentText).getD [] ++ t) = (n.exp, t) := by
    cases n.exp with
    | none => exact scanExp_of_ne fun c s hc => (ht c s hc).2.2
    | some z => exact scanExp_text z ht.noDigit
  have hexpHead : ∀ c s, (n.exp.map exponentText).getD [] ++ t = c :: s → c.isDigit = false ∧ c ≠ '.' := by
    cases n.exp with
    | none => exact fun c s hc => ⟨(ht c s hc).1, (ht c s hc).2.1⟩
    | some z =>
      intro c s hc
      rw [← (List.cons.inj hc).1]
      exact ⟨by decide, by decide⟩
  have hfrac : scanFrac (n.tail ++ t) = (n.frac, (n.exp.map exponentText).getD [] ++ t) := by
    unfold Numeral.tail
    by_cases hf : n.frac = []
    · rw [if_pos hf, List.nil_append, hf]
      exact scanFrac_of_ne fun s hs => (hexpHead _ _ hs).2 rfl
    · rw [if_neg hf, List.cons_append, List.cons_append, List.append_assoc]
      exact scanFrac_text n hf fun c s hc => (hexpHead c s hc).1
  have htail : NoDigit (n.tail ++ t) := by
    unfold Numeral.tail
    by_cases hf : n.frac = []
    · rw [if_pos hf, List.nil_append]
      intro c s hc
      exact (hexpHead c s hc).1
    · rw [if_neg hf, List.cons_append, List.cons_append]
      exact NoDigit.cons (by decide) _
  -- `repr` always writes a point or an exponent, so it is no integer
  have hfloat : ¬ (n.frac = [] ∧ n.exp = none) := by
    rintro ⟨hf, he⟩
    rcases n.float with h | h
    · exact h hf
    · rw [he] at h; cases h
  unfold scanNumber
  simp only [hsign, scanInt_text n htail, hfrac, hexp, if_neg hfloat, bind, Option.bind]
  rfl

theorem scanSign_suffix (s : Text) : (scanSign s).2 <:+ s := by
  unfold scanSign
  split
  · exact List.suffix_cons ..
  · exact List.suffix_rfl

theorem scanInt_suffix {s a r : Text} (h : scanInt s = some (a, r)) : r <:+ s := by
  unfold scanInt at h
  split at h
  · cases h
  · cases h; exact List.suffix_cons ..
  · split at h
    · cases h; exact (List.dropWhile_suffix _).trans (List.suffix_cons ..)
    · cases h

theorem scanFrac_suffix (s : Text) : (scanFrac s).2 <:+ s := by
  unfold scanFrac
  split
  · split
    · exact (List.dropWhile_suffix _).trans ((List.suffix_cons ..).trans (List.suffix_cons ..))
    · exact List.suffix_rfl
  · exact List.suffix_rfl

theorem scanExpSign_suffix (s : Text) : (scanExpSign s).2 <:+ s := by
  unfold scanExpSign
  split
  · exact List.suffix_cons ..
  · exact List.suffix_cons ..
  · exact List.suffix_rfl

theorem scanExp_suffix (s : Text) : (scanExp s).2 <:+ s := by
  cases s with
  | nil => exact List.suffix_rfl
  | cons c s =>
    rw [scanExp]
    split
    · simp only
      split
      · exact List.suffix_rfl
      · exact (List.dropWhile_suffix _).trans ((scanExpSign_suffix s).trans (List.suffix_cons ..))
    · exact List.suffix_rfl

/-- What a number leaves is an end of the text. -/
theorem scanNumber_suffix {s : Text} {v : Json} {r : Text} (h : scanNumber s = some (v, r)) : r <:+ s := by
  unfold scanNumber at h
  simp only [Option.bind_eq_bind, Option.bind_eq_some_iff] at h
  obtain ⟨⟨int, s₁⟩, hint, h⟩ := h
  have hs₁ : s₁ <:+ s := (scanInt_suffix hint).trans (scanSign_suffix s)
  have hr : r = (scanExp (scanFrac s₁).2).2 := by
    simp only at h
    split at h
    · split at h
      · exact (Prod.mk.inj (Option.some.inj h)).2.symm
      · cases h
    · exact (Prod.mk.inj (Option.some.inj h)).2.symm
  rw [hr]
  exact ((scanExp_suffix _).trans (scanFrac_suffix s₁)).trans hs₁

/-! ## Floats -/

/-- A character that neither opens nor ends a value. -/
def Plain (c : Char) : Prop := c ≠ '"' ∧ c ≠ '\x7b' ∧ c ≠ '[' ∧ c ≠ ',' ∧ c ≠ '\x7d' ∧ isWs c = false

instance (c : Char) : Decidable (Plain c) := inferInstanceAs (Decidable (_ ∧ _))

theorem plain_of_isDigit {c : Char} (h : c.isDigit = true) : Plain c := by
  have hne : ∀ d : Char, d.isDigit = false → c ≠ d := by
    rintro d hd rfl
    rw [hd] at h
    cases h
  refine ⟨hne _ rfl, hne _ rfl, hne _ rfl, hne _ rfl, hne _ rfl, ?_⟩
  exact decide_eq_false
    (by simp only [hne ' ' rfl, hne '\t' rfl, hne '\n' rfl, hne '\r' rfl, or_self, not_false_eq_true])

theorem plain_exponentText (z : ℤ) : ∀ c ∈ exponentText z, Plain c := by
  intro c hc
  unfold exponentText at hc
  rcases List.mem_cons.1 hc with rfl | hc
  · decide
  rcases List.mem_cons.1 hc with rfl | hc
  · split <;> decide
  rcases List.mem_append.1 hc with hc | hc
  · split at hc
    · rw [List.mem_singleton.1 hc]; decide
    · cases hc
  · exact plain_of_isDigit (Nat.isDigit_of_mem_toDigits (by decide) (Nat.le_refl 10) hc)

/-- A number has no character that stands for anything else. -/
theorem Numeral.plain_text (n : Numeral) : ∀ c ∈ n.text, Plain c := by
  intro c hc
  unfold Numeral.text at hc
  simp only [List.mem_append] at hc
  rcases hc with ((hc | hc) | hc) | hc
  · split at hc
    · rw [List.mem_singleton.1 hc]; decide
    · cases hc
  · exact plain_of_isDigit (n.int_digits c hc)
  · split at hc
    · cases hc
    · rcases List.mem_cons.1 hc with rfl | hc
      · decide
      · exact plain_of_isDigit (n.frac_digits c hc)
  · cases he : n.exp with
    | none => rw [he] at hc; cases hc
    | some z => rw [he] at hc; exact plain_exponentText z c hc

theorem plain_dumpsFloat (x : PyFloat) : ∀ c ∈ dumpsFloat x, Plain c := by
  cases x with
  | finite x => exact x.shortest.numeral.plain_text
  | inf neg => cases neg <;> simp [dumpsFloat, Plain, isWs]
  | nan => simp [dumpsFloat, Plain, isWs]

/-- What starts with a plain character is a word or a number. -/
theorem scanValue_bare (n : ℕ) {c : Char} (h : Plain c) (s : Text) :
    scanValue (n + 1) (c :: s) = (scanWord (c :: s)).or (scanNumber (c :: s)) := by
  obtain ⟨h1, h2, h3, -⟩ := h
  rw [scanValue.eq_def]
  simp only
  split
  · rename_i heq; exact absurd (List.cons.inj heq).1 h1
  · rename_i heq; exact absurd (List.cons.inj heq).1 h2
  · rename_i heq; exact absurd (List.cons.inj heq).1 h3
  · rfl

theorem scanWord_suffix {s : Text} {v : Json} {r : Text} (h : scanWord s = some (v, r)) : r <:+ s := by
  unfold scanWord at h
  obtain ⟨w, -, hw⟩ := Option.map_eq_some_iff.1 h
  rw [← (Prod.mk.inj hw).2]
  exact List.drop_suffix ..

/-- Whatever is read of a piece of a float, no comma and no brace comes after it. -/
theorem scanValue_piece {p : Text} (hp : ∀ c ∈ p, Plain c) {n : ℕ} {v : Json} {r : Text}
    (h : scanValue n p = some (v, r)) :
    ∀ c ∈ r, Plain c := by
  cases n with
  | zero => cases h
  | succ n =>
    cases p with
    | nil => cases h
    | cons c s =>
      rw [scanValue_bare n (hp c List.mem_cons_self)] at h
      have hr : r <:+ c :: s := by
        rcases Option.or_eq_some_iff.1 h with h | ⟨-, h⟩
        · exact scanWord_suffix h
        · exact scanNumber_suffix h
      intro d hd
      exact hp d (hr.mem hd)

theorem Numeral.exists_int (n : Numeral) : ∃ c s, n.int = c :: s ∧ c.isDigit = true := by
  rcases n.int_lead with h0 | ⟨c, s, h, -⟩
  · exact ⟨'0', [], h0, rfl⟩
  · exact ⟨c, s, h, n.int_digits c (by rw [h]; exact List.mem_cons_self)⟩

/-- No word starts with a digit, and only one with a sign. -/
theorem scanWord_text (n : Numeral) (t : Text) : scanWord (n.text ++ t) = none := by
  obtain ⟨c, s, hint, hc⟩ := n.exists_int
  have hne : ∀ l : Char, l.isDigit = false → (l == c) = false := by
    intro l hl
    rw [beq_eq_false_iff_ne]
    rintro rfl
    rw [hl] at hc
    cases hc
  unfold scanWord words Numeral.text
  rw [hint]
  cases n.neg with
  | true => simp [List.isPrefixOf, hne 'I' rfl]
  | false =>
    simp [List.isPrefixOf, hne 'n' rfl, hne 't' rfl, hne 'f' rfl, hne 'N' rfl, hne 'I' rfl, hne '-' rfl]

/-- A float is read as it was written. -/
theorem scanValue_dumpsFloat (n : ℕ) (x : PyFloat) {t : Text} (ht : Delimited t) :
    scanValue (n + 1) (dumpsFloat x ++ t) = some (.float x, t) := by
  cases x with
  | inf neg => cases neg <;> rfl
  | nan => rfl
  | finite x =>
    have hword := scanWord_text x.shortest.numeral t
    have hnum := scanNumber_text x.shortest.numeral ht
    rw [Decimal.toFloat_numeral, x.toFloat_shortest] at hnum
    show scanValue (n + 1) (x.shortest.numeral.text ++ t) = _
    cases htext : x.shortest.numeral.text with
    | nil =>
      obtain ⟨c, s, hint, -⟩ := x.shortest.numeral.exists_int
      unfold Numeral.text at htext
      rw [hint] at htext
      simp at htext
    | cons c s =>
      have hc := x.shortest.numeral.plain_text c (by rw [htext]; exact List.mem_cons_self)
      rw [htext] at hword hnum
      rw [List.cons_append, scanValue_bare n hc, ← List.cons_append, hword, hnum]
      rfl

/-! ## Strings -/

theorem hexUnit_digitChar {n : ℕ} (h : n < 0x10000) :
    hexUnit (Nat.digitChar (n / 4096 % 16)) (Nat.digitChar (n / 256 % 16)) (Nat.digitChar (n / 16 % 16))
      (Nat.digitChar (n % 16)) = some (Fin.ofNat 0x110000 n) := by
  have hlt : ∀ m, m % 16 < 16 := fun m => Nat.mod_lt m (by decide)
  have hn : 16 * (16 * (16 * (16 * 0 + n / 4096 % 16) + n / 256 % 16) + n / 16 % 16) + n % 16 = n := by omega
  unfold hexUnit readHex
  simp only [List.foldlM_cons, List.foldlM_nil, hexVal_digitChar (hlt _), Option.map_some, Option.bind_eq_bind,
    Option.bind_some, Option.pure_def, hn]

/-- More code points in front of what is scanned. -/
def consUnits (us : PyStr) (r : Option (PyStr × Text)) : Option (PyStr × Text) := r.map fun r => (us ++ r.1, r.2)

/-- An escaped unit is read back. -/
theorem scanUnits_escapeUnit {n : ℕ} (h : n < 0x10000) (s : Text) :
    scanUnits (escapeUnit n ++ s) = consUnit (Fin.ofNat 0x110000 n) (scanUnits s) := by
  unfold escapeUnit
  simp only [List.cons_append, List.nil_append]
  rw [scanUnits, hexUnit_digitChar h, Option.bind_some]

/-- What a character is written as: itself, or its two halves. -/
def unitsOf (c : Char) : PyStr :=
  if c.toNat < 0x10000 then [CodePoint.ofChar c]
  else [Fin.ofNat 0x110000 (highHalf c.toNat), Fin.ofNat 0x110000 (lowHalf c.toNat)]

/-- So is a character, in its one or two units. -/
theorem scanUnits_escapeChar (c : Char) (s : Text) :
    scanUnits (escapeChar (CodePoint.ofChar c) ++ s) = consUnits (unitsOf c) (scanUnits s) := by
  have hval : (CodePoint.ofChar c).val = c.toNat := rfl
  have hsmall : c.toNat < 0x10000 → unitsOf c = [CodePoint.ofChar c] := fun h => if_pos h
  have hshort : ∀ (e : Char) (u : CodePoint), e ≠ 'u' → simpleEscape e = some u → u.val = c.toNat →
      scanUnits ('\\' :: e :: s) = consUnits (unitsOf c) (scanUnits s) := by
    intro e u he hu hc
    have hlt : c.toNat < 0x10000 := by
      rw [← hc]
      unfold simpleEscape at hu
      split at hu <;> first | (cases hu; decide) | cases hu
    have : u = CodePoint.ofChar c := Fin.ext hc
    rw [hsmall hlt, scanUnits.eq_4 _ _ fun _ _ _ _ _ h _ => he h, hu, this]
    rfl
  unfold escapeChar
  rw [hval]
  split
  · rename_i h; exact hshort '"' 0x22 (by decide) rfl h.symm
  · rename_i h; exact hshort '\\' 0x5c (by decide) rfl h.symm
  · rename_i h; exact hshort 'n' 0x0a (by decide) rfl h.symm
  · rename_i h; exact hshort 'r' 0x0d (by decide) rfl h.symm
  · rename_i h; exact hshort 't' 0x09 (by decide) rfl h.symm
  · rename_i h; exact hshort 'f' 0x0c (by decide) rfl h.symm
  · rename_i h; exact hshort 'b' 0x08 (by decide) rfl h.symm
  · rename_i hquote hback _ _ _ _ _
    split
    · rename_i hprint
      have h1 : c ≠ '"' := by rintro rfl; exact hquote rfl
      have h2 : c ≠ '\\' := by rintro rfl; exact hback rfl
      rw [Char.ofNat_toNat, hsmall (by omega), List.cons_append, List.nil_append,
        scanUnits.eq_5 _ _ h1 (fun _ _ _ _ _ h _ => h2 h) (fun _ _ h _ => h2 h), if_neg (by omega)]
      rfl
    · split
      · rename_i hlt
        have hofNat : Fin.ofNat 0x110000 c.toNat = CodePoint.ofChar c :=
          Fin.ext (Nat.mod_eq_of_lt (CodePoint.ofChar c).2)
        rw [scanUnits_escapeUnit hlt, hsmall hlt, hofNat]
        rfl
      · rename_i hge
        have hlt : c.toNat < 0x110000 := (CodePoint.ofChar c).2
        rw [List.append_assoc, scanUnits_escapeUnit (by unfold highHalf; omega),
          scanUnits_escapeUnit (by unfold lowHalf; omega), unitsOf, if_neg hge]
        cases scanUnits s <;> rfl

theorem consUnits_append (us vs : PyStr) (r : Option (PyStr × Text)) :
    consUnits us (consUnits vs r) = consUnits (us ++ vs) r := by
  cases r with
  | none => rfl
  | some r => simp [consUnits]

/-- So is a text. -/
theorem scanUnits_flatMap (k s : Text) :
    scanUnits ((k.map CodePoint.ofChar).flatMap escapeChar ++ s) = consUnits (k.flatMap unitsOf) (scanUnits s) := by
  induction k with
  | nil => cases h : scanUnits s <;> simp [consUnits, h]
  | cons c k ih =>
    rw [List.map_cons, List.flatMap_cons, List.append_assoc, scanUnits_escapeChar, ih, consUnits_append,
      List.flatMap_cons]

/-- A string that is closed stays what it is when the text goes on. -/
theorem scanUnits_append {p : Text} {us : PyStr} {r : Text} (h : scanUnits p = some (us, r)) (t : Text) :
    scanUnits (p ++ t) = some (us, r ++ t) := by
  have hcons : ∀ (u : CodePoint) (s : Text) (us : PyStr), consUnit u (scanUnits s) = some (us, r) →
      (∀ us, scanUnits s = some (us, r) → scanUnits (s ++ t) = some (us, r ++ t)) →
      consUnit u (scanUnits (s ++ t)) = some (us, r ++ t) := by
    intro u s us h ih
    obtain ⟨⟨vs, r'⟩, hs, heq⟩ := Option.map_eq_some_iff.1 h
    obtain ⟨rfl, rfl⟩ := Prod.mk.inj heq
    rw [ih vs hs]
    rfl
  induction p using scanUnits.induct generalizing us with
  | case1 => cases h
  | case2 s =>
    rw [scanUnits] at h
    cases h
    rfl
  | case3 a b c d s ih =>
    rw [scanUnits] at h
    obtain ⟨u, hu, h⟩ := Option.bind_eq_some_iff.1 h
    simp only [List.cons_append]
    rw [scanUnits, hu]
    exact hcons u s us h fun us => ih
  | case4 c s hno ih =>
    rw [scanUnits.eq_4 _ _ hno] at h
    obtain ⟨u, hu, h⟩ := Option.bind_eq_some_iff.1 h
    have hc : c ≠ 'u' := by rintro rfl; cases hu
    simp only [List.cons_append]
    rw [scanUnits.eq_4 _ _ fun _ _ _ _ _ h _ => hc h, hu]
    exact hcons u s us h fun us => ih
  | case5 c s h1 h2 h3 hlow =>
    rw [scanUnits.eq_5 _ _ h1 h2 h3, if_pos hlow] at h
    cases h
  | case6 c s h1 h2 h3 hlow ih =>
    rw [scanUnits.eq_5 _ _ h1 h2 h3, if_neg hlow] at h
    have hc : c ≠ '\\' := by
      rintro rfl
      cases s with
      | nil => cases h
      | cons d s => exact h3 d s rfl rfl
    simp only [List.cons_append]
    rw [scanUnits.eq_5 _ _ h1 (fun _ _ _ _ _ h _ => hc h) (fun _ _ h _ => hc h), if_neg hlow]
    exact hcons _ s us h fun us => ih

theorem CodePoint.val_ofNat {n : ℕ} (h : n < 0x110000) : (Fin.ofNat 0x110000 n).val = n := Nat.mod_eq_of_lt h

theorem joinSurrogates_of_not_high {h : CodePoint} (hh : ¬ (0xd800 ≤ h.val ∧ h.val ≤ 0xdbff)) (us : PyStr) :
    joinSurrogates (h :: us) = h :: joinSurrogates us := by
  cases us with
  | nil => rfl
  | cons l us => rw [joinSurrogates, if_neg fun hc => hh hc.1]

/-- The units of a character are joined to it. -/
theorem joinSurrogates_unitsOf (c : Char) (us : PyStr) :
    joinSurrogates (unitsOf c ++ us) = CodePoint.ofChar c :: joinSurrogates us := by
  have hlt : c.toNat < 0x110000 := (CodePoint.ofChar c).2
  unfold unitsOf
  split
  · refine joinSurrogates_of_not_high (h := CodePoint.ofChar c) (fun hh => ?_) us
    have hval : (CodePoint.ofChar c).val = c.toNat := rfl
    rw [hval] at hh
    -- no character is itself half of a pair
    rcases c.valid with h | h
    · have : c.toNat < 0xd800 := h
      omega
    · have : 0xdfff < c.toNat := h.1
      omega
  · rename_i hge
    have hhigh := CodePoint.val_ofNat (n := highHalf c.toNat) (by unfold highHalf; omega)
    have hlow := CodePoint.val_ofNat (n := lowHalf c.toNat) (by unfold lowHalf; omega)
    have hjoin : 0x10000 + (highHalf c.toNat - 0xd800) * 0x400 + (lowHalf c.toNat - 0xdc00) = c.toNat := by
      unfold highHalf lowHalf; omega
    have hpoint : Fin.ofNat 0x110000 c.toNat = CodePoint.ofChar c := Fin.ext (CodePoint.val_ofNat hlt)
    rw [List.cons_append, List.cons_append, List.nil_append, joinSurrogates, hhigh, hlow,
      if_pos (by unfold highHalf lowHalf; omega), hjoin, hpoint]

/-- The units of a text are joined to the text. -/
theorem joinSurrogates_flatMap (k : Text) : joinSurrogates (k.flatMap unitsOf) = k.map CodePoint.ofChar := by
  induction k with
  | nil => rfl
  | cons c k ih => rw [List.flatMap_cons, joinSurrogates_unitsOf, ih, List.map_cons]

/-- What stands after the opening quote of a dumped text. -/
def strBody (k : Text) : Text := (k.map CodePoint.ofChar).flatMap escapeChar ++ ['"']

/-- **A text survives its escapes.** -/
theorem scanString_dumps (k t : Text) : scanString (strBody k ++ t) = some (k.map CodePoint.ofChar, t) := by
  unfold scanString strBody
  rw [List.append_assoc, scanUnits_flatMap]
  show Option.map _ (some (k.flatMap unitsOf ++ [], t)) = _
  rw [List.append_nil, Option.map_some, joinSurrogates_flatMap]

/-- A string that is cut short is no string. -/
theorem scanString_cut {k p : Text} (hp : p <+: strBody k) (hne : p ≠ strBody k) : scanString p = none := by
  obtain ⟨t, ht⟩ := hp
  have hfull := scanString_dumps k []
  rw [List.append_nil, ← ht] at hfull
  unfold scanString at hfull ⊢
  cases h : scanUnits p with
  | none => rfl
  | some r =>
    have happ : scanUnits (p ++ t) = some (r.1, r.2 ++ t) := scanUnits_append h t
    rw [happ] at hfull
    have hnil := (Prod.mk.inj (Option.some.inj hfull)).2
    have : t = [] := (List.append_eq_nil_iff.1 hnil).2
    rw [this, List.append_nil] at ht
    exact absurd ht hne

/-! ## Dictionaries -/

theorem skipWs_of_head {t : Text} (h : ∀ c s, t = c :: s → isWs c = false) : skipWs t = t := by
  cases t with
  | nil => rfl
  | cons c s => exact List.dropWhile_cons_of_neg (by rw [h c s rfl]; decide)

theorem skipWs_plain {t : Text} (h : ∀ c ∈ t, Plain c) : skipWs t = t := by
  refine skipWs_of_head fun c s hc => ?_
  rw [hc] at h
  exact (h c List.mem_cons_self).2.2.2.2.2

theorem skipWs_space (t : Text) : skipWs (' ' :: t) = skipWs t := rfl

/-- The members of a dictionary with text keys. -/
def pyItems (items : List (Text × PyFloat)) : List (PyStr × PyFloat) :=
  items.map fun m => (m.1.map CodePoint.ofChar, m.2)

/-- A member is its key, quoted, and its value. -/
theorem dumpsMember_eq (k : Text) (x : PyFloat) (t : Text) :
    dumpsMember (k.map CodePoint.ofChar, x) ++ t = '"' :: (strBody k ++ (':' :: ' ' :: (dumpsFloat x ++ t))) := by
  simp [dumpsMember, dumpsStr, strBody]

/-- Members are written with commas between them. -/
theorem dumpsMembers_cons (k : Text) (x : PyFloat) (ms : List (Text × PyFloat)) (t : Text) :
    dumpsMembers (pyItems ((k, x) :: ms)) ++ t = dumpsMember (k.map CodePoint.ofChar, x) ++
      ((if ms = [] then [] else [',', ' ']) ++ (dumpsMembers (pyItems ms) ++ t)) := by
  unfold pyItems
  rw [List.map_cons, dumpsMembers, List.append_assoc, List.append_assoc]
  cases ms <;> rfl

/-- A float starts with a plain character. -/
theorem exists_dumpsFloat (x : PyFloat) (t : Text) : ∃ c s, dumpsFloat x ++ t = c :: s ∧ Plain c := by
  cases h : dumpsFloat x with
  | nil =>
    have := scanValue_dumpsFloat 0 x (t := []) fun c s hc => nomatch hc
    rw [h] at this
    cases this
  | cons c s => exact ⟨c, s ++ t, rfl, plain_dumpsFloat x c (by rw [h]; exact List.mem_cons_self)⟩

/-- No blank stands before a member, nor before the closing brace. -/
theorem skipWs_dumpsMembers (items : List (Text × PyFloat)) {p : Text} (hp : p <+: dumpsMembers (pyItems items)) :
    skipWs p = p := by
  refine skipWs_of_head fun c s hc => ?_
  rw [hc] at hp
  cases items with
  | nil => rw [(List.cons_prefix_cons.1 hp).1]; rfl
  | cons m ms => rw [(List.cons_prefix_cons.1 hp).1]; rfl

/-- A member is read as it was written. -/
theorem scanMember_dumps (n : ℕ) (k : Text) (x : PyFloat) {t : Text} (ht : Delimited t) :
    scanMember (scanValue (n + 1)) (dumpsMember (k.map CodePoint.ofChar, x) ++ t) =
      some ((k.map CodePoint.ofChar, .float x), t) := by
  have hskip : skipWs (' ' :: (dumpsFloat x ++ t)) = dumpsFloat x ++ t := by
    obtain ⟨c, s, hc, hplain⟩ := exists_dumpsFloat x t
    rw [skipWs_space, hc]
    exact skipWs_of_head fun c' s' h => (List.cons.inj h).1 ▸ hplain.2.2.2.2.2
  have hcolon : skipWs (':' :: ' ' :: (dumpsFloat x ++ t)) = ':' :: ' ' :: (dumpsFloat x ++ t) := rfl
  rw [dumpsMember_eq, scanMember, scanString_dumps]
  simp only [Option.bind_some, hcolon, hskip, scanValue_dumpsFloat n x ht, Option.map_some]

section Items

variable {α : Type} {item : Scan α} {close : Char} {s r t : Text} {a : α}

/-- At the closing bracket the items end. -/
theorem scanItems_close (h : item s = some (a, r)) (hr : skipWs r = close :: t) (n : ℕ) :
    scanItems item close (n + 1) s = some ([a], t) := by
  rw [scanItems, h]
  simp only [Option.bind_some, hr, if_true]

/-- After a comma the next one is read. -/
theorem scanItems_comma (h : item s = some (a, r)) (hr : skipWs r = ',' :: t) (hclose : ',' ≠ close) (n : ℕ) :
    scanItems item close (n + 1) s = (scanItems item close n (skipWs t)).map fun l => (a :: l.1, l.2) := by
  rw [scanItems, h]
  simp only [Option.bind_some, hr, if_neg hclose, if_true]

/-- Anything else is no list of items. -/
theorem scanItems_stop (h : ∀ a r, item s = some (a, r) → ∀ c t, skipWs r = c :: t → c ≠ close ∧ c ≠ ',') (n : ℕ) :
    scanItems item close n s = none := by
  cases n with
  | zero => rfl
  | succ n =>
    rw [scanItems]
    cases hi : item s with
    | none => rfl
    | some i =>
      rw [Option.bind_some]
      cases hr : skipWs i.2 with
      | nil => rfl
      | cons c t =>
        obtain ⟨h1, h2⟩ := h i.1 i.2 hi c t hr
        simp only [if_neg h1, if_neg h2]

end Items

/-- What a dumped dictionary's members scan to. -/
def floatItems (items : List (Text × PyFloat)) : List (PyStr × Json) :=
  items.map fun m => (m.1.map CodePoint.ofChar, .float m.2)

/-- The members are read as they were written. -/
theorem scanItems_dumps (n : ℕ) (t : Text) {m : ℕ} (items : List (Text × PyFloat)) (hne : items ≠ [])
    (hm : items.length ≤ m) :
    scanItems (scanMember (scanValue (n + 1))) '\x7d' m (dumpsMembers (pyItems items) ++ t) =
      some (floatItems items, t) := by
  induction items generalizing m with
  | nil => exact absurd rfl hne
  | cons a ms ih =>
    obtain ⟨k, x⟩ := a
    obtain ⟨m, rfl⟩ : ∃ m', m = m' + 1 := Nat.exists_eq_succ_of_ne_zero (by rw [List.length_cons] at hm; omega)
    rw [List.length_cons] at hm
    rw [dumpsMembers_cons]
    -- the last member ends with the brace, any other with a comma
    by_cases hms : ms = []
    · subst hms
      have hdel : Delimited ('\x7d' :: t) := fun c s hc => (List.cons.inj hc).1 ▸ by decide
      exact scanItems_close (scanMember_dumps n k x hdel) rfl m
    · have hdel : Delimited (',' :: ' ' :: (dumpsMembers (pyItems ms) ++ t)) :=
        fun c s hc => (List.cons.inj hc).1 ▸ by decide
      have hskip : skipWs (' ' :: (dumpsMembers (pyItems ms) ++ t)) = dumpsMembers (pyItems ms) ++ t := by
        rw [skipWs_space]
        cases ms with
        | nil => exact absurd rfl hms
        | cons a ms => rfl
      rw [if_neg hms]
      refine (scanItems_comma (scanMember_dumps n k x hdel) rfl (by decide) m).trans ?_
      rw [hskip, ih hms (by omega)]
      rfl

/-- A piece of two texts ends in the first or in the second. -/
theorem prefix_append_cases {p a b : Text} (h : p <+: a ++ b) : (p <+: a ∧ p ≠ a) ∨ ∃ q, p = a ++ q ∧ q <+: b := by
  obtain ⟨u, hu⟩ := h
  rcases List.append_eq_append_iff.1 hu with ⟨w, hw, -⟩ | ⟨q, hp, hb⟩
  · by_cases heq : p = a
    · exact Or.inr ⟨[], by rw [heq, List.append_nil], List.nil_prefix⟩
    · exact Or.inl ⟨⟨w, hw.symm⟩, heq⟩
  · exact Or.inr ⟨q, hp, u, hb.symm⟩

/-- A member that is cut short is none, or ends inside its number. -/
theorem scanMember_prefix {k : Text} {x : PyFloat} {p : Text}
    (hp : p <+: dumpsMember (k.map CodePoint.ofChar, x)) {n : ℕ}
    {v : PyStr × Json} {r : Text} (h : scanMember (scanValue n) p = some (v, r)) : ∀ c ∈ r, Plain c := by
  rw [← List.append_nil (dumpsMember _), dumpsMember_eq, List.append_nil] at hp
  cases p with
  | nil => cases h
  | cons c p =>
    obtain ⟨rfl, hbody⟩ := List.cons_prefix_cons.1 hp
    rw [scanMember] at h
    -- the cut is inside the key, or behind it
    rcases prefix_append_cases hbody with ⟨hcut, hne⟩ | ⟨q, rfl, hq⟩
    · rw [scanString_cut hcut hne] at h
      cases h
    rw [scanString_dumps, Option.bind_some] at h
    cases q with
    | nil => cases h
    | cons c q =>
      obtain ⟨rfl, hspace⟩ := List.cons_prefix_cons.1 hq
      obtain ⟨⟨v', r'⟩, hv, heq⟩ := Option.map_eq_some_iff.1 h
      obtain ⟨-, rfl⟩ := Prod.mk.inj heq
      have hplain : ∀ d ∈ skipWs q, Plain d := by
        cases q with
        | nil => exact fun d hd => nomatch hd
        | cons c q =>
          obtain ⟨rfl, hfloat⟩ := List.cons_prefix_cons.1 hspace
          have hq : ∀ d ∈ q, Plain d := fun d hd => plain_dumpsFloat x d (hfloat.mem hd)
          rw [skipWs_space, skipWs_plain hq]
          exact hq
      exact scanValue_piece hplain hv

/-- Members that are cut short are none. -/
theorem scanItems_prefix (n m : ℕ) (items : List (Text × PyFloat)) {p : Text} (hp : p <+: dumpsMembers (pyItems items))
    (hne : p ≠ dumpsMembers (pyItems items)) : scanItems (scanMember (scanValue (n + 1))) '\x7d' m p = none := by
  -- by induction on the members; the cut is inside the first one or behind it
  induction items generalizing m p with
  | nil =>
    have : p = [] := by
      cases p with
      | nil => rfl
      | cons c p =>
        obtain ⟨rfl, h⟩ := List.cons_prefix_cons.1 hp
        rw [List.prefix_nil.1 h] at hne
        exact absurd rfl hne
    rw [this]
    exact scanItems_stop (fun a r h => by cases h) m
  | cons a ms ih =>
    obtain ⟨k, x⟩ := a
    have hcons := dumpsMembers_cons k x ms []
    rw [List.append_nil, List.append_nil] at hcons
    rw [hcons] at hp hne
    rcases prefix_append_cases hp with ⟨hcut, -⟩ | ⟨q, rfl, hq⟩
    -- inside a number a shorter number may be read, but no comma or brace follows it
    · refine scanItems_stop (fun a r h c t hr => ?_) m
      have hplain := scanMember_prefix hcut h
      rw [skipWs_plain hplain] at hr
      have hc := hplain c (by rw [hr]; exact List.mem_cons_self)
      exact ⟨hc.2.2.2.2.1, hc.2.2.2.1⟩
    have hrest : q ≠ (if ms = [] then [] else [',', ' ']) ++ dumpsMembers (pyItems ms) := fun h => hne (by rw [h])
    have hdel : Delimited q := by
      intro c s hc
      rw [hc] at hq
      cases ms with
      | nil => rw [(List.cons_prefix_cons.1 hq).1]; decide
      | cons a ms => rw [(List.cons_prefix_cons.1 hq).1]; decide
    have hmember := scanMember_dumps n k x hdel
    cases q with
    | nil =>
      refine scanItems_stop (fun a r h c t hr => ?_) m
      rw [hmember] at h
      cases h
      cases hr
    | cons c q =>
      by_cases hms : ms = []
      · subst hms
        obtain ⟨rfl, h⟩ := List.cons_prefix_cons.1 hq
        rw [List.prefix_nil.1 h] at hrest
        exact absurd rfl hrest
      · rw [if_neg hms] at hq hrest
        obtain ⟨rfl, hspace⟩ := List.cons_prefix_cons.1 hq
        cases m with
        | zero => rfl
        | succ m =>
          rw [scanItems_comma hmember rfl (by decide)]
          -- after the comma: nothing, or a blank and a piece of the rest
          have hnone : scanItems (scanMember (scanValue (n + 1))) '\x7d' m (skipWs q) = none := by
            cases q with
            | nil => exact scanItems_stop (fun a r h => by cases h) m
            | cons c q =>
              obtain ⟨rfl, hmore⟩ := List.cons_prefix_cons.1 hspace
              rw [skipWs_space, skipWs_dumpsMembers ms hmore]
              exact ih m hmore fun h => hrest (by rw [h]; rfl)
          rw [hnone]
          rfl

theorem length_dumpsMembers (items : List (Text × PyFloat)) : items.length < (dumpsMembers (pyItems items)).length := by
  induction items with
  | nil => exact Nat.one_pos
  | cons a ms ih =>
    obtain ⟨k, x⟩ := a
    have hcons := dumpsMembers_cons k x ms []
    rw [List.append_nil, List.append_nil, ← List.append_nil (dumpsMember _), dumpsMember_eq] at hcons
    rw [hcons]
    simp only [List.length_cons, List.length_append]
    omega

theorem scanValue_brace (n : ℕ) {s : Text} (hs : skipWs s = s) (h : ∀ t, s ≠ '\x7d' :: t) :
    scanValue (n + 1) ('\x7b' :: s) =
      (scanItems (scanMember (scanValue n)) '\x7d' s.length s).map fun r => (.obj r.1, r.2) := by
  rw [scanValue.eq_def]
  simp only [hs]

theorem loads_brace (p : Text) : loads ('\x7b' :: p) =
    (scanValue (p.length + 1 + 1) ('\x7b' :: p)).bind fun q => if skipWs q.2 = [] then some q.1 else none := rfl

/-- **A dumped dictionary loads as itself.** -/
theorem loads_dumpsItems (items : List (Text × PyFloat)) :
    loads (dumpsItems (pyItems items)) = some (.obj (floatItems items)) := by
  cases items with
  | nil => rfl
  | cons a ms =>
    have hskip := skipWs_dumpsMembers (a :: ms) (List.prefix_refl _)
    have hne : ∀ t, dumpsMembers (pyItems (a :: ms)) ≠ '\x7d' :: t := fun t h => nomatch h
    have hitems := scanItems_dumps (dumpsMembers (pyItems (a :: ms))).length [] (a :: ms) (by simp)
      (length_dumpsMembers _).le
    rw [List.append_nil] at hitems
    unfold dumpsItems
    rw [loads_brace, scanValue_brace _ hskip hne, hitems]
    rfl

/-- **No proper prefix of a dumped dictionary loads.** -/
theorem loads_prefix (items : List (Text × PyFloat)) {p : Text} (hp : p <+: dumpsItems (pyItems items))
    (hne : p ≠ dumpsItems (pyItems items)) : loads p = none := by
  cases p with
  | nil => rfl
  | cons c p =>
    obtain ⟨rfl, h⟩ := List.cons_prefix_cons.1 hp
    have hcut : p ≠ dumpsMembers (pyItems items) := fun h => hne (by rw [h]; rfl)
    have hskip := skipWs_dumpsMembers items h
    have hclose : ∀ t, p ≠ '\x7d' :: t := by
      rintro t rfl
      cases items with
      | nil =>
        rw [List.prefix_nil.1 (List.cons_prefix_cons.1 h).2] at hcut
        exact hcut rfl
      | cons a ms => exact absurd (List.cons_prefix_cons.1 h).1 (by decide)
    rw [loads_brace, scanValue_brace _ hskip hclose, scanItems_prefix _ _ items h hcut]
    rfl

end FluxGuard
