import Mathlib

/-!
# Numerals in text

Text is a list of characters. Decimal and hexadecimal numerals are Lean's
`Nat.toDigits`; this file reads them back.

* `readDec_toDigits`, `readHex_toDigits`: reading a printed number gives the number.
* `head_toDigits`: no leading zeros.
-/

namespace FluxGuard

/-- Text. -/
abbrev Text := List Char

/-- The value of a hexadecimal digit of either case. -/
def hexVal (c : Char) : Option ℕ :=
  if '0' ≤ c ∧ c ≤ '9' then some (c.toNat - 48)
  else if 'a' ≤ c ∧ c ≤ 'f' then some (c.toNat - 87)
  else if 'A' ≤ c ∧ c ≤ 'F' then some (c.toNat - 55)
  else none

/-- The value of a text of hexadecimal digits. -/
def readHex (s : Text) : Option ℕ := s.foldlM (fun n c => (hexVal c).map (16 * n + ·)) 0

/-- The value of a nonempty text of decimal digits. -/
def readDec (s : Text) : Option ℕ :=
  if s ≠ [] ∧ s.all Char.isDigit then some (Nat.ofDigitChars 10 s 0) else none

theorem hexVal_digitChar {d : ℕ} (h : d < 16) : hexVal (Nat.digitChar d) = some d := by
  have key : ∀ d < 16, hexVal (Nat.digitChar d) = some d := by decide
  exact key d h

/-- One more digit. -/
theorem readHex_concat (s : Text) (c : Char) :
    readHex (s ++ [c]) = (readHex s).bind fun n => (hexVal c).map (16 * n + ·) := by
  unfold readHex
  rw [List.foldlM_append]
  simp only [List.foldlM_cons, List.foldlM_nil, bind_pure]
  rfl

/-- Hexadecimal digits are read back. -/
theorem readHex_toDigits (n : ℕ) : readHex (Nat.toDigits 16 n) = some n := by
  induction n using Nat.strong_induction_on with
  | _ n ih =>
    rcases Nat.lt_or_ge n 16 with h | h
    · rw [Nat.toDigits_of_lt_base h]
      simp [readHex, hexVal_digitChar h]
    · rw [Nat.toDigits_of_base_le (by decide) h, readHex_concat, ih _ (by omega),
        hexVal_digitChar (Nat.mod_lt _ (by decide))]
      simp only [Option.bind_some, Option.map_some, Option.some.injEq]
      omega

/-- Decimal digits are read back. -/
theorem readDec_toDigits (n : ℕ) : readDec (Nat.toDigits 10 n) = some n := by
  unfold readDec
  rw [if_pos ⟨Nat.toDigits_ne_nil,
    List.all_eq_true.2 fun c hc => Nat.isDigit_of_mem_toDigits (by decide) (Nat.le_refl 10) hc⟩,
    Nat.ofDigitChars_ten_toDigits]

/-- Every character of a numeral is a digit. -/
theorem exists_digitChar_of_mem_toDigits {b n : ℕ} (hb : 1 < b) {c : Char} (h : c ∈ Nat.toDigits b n) :
    ∃ d < b, c = Nat.digitChar d := by
  induction n using Nat.strong_induction_on with
  | _ n ih =>
    rcases Nat.lt_or_ge n b with hn | hn
    · rw [Nat.toDigits_of_lt_base hn, List.mem_singleton] at h
      exact ⟨n, hn, h⟩
    · rw [Nat.toDigits_of_base_le hb hn, List.mem_append, List.mem_singleton] at h
      rcases h with h | h
      · exact ih _ (Nat.div_lt_self (by omega) hb) h
      · exact ⟨n % b, Nat.mod_lt _ (by omega), h⟩

/-- A character that is no digit stands in no numeral. -/
theorem not_mem_toDigits {c : Char} (hc : hexVal c = none) {b n : ℕ} (hb : 1 < b) (hb' : b ≤ 16) :
    c ∉ Nat.toDigits b n := by
  intro h
  obtain ⟨d, hd, rfl⟩ := exists_digitChar_of_mem_toDigits hb h
  rw [hexVal_digitChar (by omega)] at hc
  cases hc

/-- A numeral of a positive number has no leading zero. -/
theorem head_toDigits {b n : ℕ} (hb : 1 < b) (hb' : b ≤ 16) (hn : 0 < n) :
    ∃ d s, Nat.toDigits b n = Nat.digitChar d :: s ∧ 0 < d ∧ d < b := by
  induction n using Nat.strong_induction_on with
  | _ n ih =>
    rcases Nat.lt_or_ge n b with h | h
    · exact ⟨n, [], Nat.toDigits_of_lt_base h, hn, h⟩
    · obtain ⟨d, s, he, hd⟩ := ih (n / b) (Nat.div_lt_self hn hb) (Nat.div_pos h (by omega))
      exact ⟨d, s ++ [Nat.digitChar (n % b)], by rw [Nat.toDigits_of_base_le hb h, he]; rfl, hd⟩

end FluxGuard
