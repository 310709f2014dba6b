import FluxGuard.Data.Numeral

/-!
# Floats

A finite `Binary64` is `± mant · 2^exp` in units of `2⁻¹⁰⁷⁴`; its fields make the
representation canonical. Rounding is to nearest, ties to even, and all of it is done on
natural numbers: `n / d` is rounded after scaling by `2¹⁰⁷⁴`, and a float's decimal
expansion is a whole number of units of `10⁻¹⁰⁷⁴`.

* `PyFloat.round_congr`: rounding depends on the ratio only.
* `PyFloat.round_value`: **a float is its own rounding**.
* `Binary64.toFloat_shortest`: the shortest decimal of a float reads as that float.
-/

namespace FluxGuard

/-- A finite float. -/
structure Binary64 where
  neg : Bool
  mant : ℕ
  exp : ℕ
  mant_lt : mant < 2 ^ 53
  exp_le : exp ≤ 2045
  normal : 2 ^ 52 ≤ mant ∨ exp = 0
deriving DecidableEq

/-- Python's `float`. -/
inductive PyFloat
  | finite (x : Binary64)
  | inf (neg : Bool)
  | nan
deriving DecidableEq

/-- The smallest float is `2⁻¹⁰⁷⁴`. -/
def MIN_EXP : ℕ := 1074

/-! ## Rounding -/

/-- The integer nearest to `n / d`, ties to even. -/
def roundHalfEven (n d : ℕ) : ℕ :=
  if 2 * (n % d) < d ∨ 2 * (n % d) = d ∧ n / d % 2 = 0 then n / d else n / d + 1

theorem roundHalfEven_cases (n d : ℕ) : roundHalfEven n d = n / d ∨ roundHalfEven n d = n / d + 1 := by
  unfold roundHalfEven
  split
  · exact Or.inl rfl
  · exact Or.inr rfl

/-- A whole number is rounded to itself. -/
theorem roundHalfEven_mul (m : ℕ) {d : ℕ} (hd : 0 < d) : roundHalfEven (m * d) d = m := by
  unfold roundHalfEven
  rw [Nat.mul_mod_left, Nat.mul_div_cancel _ hd, if_pos (Or.inl (by omega))]

/-- Rounding depends on the ratio alone. -/
theorem roundHalfEven_scale (n d : ℕ) {c : ℕ} (hc : 0 < c) : roundHalfEven (n * c) (d * c) = roundHalfEven n d := by
  have hlt : 2 * (n % d * c) < d * c ↔ 2 * (n % d) < d := by
    rw [← Nat.mul_assoc, Nat.mul_lt_mul_right hc]
  have heq : 2 * (n % d * c) = d * c ↔ 2 * (n % d) = d := by
    rw [← Nat.mul_assoc, Nat.mul_left_inj hc.ne']
  unfold roundHalfEven
  rw [Nat.mul_mod_mul_right, Nat.mul_div_mul_right _ _ hc]
  simp only [hlt, heq]

/-- The exponent of the last place of `n / d`, in units of `2⁻¹⁰⁷⁴`. -/
def lastPlace (n d : ℕ) : ℕ := (n * 2 ^ MIN_EXP / d).log2 - 52

/-- `n / d` in units of its last place. -/
def significand (n d : ℕ) : ℕ := roundHalfEven (n * 2 ^ MIN_EXP) (d * 2 ^ lastPlace n d)

/-- A significand has at most 53 bits, or is the next power of two. -/
theorem significand_le (n d : ℕ) : significand n d ≤ 2 ^ 53 := by
  have hlt : n * 2 ^ MIN_EXP / d < 2 ^ (53 + lastPlace n d) := by
    refine Nat.lt_of_lt_of_le Nat.lt_log2_self (Nat.pow_le_pow_right (by decide) ?_)
    unfold lastPlace
    omega
  have hq : n * 2 ^ MIN_EXP / (d * 2 ^ lastPlace n d) < 2 ^ 53 := by
    rw [← Nat.div_div_eq_div_mul]
    refine Nat.div_lt_of_lt_mul ?_
    rwa [← Nat.pow_add, Nat.add_comm]
  unfold significand
  rcases roundHalfEven_cases (n * 2 ^ MIN_EXP) (d * 2 ^ lastPlace n d) with h | h <;> rw [h] <;> omega

/-- A significand has 53 bits unless the number is subnormal. -/
theorem le_significand (n d : ℕ) : 2 ^ 52 ≤ significand n d ∨ lastPlace n d = 0 := by
  rcases Nat.eq_zero_or_pos (lastPlace n d) with h0 | hpos
  · exact Or.inr h0
  have hne : n * 2 ^ MIN_EXP / d ≠ 0 := by
    intro h
    unfold lastPlace at hpos
    rw [h] at hpos
    exact absurd hpos (by decide)
  have hle : 2 ^ (52 + lastPlace n d) ≤ n * 2 ^ MIN_EXP / d := by
    rw [← Nat.le_log2 hne]
    unfold lastPlace at *
    omega
  have hq : 2 ^ 52 ≤ n * 2 ^ MIN_EXP / (d * 2 ^ lastPlace n d) := by
    rw [← Nat.div_div_eq_div_mul, Nat.le_div_iff_mul_le (Nat.two_pow_pos _), ← Nat.pow_add]
    exact hle
  left
  unfold significand
  rcases roundHalfEven_cases (n * 2 ^ MIN_EXP) (d * 2 ^ lastPlace n d) with h | h <;> rw [h] <;> omega

/-- The float nearest to `± n / d`. -/
def PyFloat.round (neg : Bool) (n d : ℕ) : PyFloat :=
  if hm : significand n d = 2 ^ 53 then
    if h : lastPlace n d + 1 ≤ 2045 then .finite ⟨neg, 2 ^ 52, lastPlace n d + 1, by decide, h, Or.inl le_rfl⟩
    else .inf neg
  else
    if h : lastPlace n d ≤ 2045 then
      .finite ⟨neg, significand n d, lastPlace n d, Nat.lt_of_le_of_ne (significand_le n d) hm, h, le_significand n d⟩
    else .inf neg

/-- Equal ratios round to the same float. -/
theorem PyFloat.round_congr (neg : Bool) {n d n' d' : ℕ} (hd : 0 < d) (hd' : 0 < d') (h : n * d' = n' * d) :
    PyFloat.round neg n d = PyFloat.round neg n' d' := by
  have hq : n * 2 ^ MIN_EXP / d = n' * 2 ^ MIN_EXP / d' := by
    rw [← Nat.mul_div_mul_right _ d hd', ← Nat.mul_div_mul_right _ d' hd, Nat.mul_right_comm, h,
      Nat.mul_right_comm n', Nat.mul_comm d d']
  have hplace : lastPlace n d = lastPlace n' d' := by
    unfold lastPlace; rw [hq]
  have hsig : significand n d = significand n' d' := by
    unfold significand
    rw [← roundHalfEven_scale _ _ hd', ← roundHalfEven_scale (n' * 2 ^ MIN_EXP) _ hd, hplace, Nat.mul_right_comm, h,
      Nat.mul_right_comm n', Nat.mul_right_comm d, Nat.mul_comm d d', Nat.mul_right_comm d' _ d]
  unfold PyFloat.round
  simp only [hsig, hplace]

/-- **A float is its own rounding.** -/
theorem PyFloat.round_value (x : Binary64) : PyFloat.round x.neg (x.mant * 2 ^ x.exp) (2 ^ MIN_EXP) = .finite x := by
  have hq : x.mant * 2 ^ x.exp * 2 ^ MIN_EXP / 2 ^ MIN_EXP = x.mant * 2 ^ x.exp :=
    Nat.mul_div_cancel _ (Nat.two_pow_pos _)
  have hlog : (x.mant * 2 ^ x.exp).log2 - 52 = x.exp := by
    rcases x.normal with hn | h0
    · have hm : x.mant * 2 ^ x.exp ≠ 0 := Nat.mul_ne_zero (by omega) (Nat.two_pow_pos _).ne'
      have hlow : 52 + x.exp ≤ (x.mant * 2 ^ x.exp).log2 := by
        rw [Nat.le_log2 hm, Nat.pow_add]
        exact Nat.mul_le_mul_right _ hn
      have hhigh : (x.mant * 2 ^ x.exp).log2 < 53 + x.exp := by
        rw [Nat.log2_lt hm, Nat.pow_add]
        exact Nat.mul_lt_mul_of_pos_right x.mant_lt (Nat.two_pow_pos _)
      omega
    · have : x.mant.log2 < 53 := by
        rcases Nat.eq_zero_or_pos x.mant with hz | hp
        · rw [hz]; decide
        · exact (Nat.log2_lt hp.ne').2 x.mant_lt
      rw [h0, Nat.pow_zero, Nat.mul_one]
      omega
  have hplace : lastPlace (x.mant * 2 ^ x.exp) (2 ^ MIN_EXP) = x.exp := by
    unfold lastPlace
    rw [hq, hlog]
  have hsig : significand (x.mant * 2 ^ x.exp) (2 ^ MIN_EXP) = x.mant := by
    unfold significand
    rw [hplace, Nat.mul_assoc, Nat.mul_comm (2 ^ x.exp)]
    exact roundHalfEven_mul _ (Nat.mul_pos (Nat.two_pow_pos _) (Nat.two_pow_pos _))
  have hcarry : significand (x.mant * 2 ^ x.exp) (2 ^ MIN_EXP) ≠ 2 ^ 53 := hsig.trans_ne x.mant_lt.ne
  have hrange : lastPlace (x.mant * 2 ^ x.exp) (2 ^ MIN_EXP) ≤ 2045 := hplace.trans_le x.exp_le
  unfold PyFloat.round
  rw [dif_neg hcarry, dif_pos hrange]
  simp only [hsig, hplace]

/-! ## Decimals -/

/-- `± coeff · 10^exp`. -/
structure Decimal where
  neg : Bool
  coeff : ℕ
  exp : ℤ

/-- The float that a decimal reads as. -/
def Decimal.toFloat (d : Decimal) : PyFloat := PyFloat.round d.neg (d.coeff * 10 ^ d.exp.toNat) (10 ^ (-d.exp).toNat)

/-- Zeros of the coefficient may be moved to the exponent. -/
theorem Decimal.toFloat_shift (neg : Bool) (c k : ℕ) (e : ℤ) :
    (⟨neg, c * 10 ^ k, e⟩ : Decimal).toFloat = (⟨neg, c, e + k⟩ : Decimal).toFloat := by
  refine PyFloat.round_congr neg (Nat.pow_pos (by decide)) (Nat.pow_pos (by decide)) ?_
  rw [Nat.mul_assoc, Nat.mul_assoc, Nat.mul_assoc, ← Nat.pow_add, ← Nat.pow_add, ← Nat.pow_add]
  have he : k + (e.toNat + (-(e + k)).toNat) = (e + k).toNat + (-e).toNat := by omega
  rw [he]

namespace Binary64

/-- The absolute value in units of `10⁻¹⁰⁷⁴`. -/
def scaled (x : Binary64) : ℕ := x.mant * 2 ^ x.exp * 5 ^ MIN_EXP

/-- The whole decimal expansion. -/
def expansion (x : Binary64) : Decimal := ⟨x.neg, x.scaled, -MIN_EXP⟩

/-- The full decimal expansion of a float denotes it. -/
theorem toFloat_expansion (x : Binary64) : x.expansion.toFloat = .finite x := by
  rw [← PyFloat.round_value x]
  refine PyFloat.round_congr x.neg (Nat.pow_pos (by decide)) (Nat.two_pow_pos _) ?_
  have hneg : (-(MIN_EXP : ℤ)).toNat = 0 := by omega
  have hpos : (- -(MIN_EXP : ℤ)).toNat = MIN_EXP := by omega
  simp only [expansion, hneg, hpos]
  rw [Nat.pow_zero, Nat.mul_one, scaled, Nat.mul_assoc, ← Nat.mul_pow]

/-- The decimals next to the float whose last place is `10^z` units, the nearer one first. -/
def nextTo (x : Binary64) (z : ℕ) : List Decimal :=
  let q := x.scaled / 10 ^ z
  let near := roundHalfEven x.scaled (10 ^ z)
  [⟨x.neg, near, z - MIN_EXP⟩, ⟨x.neg, q + (q + 1) - near, z - MIN_EXP⟩]

/-- The shortest decimal that reads as the float, the nearest one of that length. (At most 17
digits are ever needed; the whole expansion stands at the end of the search.) -/
def shortest (x : Binary64) : Decimal :=
  let places := (Nat.toDigits 10 x.scaled).length
  (((List.range places).reverse.flatMap x.nextTo).find? fun d => d.toFloat = .finite x).getD x.expansion

theorem getD_find? {α : Type} {p : α → Bool} {a : α} (ha : p a = true) (l : List α) :
    p ((l.find? p).getD a) = true := by
  cases h : l.find? p with
  | none => exact ha
  | some b => exact List.find?_some h

/-- The shortest numeral that `repr` finds denotes the float. -/
theorem toFloat_shortest (x : Binary64) : x.shortest.toFloat = .finite x := by
  have hexp : decide (x.expansion.toFloat = .finite x) = true := decide_eq_true x.toFloat_expansion
  unfold shortest
  exact of_decide_eq_true (getD_find? (p := fun d : Decimal => decide (d.toFloat = .finite x)) hexp _)

end Binary64

/-! ## Text -/

/-- The text of a float: a sign, the digits before and after the point, an exponent. -/
structure Numeral where
  neg : Bool
  int : Text
  frac : Text
  exp : Option ℤ
  int_digits : ∀ c ∈ int, c.isDigit = true
  int_lead : int = ['0'] ∨ ∃ c s, int = c :: s ∧ c ≠ '0'
  frac_digits : ∀ c ∈ frac, c.isDigit = true
  float : frac ≠ [] ∨ exp.isSome = true

/-- An exponent has a sign and at least two digits. -/
def exponentText (z : ℤ) : Text :=
  'e' :: (if z < 0 then '-' else '+') :: ((if z.natAbs < 10 then ['0'] else []) ++ Nat.toDigits 10 z.natAbs)

/-- The numeral as it is written. -/
def Numeral.text (n : Numeral) : Text :=
  (if n.neg then ['-'] else []) ++ n.int ++ (if n.frac = [] then [] else '.' :: n.frac) ++
    (n.exp.map exponentText).getD []

/-- The decimal that the numeral denotes. -/
def Numeral.toDecimal (n : Numeral) : Decimal :=
  ⟨n.neg, Nat.ofDigitChars 10 (n.int ++ n.frac) 0, n.exp.getD 0 - n.frac.length⟩

namespace Decimal

/-- The digits without trailing zeros. -/
def digits (d : Decimal) : Text := (Nat.toDigits 10 d.coeff).rdropWhile (· = '0')

/-- Where the point stands, counted from the first digit. -/
def point (d : Decimal) : ℤ := if d.coeff = 0 then 1 else (Nat.toDigits 10 d.coeff).length + d.exp

/-- The digits of a decimal are those of its coefficient without the zeros behind. -/
theorem exists_zeros (d : Decimal) : ∃ z, Nat.toDigits 10 d.coeff = d.digits ++ List.replicate z '0' := by
  refine ⟨((Nat.toDigits 10 d.coeff).rtakeWhile (· = '0')).length, ?_⟩
  have hzeros : (Nat.toDigits 10 d.coeff).rtakeWhile (· = '0') =
      List.replicate ((Nat.toDigits 10 d.coeff).rtakeWhile (· = '0')).length '0' :=
    List.eq_replicate_of_mem fun c hc => by simpa using List.mem_rtakeWhile_imp hc
  rw [← hzeros]
  exact (List.rdropWhile_append_rtakeWhile ..).symm

theorem isDigit_of_mem_digits {d : Decimal} {c : Char} (h : c ∈ d.digits) : c.isDigit = true :=
  Nat.isDigit_of_mem_toDigits (by decide) (Nat.le_refl 10) ((List.rdropWhile_prefix _ _).mem h)

theorem digits_of_pos {d : Decimal} (h : 0 < d.coeff) : ∃ c s, d.digits = c :: s ∧ c ≠ '0' := by
  obtain ⟨v, s, heq, hv, hlt⟩ := head_toDigits (b := 10) (by decide) (by decide) h
  have hne : Nat.digitChar v ≠ '0' := by
    have key : ∀ v < 10, 0 < v → Nat.digitChar v ≠ '0' := by decide
    exact key v hlt hv
  obtain ⟨z, hz⟩ := d.exists_zeros
  cases hd : d.digits with
  | nil =>
    rw [hd, List.nil_append, heq] at hz
    cases z with
    | zero => cases hz
    | succ z => exact absurd (List.cons.inj hz).1 hne
  | cons c t =>
    rw [hd, heq] at hz
    exact ⟨c, t, rfl, (List.cons.inj hz).1 ▸ hne⟩

theorem pos_of_point {d : Decimal} (h : d.point ≠ 1) : 0 < d.coeff := by
  refine Nat.pos_of_ne_zero fun h0 => h ?_
  unfold point
  rw [if_pos h0]

theorem lead_take {d : Decimal} {n : ℕ} (hn : 0 < n) (h : 0 < d.coeff) (t : Text) :
    ∃ c s, d.digits.take n ++ t = c :: s ∧ c ≠ '0' := by
  obtain ⟨c, s, hd, hc⟩ := digits_of_pos h
  obtain ⟨m, rfl⟩ := Nat.exists_eq_succ_of_ne_zero hn.ne'
  exact ⟨c, s.take m ++ t, by rw [hd]; rfl, hc⟩

/-- The digits before the point, zeros filled in. -/
def lead (d : Decimal) : Text := d.digits.take d.point.toNat ++ List.replicate (d.point.toNat - d.digits.length) '0'

/-- What is before the point is `0`, or does not begin with a zero. -/
theorem lead_cases {d : Decimal} (h : 0 < d.point) : d.lead = ['0'] ∨ ∃ c s, d.lead = c :: s ∧ c ≠ '0' := by
  rcases Nat.eq_zero_or_pos d.coeff with h0 | hpos
  · left
    unfold lead digits point
    rw [if_pos h0, h0]
    rfl
  · exact Or.inr (lead_take (by omega) hpos _)

/-- `float.__repr__`: an exponent only below `10⁻⁴` and from `10¹⁶` on. -/
def numeral (d : Decimal) : Numeral :=
  if hexp : d.point ≤ -4 ∨ 16 < d.point then
    { neg := d.neg, int := d.digits.take 1, frac := d.digits.drop 1, exp := some (d.point - 1)
      int_digits := fun _ hc => isDigit_of_mem_digits (List.mem_of_mem_take hc)
      int_lead := Or.inr (by simpa using lead_take Nat.one_pos (pos_of_point (by omega)) [])
      frac_digits := fun _ hc => isDigit_of_mem_digits (List.mem_of_mem_drop hc)
      float := Or.inr rfl }
  else if hlow : d.point ≤ 0 then
    { neg := d.neg, int := ['0'], frac := List.replicate (-d.point).toNat '0' ++ d.digits, exp := none
      int_digits := by simp
      int_lead := Or.inl rfl
      frac_digits := fun c hc => (List.mem_append.1 hc).elim (fun h => by rw [List.eq_of_mem_replicate h]; rfl)
        isDigit_of_mem_digits
      float := Or.inl (by
        obtain ⟨c, s, hd, -⟩ := digits_of_pos (pos_of_point (d := d) (by omega))
        rw [hd]; simp) }
  else
    { neg := d.neg, int := d.lead, frac := if d.digits.drop d.point.toNat = [] then ['0']
      else d.digits.drop d.point.toNat
      exp := none
      int_digits := fun c hc => (List.mem_append.1 hc).elim (fun h => isDigit_of_mem_digits (List.mem_of_mem_take h))
        (fun h => by rw [List.eq_of_mem_replicate h]; rfl)
      int_lead := lead_cases (by omega)
      frac_digits := fun c hc => by
        split at hc
        · rw [List.mem_singleton.1 hc]; rfl
        · exact isDigit_of_mem_digits (List.mem_of_mem_drop hc)
      float := Or.inl (by split <;> simp_all) }

/-- Zero is zero at every exponent. -/
theorem toFloat_zero (neg : Bool) (e e' : ℤ) : (⟨neg, 0, e⟩ : Decimal).toFloat = (⟨neg, 0, e'⟩ : Decimal).toFloat := by
  refine PyFloat.round_congr neg (Nat.pow_pos (by decide)) (Nat.pow_pos (by decide)) ?_
  simp

/-- A decimal by its digits and its point. -/
theorem toFloat_digits {d : Decimal} (h : 0 < d.coeff) :
    d.toFloat = (⟨d.neg, Nat.ofDigitChars 10 d.digits 0, d.point - d.digits.length⟩ : Decimal).toFloat := by
  obtain ⟨z, hz⟩ := d.exists_zeros
  have hcoeff : d.coeff = Nat.ofDigitChars 10 d.digits 0 * 10 ^ z := by
    have := congrArg (Nat.ofDigitChars 10 · 0) hz
    simp only [Nat.ofDigitChars_ten_toDigits, Nat.ofDigitChars_append, Nat.ofDigitChars_replicate_zero] at this
    rw [this, Nat.mul_comm]
  have hpoint : d.point = d.digits.length + z + d.exp := by
    unfold point
    rw [if_neg h.ne', hz, List.length_append, List.length_replicate]
    push_cast
    rfl
  calc d.toFloat = (⟨d.neg, d.coeff, d.exp⟩ : Decimal).toFloat := rfl
    _ = (⟨d.neg, Nat.ofDigitChars 10 d.digits 0, d.exp + z⟩ : Decimal).toFloat := by rw [hcoeff, toFloat_shift]
    _ = _ := by rw [hpoint]; congr 2; omega

/-- **The text of a decimal reads as the same float.** -/
theorem toFloat_numeral (d : Decimal) : d.numeral.toDecimal.toFloat = d.toFloat := by
  rcases Nat.eq_zero_or_pos d.coeff with h0 | hpos
  · have hpoint : d.point = 1 := by unfold point; rw [if_pos h0]
    have hdigits : d.digits = [] := by unfold digits; rw [h0]; rfl
    have hnum : d.numeral.toDecimal = ⟨d.neg, 0, -1⟩ := by
      simp [numeral, Numeral.toDecimal, lead, hpoint, hdigits, Nat.ofDigitChars_cons]
    rw [hnum, toFloat_zero d.neg (-1) d.exp, ← h0]
  rw [toFloat_digits hpos]
  have hlen : 0 < d.digits.length := by
    obtain ⟨c, s, hd, -⟩ := digits_of_pos hpos
    rw [hd]; exact Nat.succ_pos _
  unfold numeral Numeral.toDecimal
  split
  · simp only [List.take_append_drop, Option.getD_some, List.length_drop]
    congr 2
    omega
  · split
    · have hzeros : Nat.ofDigitChars 10 (['0'] ++ (List.replicate (-d.point).toNat '0' ++ d.digits)) 0 =
          Nat.ofDigitChars 10 d.digits 0 := by
        rw [Nat.ofDigitChars_append, Nat.ofDigitChars_append, Nat.ofDigitChars_cons, Nat.ofDigitChars_nil,
          Nat.ofDigitChars_replicate_zero]
        rfl
      simp only [hzeros, Option.getD_none, List.length_append, List.length_replicate]
      congr 2
      omega
    · simp only [Option.getD_none]
      split
      · rename_i hdrop
        have hle := List.drop_eq_nil_iff.1 hdrop
        have hval : Nat.ofDigitChars 10 (d.lead ++ ['0']) 0 =
            Nat.ofDigitChars 10 d.digits 0 * 10 ^ (d.point.toNat - d.digits.length + 1) := by
          unfold lead
          rw [List.take_of_length_le hle, Nat.ofDigitChars_append, Nat.ofDigitChars_append,
            Nat.ofDigitChars_replicate_zero, Nat.ofDigitChars_cons, Nat.ofDigitChars_nil]
          simp only [Nat.sub_self, Nat.add_zero]
          ring
        rw [hval, toFloat_shift]
        congr 2
        simp only [List.length_singleton]
        omega
      · rename_i hdrop
        have hlt : d.point.toNat < d.digits.length := Nat.lt_of_not_le fun h => hdrop (List.drop_eq_nil_iff.2 h)
        have hlead : d.lead ++ d.digits.drop d.point.toNat = d.digits := by
          unfold lead
          rw [Nat.sub_eq_zero_of_le hlt.le, List.replicate_zero, List.append_nil, List.take_append_drop]
        rw [hlead, List.length_drop]
        congr 2
        omega

end Decimal

end FluxGuard
