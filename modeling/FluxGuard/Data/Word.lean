import Mathlib

/-!
# Fixed-width words as integers

What 64-bit operations compute, as integer arithmetic: unsigned subtraction is
exact modulo `2^64`, signed operations are exact when the result fits.
-/

namespace FluxGuard

/-- A signed sum that fits does not wrap. -/
theorem toInt_add_of_fits {a b : Int64} (hlo : -2 ^ 63 ≤ a.toInt + b.toInt)
    (hhi : a.toInt + b.toInt < 2 ^ 63) : (a + b).toInt = a.toInt + b.toInt := by
  rw [Int64.toInt_add]
  exact Int.bmod_eq_of_le (by omega) (by omega)

/-- A signed difference that fits does not wrap. -/
theorem toInt_sub_of_fits {a b : Int64} (hlo : -2 ^ 63 ≤ a.toInt - b.toInt)
    (hhi : a.toInt - b.toInt < 2 ^ 63) : (a - b).toInt = a.toInt - b.toInt := by
  rw [Int64.toInt_sub]
  exact Int.bmod_eq_of_le (by omega) (by omega)

/-- The cast `(__s64)x` keeps a value below `2^63`. -/
theorem toInt_toInt64_of_lt {a : UInt64} (h : a.toNat < 2 ^ 63) : a.toInt64.toInt = a.toNat := by
  have hb : a.toInt64.toInt = (a.toNat : ℤ).bmod (2 ^ 64) := by
    rw [← UInt64.toNat_toBitVec]
    exact BitVec.toInt_eq_toNat_bmod _
  rw [hb]
  exact Int.bmod_eq_of_le (by omega) (by omega)

/-- An unsigned difference is taken modulo `2 ^ 64`. -/
theorem toNat_sub_wrap (a b : UInt64) : (a - b).toNat = (a.toNat + (2 ^ 64 - b.toNat)) % 2 ^ 64 := by
  rw [UInt64.toNat_sub, Nat.add_comm]

theorem Int64.toInt_ite {p : Prop} [Decidable p] (a b : Int64) :
    (if p then a else b).toInt = if p then a.toInt else b.toInt := by
  split <;> rfl

end FluxGuard
