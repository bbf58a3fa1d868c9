import Mathlib.Logic.Basic

/-
  Machine words of 32 bits, where an operation does not wrap.

  Main declarations:
    * `Words.toNat_add_of_lt` and `Words.toNat_mul_of_lt`
    * `Words.toInt_toInt32_of_lt`
    * `Words.toInt_ofInt_natCast`
    * `Words.toInt_add_of_bounds`
    * `Words.toInt_sub_of_bounds`
-/

------------------------------------------------------------
-- Words without Overflow
------------------------------------------------------------

namespace Words

theorem toNat_add_of_lt
    {a b : UInt32}
    (hLt : a.toNat + b.toNat < UInt32.size) :
    (a + b).toNat = a.toNat + b.toNat := by
  rw [UInt32.toNat_add]
  exact Nat.mod_eq_of_lt hLt

theorem toNat_mul_of_lt
    {a b : UInt32}
    (hLt : a.toNat * b.toNat < UInt32.size) :
    (a * b).toNat = a.toNat * b.toNat := by
  rw [UInt32.toNat_mul]
  exact Nat.mod_eq_of_lt hLt

/- Below the sign bit a word keeps its value with a sign. -/
theorem toInt_toInt32_of_lt
    {a : UInt32}
    (hLt : a.toNat < 2147483648) :
    a.toInt32.toInt = a.toNat := by
  apply BitVec.toInt_eq_toNat_of_lt
  show 2 * a.toNat < 2 ^ 32
  omega

/- A number below the sign bit is its own word. -/
theorem toInt_ofInt_natCast
    {n : Nat}
    (hLt : n < 2147483648) :
    (Int32.ofInt n).toInt = n := by
  apply Int32.toInt_ofInt_of_le <;> omega

theorem toInt_add_of_bounds
    {a b : Int32}
    (hLow : -2147483648 ≤ a.toInt + b.toInt)
    (hHigh : a.toInt + b.toInt < 2147483648) :
    (a + b).toInt = a.toInt + b.toInt := by
  rw [Int32.toInt_add]
  apply Int.bmod_eq_of_le <;> omega

theorem toInt_sub_of_bounds
    {a b : Int32}
    (hLow : -2147483648 ≤ a.toInt - b.toInt)
    (hHigh : a.toInt - b.toInt < 2147483648) :
    (a - b).toInt = a.toInt - b.toInt := by
  rw [Int32.toInt_sub]
  apply Int.bmod_eq_of_le <;> omega

end Words
