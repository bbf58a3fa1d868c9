import Mathlib.Algebra.Group.Nat.Defs
import Mathlib.Data.List.TakeWhile

/-
  Decimal numerals as lists of characters: a number is
  written with a sign if it is negative, and read back from a
  sign and the digits behind it.

  Main declarations:
    * `Decimal.format` and `Decimal.parse`
    * `Decimal.parse_format`
    * `Decimal.formatPadded` and `Decimal.parse_formatPadded`
-/

------------------------------------------------------------
-- Numerals
------------------------------------------------------------

namespace Decimal

/- The digits of a number, a negative one behind a `-`. -/
def format : Int → List Char
| .ofNat n => Nat.toDigits 10 n
| .negSucc n => '-' :: Nat.toDigits 10 (n + 1)

/- The value of the digits in front. -/
def leading (s : List Char) : Nat :=
  Nat.ofDigitChars 10 (s.takeWhile Char.isDigit) 0

/-
  A sign or none, and digits. What stands behind the digits
  is not looked at.
-/
def parse (s : List Char) : Int :=
  match s with
  | '-' :: s => -(leading s : Int)
  | '+' :: s => leading s
  | s => leading s

theorem isDigit_of_mem_toDigits
    {n : Nat}
    {c : Char}
    (hMem : c ∈ Nat.toDigits 10 n) :
    c.isDigit = true :=
  Nat.isDigit_of_mem_toDigits (by decide) (by decide) hMem

/- Only a sign and digits are written. -/
theorem mem_format
    {a : Int}
    {c : Char}
    (hMem : c ∈ format a) :
    c = '-' ∨ c.isDigit = true := by
  cases a with
  | ofNat n => exact Or.inr (isDigit_of_mem_toDigits hMem)
  | negSucc n =>
      rcases List.mem_cons.mp hMem with hSign | hDigit
      · exact Or.inl hSign
      · exact Or.inr (isDigit_of_mem_toDigits hDigit)

theorem format_ne_nil
    (a : Int) :
    format a ≠ [] := by
  cases a with
  | ofNat n => exact Nat.toDigits_ne_nil
  | negSucc n => exact List.cons_ne_nil _ _

/- There is room for a sign and `k` digits. -/
theorem length_format_le
    {a : Int}
    {k : Nat}
    (hPos : 0 < k)
    (hLt : a.natAbs < 10 ^ k) :
    (format a).length ≤ k + 1 := by
  have hDigits :
      ∀ n, n < 10 ^ k → (Nat.toDigits 10 n).length ≤ k :=
    fun n => (Nat.length_toDigits_le_iff (by decide) hPos).mpr
  cases a with
  | ofNat n => exact Nat.le_succ_of_le (hDigits n hLt)
  | negSucc n =>
      exact Nat.succ_le_succ (hDigits (n + 1) hLt)

end Decimal

------------------------------------------------------------
-- Round Trip
------------------------------------------------------------

namespace Decimal

/- All digits of a number are read, and give the number. -/
theorem leading_toDigits
    (n : Nat) :
    leading (Nat.toDigits 10 n) = n := by
  have hAll :
      (Nat.toDigits 10 n).takeWhile Char.isDigit =
        Nat.toDigits 10 n :=
    List.takeWhile_eq_self_iff.mpr
      fun _ => isDigit_of_mem_toDigits
  rw [leading, hAll, Nat.ofDigitChars_ten_toDigits]

/- A numeral without a sign is its digits. -/
theorem parse_of_noSign
    {s : List Char}
    (hMinus : ∀ rest, s ≠ '-' :: rest)
    (hPlus : ∀ rest, s ≠ '+' :: rest) :
    parse s = leading s := by
  unfold parse
  split
  · exact absurd rfl (hMinus _)
  · exact absurd rfl (hPlus _)
  · rfl

theorem parse_of_digits
    {s : List Char}
    (hDigits : ∀ c ∈ s, c.isDigit = true) :
    parse s = leading s := by
  apply parse_of_noSign
  · rintro rest rfl
    exact absurd (hDigits _ List.mem_cons_self) (by decide)
  · rintro rest rfl
    exact absurd (hDigits _ List.mem_cons_self) (by decide)

/- A number that was written is read back. -/
theorem parse_format
    (a : Int) :
    parse (format a) = a := by
  cases a with
  | ofNat n =>
      rw [format,
        parse_of_digits fun _ => isDigit_of_mem_toDigits,
        leading_toDigits]
      rfl
  | negSucc n =>
      rw [format, parse, leading_toDigits]
      rfl

end Decimal

------------------------------------------------------------
-- Padded Numerals
------------------------------------------------------------

namespace Decimal

/-
  A numeral of at least `k` characters: zeros stand between
  the sign and the digits.
-/
def formatPadded (k : Nat) : Int → List Char
| .ofNat n => List.leftpad k '0' (Nat.toDigits 10 n)
| .negSucc n =>
    '-' :: List.leftpad (k - 1) '0' (Nat.toDigits 10 (n + 1))

theorem isDigit_of_mem_leftpad
    {k n : Nat}
    {c : Char}
    (hMem : c ∈ List.leftpad k '0' (Nat.toDigits 10 n)) :
    c.isDigit = true := by
  rcases List.mem_append.mp hMem with hZero | hDigit
  · rw [List.eq_of_mem_replicate hZero]
    decide
  · exact isDigit_of_mem_toDigits hDigit

theorem mem_formatPadded
    {k : Nat}
    {a : Int}
    {c : Char}
    (hMem : c ∈ formatPadded k a) :
    c = '-' ∨ c.isDigit = true := by
  cases a with
  | ofNat n => exact Or.inr (isDigit_of_mem_leftpad hMem)
  | negSucc n =>
      rcases List.mem_cons.mp hMem with hSign | hDigit
      · exact Or.inl hSign
      · exact Or.inr (isDigit_of_mem_leftpad hDigit)

/- A number of at most `k` digits is written with `k`. -/
theorem length_formatPadded
    {k n : Nat}
    (hPos : 0 < k)
    (hLt : n < 10 ^ k) :
    (formatPadded k n).length = k := by
  have hLength : (Nat.toDigits 10 n).length ≤ k :=
    (Nat.length_toDigits_le_iff (by decide) hPos).mpr hLt
  have hPadded :
      (formatPadded k n).length =
        max k (Nat.toDigits 10 n).length :=
    List.length_leftpad
  rw [hPadded, Nat.max_eq_left hLength]

/- A numeral of more than `k` characters is not padded. -/
theorem length_formatPadded_le
    (k : Nat)
    {m : Nat}
    {a : Int}
    (hPos : 0 < m)
    (hLt : a.natAbs < 10 ^ m) :
    (formatPadded k a).length ≤ max k (m + 1) := by
  have hDigits :
      ∀ n, n < 10 ^ m → (Nat.toDigits 10 n).length ≤ m :=
    fun n => (Nat.length_toDigits_le_iff (by decide) hPos).mpr
  cases a with
  | ofNat n =>
      have hLength := hDigits n hLt
      rw [formatPadded, List.length_leftpad]
      omega
  | negSucc n =>
      have hLength := hDigits (n + 1) hLt
      rw [formatPadded, List.length_cons, List.length_leftpad]
      omega

/- The zeros in front do not count. -/
theorem leading_leftpad
    (k n : Nat) :
    leading (List.leftpad k '0' (Nat.toDigits 10 n)) = n := by
  have hAll :
      (List.leftpad k '0' (Nat.toDigits 10 n)).takeWhile
          Char.isDigit =
        List.leftpad k '0' (Nat.toDigits 10 n) :=
    List.takeWhile_eq_self_iff.mpr
      fun _ => isDigit_of_mem_leftpad
  rw [leading, hAll, List.leftpad, Nat.ofDigitChars_append,
    Nat.ofDigitChars_replicate_zero, Nat.mul_zero,
    Nat.ofDigitChars_ten_toDigits]

theorem parse_formatPadded
    (k : Nat)
    (a : Int) :
    parse (formatPadded k a) = a := by
  cases a with
  | ofNat n =>
      rw [formatPadded,
        parse_of_digits fun _ => isDigit_of_mem_leftpad,
        leading_leftpad]
      rfl
  | negSucc n =>
      rw [formatPadded, parse, leading_leftpad]
      rfl

theorem format_injective :
    Function.Injective format :=
  Function.LeftInverse.injective parse_format

theorem formatPadded_injective
    (k : Nat) :
    Function.Injective (formatPadded k) :=
  Function.LeftInverse.injective (parse_formatPadded k)

end Decimal
