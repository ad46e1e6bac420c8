/-
Module: ZidaBot.Library.Decimals
Purpose: Decimal numerals as two lists of digit characters, before and after the point, and the rational
  number they denote.  Scaling by a power of ten and rounding down keeps the first digits after the point:
  the digits beyond are what the rounding drops, and missing ones count as zeros.
Trusted boundary: none
Main exports: append_toString_inj, ofDigitChars_lt, decimalValue, decimalValue_zeros, scaledFraction, floor_decimalValue
-/
import Mathlib.Data.Rat.Floor
import Mathlib.Algebra.Order.Field.Rat
import Mathlib.Tactic.Ring
import Mathlib.Tactic.FieldSimp
import Mathlib.Tactic.Positivity

namespace Decimals

/-- Names that end in different numbers differ. -/
theorem append_toString_inj {s : String} {n m : Nat} (same : s ++ toString n = s ++ toString m) : n = m := by
  have hdigits : Nat.toDigits 10 n = Nat.toDigits 10 m := by
    have hlists : (s ++ toString n).toList = (s ++ toString m).toList := by rw [same]
    rw [String.toList_append, String.toList_append] at hlists
    have htails := List.append_cancel_left hlists
    rwa [Nat.toString_eq_ofList_toDigits, Nat.toString_eq_ofList_toDigits, String.toList_ofList,
      String.toList_ofList] at htails
  calc n = Nat.ofDigitChars 10 (Nat.toDigits 10 n) 0 := Nat.ofDigitChars_ten_toDigits.symm
    _ = m := by rw [hdigits, Nat.ofDigitChars_ten_toDigits]

/-- A numeral of `n` digits is below the `n`-th power of ten. -/
theorem ofDigitChars_lt {digits : List Char} (all : ∀ c ∈ digits, c.isDigit = true) :
    Nat.ofDigitChars 10 digits 0 < 10 ^ digits.length := by
  induction digits with
  | nil => simp
  | cons c digits ih =>
      have hrest := ih fun d hd => all d (List.mem_cons_of_mem c hd)
      have hdigit := Char.isDigit_iff_toNat.mp (all c (List.mem_cons_self ..))
      have hc : c.toNat - '0'.toNat ≤ 9 := by
        have h0 : '0'.toNat = 48 := rfl
        have h9 : '9'.toNat = 57 := rfl
        omega
      rw [Nat.ofDigitChars_cons, Nat.ofDigitChars_eq_ofDigitChars_zero, List.length_cons, Nat.pow_succ]
      calc 10 ^ digits.length * (10 * 0 + (c.toNat - '0'.toNat)) + Nat.ofDigitChars 10 digits 0
          < 10 ^ digits.length * (10 * 0 + (c.toNat - '0'.toNat)) + 10 ^ digits.length := by omega
        _ = 10 ^ digits.length * (c.toNat - '0'.toNat + 1) := by ring
        _ ≤ 10 ^ digits.length * 10 := Nat.mul_le_mul_left _ (by omega)

/-- The number with the given digits before and after the point. -/
def decimalValue (int frac : List Char) : ℚ :=
  (Nat.ofDigitChars 10 int 0 : ℚ) + (Nat.ofDigitChars 10 frac 0 : ℚ) / 10 ^ frac.length

theorem decimalValue_nonneg (int frac : List Char) : 0 ≤ decimalValue int frac := by
  rw [decimalValue]
  positivity

/-- Zeros in front of the digits before the point and behind those after it do not count. -/
theorem decimalValue_zeros (m n : Nat) (int frac : List Char) :
    decimalValue (List.replicate m '0' ++ int) (frac ++ List.replicate n '0') = decimalValue int frac := by
  have hint : Nat.ofDigitChars 10 (List.replicate m '0' ++ int) 0 = Nat.ofDigitChars 10 int 0 := by
    rw [Nat.ofDigitChars_append, Nat.ofDigitChars_replicate_zero, Nat.mul_zero]
  have hfrac : Nat.ofDigitChars 10 (frac ++ List.replicate n '0') 0 =
      10 ^ n * Nat.ofDigitChars 10 frac 0 := by
    rw [Nat.ofDigitChars_append, Nat.ofDigitChars_replicate_zero]
  rw [decimalValue, decimalValue, hint, hfrac, List.length_append, List.length_replicate, pow_add]
  push_cast
  field_simp

/-- The first `k` digits after the point, filled up with zeros. -/
def scaledFraction (k : Nat) (frac : List Char) : Nat :=
  Nat.ofDigitChars 10 (frac.take k) 0 * 10 ^ (k - (frac.take k).length)

/-- Scaling a fraction and rounding down keeps its first digits. -/
theorem scaledFraction_eq_div (k : Nat) {frac : List Char} (all : ∀ c ∈ frac, c.isDigit = true) :
    scaledFraction k frac = Nat.ofDigitChars 10 frac 0 * 10 ^ k / 10 ^ frac.length := by
  rw [scaledFraction]
  by_cases hlength : frac.length ≤ k
  · rw [List.take_of_length_le hlength]
    have hsplit : 10 ^ k = 10 ^ (k - frac.length) * 10 ^ frac.length := by
      rw [← Nat.pow_add, Nat.sub_add_cancel hlength]
    rw [hsplit, ← Nat.mul_assoc, Nat.mul_div_cancel _ (by positivity)]
  · -- the digits beyond the scale are less than one unit of it
    have hk : k ≤ frac.length := by omega
    have hrest := ofDigitChars_lt (fun c hc => all c (List.mem_of_mem_drop hc) :
      ∀ c ∈ frac.drop k, c.isDigit = true)
    have hwhole : Nat.ofDigitChars 10 frac 0 =
        10 ^ (frac.drop k).length * Nat.ofDigitChars 10 (frac.take k) 0 +
          Nat.ofDigitChars 10 (frac.drop k) 0 := by
      rw [← Nat.ofDigitChars_eq_ofDigitChars_zero, ← Nat.ofDigitChars_append, List.take_append_drop]
    have hpower : 10 ^ frac.length = 10 ^ (frac.drop k).length * 10 ^ k := by
      rw [← Nat.pow_add, List.length_drop, Nat.sub_add_cancel hk]
    rw [List.length_take, Nat.min_eq_left hk, Nat.sub_self, Nat.pow_zero, Nat.mul_one, hpower,
      Nat.mul_div_mul_right _ _ (by positivity), hwhole, Nat.mul_add_div (by positivity),
      Nat.div_eq_of_lt hrest, Nat.add_zero]

/-- Scaling a decimal number by a power of ten and rounding down. -/
theorem floor_decimalValue (k : Nat) (int : List Char) {frac : List Char}
    (all : ∀ c ∈ frac, c.isDigit = true) :
    ⌊decimalValue int frac * 10 ^ k⌋ =
      ((Nat.ofDigitChars 10 int 0 * 10 ^ k + scaledFraction k frac : Nat) : Int) := by
  have hsplit : decimalValue int frac * 10 ^ k =
      ((Nat.ofDigitChars 10 int 0 * 10 ^ k : Nat) : ℚ) +
        ((Nat.ofDigitChars 10 frac 0 * 10 ^ k : Nat) : ℤ) / ((10 ^ frac.length : Nat) : ℚ) := by
    rw [decimalValue]
    push_cast
    field_simp
  rw [hsplit, Int.floor_natCast_add, Rat.floor_intCast_div_natCast, scaledFraction_eq_div k all]
  push_cast
  rfl

end Decimals
