/-
Module: ZidaBot.Proofs.DecimalGrammar
Purpose: The decimal parser against its grammar, an optional minus and digits with at most one point.  On
  every text of the grammar in range it returns the scaled value truncated toward zero, and no 64-bit
  operation on the way overflows.  It accepts more than the grammar, though: the integer part is read by a
  prefix parser and the loop over the fraction stops at the scale, so what stands behind them is never
  looked at.  The texts that get through are described here by their shape.
Trusted boundary: none
Main exports: IsSignedDecimal, signedValue, ParseInRange, truncatesWithinRange, LenientText, GetsThrough,
  acceptsGrammar_iff
-/
import ZidaBot.Proofs.Quantisation

namespace ZidaBot

open Decimals

/-!
### Signed texts

A minus is taken off the front before anything else is looked at, so results on unsigned texts carry over by
negation.
-/

/-- A text with an optional minus in front. -/
def withSign (negative : Bool) (text : List Char) : List Char := if negative then '-' :: text else text

/-- A decimal numeral with an optional minus in front. -/
def IsSignedDecimal (text : List Char) (negative : Bool) (int frac : List Char) : Prop :=
  ∃ body, text = withSign negative body ∧ IsDecimal body int frac

/-- The number that the sign and the digits denote. -/
def signedValue (negative : Bool) (int frac : List Char) : ℚ :=
  if negative then -decimalValue int frac else decimalValue int frac

@[simp] theorem withSign_true (text : List Char) : withSign true text = '-' :: text := rfl

@[simp] theorem withSign_false (text : List Char) : withSign false text = text := rfl

/-- Every text is its sign and the rest. -/
theorem withSign_head (text : List Char) :
    withSign (text.head? == some '-') (if text.head? == some '-' then text.drop 1 else text) = text := by
  cases text with
  | nil => rfl
  | cons c text =>
      by_cases hminus : c = '-'
      · simp [hminus]
      · have hhead : (c == '-') = false := by simpa using hminus
        simp [hhead]

theorem ne_minus_of_isDigit {c : Char} (digit : c.isDigit = true) : c ≠ '-' := by
  rintro rfl
  exact absurd digit (by decide)

/-!
### Rounding toward zero
-/

theorem truncate_neg (q : ℚ) : truncate (-q) = -truncate q := by
  rw [truncate, truncate, Rat.neg_num, Rat.neg_den, Int.neg_tdiv]

theorem truncate_of_nonneg {q : ℚ} (nonneg : 0 ≤ q) : truncate q = ⌊q⌋ := by
  rw [truncate, Int.tdiv_eq_ediv_of_nonneg (Rat.num_nonneg.mpr nonneg), Rat.floor_def']

theorem truncate_nonneg {q : ℚ} (nonneg : 0 ≤ q) : 0 ≤ truncate q := by
  rw [truncate_of_nonneg nonneg]
  exact Int.floor_nonneg.mpr nonneg

/-- Truncation is monotone. -/
theorem truncate_mono {p q : ℚ} (le : p ≤ q) : truncate p ≤ truncate q := by
  rcases le_total 0 p with hp | hp
  · rw [truncate_of_nonneg hp, truncate_of_nonneg (hp.trans le)]
    exact Int.floor_mono le
  · have hp' : 0 ≤ -p := by linarith
    have hneg : truncate p = -truncate (-p) := by rw [truncate_neg, neg_neg]
    rcases le_total 0 q with hq | hq
    · have hleft := truncate_nonneg hp'
      have hright := truncate_nonneg hq
      omega
    · have hq' : 0 ≤ -q := by linarith
      have hneg' : truncate q = -truncate (-q) := by rw [truncate_neg, neg_neg]
      have hfloor : ⌊-q⌋ ≤ ⌊-p⌋ := Int.floor_mono (by linarith)
      rw [hneg, hneg', truncate_of_nonneg hp', truncate_of_nonneg hq']
      omega

theorem signedValue_mul (negative : Bool) (int frac : List Char) (scale : ℚ) :
    signedValue negative int frac * scale =
      if negative then -(decimalValue int frac * scale) else decimalValue int frac * scale := by
  rw [signedValue]
  split
  · ring
  · rfl

theorem abs_signedValue (negative : Bool) (int frac : List Char) :
    |signedValue negative int frac| = decimalValue int frac := by
  have hnonneg := decimalValue_nonneg int frac
  rw [signedValue]
  split
  · rw [abs_neg, abs_of_nonneg hnonneg]
  · exact abs_of_nonneg hnonneg

/-- The scaled value, truncated, in terms of the digits. -/
theorem truncate_signedValue (negative : Bool) (int : List Char) {frac : List Char}
    (digits : ∀ c ∈ frac, c.isDigit = true) (k : Nat) :
    truncate (signedValue negative int frac * 10 ^ k) =
      if negative then -((Nat.ofDigitChars 10 int 0 * 10 ^ k + scaledFraction k frac : Nat) : Int)
      else ((Nat.ofDigitChars 10 int 0 * 10 ^ k + scaledFraction k frac : Nat) : Int) := by
  have hnonneg : 0 ≤ decimalValue int frac * 10 ^ k := mul_nonneg (decimalValue_nonneg _ _) (by positivity)
  have hfloor := floor_decimalValue k int digits
  rw [signedValue_mul]
  split
  · rw [truncate_neg, truncate_of_nonneg hnonneg, hfloor]
  · rw [truncate_of_nonneg hnonneg, hfloor]

/-!
### No operation overflows

The claim that the value fits into 64 bits is about the result. That the intermediate products and sums fit
as well needs the bound on the scale, and is proved along the loops.
-/

/-- No operation of the loop over the fraction leaves 64 bits. -/
def FracLoopInRange (scale : Int) : List Char → Int → Int → Prop
  | [], _, _ => True
  | c :: rest, fracVal, fracDivisor =>
      fracDivisor < scale → c.isDigit = true →
        InInt64 (fracVal * 10) ∧
        InInt64 (fracVal * 10 + ((c.toNat - '0'.toNat : Nat) : Int)) ∧
        InInt64 (fracDivisor * 10) ∧
        FracLoopInRange scale rest (fracVal * 10 + ((c.toNat - '0'.toNat : Nat) : Int)) (fracDivisor * 10)

/-- No operation of the padding loop leaves 64 bits. -/
def PadLoopInRange (scale : Int) : Nat → Int → Int → Prop
  | 0, _, _ => True
  | fuel + 1, fracVal, fracDivisor =>
      fracDivisor < scale →
        InInt64 (fracVal * 10) ∧ InInt64 (fracDivisor * 10) ∧
        PadLoopInRange scale fuel (fracVal * 10) (fracDivisor * 10)

/-- No 64-bit operation of `parseDecimalToScaled` overflows on the text: the two loops, the product, the sum
    and the negation. -/
def ParseInRange (text : List Char) (scale : Int) : Prop :=
  let negative := text.head? == some '-'
  let body := if negative then text.drop 1 else text
  let intPart := body.takeWhile (· != '.')
  let fracPart := (body.dropWhile (· != '.')).drop 1
  ∀ intVal, (if intPart = [] then some 0 else fromChars intPart) = some intVal →
    FracLoopInRange scale fracPart 0 1 ∧
    ∀ fracVal fracDivisor, fracLoop scale fracPart 0 1 = .ok (fracVal, fracDivisor) →
      PadLoopInRange scale scale.toNat fracVal fracDivisor ∧
      let padded := padLoop scale scale.toNat fracVal fracDivisor
      InInt64 (intVal * scale) ∧ InInt64 (intVal * scale + padded) ∧
        (negative = true → InInt64 (-(intVal * scale + padded)))

/-- Up to nine decimals a value below its divisor stays in range. -/
theorem inInt64_of_lt_pow {v : Int} {i : Nat} (nonneg : 0 ≤ v) (below : v ≤ 10 ^ i) (few : i ≤ 9) :
    InInt64 v := by
  have hpow : (10 : Int) ^ i ≤ 10 ^ 9 := pow_le_pow_right₀ (by decide) few
  constructor <;> omega

theorem digit_le_nine {c : Char} (digit : c.isDigit = true) : c.toNat - '0'.toNat ≤ 9 := by
  have hrange := Char.isDigit_iff_toNat.mp digit
  have h0 : '0'.toNat = 48 := rfl
  have h9 : '9'.toNat = 57 := rfl
  omega

/-- The value of the fraction stays below its divisor, and the divisor at most at the scale. -/
theorem fracLoopInRange {k : Nat} (few : k ≤ 9) (frac : List Char) {v : Int} {i : Nat} (nonneg : 0 ≤ v)
    (below : v < 10 ^ i) : FracLoopInRange (10 ^ k) frac v (10 ^ i) := by
  induction frac generalizing v i with
  | nil => trivial
  | cons c frac ih =>
      intro hroom hdigit
      have hi : i + 1 ≤ k := (pow_lt_pow_iff_right₀ (by decide : (1 : Int) < 10)).mp hroom
      have hnine := digit_le_nine hdigit
      have hnext : v * 10 + ((c.toNat - '0'.toNat : Nat) : Int) < 10 ^ (i + 1) := by
        rw [pow_succ]
        omega
      refine ⟨?_, ?_, ?_, ?_⟩
      · exact inInt64_of_lt_pow (i := i + 1) (by omega) (by omega) (by omega)
      · exact inInt64_of_lt_pow (i := i + 1) (by omega) (by omega) (by omega)
      · rw [← pow_succ]
        exact inInt64_of_lt_pow (i := i + 1) (by positivity) le_rfl (by omega)
      · rw [← pow_succ]
        exact ih (by omega) hnext

theorem padLoopInRange {k : Nat} (few : k ≤ 9) (fuel : Nat) {v : Int} {i : Nat} (nonneg : 0 ≤ v)
    (below : v < 10 ^ i) : PadLoopInRange (10 ^ k) fuel v (10 ^ i) := by
  induction fuel generalizing v i with
  | zero => trivial
  | succ fuel ih =>
      intro hroom
      have hi : i + 1 ≤ k := (pow_lt_pow_iff_right₀ (by decide : (1 : Int) < 10)).mp hroom
      have hnext : v * 10 < 10 ^ (i + 1) := by
        rw [pow_succ]
        omega
      refine ⟨?_, ?_, ?_⟩
      · exact inInt64_of_lt_pow (i := i + 1) (by omega) (by omega) (by omega)
      · rw [← pow_succ]
        exact inInt64_of_lt_pow (i := i + 1) (by positivity) le_rfl (by omega)
      · rw [← pow_succ]
        exact ih (by omega) hnext

/-!
### The truncated value
-/

/-- A minus in front of a text without one negates its result. -/
theorem parseDecimalToScaled_minus {body : List Char} {scale result : Int}
    (unsigned : (body.head? == some '-') = false) (parsed : parseDecimalToScaled body scale = .ok result) :
    parseDecimalToScaled ('-' :: body) scale = .ok (wrap64 (-result)) := by
  have hbody : body ≠ [] := by
    rintro rfl
    cases parsed
  simp only [parseDecimalToScaled, if_neg hbody, unsigned, Bool.false_eq_true, if_false] at parsed
  simp only [parseDecimalToScaled, List.head?_cons, beq_self_eq_true, if_true, List.drop_succ_cons, List.drop_zero,
    if_neg (List.cons_ne_nil '-' body)]
  split at parsed
  · cases parsed
  · rename_i intVal hint
    split at parsed
    · cases parsed
    · rename_i fracVal fracDivisor hfrac
      cases parsed
      rfl

section Truncation

variable {k : Nat} {text : List Char} {negative : Bool} {int frac : List Char}

/-- A signed decimal in range is read as its scaled value, truncated. -/
theorem parseDecimalToScaled_eq_truncate (decimal : IsSignedDecimal text negative int frac)
    (range : |signedValue negative int frac| * 10 ^ k ≤ 2 ^ 63 - 1) :
    parseDecimalToScaled text (10 ^ k) = .ok (truncate (signedValue negative int frac * 10 ^ k)) := by
  obtain ⟨body, rfl, hdecimal⟩ := decimal
  rw [abs_signedValue] at range
  have hnonneg : 0 ≤ decimalValue int frac * 10 ^ k := mul_nonneg (decimalValue_nonneg _ _) (by positivity)
  have hparsed := parseDecimalToScaled_eq_floor hdecimal k (by linarith)
  rw [signedValue_mul]
  cases negative with
  | false => rw [withSign_false, hparsed, if_neg Bool.false_ne_true, truncate_of_nonneg hnonneg]
  | true =>
      have hfloor : ⌊decimalValue int frac * 10 ^ k⌋ < 2 ^ 63 := by
        rw [Int.floor_lt]
        push_cast
        linarith
      have hfloor' : 0 ≤ ⌊decimalValue int frac * 10 ^ k⌋ := Int.floor_nonneg.mpr hnonneg
      rw [withSign_true, parseDecimalToScaled_minus hdecimal.head?_ne_minus hparsed, if_pos rfl, truncate_neg,
        truncate_of_nonneg hnonneg, wrap64_of_inInt64 ⟨by omega, by omega⟩]

/-- None of the operations on a signed decimal in range overflows, for scales up to a billion. -/
theorem parseInRange (few : k ≤ 9) (decimal : IsSignedDecimal text negative int frac)
    (range : |signedValue negative int frac| * 10 ^ k ≤ 2 ^ 63 - 1) : ParseInRange text (10 ^ k) := by
  obtain ⟨body, rfl, hdecimal⟩ := decimal
  rw [abs_signedValue] at range
  have hsign : ((withSign negative body).head? == some '-') = negative := by
    cases negative with
    | false => exact hdecimal.head?_ne_minus
    | true => rfl
  have hbody : (if negative = true then (withSign negative body).drop 1 else withSign negative body) = body := by
    cases negative <;> rfl
  -- the integer part and the padded fraction, as the parser finds them
  have hbound : ((Nat.ofDigitChars 10 int 0 * 10 ^ k + scaledFraction k frac : Nat) : Int) < 2 ^ 63 := by
    rw [← floor_decimalValue k int hdecimal.frac_digits, Int.floor_lt]
    push_cast
    linarith
  have hpower : 0 < 10 ^ k := by positivity
  have hint : Nat.ofDigitChars 10 int 0 ≤ Nat.ofDigitChars 10 int 0 * 10 ^ k :=
    Nat.le_mul_of_pos_right _ hpower
  have hproduct : (Nat.ofDigitChars 10 int 0 : Int) * 10 ^ k =
      ((Nat.ofDigitChars 10 int 0 * 10 ^ k : Nat) : Int) := by
    push_cast
    rfl
  have htaken : Nat.ofDigitChars 10 (frac.take k) 0 < 10 ^ (frac.take k).length :=
    ofDigitChars_lt fun c hc => hdecimal.frac_digits c (List.mem_of_mem_take hc)
  rw [ParseInRange]
  simp only [hsign, hbody, hdecimal.takeWhile_eq, hdecimal.dropWhile_eq, hdecimal.intVal_eq (by omega),
    fracLoop_start k hdecimal.frac_digits]
  rintro intVal ⟨rfl⟩
  refine ⟨fracLoopInRange (i := 0) few frac le_rfl one_pos, ?_⟩
  rintro fracVal fracDivisor ⟨rfl, rfl⟩
  refine ⟨padLoopInRange few _ (by omega) ?_, ?_⟩
  · exact_mod_cast htaken
  · rw [padLoop_start, hproduct]
    exact ⟨⟨by omega, by omega⟩, ⟨by omega, by omega⟩, fun _ => ⟨by omega, by omega⟩⟩

/-- On every well-formed text whose scaled value has a magnitude below `2 ^ 63`, and for every power of ten
    up to a billion, the parser returns the scaled value truncated toward zero, and none of its operations
    overflows.  So a larger number never gets the smaller result, and zeros in front of the integer part or
    behind the fraction do not change it. -/
theorem truncatesWithinRange (few : k ≤ 9) (decimal : IsSignedDecimal text negative int frac)
    (range : |signedValue negative int frac| * 10 ^ k ≤ 2 ^ 63 - 1) :
    parseDecimalToScaled text (10 ^ k) = .ok (truncate (signedValue negative int frac * 10 ^ k)) ∧
    ParseInRange text (10 ^ k) ∧
    (∀ text' negative' int' frac', IsSignedDecimal text' negative' int' frac' →
      |signedValue negative' int' frac'| * 10 ^ k ≤ 2 ^ 63 - 1 →
      signedValue negative int frac ≤ signedValue negative' int' frac' →
      ∀ result result', parseDecimalToScaled text (10 ^ k) = .ok result →
        parseDecimalToScaled text' (10 ^ k) = .ok result' → result ≤ result') ∧
    ∀ text' m n, IsSignedDecimal text' negative (List.replicate m '0' ++ int) (frac ++ List.replicate n '0') →
      parseDecimalToScaled text' (10 ^ k) = parseDecimalToScaled text (10 ^ k) := by
  have hresult := parseDecimalToScaled_eq_truncate decimal range
  refine ⟨hresult, parseInRange few decimal range, ?_, ?_⟩
  · intro text' negative' int' frac' decimal' range' hle result result' hparsed hparsed'
    rw [hresult] at hparsed
    rw [parseDecimalToScaled_eq_truncate decimal' range'] at hparsed'
    cases hparsed
    cases hparsed'
    exact truncate_mono (mul_le_mul_of_nonneg_right hle (by positivity))
  · intro text' m n decimal'
    have hvalue : signedValue negative (List.replicate m '0' ++ int) (frac ++ List.replicate n '0') =
        signedValue negative int frac := by
      rw [signedValue, signedValue, decimalValue_zeros]
    rw [parseDecimalToScaled_eq_truncate decimal' (by rw [hvalue]; exact range), hvalue, hresult]

end Truncation

theorem isSignedDecimal_minus_half : IsSignedDecimal "-1.50".toList true ['1'] ['5', '0'] :=
  ⟨['1', '.', '5', '0'], rfl, ⟨by decide, List.all_eq_true.mp rfl, List.all_eq_true.mp rfl, by decide⟩⟩

/-- A negative text at the largest scale. -/
theorem truncatesWithinRange_minus_half :
    parseDecimalToScaled "-1.50".toList (10 ^ 9) = .ok (-1500000000) ∧
      ParseInRange "-1.50".toList (10 ^ 9) := by
  have hdigits : '1'.toNat - '0'.toNat = 1 ∧ '5'.toNat - '0'.toNat = 5 := by decide
  have hvalue : signedValue true ['1'] ['5', '0'] = -3 / 2 := by
    norm_num [signedValue, decimalValue, Nat.ofDigitChars, hdigits]
  have hresult := truncatesWithinRange (by decide : 9 ≤ 9) isSignedDecimal_minus_half
    (by rw [hvalue]; norm_num [abs_of_neg])
  exact ⟨by decide, hresult.2.1⟩

/-!
### What is accepted

The parser asks three things: there is a text, what stands before the point is empty or starts with an
integer of 64 bits, and the loop over the fraction meets digits as far as it runs. Read backwards, this
gives the shape of every accepted text, whatever else stands in it.
-/

/-- The number of a run of digits with an optional minus. -/
def signedInt (negative : Bool) (digits : List Char) : Int :=
  if negative then -(Nat.ofDigitChars 10 digits 0 : Int) else (Nat.ofDigitChars 10 digits 0 : Int)

/-- The texts that get through: behind the sign, an integer part that is empty or starts with digits, after a
    second minus or not, for a number of 64 bits; then any junk up to the point; behind the point, decimals
    up to the scale and anything after them. -/
structure LenientText (k : Nat) (text : List Char) (negative second : Bool) (digits junk frac : List Char) :
    Prop where
  shape : text = withSign negative (withSign second (digits ++ junk) ++ '.' :: frac) ∨
    (text = withSign negative (withSign second (digits ++ junk)) ∧ frac = [])
  nonempty : text ≠ []
  digits_digit : ∀ c ∈ digits, c.isDigit = true
  junk_head : ∀ c ∈ junk.head?, c.isDigit = false
  junk_point : ∀ c ∈ junk, c ≠ '.'
  second_sign : second = true → negative = true
  empty : digits = [] → second = false ∧ junk = []
  range : InInt64 (signedInt second digits)
  decimals : ∀ c ∈ frac.take k, c.isDigit = true

/-- The loop over the fraction succeeds exactly if there are digits up to the scale. -/
theorem fracLoop_ok_iff {k : Nat} (frac : List Char) (v : Int) {i : Nat} (room : i ≤ k) :
    (∃ r, fracLoop (10 ^ k) frac v (10 ^ i) = .ok r) ↔ ∀ c ∈ frac.take (k - i), c.isDigit = true := by
  induction frac generalizing v i with
  | nil => simp [fracLoop]
  | cons c frac ih =>
      rw [fracLoop]
      by_cases hfull : k ≤ i
      · obtain rfl : i = k := Nat.le_antisymm room hfull
        simp
      · have hlt : ¬ (10 : Int) ^ k ≤ 10 ^ i := not_le.mpr (pow_lt_pow_right₀ (by decide) (by omega))
        obtain ⟨n, hn⟩ : ∃ n, k - i = n + 1 := ⟨k - i - 1, by omega⟩
        have hn' : k - (i + 1) = n := by omega
        rw [if_neg hlt, hn, List.take_succ_cons]
        by_cases hdigit : c.isDigit = true
        · rw [if_pos hdigit, ← pow_succ, ih _ (by omega), hn']
          simp [hdigit]
        · simp [hdigit]

/-- The prefix parser on a sign, digits and junk. -/
theorem fromChars_withSign {second : Bool} {digits junk : List Char}
    (digits_digit : ∀ c ∈ digits, c.isDigit = true) (junk_head : ∀ c ∈ junk.head?, c.isDigit = false)
    (nonempty : digits ≠ []) :
    fromChars (withSign second (digits ++ junk)) =
      if InInt64 (signedInt second digits) then some (signedInt second digits) else none := by
  have htake : (digits ++ junk).takeWhile Char.isDigit = digits := by
    rw [List.takeWhile_append_of_pos digits_digit]
    cases junk with
    | nil => simp
    | cons c junk => simp [junk_head c rfl]
  have hhead : ((digits ++ junk).head? == some '-') = false := by
    cases digits with
    | nil => exact absurd rfl nonempty
    | cons c digits => simpa using ne_minus_of_isDigit (digits_digit c (List.mem_cons_self ..))
  cases second with
  | false =>
      simp only [fromChars, withSign_false, hhead, Bool.false_eq_true, if_false, htake, if_neg nonempty, signedInt]
  | true =>
      simp only [fromChars, withSign_true, List.head?_cons, beq_self_eq_true, if_true, List.drop_succ_cons,
        List.drop_zero, htake, if_neg nonempty, signedInt]

/-- What the prefix parser accepts is a sign, digits and junk. -/
theorem fromChars_inv {text : List Char} {value : Int} (parsed : fromChars text = some value) :
    ∃ second digits junk, text = withSign second (digits ++ junk) ∧
      second = (text.head? == some '-') ∧ (∀ c ∈ digits, c.isDigit = true) ∧
      (∀ c ∈ junk.head?, c.isDigit = false) ∧ digits ≠ [] ∧ InInt64 (signedInt second digits) := by
  let rest := if text.head? == some '-' then text.drop 1 else text
  have hdigits : ∀ c ∈ rest.takeWhile Char.isDigit, c.isDigit = true := fun c hc => List.mem_takeWhile_imp hc
  have hjunk : ∀ c ∈ (rest.dropWhile Char.isDigit).head?, c.isDigit = false := by
    intro c hc
    have hnot := List.head?_dropWhile_not Char.isDigit rest
    rw [Option.mem_def.mp hc] at hnot
    simpa using hnot
  have hsplit : text = withSign (text.head? == some '-')
      (rest.takeWhile Char.isDigit ++ rest.dropWhile Char.isDigit) := by
    rw [List.takeWhile_append_dropWhile]
    exact (withSign_head text).symm
  have hnonempty : rest.takeWhile Char.isDigit ≠ [] := by
    intro hnil
    simp only [fromChars] at parsed
    rw [if_pos hnil] at parsed
    cases parsed
  refine ⟨_, _, _, hsplit, rfl, hdigits, hjunk, hnonempty, ?_⟩
  by_contra hrange
  rw [hsplit, fromChars_withSign hdigits hjunk hnonempty, if_neg hrange] at parsed
  cases parsed

/-- The text behind the sign. -/
def unsignedText (text : List Char) : List Char := if text.head? == some '-' then text.drop 1 else text

/-- What the parser takes for the integer part. -/
def intPart (text : List Char) : List Char := (unsignedText text).takeWhile (· != '.')

/-- What the parser takes for the fraction. -/
def fracPart (text : List Char) : List Char := ((unsignedText text).dropWhile (· != '.')).drop 1

/-- What the parser makes of the two parts of a text. -/
def scaledFrom (k : Nat) (text : List Char) (int : Option Int) (frac : Except String (Int × Int)) :
    Except String Int :=
  match int with
  | none => .error "parseDecimalToScaled: bad integer part"
  | some intVal =>
      match frac with
      | .error what => .error what
      | .ok (fracVal, fracDivisor) =>
          let fracVal := padLoop (10 ^ k) ((10 : Int) ^ k).toNat fracVal fracDivisor
          let result := wrap64 (wrap64 (intVal * 10 ^ k) + fracVal)
          .ok (if text.head? == some '-' then wrap64 (-result) else result)

theorem parseDecimalToScaled_eq_scaledFrom (k : Nat) {text : List Char} (nonempty : text ≠ []) :
    parseDecimalToScaled text (10 ^ k) =
      scaledFrom k text (if intPart text = [] then some 0 else fromChars (intPart text))
        (fracLoop (10 ^ k) (fracPart text) 0 1) := by
  rw [parseDecimalToScaled, if_neg nonempty]
  rfl

/-- The three checks of the parser. -/
theorem parseDecimalToScaled_ok_iff (text : List Char) (k : Nat) :
    (∃ v, parseDecimalToScaled text (10 ^ k) = .ok v) ↔
      text ≠ [] ∧ (intPart text = [] ∨ ∃ v, fromChars (intPart text) = some v) ∧
        ∀ c ∈ (fracPart text).take k, c.isDigit = true := by
  have hfrac := fracLoop_ok_iff (k := k) (fracPart text) 0 (Nat.zero_le k)
  rw [pow_zero, Nat.sub_zero] at hfrac
  rw [← hfrac]
  have hint : (∃ v, (if intPart text = [] then some 0 else fromChars (intPart text)) = some v) ↔
      intPart text = [] ∨ ∃ v, fromChars (intPart text) = some v := by
    by_cases hempty : intPart text = [] <;> simp [hempty]
  rw [← hint]
  by_cases htext : text = []
  · simp [htext, parseDecimalToScaled]
  · have hunfold := parseDecimalToScaled_eq_scaledFrom k htext
    rw [hunfold]
    cases (if intPart text = [] then some 0 else fromChars (intPart text)) with
    | none => simp [scaledFrom]
    | some intVal =>
        cases fracLoop (10 ^ k) (fracPart text) 0 1 with
        | error what => simp [scaledFrom]
        | ok r => simp [scaledFrom, htext]

namespace LenientText

variable {k : Nat} {text : List Char} {negative second : Bool} {digits junk frac : List Char}

theorem int_ne_point (lenient : LenientText k text negative second digits junk frac) :
    ∀ c ∈ withSign second (digits ++ junk), (c != '.') = true := by
  have hall : ∀ c ∈ digits ++ junk, (c != '.') = true := by
    intro c hc
    rcases List.mem_append.mp hc with hdigit | hjunk
    · exact ne_point_of_isDigit (lenient.digits_digit c hdigit)
    · exact bne_iff_ne.mpr (lenient.junk_point c hjunk)
  cases second with
  | false => exact hall
  | true =>
      intro c hc
      rcases List.mem_cons.mp hc with rfl | hc
      · decide
      · exact hall c hc

/-- The first sign is what the parser takes for it. -/
theorem sign_eq (lenient : LenientText k text negative second digits junk frac) :
    (text.head? == some '-') = negative := by
  cases negative with
  | true =>
      rcases lenient.shape with rfl | ⟨rfl, -⟩
      · rfl
      · rfl
  | false =>
      obtain rfl : second = false := by
        cases second with
        | false => rfl
        | true => exact (lenient.second_sign rfl).symm
      cases digits with
      | nil =>
          obtain ⟨-, rfl⟩ := lenient.empty rfl
          rcases lenient.shape with rfl | ⟨rfl, -⟩
          · rfl
          · rfl
      | cons c digits =>
          have hc := ne_minus_of_isDigit (lenient.digits_digit c (List.mem_cons_self ..))
          rcases lenient.shape with rfl | ⟨rfl, -⟩
          · simpa using hc
          · simpa using hc

/-- The text behind the sign has the point where the parser looks for it. -/
theorem unsignedText_shape (lenient : LenientText k text negative second digits junk frac) :
    unsignedText text = withSign second (digits ++ junk) ++ '.' :: frac ∨
      (unsignedText text = withSign second (digits ++ junk) ∧ frac = []) := by
  have hdrop : ∀ body, text = withSign negative body → unsignedText text = body := by
    intro body hbody
    rw [unsignedText, lenient.sign_eq, hbody]
    cases negative <;> rfl
  rcases lenient.shape with hshape | ⟨hshape, hfrac⟩
  · exact Or.inl (hdrop _ hshape)
  · exact Or.inr ⟨hdrop _ hshape, hfrac⟩

theorem intPart_eq (lenient : LenientText k text negative second digits junk frac) :
    intPart text = withSign second (digits ++ junk) :=
  takeWhile_point lenient.unsignedText_shape lenient.int_ne_point

theorem fracPart_eq (lenient : LenientText k text negative second digits junk frac) :
    fracPart text = frac :=
  drop_dropWhile_point lenient.unsignedText_shape lenient.int_ne_point

end LenientText

section Parts

variable (text : List Char)

theorem withSign_unsignedText : withSign (text.head? == some '-') (unsignedText text) = text :=
  withSign_head text

/-- The text behind the sign is the integer part, and the fraction if there is a point. -/
theorem unsignedText_split :
    unsignedText text = intPart text ++ '.' :: fracPart text ∨
      (unsignedText text = intPart text ∧ fracPart text = []) := by
  have hsplit := List.takeWhile_append_dropWhile (p := (· != '.')) (l := unsignedText text)
  have hhead := List.head?_dropWhile_not (· != '.') (unsignedText text)
  rw [intPart, fracPart]
  cases hrest : (unsignedText text).dropWhile (· != '.') with
  | nil =>
      rw [hrest, List.append_nil] at hsplit
      exact Or.inr ⟨hsplit.symm, rfl⟩
  | cons c rest =>
      rw [hrest] at hsplit hhead
      obtain rfl : c = '.' := by simpa using hhead
      exact Or.inl hsplit.symm

/-- A text is put together again from its sign and its parts. -/
theorem eq_withSign_parts :
    text = withSign (text.head? == some '-') (intPart text ++ '.' :: fracPart text) ∨
      (text = withSign (text.head? == some '-') (intPart text) ∧ fracPart text = []) := by
  have hsign := (withSign_unsignedText text).symm
  rcases unsignedText_split text with hpoint | ⟨hpoint, hnone⟩
  · exact Or.inl (hsign.trans (by rw [hpoint]))
  · exact Or.inr ⟨hsign.trans (by rw [hpoint]), hnone⟩

theorem ne_point_of_mem_intPart : ∀ c ∈ intPart text, c ≠ '.' := by
  intro c hc
  have hpoint := List.mem_takeWhile_imp (p := (· != '.')) hc
  exact bne_iff_ne.mp hpoint

/-- A minus in front of the integer part is the second one of the text. -/
theorem head?_of_intPart_minus (minus : (intPart text).head? = some '-') : text.head? = some '-' := by
  by_contra hunsigned
  have hsame : unsignedText text = text := by
    rw [unsignedText, if_neg (by simpa using hunsigned)]
  have hne : intPart text ≠ [] := by
    intro hnil
    rw [hnil] at minus
    cases minus
  have hhead : (unsignedText text).head? = (intPart text).head? := by
    rcases unsignedText_split text with hpoint | ⟨hpoint, -⟩
    · rw [hpoint, List.head?_append_of_ne_nil _ hne]
    · rw [hpoint]
  rw [hsame] at hhead
  exact hunsigned (hhead.trans minus)

end Parts

/-- The parser accepts exactly the texts of that shape. -/
theorem parseDecimalToScaled_ok_iff_lenient (text : List Char) (k : Nat) :
    (∃ v, parseDecimalToScaled text (10 ^ k) = .ok v) ↔
      ∃ negative second digits junk frac, LenientText k text negative second digits junk frac := by
  rw [parseDecimalToScaled_ok_iff]
  constructor
  · rintro ⟨htext, hint, hfrac⟩
    have hparts := eq_withSign_parts text
    rcases hint with hempty | ⟨v, hparsed⟩
    · rw [hempty] at hparts
      refine ⟨text.head? == some '-', false, [], [], fracPart text, ⟨hparts, htext, ?_, ?_, ?_, ?_, ?_, ?_, hfrac⟩⟩
      all_goals simp [signedInt, InInt64]
    · obtain ⟨second, digits, junk, hshape, hsecond, hdigits, hjunk, hnonempty, hrange⟩ := fromChars_inv hparsed
      have hjunkPoint : ∀ c ∈ junk, c ≠ '.' := by
        intro c hc
        refine ne_point_of_mem_intPart text c ?_
        rw [hshape]
        cases second with
        | false => exact List.mem_append_right _ hc
        | true => exact List.mem_cons_of_mem _ (List.mem_append_right _ hc)
      have hsign : second = true → (text.head? == some '-') = true := by
        intro hminus
        rw [hminus] at hsecond
        simpa using head?_of_intPart_minus text (by simpa using hsecond.symm)
      rw [hshape] at hparts
      exact ⟨text.head? == some '-', second, digits, junk, fracPart text,
        ⟨hparts, htext, hdigits, hjunk, hjunkPoint, hsign, fun h => absurd h hnonempty, hrange, hfrac⟩⟩
  · rintro ⟨negative, second, digits, junk, frac, lenient⟩
    rw [lenient.intPart_eq, lenient.fracPart_eq]
    refine ⟨lenient.nonempty, ?_, lenient.decimals⟩
    by_cases hempty : digits = []
    · obtain ⟨rfl, rfl⟩ := lenient.empty hempty
      exact Or.inl (by rw [hempty]; rfl)
    · refine Or.inr ⟨signedInt second digits, ?_⟩
      rw [fromChars_withSign lenient.digits_digit lenient.junk_head hempty, if_pos lenient.range]

/-!
### Against the grammar

The accepted shapes, less those of the grammar, are the kinds of malformed texts that get through; on all
others the parser keeps to the grammar.
-/

/-- The grammar: a signed decimal whose scaled value, truncated, fits into 64 bits. -/
def InGrammar (k : Nat) (text : List Char) : Prop :=
  ∃ negative int frac, IsSignedDecimal text negative int frac ∧
    InInt64 (truncate (signedValue negative int frac * 10 ^ k))

/-- The malformed texts that get through: a second minus, junk behind the integer part, anything but digits
    beyond the last decimal of the scale, no digit at all, or a scaled value that does not fit although the
    integer part alone does. -/
def GetsThrough (k : Nat) (text : List Char) : Prop :=
  ∃ negative second digits junk frac, LenientText k text negative second digits junk frac ∧
    (second = true ∨ junk ≠ [] ∨ (∃ c ∈ frac.drop k, c.isDigit = false) ∨ (digits = [] ∧ frac = []) ∨
      ¬ InInt64 (truncate (signedValue negative digits frac * 10 ^ k)))

theorem IsSignedDecimal.parts {text int frac : List Char} {negative : Bool}
    (decimal : IsSignedDecimal text negative int frac) :
    (text.head? == some '-') = negative ∧ intPart text = int ∧ fracPart text = frac := by
  obtain ⟨body, rfl, hdecimal⟩ := decimal
  have hsign : ((withSign negative body).head? == some '-') = negative := by
    cases negative with
    | false => exact hdecimal.head?_ne_minus
    | true => rfl
  have hbody : unsignedText (withSign negative body) = body := by
    rw [unsignedText, hsign]
    cases negative <;> rfl
  refine ⟨hsign, ?_, ?_⟩
  · rw [intPart, hbody, hdecimal.takeWhile_eq]
  · rw [fracPart, hbody, hdecimal.dropWhile_eq]

/-- A text of the grammar has the shape of those that get through, with nothing amiss. -/
theorem IsSignedDecimal.lenient {k : Nat} {text int frac : List Char} {negative : Bool} (scaled : 1 ≤ k)
    (decimal : IsSignedDecimal text negative int frac)
    (range : InInt64 (truncate (signedValue negative int frac * 10 ^ k))) :
    LenientText k text negative false int [] frac := by
  obtain ⟨body, rfl, hdecimal⟩ := decimal
  have hint : InInt64 (signedInt false int) := by
    rw [truncate_signedValue negative int hdecimal.frac_digits] at range
    have hpow : 10 ^ 1 ≤ 10 ^ k := Nat.pow_le_pow_right (by decide) scaled
    have hmul : Nat.ofDigitChars 10 int 0 * 10 ≤ Nat.ofDigitChars 10 int 0 * 10 ^ k :=
      Nat.mul_le_mul_left _ hpow
    have hbound : (Nat.ofDigitChars 10 int 0 : Int) * 10 ≤ 2 ^ 63 := by
      obtain ⟨hlow, hhigh⟩ := range
      cases negative with
      | false =>
          rw [if_neg Bool.false_ne_true] at hhigh
          omega
      | true =>
          rw [if_pos rfl] at hlow
          omega
    rw [signedInt, if_neg Bool.false_ne_true]
    constructor <;> omega
  refine ⟨?_, ?_, hdecimal.int_digits, by simp, by simp, by simp, by simp, hint,
    fun c hc => hdecimal.frac_digits c (List.mem_of_mem_take hc)⟩
  · rcases hdecimal.shape with hshape | ⟨hshape, hnone⟩
    · exact Or.inl (by rw [hshape, List.append_nil]; rfl)
    · exact Or.inr ⟨by rw [hshape, List.append_nil]; rfl, hnone⟩
  · cases negative with
    | false => exact hdecimal.ne_nil
    | true => exact List.cons_ne_nil _ _

/-- A text of the shape with nothing amiss is in the grammar. -/
theorem LenientText.isSignedDecimal {k : Nat} {text digits frac : List Char} {negative : Bool}
    (lenient : LenientText k text negative false digits [] frac)
    (rest : ∀ c ∈ frac.drop k, c.isDigit = true) (some_digit : digits ≠ [] ∨ frac ≠ []) :
    IsSignedDecimal text negative digits frac := by
  have hfrac : ∀ c ∈ frac, c.isDigit = true := by
    intro c hc
    rw [← List.take_append_drop k frac] at hc
    exact (List.mem_append.mp hc).elim (lenient.decimals c) (rest c)
  have hshape := lenient.shape
  rw [withSign_false, List.append_nil] at hshape
  rcases hshape with hshape | ⟨hshape, hnone⟩
  · exact ⟨_, hshape, ⟨Or.inl rfl, lenient.digits_digit, hfrac, some_digit⟩⟩
  · exact ⟨_, hshape, ⟨Or.inr ⟨rfl, hnone⟩, lenient.digits_digit, hfrac, some_digit⟩⟩

/-- A malformed text that gets through is not in the grammar. -/
theorem GetsThrough.not_inGrammar {k : Nat} {text : List Char} (slip : GetsThrough k text) :
    ¬ InGrammar k text := by
  obtain ⟨negative, second, digits, junk, frac, lenient, hslip⟩ := slip
  rintro ⟨negative', int, frac', decimal, hrange⟩
  obtain ⟨hsign, hint, hfrac⟩ := decimal.parts
  obtain ⟨body, -, hdecimal⟩ := decimal
  -- both readings of the text have the same parts
  obtain rfl : negative = negative' := lenient.sign_eq.symm.trans hsign
  obtain rfl : withSign second (digits ++ junk) = int := lenient.intPart_eq.symm.trans hint
  obtain rfl : frac = frac' := lenient.fracPart_eq.symm.trans hfrac
  have hsecond : second = false := by
    cases second with
    | false => rfl
    | true => exact absurd (hdecimal.int_digits '-' (List.mem_cons_self ..)) (by decide)
  have hjunk : junk = [] := by
    cases junk with
    | nil => rfl
    | cons c junk =>
        have hdigit := hdecimal.int_digits c (by rw [hsecond]; simp)
        rw [lenient.junk_head c rfl] at hdigit
        cases hdigit
  subst hsecond hjunk
  rw [withSign_false, List.append_nil] at hdecimal hrange
  rcases hslip with hslip | hslip | ⟨c, hc, hdigit⟩ | ⟨hnil, hnone⟩ | hslip
  · cases hslip
  · exact hslip rfl
  · rw [hdecimal.frac_digits c (List.mem_of_mem_drop hc)] at hdigit
    cases hdigit
  · exact hdecimal.some_digit.elim (fun h => h hnil) fun h => h hnone
  · exact hslip hrange

/-- The parser keeps to its grammar exactly on the texts that are not of one of those kinds. -/
theorem acceptsGrammar_iff {k : Nat} (scaled : 1 ≤ k) (text : List Char) :
    ((∃ v, parseDecimalToScaled text (10 ^ k) = .ok v) ↔ InGrammar k text) ↔ ¬ GetsThrough k text := by
  constructor
  · intro hgrammar slip
    have haccepted : ∃ v, parseDecimalToScaled text (10 ^ k) = .ok v := by
      obtain ⟨negative, second, digits, junk, frac, lenient, -⟩ := slip
      exact (parseDecimalToScaled_ok_iff_lenient text k).mpr ⟨_, _, _, _, _, lenient⟩
    exact slip.not_inGrammar (hgrammar.mp haccepted)
  · intro noSlip
    rw [parseDecimalToScaled_ok_iff_lenient]
    constructor
    · rintro ⟨negative, second, digits, junk, frac, lenient⟩
      -- every way of being malformed is excluded
      have hgood : ¬ (second = true ∨ junk ≠ [] ∨ (∃ c ∈ frac.drop k, c.isDigit = false) ∨
          (digits = [] ∧ frac = []) ∨ ¬ InInt64 (truncate (signedValue negative digits frac * 10 ^ k))) :=
        fun hslip => noSlip ⟨_, _, _, _, _, lenient, hslip⟩
      push Not at hgood
      obtain ⟨hsecond, rfl, hrest, hdigit, hrange⟩ := hgood
      obtain rfl : second = false := by simpa using hsecond
      refine ⟨negative, digits, frac, lenient.isSignedDecimal ?_ ?_, hrange⟩
      · exact fun c hc => by simpa using hrest c hc
      · by_cases hnil : digits = []
        · exact Or.inr (hdigit hnil)
        · exact Or.inl hnil
    · rintro ⟨negative, int, frac, decimal, hrange⟩
      exact ⟨_, _, _, _, _, decimal.lenient scaled hrange⟩

/-- For prices and for quantities: the parser returns a value exactly on the texts of its grammar, if and only
    if the text is none of the malformed ones that get through. -/
theorem keepsToGrammar_iff (text : List Char) :
    (((∃ v, parseDecimalToScaled text 100 = .ok v) ↔ InGrammar 2 text) ↔ ¬ GetsThrough 2 text) ∧
    (((∃ v, parseDecimalToScaled text 1000 = .ok v) ↔ InGrammar 3 text) ↔ ¬ GetsThrough 3 text) := by
  have hprice := acceptsGrammar_iff (by decide : 1 ≤ 2) text
  have hquantity := acceptsGrammar_iff (by decide : 1 ≤ 3) text
  norm_num at hprice hquantity
  exact ⟨hprice, hquantity⟩

theorem getsThrough_exponent : GetsThrough 2 "1e+20".toList :=
  ⟨false, false, ['1'], ['e', '+', '2', '0'], [],
    ⟨by decide, by decide, List.all_eq_true.mp rfl, by simp, by simp, by simp, by simp, by decide, by simp⟩,
    Or.inr (Or.inl (by decide))⟩

theorem getsThrough_second_sign : GetsThrough 2 "--5".toList :=
  ⟨true, true, ['5'], [], [],
    ⟨by decide, by decide, List.all_eq_true.mp rfl, by simp, by simp, by simp, by simp, by decide, by simp⟩,
    Or.inl rfl⟩

theorem getsThrough_no_digit : GetsThrough 2 "-.".toList :=
  ⟨true, false, [], [], [],
    ⟨by decide, by decide, by simp, by simp, by simp, by simp, by simp, by decide, by simp⟩,
    Or.inr (Or.inr (Or.inr (Or.inl ⟨rfl, rfl⟩)))⟩

theorem getsThrough_tail : GetsThrough 2 "1.25xyz".toList :=
  ⟨false, false, ['1'], [], ['2', '5', 'x', 'y', 'z'],
    ⟨by decide, by decide, List.all_eq_true.mp rfl, by simp, by simp, by simp, by simp, by decide,
      List.all_eq_true.mp rfl⟩,
    Or.inr (Or.inr (Or.inl ⟨'x', by decide, by decide⟩))⟩

/-- The smallest price whose ticks do not fit into 64 bits. -/
theorem getsThrough_overflow : GetsThrough 2 "92233720368547758.08".toList := by
  refine ⟨false, false, "92233720368547758".toList, [], ['0', '8'],
    ⟨by decide, by decide, List.all_eq_true.mp rfl, by simp, by simp, by simp, by simp, by decide,
      List.all_eq_true.mp rfl⟩, ?_⟩
  refine Or.inr (Or.inr (Or.inr (Or.inr ?_)))
  rw [truncate_signedValue false _ (List.all_eq_true.mp rfl)]
  decide

/-- Texts outside the grammar that the parser accepts as a price: an exponent, a second sign, no digit, a tail
    behind the decimals, and a value too large for 64 bits. -/
theorem grammar_not_kept :
    ¬ ((∃ v, parseDecimalToScaled "1e+20".toList 100 = .ok v) ↔ InGrammar 2 "1e+20".toList) ∧
    ¬ ((∃ v, parseDecimalToScaled "--5".toList 100 = .ok v) ↔ InGrammar 2 "--5".toList) ∧
    ¬ ((∃ v, parseDecimalToScaled "-.".toList 100 = .ok v) ↔ InGrammar 2 "-.".toList) ∧
    ¬ ((∃ v, parseDecimalToScaled "1.25xyz".toList 100 = .ok v) ↔ InGrammar 2 "1.25xyz".toList) ∧
    ¬ ((∃ v, parseDecimalToScaled "92233720368547758.08".toList 100 = .ok v) ↔
      InGrammar 2 "92233720368547758.08".toList) := by
  refine ⟨?_, ?_, ?_, ?_, ?_⟩
  · exact fun h => getsThrough_exponent.not_inGrammar (h.mp ⟨100, by decide⟩)
  · exact fun h => getsThrough_second_sign.not_inGrammar (h.mp ⟨500, by decide⟩)
  · exact fun h => getsThrough_no_digit.not_inGrammar (h.mp ⟨0, by decide⟩)
  · exact fun h => getsThrough_tail.not_inGrammar (h.mp ⟨125, by decide⟩)
  · exact fun h => getsThrough_overflow.not_inGrammar (h.mp ⟨-9223372036854775808, by decide⟩)

end ZidaBot
