/-
Module: ZidaBot.Proofs.SequenceIds
Purpose: The two readers of sequence ids.  Both should read a text exactly if it is a run of digits for a
  number of 64 bits, and they do agree on integers.  On texts they rest on `std::stoull`, which also reads
  around white space, a sign and whatever stands behind the digits: KuCoin's reader rules out part of that,
  Bitget's none of it.
Trusted boundary: none
Main exports: IntegerText, stoull_ok_iff, sequenceId, PaddedId, readers_exact_iff
-/
import ZidaBot.Feed.Adapters
import ZidaBot.Library.Spans

namespace ZidaBot

open Spans

/-!
### What the number readers see

A text has a unique decomposition into white space, sign, digits and a rest, and `std::stoull` reads exactly
the first three.
-/

/-- A text as the number readers take it apart. -/
structure IntegerText (text space sign digits junk : List Char) : Prop where
  shape : text = space ++ (sign ++ (digits ++ junk))
  space_space : ∀ c ∈ space, isSpace c = true
  sign_sign : sign = [] ∨ sign = ['-'] ∨ sign = ['+']
  digits_digit : ∀ c ∈ digits, c.isDigit = true
  junk_stops : Stops Char.isDigit junk

theorem isSpace_eq_false_of_isDigit {c : Char} (digit : c.isDigit = true) : isSpace c = false := by
  have hne : ∀ d : Char, d.isDigit = false → (c == d) = false := by
    intro d hd
    rw [beq_eq_false_iff_ne]
    rintro rfl
    rw [hd] at digit
    cases digit
  simp only [isSpace, hne ' ' (by decide), hne '\t' (by decide), hne '\n' (by decide), hne '\x0b' (by decide),
    hne '\x0c' (by decide), hne '\r' (by decide), Bool.or_self]

/-- The two signs. -/
def isSign (c : Char) : Bool := c == '-' || c == '+'

theorem isSign_eq_false_of_isDigit {c : Char} (digit : c.isDigit = true) : isSign c = false := by
  rw [isSign, Bool.or_eq_false_iff, beq_eq_false_iff_ne, beq_eq_false_iff_ne]
  constructor <;> rintro rfl <;> exact absurd digit (by decide)

/-- The scan behind the white space, by the sign it finds. -/
theorem scanInteger_of_rest {text sign body : List Char} (rest : text.dropWhile isSpace = sign ++ body)
    (signs : sign = ['-'] ∨ sign = ['+'] ∨ (sign = [] ∧ Stops isSign body)) :
    scanInteger text =
      { negative := sign == ['-']
        digits := body.takeWhile Char.isDigit
        length := (text.takeWhile isSpace).length + sign.length + (body.takeWhile Char.isDigit).length } := by
  rcases signs with rfl | rfl | ⟨rfl, hstops⟩
  · rw [scanInteger, rest]
    rfl
  · rw [scanInteger, rest]
    rfl
  · rw [scanInteger, rest]
    cases body with
    | nil => rfl
    | cons c body =>
        have hsign := stops_cons.mp hstops
        rw [isSign, Bool.or_eq_false_iff] at hsign
        simp [hsign.1, hsign.2]

namespace IntegerText

variable {text space sign digits junk : List Char}

/-- With a digit to read, the scan finds the parts of the text. -/
theorem scanInteger_eq (parts : IntegerText text space sign digits junk) (nonempty : digits ≠ []) :
    scanInteger text =
      { negative := sign == ['-'], digits := digits, length := space.length + sign.length + digits.length } := by
  obtain ⟨d, ds, rfl⟩ := List.exists_cons_of_ne_nil nonempty
  have hd : d.isDigit = true := parts.digits_digit d (List.mem_cons_self ..)
  -- neither the sign nor the digits start with white space
  have hstops : Stops isSpace (sign ++ (d :: ds ++ junk)) := by
    rcases parts.sign_sign with rfl | rfl | rfl
    · exact stops_cons.mpr (isSpace_eq_false_of_isDigit hd)
    · exact stops_cons.mpr (by decide)
    · exact stops_cons.mpr (by decide)
  have htake : text.takeWhile isSpace = space := by rw [parts.shape, takeWhile_span parts.space_space hstops]
  have hdrop : text.dropWhile isSpace = sign ++ (d :: ds ++ junk) := by
    rw [parts.shape, dropWhile_span parts.space_space hstops]
  have hdigits : (d :: ds ++ junk).takeWhile Char.isDigit = d :: ds :=
    takeWhile_span parts.digits_digit parts.junk_stops
  have hsigns : sign = ['-'] ∨ sign = ['+'] ∨ (sign = [] ∧ Stops isSign (d :: ds ++ junk)) := by
    rcases parts.sign_sign with rfl | rfl | rfl
    · exact Or.inr (Or.inr ⟨rfl, stops_cons.mpr (isSign_eq_false_of_isDigit hd)⟩)
    · exact Or.inl rfl
    · exact Or.inr (Or.inl rfl)
  rw [scanInteger_of_rest hdrop hsigns, htake, hdigits]

end IntegerText

/-- Every text has such parts, and the digits are those of the scan. -/
theorem exists_integerText (text : List Char) :
    ∃ space sign junk, IntegerText text space sign (scanInteger text).digits junk := by
  have hspace : ∀ c ∈ text.takeWhile isSpace, isSpace c = true := fun c hc => List.mem_takeWhile_imp hc
  obtain ⟨sign, body, hrest, hsigns⟩ : ∃ sign body, text.dropWhile isSpace = sign ++ body ∧
      (sign = ['-'] ∨ sign = ['+'] ∨ (sign = [] ∧ Stops isSign body)) := by
    cases hrest : text.dropWhile isSpace with
    | nil => exact ⟨[], [], rfl, Or.inr (Or.inr ⟨rfl, stops_nil⟩)⟩
    | cons c body =>
        by_cases hminus : c = '-'
        · exact ⟨['-'], body, by rw [hminus]; rfl, Or.inl rfl⟩
        · by_cases hplus : c = '+'
          · exact ⟨['+'], body, by rw [hplus]; rfl, Or.inr (Or.inl rfl)⟩
          · exact ⟨[], c :: body, rfl, Or.inr (Or.inr ⟨rfl, stops_cons.mpr (by simp [isSign, hminus, hplus])⟩)⟩
  rw [scanInteger_of_rest hrest hsigns]
  refine ⟨text.takeWhile isSpace, sign, body.dropWhile Char.isDigit, ?_, hspace, ?_, ?_, stops_dropWhile _ _⟩
  · rw [List.takeWhile_append_dropWhile, ← hrest, List.takeWhile_append_dropWhile]
  · rcases hsigns with rfl | rfl | ⟨rfl, -⟩ <;> simp
  · exact fun c hc => List.mem_takeWhile_imp hc

/-- What `std::stoull` accepts, and what it returns. -/
theorem stoull_ok_iff {text : List Char} {v : UInt64} {pos : Nat} :
    stoull text = .ok (v, pos) ↔
      ∃ space sign digits junk, IntegerText text space sign digits junk ∧ digits ≠ [] ∧
        Nat.ofDigitChars 10 digits 0 < 2 ^ 64 ∧
        v = (if sign = ['-'] then -UInt64.ofNat (Nat.ofDigitChars 10 digits 0)
          else UInt64.ofNat (Nat.ofDigitChars 10 digits 0)) ∧
        pos = space.length + sign.length + digits.length := by
  constructor
  · intro hread
    obtain ⟨space, sign, junk, parts⟩ := exists_integerText text
    have hdigits : (scanInteger text).digits ≠ [] := by
      intro hnil
      rw [stoull, if_pos hnil] at hread
      cases hread
    have hrange : Nat.ofDigitChars 10 (scanInteger text).digits 0 < 2 ^ 64 := by
      by_contra hlarge
      rw [stoull, if_neg hdigits, if_pos (not_lt.mp hlarge)] at hread
      cases hread
    refine ⟨space, sign, _, junk, parts, hdigits, hrange, ?_⟩
    rw [stoull, if_neg hdigits, if_neg (not_le.mpr hrange)] at hread
    have hscan := parts.scanInteger_eq hdigits
    have hnegative := congrArg IntegerScan.negative hscan
    have hlength := congrArg IntegerScan.length hscan
    cases hread
    refine ⟨?_, hlength⟩
    rw [hnegative]
    simp only [beq_iff_eq]
  · rintro ⟨space, sign, digits, junk, parts, hdigits, hrange, rfl, rfl⟩
    rw [stoull, parts.scanInteger_eq hdigits]
    simp only [if_neg hdigits, if_neg (not_le.mpr hrange), beq_iff_eq]

namespace Feed

/-!
### The exact reader

Both readers agree with it on everything but padded texts. That they differ on every padded text follows
from Bitget's, which takes them all.
-/

/-- The reader of sequence ids that the two should be: a text of digits only, for a number of 64 bits, and an
    integer that is not negative. -/
def sequenceId : Json → Option UInt64
  | .string s =>
      if s.toList ≠ [] ∧ s.toList.all Char.isDigit = true ∧ Nat.ofDigitChars 10 s.toList 0 < 2 ^ 64 then
        some (UInt64.ofNat (Nat.ofDigitChars 10 s.toList 0))
      else none
  | .int n => if 0 ≤ n then some (UInt64.ofInt n) else none
  | _ => none

/-- A text that `std::stoull` reads although it is not digits only: white space or a sign in front of them, or
    anything behind them. -/
def PaddedId (j : Json) : Prop :=
  ∃ s space sign digits junk, j = .string s ∧ IntegerText s.toList space sign digits junk ∧ digits ≠ [] ∧
    Nat.ofDigitChars 10 digits 0 < 2 ^ 64 ∧ (space ≠ [] ∨ sign ≠ [] ∨ junk ≠ [])

/-- A text of digits is read whole. -/
theorem stoull_of_digits {text : List Char} (digits : ∀ c ∈ text, c.isDigit = true) (nonempty : text ≠ [])
    (range : Nat.ofDigitChars 10 text 0 < 2 ^ 64) :
    stoull text = .ok (UInt64.ofNat (Nat.ofDigitChars 10 text 0), text.length) :=
  stoull_ok_iff.mpr ⟨[], [], text, [], ⟨by simp, by simp, Or.inl rfl, digits, stops_nil⟩, nonempty, range,
    by simp, by simp⟩

/-- What stands around the digits of a padded text is no digit. -/
theorem not_all_digits_of_padded {text space sign digits junk : List Char}
    (parts : IntegerText text space sign digits junk) (padded : space ≠ [] ∨ sign ≠ [] ∨ junk ≠ []) :
    ¬ ∀ c ∈ text, c.isDigit = true := by
  intro hall
  rw [parts.shape] at hall
  rcases padded with hspace | hsign | hjunk
  · obtain ⟨c, space, rfl⟩ := List.exists_cons_of_ne_nil hspace
    have hspace := parts.space_space c (List.mem_cons_self ..)
    rw [isSpace_eq_false_of_isDigit (hall c (by simp))] at hspace
    cases hspace
  · rcases parts.sign_sign with rfl | rfl | rfl
    · exact hsign rfl
    · exact absurd (hall '-' (by simp)) (by decide)
    · exact absurd (hall '+' (by simp)) (by decide)
  · obtain ⟨c, junk, rfl⟩ := List.exists_cons_of_ne_nil hjunk
    have hjunk := stops_cons.mp parts.junk_stops
    rw [hall c (by simp)] at hjunk
    cases hjunk

/-- Both readers are exact on a text that is not padded. -/
theorem readers_exact_of_not_padded {s : String} (notPadded : ¬ PaddedId (.string s)) :
    asU64 (.string s) = sequenceId (.string s) ∧ jsonToU64Flexible (.string s) = sequenceId (.string s) := by
  by_cases hexact : s.toList ≠ [] ∧ s.toList.all Char.isDigit = true ∧ Nat.ofDigitChars 10 s.toList 0 < 2 ^ 64
  · obtain ⟨hnonempty, hdigits, hrange⟩ := hexact
    have hread := stoull_of_digits (List.all_eq_true.mp hdigits) hnonempty hrange
    have hminus : s.toList.head? ≠ some '-' := by
      intro hminus
      exact absurd (List.all_eq_true.mp hdigits '-' (List.mem_of_mem_head? hminus)) (by decide)
    have hid : sequenceId (.string s) = some (UInt64.ofNat (Nat.ofDigitChars 10 s.toList 0)) := by
      rw [sequenceId, if_pos ⟨hnonempty, hdigits, hrange⟩]
    constructor
    · simp only [hid, asU64, hread, hnonempty, hminus, or_self, if_false, ne_eq, not_true_eq_false]
    · simp only [hid, jsonToU64Flexible, hread]
  · -- whatever is read would be a text of digits, or padded
    have hunread : ∀ r, stoull s.toList ≠ .ok r := by
      rintro ⟨v, pos⟩ hread
      obtain ⟨space, sign, digits, junk, parts, hdigits, hrange, -, -⟩ := stoull_ok_iff.mp hread
      have hplain : ¬ (space ≠ [] ∨ sign ≠ [] ∨ junk ≠ []) := fun hpadded =>
        notPadded ⟨s, space, sign, digits, junk, rfl, parts, hdigits, hrange, hpadded⟩
      push Not at hplain
      obtain ⟨rfl, rfl, rfl⟩ := hplain
      have hshape : s.toList = digits := by simpa using parts.shape
      refine hexact ⟨?_, ?_, ?_⟩
      · rw [hshape]
        exact hdigits
      · rw [hshape]
        exact List.all_eq_true.mpr parts.digits_digit
      · rw [hshape]
        exact hrange
    have herror : ∃ e, stoull s.toList = .error e := by
      cases hread : stoull s.toList with
      | error e => exact ⟨e, rfl⟩
      | ok r => exact absurd hread (hunread r)
    obtain ⟨e, herror⟩ := herror
    constructor
    · simp only [asU64, sequenceId, if_neg hexact, herror, ite_self]
    · simp only [jsonToU64Flexible, sequenceId, if_neg hexact, herror]

/-- Bitget's reader takes every padded text for a number. -/
theorem jsonToU64Flexible_of_padded {j : Json} (padded : PaddedId j) :
    jsonToU64Flexible j ≠ sequenceId j := by
  obtain ⟨s, space, sign, digits, junk, rfl, parts, hdigits, hrange, hpadded⟩ := padded
  have hread := stoull_ok_iff.mpr ⟨space, sign, digits, junk, parts, hdigits, hrange, rfl, rfl⟩
  have hexact : ¬ (s.toList ≠ [] ∧ s.toList.all Char.isDigit = true ∧
      Nat.ofDigitChars 10 s.toList 0 < 2 ^ 64) := fun hexact =>
    not_all_digits_of_padded parts hpadded (List.all_eq_true.mp hexact.2.1)
  simp only [jsonToU64Flexible, hread, sequenceId, if_neg hexact]
  exact Option.some_ne_none _

/-- Both readers are the exact reader, and so agree with each other, on every JSON value except the texts that
    have white space, a sign or trailing characters around a number of 64 bits. -/
theorem readers_exact_iff (j : Json) :
    (asU64 j = sequenceId j ∧ jsonToU64Flexible j = sequenceId j) ↔ ¬ PaddedId j := by
  constructor
  · rintro ⟨-, hflexible⟩ padded
    exact jsonToU64Flexible_of_padded padded hflexible
  · intro notPadded
    cases j with
    | string s => exact readers_exact_of_not_padded notPadded
    | null => exact ⟨rfl, rfl⟩
    | bool b => exact ⟨rfl, rfl⟩
    | int n => exact ⟨rfl, rfl⟩
    | float q => exact ⟨rfl, rfl⟩
    | array items => exact ⟨rfl, rfl⟩
    | object fields => exact ⟨rfl, rfl⟩

/-- A negative text wraps to the largest id, a partly numeric one is cut, and a padded one is read by both. -/
theorem readers_not_exact :
    asU64 (.string "-1") = none ∧ jsonToU64Flexible (.string "-1") = some 18446744073709551615 ∧
    asU64 (.string "12abc") = none ∧ jsonToU64Flexible (.string "12abc") = some 12 ∧
    asU64 (.string " -1") = some 18446744073709551615 ∧ sequenceId (.string " -1") = none ∧
    ¬ (asU64 (.string "-1") = sequenceId (.string "-1") ∧
      jsonToU64Flexible (.string "-1") = sequenceId (.string "-1")) := by
  decide

end Feed

end ZidaBot
