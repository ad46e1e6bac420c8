/-
Module: ZidaBot.Proofs.DoubleTexts
Purpose: The texts that are decimal numbers from end to end, with a grammar of their own, against what
  `std::stod` finds at the front of a text.  The scanner takes a text whole and as a decimal number exactly
  if the grammar derives it, and then with the same value.
Trusted boundary: none
Main exports: SignText, MantissaText, ExponentText, DecimalText, scanDecimal_complete, scanDecimal_sound,
  decimalText_iff, stod_eq
-/
import ZidaBot.Common.NumberTexts
import ZidaBot.Library.Spans

namespace ZidaBot

open Spans Decimals

/-!
### The grammar
-/

/-- All characters are digits. -/
def AllDigits (text : List Char) : Prop := ∀ c ∈ text, c.isDigit = true

/-- An optional sign, and whether it is a minus. -/
inductive SignText : List Char → Bool → Prop where
  | absent : SignText [] false
  | plus : SignText ['+'] false
  | minus : SignText ['-'] true

/-- Digits with at most one point among them, and at least one digit. -/
inductive MantissaText : List Char → ℚ → Prop where
  | whole {int : List Char} (digits : AllDigits int) (nonempty : int ≠ []) :
      MantissaText int (decimalValue int [])
  | point {int frac : List Char} (digits : AllDigits int) (digits' : AllDigits frac)
      (nonempty : ¬ (int = [] ∧ frac = [])) : MantissaText (int ++ '.' :: frac) (decimalValue int frac)

/-- An optional power of ten. -/
inductive ExponentText : List Char → Int → Prop where
  | absent : ExponentText [] 0
  | present {letter : Char} {sign digits : List Char} {negative : Bool} (isE : letter = 'e' ∨ letter = 'E')
      (signed : SignText sign negative) (all : AllDigits digits) (nonempty : digits ≠ []) :
      ExponentText (letter :: (sign ++ digits))
        (if negative then -(Nat.ofDigitChars 10 digits 0 : Int) else Nat.ofDigitChars 10 digits 0)

/-- The text is a decimal number from end to end: its sign and its magnitude. -/
def DecimalText (text : List Char) (negative : Bool) (magnitude : ℚ) : Prop :=
  ∃ sign mantissa m exponent e, text = sign ++ (mantissa ++ exponent) ∧ SignText sign negative ∧
    MantissaText mantissa m ∧ ExponentText exponent e ∧ magnitude = m * 10 ^ e

/-!
### Parts of a text

Each part of a numeral is found by a scanner that takes as much as it can. What follows a part never
continues it, so the scanners divide a text as the grammar does.
-/

theorem stops_of_not_digit {c : Char} {rest : List Char} (other : c.isDigit = false) :
    Stops Char.isDigit (c :: rest) := stops_cons.mpr other

theorem ne_of_isDigit {c d : Char} (digit : c.isDigit = true) (other : d.isDigit = false) : c ≠ d := by
  rintro rfl
  rw [digit] at other
  cases other

/-- A text that starts without a sign. -/
theorem scanSign_of_head {text : List Char} (plus : text.head? ≠ some '+') (minus : text.head? ≠ some '-') :
    scanSign text = (false, text) := by
  unfold scanSign
  split
  · exact absurd rfl minus
  · exact absurd rfl plus
  · rfl

theorem scanSign_append {sign body : List Char} {negative : Bool} (signed : SignText sign negative)
    (plus : body.head? ≠ some '+') (minus : body.head? ≠ some '-') :
    scanSign (sign ++ body) = (negative, body) := by
  cases signed with
  | absent => exact scanSign_of_head plus minus
  | plus => rfl
  | minus => rfl

theorem signText_of_scanSign {text body : List Char} {negative : Bool}
    (scanned : scanSign text = (negative, body)) : ∃ sign, text = sign ++ body ∧ SignText sign negative := by
  unfold scanSign at scanned
  split at scanned
  · cases scanned
    exact ⟨['-'], rfl, .minus⟩
  · cases scanned
    exact ⟨['+'], rfl, .plus⟩
  · cases scanned
    exact ⟨[], rfl, .absent⟩

section Mantissa

variable {digit : Char → Bool} {int frac rest : List Char}

theorem scanMantissa_whole (digits : ∀ c ∈ int, digit c = true) (stops : Stops digit rest)
    (point : rest.head? ≠ some '.') : scanMantissa digit (int ++ rest) = (int, [], rest) := by
  rw [scanMantissa, dropWhile_span digits stops, takeWhile_span digits stops]
  split
  · exact absurd rfl point
  · rfl

theorem scanMantissa_point (other : digit '.' = false) (digits : ∀ c ∈ int, digit c = true)
    (digits' : ∀ c ∈ frac, digit c = true) (stops : Stops digit rest) :
    scanMantissa digit (int ++ '.' :: (frac ++ rest)) = (int, frac, rest) := by
  have hpoint : Stops digit ('.' :: (frac ++ rest)) := stops_cons.mpr other
  rw [scanMantissa, dropWhile_span digits hpoint, takeWhile_span digits hpoint]
  simp only [dropWhile_span digits' stops, takeWhile_span digits' stops]

/-- What the two runs and the rest make up. -/
theorem scanMantissa_inv {text : List Char} (scanned : scanMantissa digit text = (int, frac, rest)) :
    (∀ c ∈ int, digit c = true) ∧ (∀ c ∈ frac, digit c = true) ∧
      ((frac = [] ∧ text = int ++ rest) ∨ text = int ++ '.' :: (frac ++ rest)) := by
  have hsplit := List.takeWhile_append_dropWhile (p := digit) (l := text)
  rw [scanMantissa] at scanned
  split at scanned
  · rename_i tail htail
    cases scanned
    refine ⟨fun c hc => List.mem_takeWhile_imp hc, fun c hc => List.mem_takeWhile_imp hc, Or.inr ?_⟩
    rw [List.takeWhile_append_dropWhile, ← htail, hsplit]
  · cases scanned
    exact ⟨fun c hc => List.mem_takeWhile_imp hc, fun c hc => absurd hc List.not_mem_nil,
      Or.inl ⟨rfl, hsplit.symm⟩⟩

end Mantissa

theorem head?_ne_of_allDigits {digits : List Char} (all : AllDigits digits) {c : Char}
    (other : c.isDigit = false) : digits.head? ≠ some c := by
  intro hhead
  exact ne_of_isDigit (all c (List.mem_of_head? hhead)) other rfl

theorem toLower_eq_e {c : Char} : c.toLower = 'e' ↔ c = 'e' ∨ c = 'E' := by
  constructor
  · intro hlower
    by_cases hupper : c.val ≥ 'A'.val ∧ c.val ≤ 'Z'.val
    · obtain ⟨valid, hshifted⟩ : ∃ valid, c.toLower = ⟨c.val + ('a'.val - 'A'.val), valid⟩ :=
        ⟨_, dif_pos hupper⟩
      have hval := congrArg Char.val (hshifted.symm.trans hlower)
      refine Or.inr (Char.ext ?_)
      simp only at hval
      grind
    · have hsame : c.toLower = c := dif_neg hupper
      exact Or.inl (hsame ▸ hlower)
  · rintro (rfl | rfl) <;> rfl

theorem scanExponent_complete {text : List Char} {e : Int} (derived : ExponentText text e) :
    scanExponent 'e' text = (e, []) := by
  cases derived with
  | absent => rfl
  | @present letter sign digits negative isE signed all nonempty =>
      have hsign : scanSign (sign ++ digits) = (negative, digits) :=
        scanSign_append signed (head?_ne_of_allDigits all rfl) (head?_ne_of_allDigits all rfl)
      have htake : digits.takeWhile Char.isDigit = digits := List.takeWhile_eq_self_iff.mpr all
      have hdrop : digits.dropWhile Char.isDigit = [] := List.dropWhile_eq_nil_iff.mpr all
      rw [scanExponent, hsign]
      dsimp only
      rw [htake, hdrop, if_pos ⟨toLower_eq_e.mpr isE, nonempty⟩]

theorem scanExponent_sound {text : List Char} {e : Int} (scanned : scanExponent 'e' text = (e, [])) :
    ExponentText text e := by
  cases text with
  | nil =>
      cases scanned
      exact .absent
  | cons letter rest =>
      rcases hsign : scanSign rest with ⟨negative, body⟩
      rw [scanExponent, hsign] at scanned
      dsimp only at scanned
      split at scanned
      · rename_i hpresent
        obtain ⟨sign, rfl, hsigned⟩ := signText_of_scanSign hsign
        obtain ⟨rfl, hdrop⟩ := Prod.mk.inj scanned
        have hall : AllDigits body := List.dropWhile_eq_nil_iff.mp hdrop
        rw [List.takeWhile_eq_self_iff.mpr hall] at hpresent ⊢
        exact .present (toLower_eq_e.mp hpresent.1) hsigned hall hpresent.2
      · cases congrArg Prod.snd scanned

/-- What stands behind a mantissa that is followed by an exponent or by nothing. -/
theorem ExponentText.stops {text : List Char} {e : Int} (derived : ExponentText text e) :
    Stops Char.isDigit text ∧ text.head? ≠ some '.' := by
  cases derived with
  | absent => exact ⟨stops_nil, by simp⟩
  | present isE signed all nonempty =>
      rcases isE with rfl | rfl
      · exact ⟨stops_of_not_digit rfl, by simp⟩
      · exact ⟨stops_of_not_digit rfl, by simp⟩

/-!
### Decimal numbers at the front of a text

A decimal numeral is taken for nothing else: it starts with no word, and there is no `x` in it.
-/

theorem scanDecimal_complete {mantissa exponent : List Char} {m : ℚ} {e : Int}
    (derived : MantissaText mantissa m) (power : ExponentText exponent e) :
    scanDecimal (mantissa ++ exponent) = some (m * 10 ^ e, []) := by
  obtain ⟨hstops, hpoint⟩ := power.stops
  have hexponent := scanExponent_complete power
  cases derived with
  | whole digits nonempty =>
      rw [scanDecimal, scanMantissa_whole digits hstops hpoint]
      simp only [hexponent, nonempty, false_and, if_false]
  | @point int frac digits digits' nonempty =>
      rw [scanDecimal, List.append_assoc, List.cons_append, scanMantissa_point rfl digits digits' hstops]
      simp only [hexponent, if_neg nonempty]

theorem scanDecimal_sound {text : List Char} {magnitude : ℚ} (scanned : scanDecimal text = some (magnitude, [])) :
    ∃ mantissa m exponent e, text = mantissa ++ exponent ∧ MantissaText mantissa m ∧
      ExponentText exponent e ∧ magnitude = m * 10 ^ e := by
  rcases hmantissa : scanMantissa Char.isDigit text with ⟨int, frac, rest⟩
  rcases hexponent : scanExponent 'e' rest with ⟨e, left⟩
  rw [scanDecimal, hmantissa] at scanned
  dsimp only at scanned
  rw [hexponent] at scanned
  split at scanned
  · cases scanned
  · rename_i hnonempty
    cases scanned
    have hpower := scanExponent_sound hexponent
    obtain ⟨hint, hfrac, htext⟩ := scanMantissa_inv hmantissa
    rcases htext with ⟨rfl, rfl⟩ | rfl
    · have hne : int ≠ [] := fun h => hnonempty ⟨h, rfl⟩
      exact ⟨int, _, rest, e, rfl, .whole hint hne, hpower, rfl⟩
    · exact ⟨int ++ '.' :: frac, _, rest, e, by simp, .point hint hfrac hnonempty, hpower, rfl⟩

/-- A mantissa starts with a digit or the point. -/
theorem MantissaText.head {mantissa : List Char} {m : ℚ} (derived : MantissaText mantissa m) :
    ∃ c rest, mantissa = c :: rest ∧ (c.isDigit = true ∨ c = '.') := by
  cases derived with
  | whole digits nonempty =>
      obtain ⟨c, rest, rfl⟩ := List.exists_cons_of_ne_nil nonempty
      exact ⟨c, rest, rfl, Or.inl (digits c (List.mem_cons_self ..))⟩
  | @point int frac digits digits' nonempty =>
      cases int with
      | nil => exact ⟨'.', frac, rfl, Or.inr rfl⟩
      | cons c int => exact ⟨c, _, rfl, Or.inl (digits c (List.mem_cons_self ..))⟩

theorem toLower_of_isDigit {c : Char} (digit : c.isDigit = true) : c.toLower = c := by
  refine dif_neg ?_
  simp only [Char.isDigit, Bool.and_eq_true, decide_eq_true_eq] at digit
  grind

/-- A text that starts with a digit or the point starts with no word. -/
theorem not_startsWithWord {letter : Char} {word text : List Char} {c : Char}
    (head : c.isDigit = true ∨ c = '.') (other : letter.isDigit = false) (noPoint : letter ≠ '.') :
    startsWithWord (letter :: word) (c :: text) = false := by
  have hlower : c.toLower ≠ letter := by
    rcases head with hdigit | rfl
    · rw [toLower_of_isDigit hdigit]
      exact ne_of_isDigit hdigit other
    · exact fun h => noPoint h.symm
  simp [startsWithWord, hlower]

/-- The characters of a decimal number. -/
theorem mem_decimal {mantissa exponent : List Char} {m : ℚ} {e : Int} (derived : MantissaText mantissa m)
    (power : ExponentText exponent e) {c : Char} (mem : c ∈ mantissa ++ exponent) :
    c.isDigit = true ∨ c ∈ ['.', 'e', 'E', '+', '-'] := by
  rcases List.mem_append.mp mem with hmantissa | hexponent
  · cases derived with
    | whole digits nonempty => exact Or.inl (digits c hmantissa)
    | point digits digits' nonempty =>
        rcases List.mem_append.mp hmantissa with hint | hfrac
        · exact Or.inl (digits c hint)
        · rcases List.mem_cons.mp hfrac with rfl | hfrac
          · exact Or.inr (by simp)
          · exact Or.inl (digits' c hfrac)
  · cases power with
    | absent => exact absurd hexponent List.not_mem_nil
    | present isE signed all nonempty =>
        rcases List.mem_cons.mp hexponent with rfl | hexponent
        · rcases isE with rfl | rfl
          · exact Or.inr (by simp)
          · exact Or.inr (by simp)
        · rcases List.mem_append.mp hexponent with hsign | hdigits
          · cases signed with
            | absent => exact absurd hsign List.not_mem_nil
            | plus => exact Or.inr (by simp [List.mem_singleton.mp hsign])
            | minus => exact Or.inr (by simp [List.mem_singleton.mp hsign])
          · exact Or.inl (all c hdigits)

theorem not_x_of_mem {mantissa exponent : List Char} {m : ℚ} {e : Int} (derived : MantissaText mantissa m)
    (power : ExponentText exponent e) {c : Char} (mem : c ∈ mantissa ++ exponent) : c.toLower ≠ 'x' := by
  rcases mem_decimal derived power mem with hdigit | hother
  · rw [toLower_of_isDigit hdigit]
    exact ne_of_isDigit hdigit rfl
  · simp only [List.mem_cons, List.not_mem_nil, or_false] at hother
    rcases hother with rfl | rfl | rfl | rfl | rfl <;> decide

theorem scanHex_eq_none {mantissa exponent : List Char} {m : ℚ} {e : Int} (derived : MantissaText mantissa m)
    (power : ExponentText exponent e) : scanHex (mantissa ++ exponent) = none := by
  unfold scanHex
  split
  · rename_i x text htext
    have hx : x.toLower ≠ 'x' := not_x_of_mem derived power (htext ▸ by simp)
    simp [hx]
  · rfl

/-- A decimal number is taken whole. -/
theorem scanNumeral_complete {mantissa exponent : List Char} {m : ℚ} {e : Int}
    (derived : MantissaText mantissa m) (power : ExponentText exponent e) :
    scanNumeral (mantissa ++ exponent) = some (.decimal (m * 10 ^ e) []) := by
  obtain ⟨c, rest, hmantissa, hhead⟩ := derived.head
  have hinf : startsWithWord ['i', 'n', 'f'] (mantissa ++ exponent) = false :=
    hmantissa ▸ not_startsWithWord hhead rfl (by decide)
  have hnan : startsWithWord ['n', 'a', 'n'] (mantissa ++ exponent) = false :=
    hmantissa ▸ not_startsWithWord hhead rfl (by decide)
  simp [scanNumeral, hinf, hnan, scanHex_eq_none derived power, scanDecimal_complete derived power]

/-- Only a decimal number is taken whole as one. -/
theorem scanNumeral_sound {text : List Char} {magnitude : ℚ}
    (scanned : scanNumeral text = some (.decimal magnitude [])) : scanDecimal text = some (magnitude, []) := by
  rw [scanNumeral] at scanned
  split at scanned
  · cases scanned
  · split at scanned
    · cases scanned
    · split at scanned
      · cases scanned
      · obtain ⟨⟨value, rest⟩, hdecimal, hsame⟩ := Option.map_eq_some_iff.mp scanned
        cases hsame
        exact hdecimal

/-- The number at the front of a text, with its sign. -/
def signedNumeral (text : List Char) : Bool × Option Numeral :=
  let (negative, body) := scanSign text
  (negative, scanNumeral body)

/-- A text is a decimal number from end to end exactly if the scanner takes it whole and as one. -/
theorem decimalText_iff {text : List Char} {negative : Bool} {magnitude : ℚ} :
    DecimalText text negative magnitude ↔
      signedNumeral text = (negative, some (.decimal magnitude [])) := by
  constructor
  · rintro ⟨sign, mantissa, m, exponent, e, rfl, hsign, hmantissa, hexponent, rfl⟩
    obtain ⟨c, rest, hcons, hhead⟩ := hmantissa.head
    have hplus : (mantissa ++ exponent).head? ≠ some '+' := by
      rw [hcons]
      rcases hhead with hdigit | rfl
      · exact fun h => ne_of_isDigit hdigit rfl (Option.some.inj h)
      · simp
    have hminus : (mantissa ++ exponent).head? ≠ some '-' := by
      rw [hcons]
      rcases hhead with hdigit | rfl
      · exact fun h => ne_of_isDigit hdigit rfl (Option.some.inj h)
      · simp
    rw [signedNumeral, scanSign_append hsign hplus hminus]
    simp only [scanNumeral_complete hmantissa hexponent]
  · intro hscanned
    rcases hsign : scanSign text with ⟨sign, body⟩
    rw [signedNumeral, hsign] at hscanned
    obtain ⟨rfl, hnumeral⟩ := Prod.mk.inj hscanned
    obtain ⟨mantissa, m, exponent, e, rfl, hmantissa, hexponent, rfl⟩ :=
      scanDecimal_sound (scanNumeral_sound hnumeral)
    obtain ⟨signText, rfl, hsigned⟩ := signText_of_scanSign hsign
    exact ⟨signText, mantissa, m, exponent, e, rfl, hsigned, hmantissa, hexponent, rfl⟩

/-!
### Values
-/

theorem scanDecimal_nonneg {text rest : List Char} {magnitude : ℚ}
    (scanned : scanDecimal text = some (magnitude, rest)) : 0 ≤ magnitude := by
  rw [scanDecimal] at scanned
  dsimp only at scanned
  split at scanned
  · cases scanned
  · cases scanned
    exact mul_nonneg (decimalValue_nonneg _ _) (zpow_nonneg (by positivity) _)

theorem scanHex_nonneg {text : List Char} {magnitude : ℚ} (scanned : scanHex text = some magnitude) :
    0 ≤ magnitude := by
  unfold scanHex at scanned
  split at scanned
  · dsimp only at scanned
    split at scanned
    · cases scanned
    · cases scanned
      exact mul_nonneg (by positivity) (zpow_nonneg (by positivity) _)
  · cases scanned

/-- The magnitude of a number, if it is finite. -/
def Numeral.magnitude : Numeral → Option ℚ
  | .infinity => none
  | .nan => none
  | .hexadecimal value => some value
  | .decimal value _ => some value

theorem magnitude_nonneg {text : List Char} {numeral : Numeral} {magnitude : ℚ}
    (scanned : (signedNumeral text).2 = some numeral) (finite : numeral.magnitude = some magnitude) :
    0 ≤ magnitude := by
  simp only [signedNumeral, scanNumeral] at scanned
  split at scanned
  · cases scanned
    cases finite
  · split at scanned
    · cases scanned
      cases finite
    · split at scanned
      · rename_i value hhex
        cases scanned
        cases finite
        exact scanHex_nonneg hhex
      · obtain ⟨⟨value, rest⟩, hdecimal, rfl⟩ := Option.map_eq_some_iff.mp scanned
        cases finite
        exact scanDecimal_nonneg hdecimal

theorem DecimalText.magnitude_nonneg {text : List Char} {negative : Bool} {magnitude : ℚ}
    (derived : DecimalText text negative magnitude) : 0 ≤ magnitude :=
  ZidaBot.magnitude_nonneg (congrArg Prod.snd (decimalText_iff.mp derived)) rfl

/-- `std::stod` on a text that starts without white space. -/
theorem stod_eq {text : List Char} (trimmed : Stops isSpace text) :
    stod text =
      match signedNumeral text with
      | (_, none) => .error .invalidArgument
      | (negative, some .infinity) => .ok (.inf negative)
      | (_, some .nan) => .ok .nan
      | (negative, some (.hexadecimal value)) => finiteDouble negative value
      | (negative, some (.decimal value _)) => finiteDouble negative value := by
  have hdrop : text.dropWhile isSpace = text := dropWhile_span (fun c hc => absurd hc List.not_mem_nil) trimmed
  rw [stod, hdrop, signedNumeral]
  rcases scanSign text with ⟨negative, body⟩
  dsimp only
  cases scanNumeral body with
  | none => rfl
  | some numeral => cases numeral <;> rfl

theorem finiteDouble_ok_iff {negative : Bool} {magnitude : ℚ} {d : Double} :
    finiteDouble negative magnitude = .ok d ↔
      outOfRange magnitude = false ∧ d = .finite (if negative then -magnitude else magnitude) := by
  rw [finiteDouble]
  split
  · rename_i hout
    simp [hout]
  · rename_i hin
    simp only [Bool.not_eq_true] at hin
    simp only [hin, true_and, Except.ok.injEq]
    exact eq_comm

/-- A finite number is the one that stands at the front of the text, within range. -/
theorem stod_finite_inv {text : List Char} {value : ℚ} (trimmed : Stops isSpace text)
    (read : stod text = .ok (.finite value)) :
    ∃ numeral magnitude, (signedNumeral text).2 = some numeral ∧ numeral.magnitude = some magnitude ∧
      outOfRange magnitude = false ∧ value = if (signedNumeral text).1 then -magnitude else magnitude := by
  rw [stod_eq trimmed] at read
  rcases hscanned : signedNumeral text with ⟨negative, _ | numeral⟩
  · rw [hscanned] at read
    cases read
  · rw [hscanned] at read
    cases numeral with
    | infinity => cases read
    | nan => cases read
    | hexadecimal magnitude =>
        obtain ⟨hrange, hvalue⟩ := finiteDouble_ok_iff.mp read
        exact ⟨_, magnitude, rfl, rfl, hrange, Double.finite.inj hvalue⟩
    | decimal magnitude rest =>
        obtain ⟨hrange, hvalue⟩ := finiteDouble_ok_iff.mp read
        exact ⟨_, magnitude, rfl, rfl, hrange, Double.finite.inj hvalue⟩

end ZidaBot
