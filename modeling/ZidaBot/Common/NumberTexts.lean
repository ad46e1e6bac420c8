/-
Module: ZidaBot.Common.NumberTexts
Purpose: The number readers of the standard library that the sources call.  `std::stoull` and `std::stoll` at
  base ten skip white space, take a sign and read the longest run of digits; what stands behind it is left
  alone, and its position is reported.  `std::stoull` accepts a minus and wraps.  `std::stod` reads the
  longest front part that is a decimal number, a hexadecimal one, an infinity or a nan; a finite double is the
  rational that was written, and where its magnitude is out of range the reader throws.
Trusted boundary: human-reviewed model
Main exports: isSpace, NumberError, scanInteger, stoull, stoll, Double, scanSign, scanMantissa, scanExponent,
  scanDecimal, scanHex, Numeral, scanNumeral, outOfRange, stod
-/
import ZidaBot.Common.Json
import ZidaBot.Library.Decimals

namespace ZidaBot

/-- `std::isspace` in the classic locale. -/
def isSpace (c : Char) : Bool :=
  c == ' ' || c == '\t' || c == '\n' || c == '\x0b' || c == '\x0c' || c == '\r'

/-- What the readers throw. -/
inductive NumberError where
  | invalidArgument
  | outOfRange
deriving DecidableEq, Repr

/-- What is read of a text: the sign, the digits, and how many characters all of it takes. -/
structure IntegerScan where
  negative : Bool
  digits : List Char
  length : Nat
deriving DecidableEq, Repr

/-- White space, an optional sign, and the longest run of digits. -/
def scanInteger (text : List Char) : IntegerScan :=
  let rest := text.dropWhile isSpace
  let signed := rest.head? == some '-' || rest.head? == some '+'
  let digits := (if signed then rest.drop 1 else rest).takeWhile Char.isDigit
  { negative := rest.head? == some '-'
    digits := digits
    length := (text.takeWhile isSpace).length + (if signed then 1 else 0) + digits.length }

/-- `std::stoull`: the value and the position behind it. -/
def stoull (text : List Char) : Except NumberError (UInt64 × Nat) :=
  let scan := scanInteger text
  let magnitude := Nat.ofDigitChars 10 scan.digits 0
  if scan.digits = [] then .error .invalidArgument
  else if 2 ^ 64 ≤ magnitude then .error .outOfRange
  else .ok (if scan.negative then -UInt64.ofNat magnitude else UInt64.ofNat magnitude, scan.length)

/-- `std::stoll`: the value. -/
def stoll (text : List Char) : Except NumberError Int :=
  let scan := scanInteger text
  let magnitude : Int := Nat.ofDigitChars 10 scan.digits 0
  let value := if scan.negative then -magnitude else magnitude
  if scan.digits = [] then .error .invalidArgument
  else if InInt64 value then .ok value
  else .error .outOfRange

/-!
### Doubles
-/

/-- The doubles that `std::stod` returns. -/
inductive Double where
  | finite (q : ℚ)
  | inf (negative : Bool)
  | nan
deriving DecidableEq

/-- `x < 0.0`. -/
def Double.isNegative : Double → Bool
  | .finite q => decide (q < 0)
  | .inf negative => negative
  | .nan => false

/-- An optional sign: whether it is a minus, and what follows. -/
def scanSign : List Char → Bool × List Char
  | '-' :: rest => (true, rest)
  | '+' :: rest => (false, rest)
  | rest => (false, rest)

/-- Digits, and behind a point more digits; both runs may be empty. -/
def scanMantissa (isDigit : Char → Bool) (text : List Char) : List Char × List Char × List Char :=
  let rest := text.dropWhile isDigit
  match rest with
  | '.' :: tail => (text.takeWhile isDigit, tail.takeWhile isDigit, tail.dropWhile isDigit)
  | _ => (text.takeWhile isDigit, [], rest)

/-- An exponent; without digits behind the letter there is none. -/
def scanExponent (letter : Char) (text : List Char) : Int × List Char :=
  match text with
  | [] => (0, [])
  | c :: rest =>
      let (negative, body) := scanSign rest
      let digits := body.takeWhile Char.isDigit
      if c.toLower = letter ∧ digits ≠ [] then
        let magnitude : Int := Nat.ofDigitChars 10 digits 0
        (if negative then -magnitude else magnitude, body.dropWhile Char.isDigit)
      else (0, text)

/-- A decimal number and what follows it. -/
def scanDecimal (text : List Char) : Option (ℚ × List Char) :=
  let (int, frac, rest) := scanMantissa Char.isDigit text
  if int = [] ∧ frac = [] then none
  else
    let (exponent, rest) := scanExponent 'e' rest
    some (Decimals.decimalValue int frac * 10 ^ exponent, rest)

/-- A hexadecimal digit. -/
def isHexDigit (c : Char) : Bool := c.isDigit || (decide ('a' ≤ c.toLower) && decide (c.toLower ≤ 'f'))

/-- The number with the given hexadecimal digits. -/
def hexValue (digits : List Char) : Nat :=
  digits.foldl (fun n c => 16 * n + (if c.isDigit then c.toNat - '0'.toNat else c.toLower.toNat - 'a'.toNat + 10)) 0

/-- A hexadecimal number with an optional binary exponent. -/
def scanHex : List Char → Option ℚ
  | '0' :: x :: text =>
      let (int, frac, rest) := scanMantissa isHexDigit text
      if x.toLower ≠ 'x' ∨ (int = [] ∧ frac = []) then none
      else
        let value : ℚ := hexValue int + hexValue frac / 16 ^ frac.length
        some (value * 2 ^ (scanExponent 'p' rest).1)
  | _ => none

/-- What stands at the front of a text, behind the sign.  How far it reaches is kept for decimal numbers
    only. -/
inductive Numeral where
  | infinity
  | nan
  | hexadecimal (value : ℚ)
  | decimal (value : ℚ) (rest : List Char)

/-- The text starts with a word, in either letter case. -/
def startsWithWord (word text : List Char) : Bool := (text.take word.length).map Char.toLower == word

/-- The longest front part that is a number. -/
def scanNumeral (text : List Char) : Option Numeral :=
  if startsWithWord ['i', 'n', 'f'] text then some .infinity
  else if startsWithWord ['n', 'a', 'n'] text then some .nan
  else
    match scanHex text with
    | some value => some (.hexadecimal value)
    | none => (scanDecimal text).map fun read => .decimal read.1 read.2

/-- The magnitude rounds to infinity, or is below the normal numbers and not exact. -/
def outOfRange (magnitude : ℚ) : Bool :=
  decide (2 ^ 1024 - 2 ^ 970 ≤ magnitude) ||
    (decide (magnitude < 1 / 2 ^ 1022 - 1 / 2 ^ 1076) && (magnitude * 2 ^ 1074).den != 1)

/-- The double of a sign and a magnitude. -/
def finiteDouble (negative : Bool) (magnitude : ℚ) : Except NumberError Double :=
  if outOfRange magnitude then .error .outOfRange
  else .ok (.finite (if negative then -magnitude else magnitude))

/-- `std::stod`: the value. -/
def stod (text : List Char) : Except NumberError Double :=
  let (negative, body) := scanSign (text.dropWhile isSpace)
  match scanNumeral body with
  | none => .error .invalidArgument
  | some .infinity => .ok (.inf negative)
  | some .nan => .ok .nan
  | some (.hexadecimal value) => finiteDouble negative value
  | some (.decimal value _) => finiteDouble negative value

end ZidaBot
