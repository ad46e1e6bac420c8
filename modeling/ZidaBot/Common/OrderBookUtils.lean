/-
Module: ZidaBot.Common.OrderBookUtils
Purpose: The decimal parser of `common/include/orderbook/OrderBookUtils.hpp`, which turns the venues' texts
  into integer ticks and lots by scaling, and the level that every adapter builds from a price and a
  quantity text.  A text is its list of characters.  The fraction loops stay far below 64 bits for the two
  scales in use; the final product and sum are 64-bit.
Trusted boundary: human-reviewed model
Main exports: fromChars, parseDecimalToScaled, parsePriceToTicks, parseQtyToLots, levelFromTexts
-/
import ZidaBot.Common.Json
import ZidaBot.Common.OrderBook

namespace ZidaBot

/-- `std::from_chars` into an `int64_t`: an optional minus and the longest run of digits, whatever stands
    behind it.  `none` where it reports an error, for want of a digit or out of range. -/
def fromChars (chars : List Char) : Option Int :=
  let negative := chars.head? == some '-'
  let digits := (if negative then chars.drop 1 else chars).takeWhile Char.isDigit
  if digits = [] then none
  else
    let magnitude : Int := Nat.ofDigitChars 10 digits 0
    let parsed := if negative then -magnitude else magnitude
    if InInt64 parsed then some parsed else none

/-- The loop over the fractional digits: value and divisor so far.  It ends where the divisor has reached
    the scale, so later characters are not looked at. -/
def fracLoop (scale : Int) : List Char → Int → Int → Except String (Int × Int)
  | [], fracVal, fracDivisor => .ok (fracVal, fracDivisor)
  | c :: rest, fracVal, fracDivisor =>
      if scale ≤ fracDivisor then .ok (fracVal, fracDivisor)
      else if c.isDigit then
        fracLoop scale rest (fracVal * 10 + ((c.toNat - '0'.toNat : Nat) : Int)) (fracDivisor * 10)
      else .error "parseDecimalToScaled: bad fractional digit"

/-- The padding loop; the divisor grows in every round, so the scale bounds their number. -/
def padLoop (scale : Int) : Nat → Int → Int → Int
  | 0, fracVal, _ => fracVal
  | fuel + 1, fracVal, fracDivisor =>
      if fracDivisor < scale then padLoop scale fuel (fracVal * 10) (fracDivisor * 10) else fracVal

/-- `parseDecimalToScaled`. -/
def parseDecimalToScaled (text : List Char) (scale : Int) : Except String Int :=
  if text = [] then .error "parseDecimalToScaled: empty string"
  else
    let negative := text.head? == some '-'
    let text := if negative then text.drop 1 else text
    let intPart := text.takeWhile (· != '.')
    let fracPart := (text.dropWhile (· != '.')).drop 1
    match (if intPart = [] then some 0 else fromChars intPart) with
    | none => .error "parseDecimalToScaled: bad integer part"
    | some intVal =>
        match fracLoop scale fracPart 0 1 with
        | .error what => .error what
        | .ok (fracVal, fracDivisor) =>
            let fracVal := padLoop scale scale.toNat fracVal fracDivisor
            let result := wrap64 (wrap64 (intVal * scale) + fracVal)
            .ok (if negative then wrap64 (-result) else result)

/-- Price times 100. -/
def parsePriceToTicks (text : String) : Except String Int := parseDecimalToScaled text.toList 100

/-- Quantity times 1000. -/
def parseQtyToLots (text : String) : Except String Int := parseDecimalToScaled text.toList 1000

/-- The level an adapter makes of the texts of one entry. -/
def levelFromTexts (px qt : String) : Except String Level := do
  let priceTick ← parsePriceToTicks px
  let quantityLot ← parseQtyToLots qt
  return { priceTick := priceTick, quantityLot := quantityLot, price := px, quantity := qt }

end ZidaBot
