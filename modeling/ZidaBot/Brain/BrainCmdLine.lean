/-
Module: ZidaBot.Brain.BrainCmdLine
Purpose: The fee table of `brain/include/brain/BrainCmdLine.hpp`: the option text is split at commas, each
  token at its first colon, both parts are trimmed, and the fee is what `std::stod` reads at the front of its
  part.  Tokens that are skipped only leave a line in the log, which is not part of the model.
Trusted boundary: human-reviewed model
Main exports: trimAsciiWhitespace, getlines, venueToken, acceptedFee, parseVenueFees
-/
import ZidaBot.Common.NumberTexts
import ZidaBot.Library.LastValue

namespace ZidaBot.Brain

/-- `trim_ascii_whitespace`. -/
def trimAsciiWhitespace (text : List Char) : List Char :=
  ((text.dropWhile isSpace).reverse.dropWhile isSpace).reverse

/-- The tokens that `std::getline` yields at commas, `token` being the one that is read: nothing behind a
    comma at the end is no token. -/
def getlines (token : List Char) : List Char → List (List Char)
  | [] => if token = [] then [] else [token]
  | c :: text => if c = ',' then token :: getlines [] text else getlines (token ++ [c]) text

/-- The venue and the fee text of a token. -/
def venueToken (token : List Char) : Option (String × List Char) :=
  let name := token.takeWhile (· != ':')
  match token.dropWhile (· != ':') with
  | [] => none
  | _ :: rest =>
      if name = [] ∨ rest = [] then none
      else
        let venue := trimAsciiWhitespace name
        let feeText := trimAsciiWhitespace rest
        if venue = [] ∨ feeText = [] then none else some (String.ofList venue, feeText)

/-- The fee that is taken from a text: an exception and a negative number skip the token, a large one is only
    logged. -/
def acceptedFee (feeText : List Char) : Option Double :=
  match stod feeText with
  | .error _ => none
  | .ok fee => if fee.isNegative then none else some fee

/-- What a token enters into the table. -/
def feeEntry (token : List Char) : Option (String × Double) :=
  match venueToken token with
  | none => none
  | some (venue, feeText) => (acceptedFee feeText).map fun fee => (venue, fee)

/-- `parse_venue_fees`; a later entry of a venue hides the earlier ones. -/
def parseVenueFees (s : String) : List (String × Double) :=
  (getlines [] s.toList).foldl (LastValue.record feeEntry) []

end ZidaBot.Brain
