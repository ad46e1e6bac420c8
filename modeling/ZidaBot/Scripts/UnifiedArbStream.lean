/-
Module: ZidaBot.Scripts.UnifiedArbStream
Purpose: The pair scan of `scripts/unified_arb_stream.py`, from which the detector of the brain was
  translated.  A dictionary is its list of items in insertion order, with distinct keys, and floats are
  rationals.  A missing key and a division by zero raise.
Trusted boundary: human-reviewed model
Main exports: BookState, PyError, CrossTuple, directedPair, detectCrosses
-/
import Mathlib.Data.Rat.Cast.Order
import Mathlib.Algebra.Order.Field.Rat
import Mathlib.Data.List.ProdSigma
import Mathlib.Data.List.ReduceOption

namespace ZidaBot.Scripts

/-- One venue's best levels at a point in time, as (price, quantity) pairs from the best price outwards. -/
structure BookState where
  venue : String
  symbol : String
  tsNs : Int
  bids : List (ℚ × ℚ)
  asks : List (ℚ × ℚ)
deriving DecidableEq

/-- The exceptions the scan can raise. -/
inductive PyError where
  | keyError (venue : String)
  | zeroDivision
deriving DecidableEq

/-- A tuple of the result. -/
structure CrossTuple where
  buyVenue : String
  sellVenue : String
  buyAsk : ℚ
  sellBid : ℚ
  spreadAbs : ℚ
  spreadBps : ℚ
deriving DecidableEq

/-- `NS_PER_MS`. -/
def nsPerMs : ℚ := 1000000

/-- `books[venue]`. -/
def bookOf (books : List (String × BookState)) (venue : String) : Except PyError BookState :=
  match books.lookup venue with
  | some book => .ok book
  | none => .error (.keyError venue)

/-- The body of the two loops; none where it says `continue`. -/
def directedPair (books : List (String × BookState)) (minSpreadBps maxDiffNs : ℚ)
    (buyV sellV : String) : Except PyError (Option CrossTuple) := do
  if buyV = sellV then return none
  let buyB ← bookOf books buyV
  let sellB ← bookOf books sellV
  if maxDiffNs < |(buyB.tsNs : ℚ) - sellB.tsNs| then return none
  match buyB.asks, sellB.bids with
  | (buyAsk, _) :: _, (sellBid, _) :: _ =>
      if sellBid ≤ buyAsk then return none
      let mid := (sellBid + buyAsk) / 2
      let spreadAbs := sellBid - buyAsk
      if mid = 0 then throw .zeroDivision
      let spreadBps := spreadAbs / mid * 10000
      if spreadBps < minSpreadBps then return none
      return some { buyVenue := buyV, sellVenue := sellV, buyAsk, sellBid, spreadAbs, spreadBps }
  | _, _ => return none

/-- `detect_crosses`: the buy venue is the outer loop. -/
def detectCrosses (books : List (String × BookState)) (minSpreadBps maxAgeDiffMs : ℚ) :
    Except PyError (List CrossTuple) := do
  let maxDiffNs := maxAgeDiffMs * nsPerMs
  let venueList := books.map Prod.fst
  let results ← (venueList ×ˢ venueList).mapM fun pair =>
    directedPair books minSpreadBps maxDiffNs pair.1 pair.2
  return results.reduceOption

end ZidaBot.Scripts
