/-
Module: ZidaBot.Exec.CrossSignals
Purpose: The frame with which brain hands a cross to an exec: `serialize_cross` of `brain/app/brain.cpp` and
  `parse_cross` of `exec/app/exec.cpp`.  The reader assigns the members of its output one after the other, so
  an exception leaves those before it assigned; what the output held before is an argument.  The text of a
  document, `dump` and `json::parse`, is the library's and a parameter.  Doubles are rationals.
Trusted boundary: human-reviewed model
Main exports: getDouble, crossJson, serializeCross, CrossField, readFields, crossFields, parseCross
-/
import ZidaBot.Brain.ArbDetector

namespace ZidaBot.Exec

open Brain Json

/-- `get<double>`. -/
def getDouble : Json → Except JsonError ℚ
  | .int n => .ok n
  | .float q => .ok q
  | _ => .error .typeError

/-- The document of a cross, its members in the order of their keys. -/
def crossJson (c : ArbCross) : Json :=
  .object [
    ("buy_ask_tick", .int c.buyAskTick),
    ("buy_ts_book_ns", .int c.buyTsBookNs),
    ("buy_venue", .string c.buyVenue),
    ("event_type", .string "arb_cross"),
    ("net_spread_bps", .float c.netSpreadBps),
    ("schema_version", .int 1),
    ("sell_bid_tick", .int c.sellBidTick),
    ("sell_ts_book_ns", .int c.sellTsBookNs),
    ("sell_venue", .string c.sellVenue),
    ("spread_bps", .float c.spreadBps),
    ("ts_detected_ns", .int c.tsDetectedNs)]

/-- `serialize_cross`. -/
def serializeCross (dump : Json → String) (c : ArbCross) : String := dump (crossJson c)

/-- One assignment of the reader. -/
abbrev CrossField := Json → ArbCross → Except JsonError ArbCross

/-- `out.member = j.at(key).get<T>()`. -/
def field {α : Type} (key : String) (get : Json → Except JsonError α) (set : ArbCross → α → ArbCross) :
    CrossField :=
  fun j out => do return set out (← get (← j.atKey key))

/-- The assignments in their order, up to the first that throws. -/
def readFields (j : Json) : List CrossField → ArbCross → ArbCross × Bool
  | [], out => (out, true)
  | read :: rest, out =>
      match read j out with
      | .error _ => (out, false)
      | .ok out => readFields j rest out

/-- The assignments of `parse_cross`. -/
def crossFields : List CrossField :=
  [field "sell_venue" getString fun out v => { out with sellVenue := v },
    field "buy_venue" getString fun out v => { out with buyVenue := v },
    field "sell_bid_tick" getInt64 fun out v => { out with sellBidTick := v },
    field "buy_ask_tick" getInt64 fun out v => { out with buyAskTick := v },
    field "spread_bps" getDouble fun out v => { out with spreadBps := v },
    field "ts_detected_ns" getInt64 fun out v => { out with tsDetectedNs := v },
    field "sell_ts_book_ns" getInt64 fun out v => { out with sellTsBookNs := v },
    field "buy_ts_book_ns" getInt64 fun out v => { out with buyTsBookNs := v }]

/-- `parse_cross`: the output afterwards, and whether it returns true. -/
def parseCross (parse : String → Option Json) (text : String) (out : ArbCross) : ArbCross × Bool :=
  match parse text with
  | none => (out, false)
  | some j => readFields j crossFields out

end ZidaBot.Exec
