/-
Module: ZidaBot.Proofs.CrossSignals
Purpose: The way of a cross from brain to an exec.  The two field lists agree in names and types, so reading
  always succeeds; the reader does not have `net_spread_bps`, so that member keeps what the output held
  before and the round trip depends on it.
Trusted boundary: none
Main exports: CrossInRange, ReadsBack, parseCross_serializeCross, cross_roundTrip_iff
-/
import ZidaBot.Exec.CrossSignals

namespace ZidaBot.Exec

open Brain Json

/-- The integers of the cross are 64-bit ones. -/
structure CrossInRange (c : ArbCross) : Prop where
  sellBidTick : InInt64 c.sellBidTick
  buyAskTick : InInt64 c.buyAskTick
  tsDetectedNs : InInt64 c.tsDetectedNs
  sellTsBookNs : InInt64 c.sellTsBookNs
  buyTsBookNs : InInt64 c.buyTsBookNs

/-- The library reads a document back from the text it wrote of it. -/
def ReadsBack (dump : Json → String) (parse : String → Option Json) (j : Json) : Prop :=
  parse (dump j) = some j

theorem getInt64_int {n : Int} (range : InInt64 n) : getInt64 (.int n) = .ok n :=
  congrArg Except.ok (wrap64_of_inInt64 range)

/-- What the reader makes of a serialized cross: every member but one. -/
theorem parseCross_serializeCross {dump : Json → String} {parse : String → Option Json} {c : ArbCross}
    (library : ReadsBack dump parse (crossJson c)) (range : CrossInRange c) (out : ArbCross) :
    parseCross parse (serializeCross dump c) out = ({ c with netSpreadBps := out.netSpreadBps }, true) := by
  have hparse : parse (serializeCross dump c) = some (crossJson c) := library
  have hsell := getInt64_int range.sellBidTick
  have hbuy := getInt64_int range.buyAskTick
  have hdetected := getInt64_int range.tsDetectedNs
  have hsellBook := getInt64_int range.sellTsBookNs
  have hbuyBook := getInt64_int range.buyTsBookNs
  rw [parseCross, hparse]
  simp [readFields, crossFields, field, crossJson, List.lookup_cons, getString, getDouble, hsell, hbuy, hdetected,
    hsellBook, hbuyBook, bind, Except.bind, pure, Except.pure]

/-!
### Result
-/

/-- A cross comes back as it was exactly if the output held its net spread before. -/
theorem cross_roundTrip_iff (dump : Json → String) (parse : String → Option Json) (c out : ArbCross)
    (library : ReadsBack dump parse (crossJson c)) (range : CrossInRange c) :
    parseCross parse (serializeCross dump c) out = (c, true) ↔ out.netSpreadBps = c.netSpreadBps := by
  rw [parseCross_serializeCross library range out]
  constructor
  · intro h
    exact congrArg (fun outcome => outcome.1.netSpreadBps) h
  · intro h
    rw [h]

/-- A cross after fees of ten basis points a leg. -/
def feeCross : ArbCross :=
  { sellVenue := "binance", buyVenue := "okx", sellBidTick := 300, buyAskTick := 100
    spreadBps := 10000, netSpreadBps := 9980, tsDetectedNs := 7, sellTsBookNs := 5, buyTsBookNs := 6 }

/-- Its frame. -/
def feeCrossText : String :=
  "\x7b\"buy_ask_tick\":100,\"buy_ts_book_ns\":6,\"buy_venue\":\"okx\",\"event_type\":\"arb_cross\"," ++
    "\"net_spread_bps\":9980.0,\"schema_version\":1,\"sell_bid_tick\":300,\"sell_ts_book_ns\":5," ++
    "\"sell_venue\":\"binance\",\"spread_bps\":10000.0,\"ts_detected_ns\":7\x7d"

/-- The library on that frame. -/
def feeCrossDump (_ : Json) : String := feeCrossText
@[inherit_doc feeCrossDump]
def feeCrossParse (text : String) : Option Json :=
  if text = feeCrossText then some (crossJson feeCross) else none

theorem readsBack_feeCross : ReadsBack feeCrossDump feeCrossParse (crossJson feeCross) := if_pos rfl

theorem feeCross_inRange : CrossInRange feeCross :=
  ⟨by decide, by decide, by decide, by decide, by decide⟩

/-- Read into an output that holds the net spread by chance, it comes back. -/
theorem cross_roundTrip_feeCross :
    parseCross feeCrossParse (serializeCross feeCrossDump feeCross) { feeCross with sellVenue := "" } =
      (feeCross, true) :=
  (cross_roundTrip_iff feeCrossDump feeCrossParse feeCross _ readsBack_feeCross feeCross_inRange).mpr rfl

/-- Read into any other it does not: here the members of the output are zero. -/
theorem net_spread_lost :
    let out : ArbCross :=
      { sellVenue := "", buyVenue := "", sellBidTick := 0, buyAskTick := 0, spreadBps := 0, netSpreadBps := 0
        tsDetectedNs := 0, sellTsBookNs := 0, buyTsBookNs := 0 }
    ReadsBack feeCrossDump feeCrossParse (crossJson feeCross) ∧
      parseCross feeCrossParse (serializeCross feeCrossDump feeCross) out ≠ (feeCross, true) := by
  refine ⟨readsBack_feeCross, ?_⟩
  rw [parseCross_serializeCross readsBack_feeCross feeCross_inRange]
  intro h
  have hnet : (0 : ℚ) = 9980 := congrArg (fun outcome => outcome.1.netSpreadBps) h
  norm_num at hnet

end ZidaBot.Exec
