/-
Module: ZidaBot.Feed.Venue
Purpose: The venues, the symbol each of them wants on its stream (`feed/include/utils/VenueUtils.hpp`), and
  the pair of texts under which a PoP built by `build_cfg` (`feed/app/main.cpp`) publishes its events.  The
  enumerator `UNKNOWN` is left out: `main` exits on it before anything is built.
Trusted boundary: human-reviewed model
Main exports: VenueId, VenueId.name, mapWsSymbol, makeBinanceWsTopic, Pop, Pop.symbol, Pop.key
-/
import Mathlib.Data.String.Basic

namespace ZidaBot.Feed

/-- The supported venues. -/
inductive VenueId where
  | binance
  | okx
  | bybit
  | bitget
  | kucoin
deriving DecidableEq, Repr

/-- `to_string(VenueId)`. -/
def VenueId.name : VenueId → String
  | .binance => "binance"
  | .okx => "okx"
  | .bybit => "bybit"
  | .bitget => "bitget"
  | .kucoin => "kucoin"

/-- `map_ws_symbol`; case conversion is that of the classic locale. -/
def mapWsSymbol (venue : VenueId) (base quote : String) : String :=
  let concat := base.toUpper ++ quote.toUpper
  let dashed := base.toUpper ++ "-" ++ quote.toUpper
  match venue with
  | .binance => concat.toLower
  | .okx => dashed
  | .bybit => concat
  | .bitget => concat
  | .kucoin => dashed

/-- `make_binance_ws_topic`. -/
def makeBinanceWsTopic (wsSymbol : String) : String := wsSymbol ++ "@depth@100ms"

/-- One feed: what `build_cfg` is called with. -/
structure Pop where
  venue : VenueId
  base : String
  quote : String
deriving DecidableEq, Repr

namespace Pop

/-- The member `symbol` that `build_cfg` sets. -/
def symbol (pop : Pop) : String :=
  let wsSym := mapWsSymbol pop.venue pop.base pop.quote
  match pop.venue with
  | .binance => makeBinanceWsTopic wsSym
  | _ => wsSym

/-- The fields `venue` and `symbol` of every event of the feed. -/
def key (pop : Pop) : String × String := (pop.venue.name, pop.symbol)

/-- Same base and quote up to letter case. -/
def SameInstrument (p q : Pop) : Prop :=
  p.base.toUpper = q.base.toUpper ∧ p.quote.toUpper = q.quote.toUpper

instance (p q : Pop) : Decidable (p.SameInstrument q) := inferInstanceAs (Decidable (_ ∧ _))

end Pop

/-- Venue names are distinct. -/
theorem VenueId.name_inj {v w : VenueId} (same : v.name = w.name) : v = w := by
  cases v <;> cases w <;> first | rfl | exact absurd same (by decide)

theorem VenueId.name_ne_empty (v : VenueId) : v.name ≠ "" := by
  cases v <;> decide

end ZidaBot.Feed
