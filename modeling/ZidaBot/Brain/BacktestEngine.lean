/-
Module: ZidaBot.Brain.BacktestEngine
Purpose: The replay engine of `brain/src/brain/BacktestEngine.cpp`: books and detector behind one call per
  recorded line.  A line is what the JSON parser makes of it, none where it throws.  The clock is read once
  for the timestamp of the event and once more for the scan, so a line comes with two readings.
Trusted boundary: human-reviewed model
Main exports: BacktestConfig, Reading, BacktestEngine, BacktestEngine.feedEvent, BacktestEngine.replay
-/
import ZidaBot.Brain.ArbDetector

namespace ZidaBot.Brain

/-- Constructor arguments with their defaults. -/
structure BacktestConfig where
  depth : Nat := 50
  minSpreadBps : ℚ := 0
  maxSpreadBps : ℚ := 0
  rateLimitNs : Int := 0
  maxAgeNs : Int := 5000000000
  maxPriceDeviationPct : ℚ := 0
  depth_pos : 0 < depth := by decide

/-- `make_arb`: no fees. -/
def BacktestConfig.makeArb (cfg : BacktestConfig) : ArbDetectorConfig :=
  { minSpreadBps := cfg.minSpreadBps, maxSpreadBps := cfg.maxSpreadBps, rateLimitNs := cfg.rateLimitNs
    maxAgeDiffNs := cfg.maxAgeNs, maxPriceDeviationPct := cfg.maxPriceDeviationPct, venueFeeBps := [] }

/-- The clock during one line: in `sanitize_ts`, and at the start of the scan. -/
structure Reading where
  eventNs : Int
  scanNs : Int
deriving DecidableEq

/-- The engine between two lines. -/
structure BacktestEngine where
  lastUpdated : String
  book : UnifiedBook
  arb : ArbDetector
deriving DecidableEq

namespace BacktestEngine

/-- As constructed. -/
def new (cfg : BacktestConfig) : BacktestEngine :=
  { lastUpdated := "", book := UnifiedBook.new cfg.depth cfg.depth_pos, arb := ArbDetector.new }

/-- `feed_event`. -/
def feedEvent (cfg : BacktestConfig) (now : Reading) (engine : BacktestEngine) (line : Option Json) :
    BacktestEngine × List ArbCross :=
  match line with
  | none => ({ engine with lastUpdated := "" }, [])
  | some j =>
      let (book, lastUpdated) := engine.book.onEvent now.eventNs j
      let engine := { engine with lastUpdated := lastUpdated, book := book }
      if lastUpdated ≠ "" ∧ 2 ≤ book.syncedCount then
        let (arb, crosses) := scan cfg.makeArb now.scanNs book.venues engine.arb
        ({ engine with arb := arb }, crosses)
      else (engine, [])

/-- The crosses returned for each line of a replay. -/
def replay (cfg : BacktestConfig) : BacktestEngine → List (Option Json × Reading) → List (List ArbCross)
  | _, [] => []
  | engine, (line, now) :: lines =>
      let (engine, crosses) := engine.feedEvent cfg now line
      crosses :: replay cfg engine lines

end BacktestEngine

end ZidaBot.Brain
