/-
Module: ZidaBot.Brain.ZidabotReplay
Purpose: The replay tool of `brain/app/zidabot_replay.cpp`: lines are read from the standard input, empty ones
  are skipped, every other one is fed to a `BacktestEngine`, and what comes of it is printed: with
  `--emit-books` the depth of the venue that was updated, and a line for every cross.  The JSON parser is the
  library's and a parameter; the clock is read for the events as in the engine.
Trusted boundary: human-reviewed model
Main exports: BookDepth, BacktestEngine.levels, ReplayOptions, ReplayOutput, inputLines, replayLine, replayInput
-/
import ZidaBot.Brain.BacktestEngine
import ZidaBot.Feed.WsPublishSink

namespace ZidaBot.Brain

/-- `BookDepth`: ticks and lots from the best level on. -/
structure BookDepth where
  venue : String
  tsNs : Int
  bids : List (Int × Int)
  asks : List (Int × Int)
deriving DecidableEq, Repr

namespace BacktestEngine

/-- The first synced book of the venue, whatever its symbol. -/
def bookOf (engine : BacktestEngine) (venue : String) : Option VenueBook :=
  engine.book.venues.find? fun vb => vb.venueName == venue && vb.synced

/-- The levels of one side, up to the first null pointer. -/
def depthLevels (vb : VenueBook) (s : Side) (limit : Nat) : List (Int × Int) :=
  (Feed.pointedLevels vb.book s 0 limit).map fun level => (level.priceTick, level.quantityLot)

/-- `levels`; zero stands for the configured depth. -/
def levels (cfg : BacktestConfig) (engine : BacktestEngine) (venue : String) (n : Nat) : BookDepth :=
  let limit := if n = 0 then cfg.depth else min n cfg.depth
  match engine.bookOf venue with
  | some vb =>
      { venue := venue, tsNs := vb.tsBookNs, bids := depthLevels vb .bid limit, asks := depthLevels vb .ask limit }
  | none => { venue := venue, tsNs := 0, bids := [], asks := [] }

end BacktestEngine

/-- The options that the loop uses, the engine's among them. -/
structure ReplayOptions where
  config : BacktestConfig := {}
  emitBooks : Bool := false
  bookDepth : Nat := 0

/-- What `std::getline` reads from the input, `line` being the line that is read: nothing behind a newline at
    the end is no line. -/
def inputLines (line : List Char) : List Char → List (List Char)
  | [] => if line = [] then [] else [line]
  | c :: text => if c = '\n' then line :: inputLines [] text else inputLines (line ++ [c]) text

end ZidaBot.Brain
