/-
Module: ZidaBot.Brain.ArbDetector
Purpose: The detector of `brain/src/brain/ArbDetector.cpp`: price sanity against the median bid, the guards
  of a directed pair of books, the per-pair rate limiter, and the scan over all index pairs.  Doubles are
  rationals, 64-bit sums and differences wrap, and the clock reading of a scan is an argument.  Latency
  samples are not part of this model; the output file is modelled in `Common.RotatedLog`.
Trusted boundary: human-reviewed model
Main exports: ArbCross, ArbDetectorConfig, ArbDetector, checkRateLimit, setActive, priceAnomaly, pairCross,
  Detection, detections, scan
-/
import ZidaBot.Brain.UnifiedBook
import Mathlib.Data.Rat.Cast.Order
import Mathlib.Algebra.Order.Field.Rat

namespace ZidaBot.Brain

/-- A detected cross: sell at the bid of one venue, buy at the ask of another. -/
structure ArbCross where
  sellVenue : String
  buyVenue : String
  sellBidTick : Int
  buyAskTick : Int
  spreadBps : ℚ
  netSpreadBps : ℚ
  tsDetectedNs : Int
  sellTsBookNs : Int
  buyTsBookNs : Int
deriving DecidableEq

/-- Constructor arguments of the detector; zero disables each of them but the minimum spread. -/
structure ArbDetectorConfig where
  minSpreadBps : ℚ
  maxSpreadBps : ℚ
  rateLimitNs : Int
  maxAgeDiffNs : Int
  maxPriceDeviationPct : ℚ
  venueFeeBps : List (String × ℚ)

/-- What scans change: last emission per pair, the totals, and the crosses handed to `on_cross_`.
    `active` is false in standby. -/
structure ArbDetector where
  lastEmitNs : List (String × Int)
  crossesTotal : Nat
  lastCrossNs : Int
  active : Bool
  signals : List ArbCross
deriving DecidableEq

/-- `kMaxVenues`. -/
def kMaxVenues : Nat := 16

namespace ArbDetector

/-- As constructed. -/
def new : ArbDetector :=
  { lastEmitNs := [], crossesTotal := 0, lastCrossNs := 0, active := true, signals := [] }

/-- `check_rate_limit_`: the detector with the emission recorded, and whether the signal may go. -/
def checkRateLimit (cfg : ArbDetectorConfig) (d : ArbDetector) (key : String) (tsNow : Int) :
    ArbDetector × Bool :=
  if cfg.rateLimitNs ≤ 0 then (d, true)
  else
    match d.lastEmitNs.lookup key with
    | some last =>
        if wrap64 (tsNow - last) < cfg.rateLimitNs then (d, false)
        else ({ d with lastEmitNs := (key, tsNow) :: d.lastEmitNs }, true)
    | none => ({ d with lastEmitNs := (key, tsNow) :: d.lastEmitNs }, true)

/-- `emit_`; in standby it does nothing. -/
def emit (d : ArbDetector) (cross : ArbCross) : ArbDetector :=
  if d.active then
    { d with
      crossesTotal := d.crossesTotal + 1
      lastCrossNs := cross.tsDetectedNs
      signals := d.signals ++ [cross] }
  else d

/-- `set_active`. -/
def setActive (d : ArbDetector) (v : Bool) : ArbDetector := { d with active := v }

end ArbDetector

namespace ArbDetectorConfig

/-- `fee_for_`: a venue without an entry pays nothing. -/
def feeFor (cfg : ArbDetectorConfig) (venue : String) : ℚ := (cfg.venueFeeBps.lookup venue).getD 0

end ArbDetectorConfig

/-- The positive best bids of the synced venues, in order. -/
def syncedBids (venues : List VenueBook) : List Int :=
  (venues.filter fun v => v.synced && decide (0 < v.book.bestBid.priceTick)).map
    fun v => v.book.bestBid.priceTick

/-- Median of a non-empty list of bids; of an even number, the mean of the two in the middle. -/
def medianBid (bids : List Int) : ℚ :=
  let sorted := bids.insertionSort (· ≤ ·)
  let n := bids.length
  if n % 2 = 0 then (wrap64 (sorted.getD (n / 2 - 1) 0 + sorted.getD (n / 2) 0) : ℚ) / 2
  else (sorted.getD (n / 2) 0 : ℚ)

/-- B5: the best bid of a synced venue deviates too far from the median. -/
def priceAnomaly (cfg : ArbDetectorConfig) (venues : List VenueBook) (v : VenueBook) : Bool :=
  let bids := syncedBids venues
  if 0 < cfg.maxPriceDeviationPct ∧ 2 ≤ bids.length then
    let median := medianBid bids
    let threshold := median * (cfg.maxPriceDeviationPct / 100)
    let bid := v.book.bestBid.priceTick
    v.synced && decide (0 < bid) && decide (threshold < |(bid : ℚ) - median|)
  else false

/-- The guards of one directed pair, from the emptiness of the books to the minimum net spread, and the
    cross that passes them. -/
def pairCross (cfg : ArbDetectorConfig) (tsNow : Int) (sv bv : VenueBook) : Option ArbCross :=
  let sellBidTick := sv.book.bestBid.priceTick
  let buyAskTick := bv.book.bestAsk.priceTick
  if sellBidTick = 0 ∨ buyAskTick = 0 then none
  else if sellBidTick ≤ buyAskTick then none
  else if 0 < cfg.maxAgeDiffNs ∧
      (cfg.maxAgeDiffNs < wrap64 (tsNow - sv.tsBookNs) ∨
        cfg.maxAgeDiffNs < wrap64 (tsNow - bv.tsBookNs) ∨
        cfg.maxAgeDiffNs < wrap64 |wrap64 (sv.tsBookNs - bv.tsBookNs)|) then none
  else
    let spreadAbs : ℚ := wrap64 (sellBidTick - buyAskTick)
    let mid : ℚ := wrap64 (sellBidTick + buyAskTick) / 2
    if mid ≤ 0 then none
    else
      let spreadBps := spreadAbs / mid * 10000
      if 0 < cfg.maxSpreadBps ∧ cfg.maxSpreadBps < spreadBps then none
      else
        let netSpreadBps := spreadBps - cfg.feeFor sv.venueName - cfg.feeFor bv.venueName
        if netSpreadBps < cfg.minSpreadBps then none
        else
          some {
            sellVenue := sv.venueName, buyVenue := bv.venueName
            sellBidTick := sellBidTick, buyAskTick := buyAskTick
            spreadBps := spreadBps, netSpreadBps := netSpreadBps
            tsDetectedNs := tsNow, sellTsBookNs := sv.tsBookNs, buyTsBookNs := bv.tsBookNs }

/-- A cross with the positions of its two books in the scanned vector. -/
structure Detection where
  si : Nat
  bi : Nat
  cross : ArbCross
deriving DecidableEq

section Scan

variable (cfg : ArbDetectorConfig) (tsNow : Int) (venues : List VenueBook)

/-- Inner loop body: the sell book is fixed. -/
def scanBuy (si : Nat) (sv : VenueBook) (acc : ArbDetector × List Detection) (entry : VenueBook × Nat) :
    ArbDetector × List Detection :=
  let (bv, bi) := entry
  if bi = si then acc
  else if !bv.synced || priceAnomaly cfg venues bv then acc
  else
    match pairCross cfg tsNow sv bv with
    | none => acc
    | some cross =>
        match acc.1.checkRateLimit cfg (sv.venueName ++ ":" ++ bv.venueName) tsNow with
        | (d, false) => (d, acc.2)
        | (d, true) => (d.emit cross, acc.2 ++ [{ si := si, bi := bi, cross := cross }])

/-- Outer loop body. -/
def scanSell (acc : ArbDetector × List Detection) (entry : VenueBook × Nat) :
    ArbDetector × List Detection :=
  let (sv, si) := entry
  if !sv.synced || priceAnomaly cfg venues sv || sv.book.bestBid.priceTick == 0 then acc
  else venues.zipIdx.foldl (scanBuy cfg tsNow venues si sv) acc

/-- The two loops over the first `kMaxVenues` books, with the positions kept beside each cross. -/
def detections (d : ArbDetector) : ArbDetector × List Detection :=
  let scanned := venues.take kMaxVenues
  scanned.zipIdx.foldl (scanSell cfg tsNow scanned) (d, [])

/-- `scan`: the detector afterwards and the returned crosses. -/
def scan (d : ArbDetector) : ArbDetector × List ArbCross :=
  let (d, found) := detections cfg tsNow venues d
  (d, found.map Detection.cross)

end Scan

end ZidaBot.Brain
