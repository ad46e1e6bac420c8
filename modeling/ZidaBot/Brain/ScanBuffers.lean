/-
Module: ZidaBot.Brain.ScanBuffers
Purpose: The scan of `brain/src/brain/ArbDetector.cpp` with the arrays that the detector keeps between scans:
  the best bids are collected into `bids_buf_` behind a count, the filled part of a copy is sorted for the
  median, and the anomalous positions are marked in `price_anomaly_buf_`.  What an earlier scan has left in
  the arrays is part of the state.
Trusted boundary: human-reviewed model
Main exports: ScanBuffers, fillBids, bufferMedian, markAnomaly, priceSanity, detectionsIn, scanIn,
  ScanEvent, Scanner, Scanner.step
-/
import ZidaBot.Brain.ArbDetector
import ZidaBot.Library.Runs

namespace ZidaBot.Brain

/-- The per-scan arrays, of `kMaxVenues` entries each. -/
structure ScanBuffers where
  priceAnomalyBuf : List Bool
  bidsBuf : List Int
  anomaly_size : priceAnomalyBuf.length = kMaxVenues
  bids_size : bidsBuf.length = kMaxVenues

/-- One round of the loop that collects bids: the array and the number of filled entries. -/
def fillBids (acc : List Int × Nat) (v : VenueBook) : List Int × Nat :=
  if !v.synced then acc
  else
    let bid := v.book.bestBid.priceTick
    if 0 < bid then (acc.1.set acc.2 bid, acc.2 + 1) else acc

/-- The median of the filled entries, read from a copy whose filled part is sorted. -/
def bufferMedian (bidsBuf : List Int) (bidsCount : Nat) : ℚ :=
  let sortedBids := (bidsBuf.take bidsCount).insertionSort (· ≤ ·) ++ bidsBuf.drop bidsCount
  if bidsCount % 2 = 0 then
    (wrap64 (sortedBids.getD (bidsCount / 2 - 1) 0 + sortedBids.getD (bidsCount / 2) 0) : ℚ) / 2
  else (sortedBids.getD (bidsCount / 2) 0 : ℚ)

/-- One round of the loop that marks anomalous positions. -/
def markAnomaly (median threshold : ℚ) (buf : List Bool) (entry : VenueBook × Nat) : List Bool :=
  let (v, i) := entry
  if !v.synced then buf
  else
    let bid := v.book.bestBid.priceTick
    if 0 < bid ∧ threshold < |(bid : ℚ) - median| then buf.set i true else buf

/-- The arrays after the price sanity block: the anomalies of this scan and the bids it has written. -/
def priceSanity (cfg : ArbDetectorConfig) (venues : List VenueBook) (buffers : ScanBuffers) :
    List Bool × List Int :=
  let cleared := buffers.priceAnomalyBuf.map fun _ => false
  if 0 < cfg.maxPriceDeviationPct then
    let (bidsBuf, bidsCount) := venues.foldl fillBids (buffers.bidsBuf, 0)
    if 2 ≤ bidsCount then
      let median := bufferMedian bidsBuf bidsCount
      let threshold := median * (cfg.maxPriceDeviationPct / 100)
      (venues.zipIdx.foldl (markAnomaly median threshold) cleared, bidsBuf)
    else (cleared, bidsBuf)
  else (cleared, buffers.bidsBuf)

section Scan

variable (cfg : ArbDetectorConfig) (tsNow : Int) (venues : List VenueBook) (priceAnomalyBuf : List Bool)

/-- Inner loop body. -/
def scanBuyIn (si : Nat) (sv : VenueBook) (acc : ArbDetector × List Detection) (entry : VenueBook × Nat) :
    ArbDetector × List Detection :=
  let (bv, bi) := entry
  if bi = si then acc
  else if !bv.synced then acc
  else if priceAnomalyBuf.getD bi false then acc
  else
    match pairCross cfg tsNow sv bv with
    | none => acc
    | some cross =>
        match acc.1.checkRateLimit cfg (sv.venueName ++ ":" ++ bv.venueName) tsNow with
        | (d, false) => (d, acc.2)
        | (d, true) => (d.emit cross, acc.2 ++ [{ si := si, bi := bi, cross := cross }])

/-- Outer loop body. -/
def scanSellIn (acc : ArbDetector × List Detection) (entry : VenueBook × Nat) :
    ArbDetector × List Detection :=
  let (sv, si) := entry
  if !sv.synced then acc
  else if priceAnomalyBuf.getD si false then acc
  else if sv.book.bestBid.priceTick == 0 then acc
  else venues.zipIdx.foldl (scanBuyIn cfg tsNow priceAnomalyBuf si sv) acc

end Scan

@[simp] theorem length_fillBids (acc : List Int × Nat) (v : VenueBook) :
    (fillBids acc v).1.length = acc.1.length := by
  rw [fillBids]
  split
  · rfl
  · dsimp only
    split <;> simp

@[simp] theorem length_markAnomaly (median threshold : ℚ) (buf : List Bool) (entry : VenueBook × Nat) :
    (markAnomaly median threshold buf entry).length = buf.length := by
  rw [markAnomaly]
  dsimp only
  split
  · rfl
  · split <;> simp

/-- The arrays keep their size. -/
theorem length_priceSanity (cfg : ArbDetectorConfig) (venues : List VenueBook) (buffers : ScanBuffers) :
    (priceSanity cfg venues buffers).1.length = kMaxVenues ∧
      (priceSanity cfg venues buffers).2.length = kMaxVenues := by
  have hcleared : (buffers.priceAnomalyBuf.map fun _ => false).length = kMaxVenues := by
    rw [List.length_map, buffers.anomaly_size]
  have hbids : (venues.foldl fillBids (buffers.bidsBuf, 0)).1.length = kMaxVenues :=
    Runs.invariant_run (fun acc v (h : acc.1.length = kMaxVenues) => (length_fillBids acc v).trans h)
      buffers.bids_size venues
  simp only [priceSanity]
  split
  · split
    · refine ⟨?_, hbids⟩
      exact Runs.invariant_run
        (fun buf entry (h : buf.length = kMaxVenues) => (length_markAnomaly _ _ buf entry).trans h) hcleared _
    · exact ⟨hcleared, hbids⟩
  · exact ⟨hcleared, buffers.bids_size⟩

/-- A scan in its arrays: the detector, the detections with their positions, and the arrays it leaves. -/
def detectionsIn (cfg : ArbDetectorConfig) (tsNow : Int) (venues : List VenueBook)
    (state : ArbDetector × ScanBuffers) : (ArbDetector × List Detection) × ScanBuffers :=
  let scanned := venues.take kMaxVenues
  let arrays := priceSanity cfg scanned state.2
  (scanned.zipIdx.foldl (scanSellIn cfg tsNow scanned arrays.1) (state.1, []),
    { priceAnomalyBuf := arrays.1, bidsBuf := arrays.2
      anomaly_size := (length_priceSanity cfg scanned state.2).1
      bids_size := (length_priceSanity cfg scanned state.2).2 })

/-- `scan`: the crosses it returns, and the detector with its arrays afterwards. -/
def scanIn (cfg : ArbDetectorConfig) (tsNow : Int) (venues : List VenueBook)
    (state : ArbDetector × ScanBuffers) : List ArbCross × (ArbDetector × ScanBuffers) :=
  let ((d, found), buffers) := detectionsIn cfg tsNow venues state
  (found.map Detection.cross, (d, buffers))

/-- A call on the detector; a scan comes with its clock reading. -/
inductive ScanEvent where
  | scan (tsNow : Int) (venues : List VenueBook)
  | setActive (v : Bool)

/-- A detector with its arrays, and all crosses its scans have returned, oldest first. -/
structure Scanner where
  detector : ArbDetector
  buffers : ScanBuffers
  returned : List ArbCross

namespace Scanner

/-- A detector as constructed, active or in standby; its arrays are not initialized. -/
def start (active : Bool) (buffers : ScanBuffers) : Scanner :=
  { detector := ArbDetector.new.setActive active, buffers := buffers, returned := [] }

/-- Effect of one call. -/
def step (cfg : ArbDetectorConfig) (s : Scanner) : ScanEvent → Scanner
  | .scan tsNow venues =>
      let (crosses, (d, buffers)) := scanIn cfg tsNow venues (s.detector, s.buffers)
      { detector := d, buffers := buffers, returned := s.returned ++ crosses }
  | .setActive v => { s with detector := s.detector.setActive v }

end Scanner

end ZidaBot.Brain
