/-
Module: ZidaBot.Proofs.ScanGuards
Purpose: The guards of a scan in exact arithmetic.  `Crosses` says, without wrapping sums and without
  buffers, which ordered pairs of books a scan is meant to report, and `crossOf` what it reports of them.
  As long as no 64-bit sum or difference overflows, the candidates of a scan are exactly these pairs.
Trusted boundary: none
Main exports: NoOverflow, exactMedian, PriceSane, Crosses, crossOf, pairCross_eq_some_iff,
  mem_candidates_iff, scan_sound
-/
import ZidaBot.Proofs.ArbDetector
import ZidaBot.Proofs.ScanBuffers

namespace ZidaBot.Brain

/-- Best bid of a book, in ticks. -/
abbrev VenueBook.bidTick (v : VenueBook) : Int := v.book.bestBid.priceTick

/-- Best ask of a book, in ticks. -/
abbrev VenueBook.askTick (v : VenueBook) : Int := v.book.bestAsk.priceTick

/-- The sums and differences a scan forms stay within 64 bits. -/
structure NoOverflow (tsNow : Int) (venues : List VenueBook) : Prop where
  bidSum : ∀ v ∈ venues, ∀ w ∈ venues, InInt64 (v.bidTick + w.bidTick)
  quoteSum : ∀ v ∈ venues, ∀ w ∈ venues, InInt64 (v.bidTick + w.askTick)
  quoteDiff : ∀ v ∈ venues, ∀ w ∈ venues, InInt64 (v.bidTick - w.askTick)
  age : ∀ v ∈ venues, InInt64 (tsNow - v.tsBookNs)
  ageDiff : ∀ v ∈ venues, ∀ w ∈ venues, InInt64 |v.tsBookNs - w.tsBookNs|

/-- The median of a list of bids; of an even number, the mean of the two in the middle. -/
def exactMedian (bids : List Int) : ℚ :=
  let sorted := bids.insertionSort (· ≤ ·)
  let n := bids.length
  if n % 2 = 0 then ((sorted.getD (n / 2 - 1) 0 + sorted.getD (n / 2) 0 : Int) : ℚ) / 2
  else (sorted.getD (n / 2) 0 : ℚ)

/-- With a limit on the deviation and at least two bids to compare, a positive best bid is within the
    percentage of their median. -/
def PriceSane (cfg : ArbDetectorConfig) (scanned : List VenueBook) (v : VenueBook) : Prop :=
  0 < cfg.maxPriceDeviationPct → 2 ≤ (syncedBids scanned).length → 0 < v.bidTick →
    |(v.bidTick : ℚ) - exactMedian (syncedBids scanned)| ≤
      exactMedian (syncedBids scanned) * (cfg.maxPriceDeviationPct / 100)

/-- Spread of a pair over its middle price, in basis points. -/
def spreadBps (sv bv : VenueBook) : ℚ :=
  10000 * ((sv.bidTick : ℚ) - bv.askTick) / (((sv.bidTick : ℚ) + bv.askTick) / 2)

/-- The spread less the fees of both venues. -/
def netSpreadBps (cfg : ArbDetectorConfig) (sv bv : VenueBook) : ℚ :=
  spreadBps sv bv - cfg.feeFor sv.venueName - cfg.feeFor bv.venueName

/-- Selling at the bid of one book and buying at the ask of the other passes every guard. -/
structure Crosses (cfg : ArbDetectorConfig) (tsNow : Int) (scanned : List VenueBook) (sv bv : VenueBook) :
    Prop where
  sellSynced : sv.synced = true
  buySynced : bv.synced = true
  bid_ne : sv.bidTick ≠ 0
  ask_ne : bv.askTick ≠ 0
  above : bv.askTick < sv.bidTick
  mid_pos : 0 < ((sv.bidTick : ℚ) + bv.askTick) / 2
  fresh : 0 < cfg.maxAgeDiffNs → tsNow - sv.tsBookNs ≤ cfg.maxAgeDiffNs ∧
    tsNow - bv.tsBookNs ≤ cfg.maxAgeDiffNs ∧ |sv.tsBookNs - bv.tsBookNs| ≤ cfg.maxAgeDiffNs
  sellSane : PriceSane cfg scanned sv
  buySane : PriceSane cfg scanned bv
  capped : 0 < cfg.maxSpreadBps → spreadBps sv bv ≤ cfg.maxSpreadBps
  profitable : cfg.minSpreadBps ≤ netSpreadBps cfg sv bv

/-- The cross reported of a pair. -/
def crossOf (cfg : ArbDetectorConfig) (tsNow : Int) (sv bv : VenueBook) : ArbCross :=
  { sellVenue := sv.venueName, buyVenue := bv.venueName
    sellBidTick := sv.bidTick, buyAskTick := bv.askTick
    spreadBps := spreadBps sv bv, netSpreadBps := netSpreadBps cfg sv bv
    tsDetectedNs := tsNow, sellTsBookNs := sv.tsBookNs, buyTsBookNs := bv.tsBookNs }

/-!
### The guards without overflow

The source forms sums and differences of 64-bit numbers and divides them as doubles; `NoOverflow` names
those that have to be exact. Under it each guard is the comparison it looks like.
-/

section Exact

variable {cfg : ArbDetectorConfig} {tsNow : Int} {scanned : List VenueBook} {sv bv : VenueBook}

theorem inInt64_of_abs {n : Int} (range : InInt64 |n|) : InInt64 n := by
  obtain ⟨-, hlt⟩ := range
  rw [abs_lt] at hlt
  exact ⟨hlt.1.le, hlt.2⟩

/-- The spread as the source computes it. -/
theorem spreadBps_eq (sv bv : VenueBook) :
    ((sv.bidTick - bv.askTick : Int) : ℚ) / (((sv.bidTick : ℚ) + bv.askTick) / 2) * 10000 =
      spreadBps sv bv := by
  rw [spreadBps, div_mul_eq_mul_div, mul_comm]
  push_cast
  rfl

/-- A pair has a cross exactly if it passes the guards that look at the pair alone. -/
theorem pairCross_eq_some_iff (exact : NoOverflow tsNow scanned) (sell : sv ∈ scanned) (buy : bv ∈ scanned)
    {cross : ArbCross} :
    pairCross cfg tsNow sv bv = some cross ↔
      (sv.bidTick ≠ 0 ∧ bv.askTick ≠ 0 ∧ bv.askTick < sv.bidTick ∧
        (0 < cfg.maxAgeDiffNs → tsNow - sv.tsBookNs ≤ cfg.maxAgeDiffNs ∧
          tsNow - bv.tsBookNs ≤ cfg.maxAgeDiffNs ∧ |sv.tsBookNs - bv.tsBookNs| ≤ cfg.maxAgeDiffNs) ∧
        0 < ((sv.bidTick : ℚ) + bv.askTick) / 2 ∧
        (0 < cfg.maxSpreadBps → spreadBps sv bv ≤ cfg.maxSpreadBps) ∧
        cfg.minSpreadBps ≤ netSpreadBps cfg sv bv) ∧ cross = crossOf cfg tsNow sv bv := by
  have hage := wrap64_of_inInt64 (exact.age sv sell)
  have hage' := wrap64_of_inInt64 (exact.age bv buy)
  have hdiff := wrap64_of_inInt64 (inInt64_of_abs (exact.ageDiff sv sell bv buy))
  have habs := wrap64_of_inInt64 (exact.ageDiff sv sell bv buy)
  have hsum := wrap64_of_inInt64 (exact.quoteSum sv sell bv buy)
  have hspread := wrap64_of_inInt64 (exact.quoteDiff sv sell bv buy)
  have hmid : ((sv.bidTick + bv.askTick : Int) : ℚ) / 2 = ((sv.bidTick : ℚ) + bv.askTick) / 2 := by
    push_cast
    rfl
  simp only [pairCross, Option.ite_none_left_eq_some, Option.some.injEq, hage, hage', hdiff, habs, hsum,
    hspread, spreadBps_eq, hmid, not_or, not_and, not_lt, not_le]
  constructor
  · rintro ⟨⟨hbid, hask⟩, habove, hfresh, hpos, hcapped, hprofit, rfl⟩
    exact ⟨⟨hbid, hask, habove, hfresh, hpos, hcapped, hprofit⟩, rfl⟩
  · rintro ⟨⟨hbid, hask, habove, hfresh, hpos, hcapped, hprofit⟩, rfl⟩
    exact ⟨⟨hbid, hask⟩, habove, hfresh, hpos, hcapped, hprofit, rfl⟩

/-- The bids that enter the median are best bids of scanned books. -/
theorem exists_of_mem_syncedBids {bid : Int} (member : bid ∈ syncedBids scanned) :
    ∃ v ∈ scanned, v.bidTick = bid := by
  obtain ⟨v, hv, rfl⟩ := List.mem_map.mp member
  exact ⟨v, List.mem_of_mem_filter hv, rfl⟩

/-- Without overflow the median is the median. -/
theorem medianBid_eq (exact : NoOverflow tsNow scanned) (enough : 2 ≤ (syncedBids scanned).length) :
    medianBid (syncedBids scanned) = exactMedian (syncedBids scanned) := by
  have hread : ∀ i < (syncedBids scanned).length,
      ∃ v ∈ scanned, v.bidTick = ((syncedBids scanned).insertionSort (· ≤ ·)).getD i 0 := by
    intro i hi
    apply exists_of_mem_syncedBids
    have hlength : i < ((syncedBids scanned).insertionSort (· ≤ ·)).length := by
      rwa [List.length_insertionSort]
    rw [List.getD_eq_getElem?_getD, List.getElem?_eq_getElem hlength, Option.getD_some]
    exact (List.mem_insertionSort _).mp (List.getElem_mem hlength)
  obtain ⟨v, hv, hlow⟩ := hread ((syncedBids scanned).length / 2 - 1) (by omega)
  obtain ⟨w, hw, hhigh⟩ := hread ((syncedBids scanned).length / 2) (by omega)
  have hsum := wrap64_of_inInt64 (exact.bidSum v hv w hw)
  rw [hlow, hhigh] at hsum
  simp only [medianBid, exactMedian, hsum]

/-- A synced book is taken for anomalous exactly if its price is not sane. -/
theorem priceAnomaly_eq_false_iff (exact : NoOverflow tsNow scanned) {v : VenueBook}
    (synced : v.synced = true) : priceAnomaly cfg scanned v = false ↔ PriceSane cfg scanned v := by
  rw [priceAnomaly, PriceSane]
  by_cases hlimit : 0 < cfg.maxPriceDeviationPct ∧ 2 ≤ (syncedBids scanned).length
  · simp [hlimit.1, hlimit.2, medianBid_eq exact hlimit.2, synced]
  · simp only [if_neg hlimit, true_iff]
    exact fun hpct henough => absurd ⟨hpct, henough⟩ hlimit

/-- Without overflow the candidates of a scan are the crosses of the pairs that pass every guard. -/
theorem mem_candidates_iff {venues : List VenueBook} (exact : NoOverflow tsNow (venues.take kMaxVenues))
    {found : Detection} :
    found ∈ candidates cfg tsNow venues ↔
      ∃ sv bv, (venues.take kMaxVenues)[found.si]? = some sv ∧
        (venues.take kMaxVenues)[found.bi]? = some bv ∧ found.bi ≠ found.si ∧
        Crosses cfg tsNow (venues.take kMaxVenues) sv bv ∧ found.cross = crossOf cfg tsNow sv bv := by
  rw [mem_candidates]
  constructor
  · rintro ⟨sv, bv, hseller, hbuyer, hne, hsell, hbuy, hsellNormal, hbuyNormal, hcross⟩
    rw [pairCross_eq_some_iff exact (List.mem_of_getElem? hseller) (List.mem_of_getElem? hbuyer)] at hcross
    obtain ⟨⟨hbid, hask, habove, hfresh, hpos, hcapped, hprofit⟩, hfound⟩ := hcross
    refine ⟨sv, bv, hseller, hbuyer, hne, ⟨hsell, hbuy, hbid, hask, habove, hpos, hfresh, ?_, ?_, hcapped,
      hprofit⟩, hfound⟩
    · exact (priceAnomaly_eq_false_iff exact hsell).mp hsellNormal
    · exact (priceAnomaly_eq_false_iff exact hbuy).mp hbuyNormal
  · rintro ⟨sv, bv, hseller, hbuyer, hne, hcrosses, hfound⟩
    refine ⟨sv, bv, hseller, hbuyer, hne, hcrosses.sellSynced, hcrosses.buySynced, ?_, ?_, ?_⟩
    · exact (priceAnomaly_eq_false_iff exact hcrosses.sellSynced).mpr hcrosses.sellSane
    · exact (priceAnomaly_eq_false_iff exact hcrosses.buySynced).mpr hcrosses.buySane
    · rw [pairCross_eq_some_iff exact (List.mem_of_getElem? hseller) (List.mem_of_getElem? hbuyer)]
      exact ⟨⟨hcrosses.bid_ne, hcrosses.ask_ne, hcrosses.above, hcrosses.fresh, hcrosses.mid_pos,
        hcrosses.capped, hcrosses.profitable⟩, hfound⟩

end Exact

/-- A scanned position is a position of the vector below the capacity. -/
theorem getElem?_take_kMaxVenues {venues : List VenueBook} {i : Nat} {v : VenueBook} :
    (venues.take kMaxVenues)[i]? = some v ↔ i < kMaxVenues ∧ venues[i]? = some v := by
  rw [List.getElem?_take]
  split
  · rename_i hlt
    simp [hlt]
  · rename_i hge
    simp [hge]

/-!
### Result
-/

/-- Every cross that a scan returns is the cross of two distinct positions below the capacity whose books
    pass every guard, whatever the limiter remembers and whatever the arrays of the detector hold. -/
theorem scan_sound (cfg : ArbDetectorConfig) (tsNow : Int) (venues : List VenueBook)
    (state : ArbDetector × ScanBuffers) (exact : NoOverflow tsNow (venues.take kMaxVenues))
    (cross : ArbCross) (returned : cross ∈ (scanIn cfg tsNow venues state).1) :
    ∃ i j sv bv, i ≠ j ∧ i < kMaxVenues ∧ j < kMaxVenues ∧ venues[i]? = some sv ∧ venues[j]? = some bv ∧
      Crosses cfg tsNow (venues.take kMaxVenues) sv bv ∧ cross = crossOf cfg tsNow sv bv := by
  rw [scanIn_returned, scan_eq_offers] at returned
  obtain ⟨found, hfound, rfl⟩ := List.mem_map.mp returned
  have hcandidate := (mem_of_mem_offers hfound).resolve_left List.not_mem_nil
  obtain ⟨sv, bv, hseller, hbuyer, hne, hcrosses, hcross⟩ := (mem_candidates_iff exact).mp hcandidate
  obtain ⟨hi, hsell⟩ := getElem?_take_kMaxVenues.mp hseller
  obtain ⟨hj, hbuy⟩ := getElem?_take_kMaxVenues.mp hbuyer
  exact ⟨found.si, found.bi, sv, bv, Ne.symm hne, hi, hj, hsell, hbuy, hcrosses, hcross⟩

/-- Arrays as a fresh detector may find them. -/
def staleBuffers : ScanBuffers :=
  { priceAnomalyBuf := List.replicate kMaxVenues true, bidsBuf := List.replicate kMaxVenues 7
    anomaly_size := List.length_replicate, bids_size := List.length_replicate }

/-- Two books that cross: what the scan returns of them is sound. -/
theorem scan_sound_two_quotes :
    let venues := [quotedBook ⟨.binance, "BTC", "USDT"⟩ 1 Nat.one_pos 300 400,
      quotedBook ⟨.okx, "BTC", "USDT"⟩ 1 Nat.one_pos 100 200]
    ∃ cross ∈ (scanIn unfiltered 0 venues (ArbDetector.new, staleBuffers)).1,
      ∃ i j sv bv, i ≠ j ∧ i < kMaxVenues ∧ j < kMaxVenues ∧ venues[i]? = some sv ∧
        venues[j]? = some bv ∧ Crosses unfiltered 0 (venues.take kMaxVenues) sv bv ∧
        cross = crossOf unfiltered 0 sv bv := by
  intro venues
  obtain ⟨found, hfound, -, -⟩ := detections_two_quotes 1 Nat.one_pos ⟨.binance, "BTC", "USDT"⟩
    ⟨.okx, "BTC", "USDT"⟩
  have hreturned : found.cross ∈ (scanIn unfiltered 0 venues (ArbDetector.new, staleBuffers)).1 := by
    rw [scanIn_returned]
    exact List.mem_map_of_mem hfound
  refine ⟨found.cross, hreturned,
    scan_sound unfiltered 0 venues (ArbDetector.new, staleBuffers) ?_ found.cross hreturned⟩
  exact ⟨by decide, by decide, by decide, by decide, by decide⟩

end ZidaBot.Brain
