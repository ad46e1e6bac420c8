/-
Module: ZidaBot.Proofs.DetectCrosses
Purpose: The detector against the script it was translated from.  The two loop in different orders, count
  prices in different units and test the guards in different orders; on the same books, with the guards
  that only one of them has switched off, they return the same quotes.
Trusted boundary: none
Main exports: VenueBook.toBookState, bookDict, Quote, Plain, ExactArithmetic, directedPair_eq,
  detectCrosses_quotes, scan_eq_detectCrosses
-/
import ZidaBot.Proofs.ArbDetector
import ZidaBot.Scripts.UnifiedArbStream
import Mathlib.Tactic.Ring
import Mathlib.Tactic.FieldSimp
import Mathlib.Tactic.Linarith

namespace ZidaBot.Brain

open Scripts

/-- The levels of a side as the script holds them: a tick is a hundredth, a lot a thousandth. -/
def pricesOf (levels : List Level) : List (ℚ × ℚ) :=
  levels.map fun lvl => ((lvl.priceTick : ℚ) / 100, (lvl.quantityLot : ℚ) / 1000)

/-- The same book in the script. -/
def VenueBook.toBookState (vb : VenueBook) : BookState :=
  { venue := vb.venueName, symbol := vb.symbol, tsNs := vb.tsBookNs
    bids := pricesOf vb.book.bids, asks := pricesOf vb.book.asks }

/-- The dictionary of the books by venue. -/
def bookDict (venues : List VenueBook) : List (String × BookState) :=
  venues.map fun vb => (vb.venueName, vb.toBookState)

/-- What the two results have in common, in prices. -/
structure Quote where
  buyVenue : String
  sellVenue : String
  buyAsk : ℚ
  sellBid : ℚ
  spreadBps : ℚ
deriving DecidableEq

def ArbCross.quote (cross : ArbCross) : Quote :=
  { buyVenue := cross.buyVenue, sellVenue := cross.sellVenue
    buyAsk := (cross.buyAskTick : ℚ) / 100, sellBid := (cross.sellBidTick : ℚ) / 100
    spreadBps := cross.spreadBps }

def tupleQuote (tuple : CrossTuple) : Quote :=
  { buyVenue := tuple.buyVenue, sellVenue := tuple.sellVenue, buyAsk := tuple.buyAsk
    sellBid := tuple.sellBid, spreadBps := tuple.spreadBps }

/-- The guards that the script does not have are off. -/
structure Plain (cfg : ArbDetectorConfig) : Prop where
  fees : ∀ venue, cfg.feeFor venue = 0
  cap : cfg.maxSpreadBps ≤ 0
  deviation : cfg.maxPriceDeviationPct ≤ 0
  rateLimit : cfg.rateLimitNs ≤ 0

/-- The 64-bit sums and differences a scan of the books forms are the exact ones. -/
structure ExactArithmetic (tsNow : Int) (venues : List VenueBook) : Prop where
  age : ∀ vb ∈ venues, InInt64 (tsNow - vb.tsBookNs)
  ageDiff : ∀ sv ∈ venues, ∀ bv ∈ venues, InInt64 |sv.tsBookNs - bv.tsBookNs|
  spread : ∀ sv ∈ venues, ∀ bv ∈ venues,
    InInt64 (sv.book.bestBid.priceTick - bv.book.bestAsk.priceTick)
  sum : ∀ sv ∈ venues, ∀ bv ∈ venues,
    InInt64 (sv.book.bestBid.priceTick + bv.book.bestAsk.priceTick)

/-!
### One directed pair

In exact arithmetic both programs compute one rational spread of the same two prices. The order in which
they test their guards makes no difference, as no guard of the script raises on books with both sides.
-/

section Pair

variable {cfg : ArbDetectorConfig} {tsNow : Int} {venues : List VenueBook} {sv bv : VenueBook}

theorem wrap64_age_diff {a b : Int} (range : InInt64 |a - b|) : wrap64 |wrap64 (a - b)| = |a - b| := by
  have hrange : InInt64 (a - b) := by
    rw [InInt64] at range ⊢
    have habs := abs_lt.mp range.2
    exact ⟨Int.le_of_lt habs.1, habs.2⟩
  rw [wrap64_of_inInt64 hrange, wrap64_of_inInt64 range]

/-- The quote of a pair with both sides present, in exact arithmetic. -/
def exactQuote (cfg : ArbDetectorConfig) (sv bv : VenueBook) (bid ask : Int) : Option Quote :=
  let spreadBps : ℚ := ((bid : ℚ) - ask) / (((bid : ℚ) + ask) / 2) * 10000
  if bid ≤ ask then none
  else if cfg.maxAgeDiffNs < |sv.tsBookNs - bv.tsBookNs| then none
  else if spreadBps < cfg.minSpreadBps then none
  else
    some {
      buyVenue := bv.venueName, sellVenue := sv.venueName
      buyAsk := (ask : ℚ) / 100, sellBid := (bid : ℚ) / 100, spreadBps := spreadBps }

/-- The detector's guards in exact arithmetic. -/
theorem pairCross_quote (plain : Plain cfg) (limit : 0 < cfg.maxAgeDiffNs)
    (exact : ExactArithmetic tsNow venues) (fresh : ∀ vb ∈ venues, tsNow - vb.tsBookNs ≤ cfg.maxAgeDiffNs)
    (seller : sv ∈ venues) (buyer : bv ∈ venues) (bid_pos : 0 < sv.book.bestBid.priceTick)
    (ask_pos : 0 < bv.book.bestAsk.priceTick) :
    (pairCross cfg tsNow sv bv).map ArbCross.quote =
      exactQuote cfg sv bv sv.book.bestBid.priceTick bv.book.bestAsk.priceTick := by
  have hsell := fresh sv seller
  have hbuy := fresh bv buyer
  have hspread := exact.spread sv seller bv buyer
  have hsum := exact.sum sv seller bv buyer
  generalize hbid : sv.book.bestBid.priceTick = bid at *
  generalize hask : bv.book.bestAsk.priceTick = ask at *
  have hpresent : ¬ (bid = 0 ∨ ask = 0) := by omega
  have hmid : ¬ (((bid : ℚ) + ask) / 2 ≤ 0) := by
    have hbid_pos : (0 : ℚ) < bid := Int.cast_pos.mpr bid_pos
    have hask_pos : (0 : ℚ) < ask := Int.cast_pos.mpr ask_pos
    linarith
  have hcap : ¬ (0 < cfg.maxSpreadBps) := not_lt.mpr plain.cap
  simp only [pairCross, hbid, hask, hpresent, if_false, limit, true_and,
    wrap64_of_inInt64 (exact.age sv seller), wrap64_of_inInt64 (exact.age bv buyer),
    wrap64_age_diff (exact.ageDiff sv seller bv buyer), wrap64_of_inInt64 hspread,
    wrap64_of_inInt64 hsum, hmid, hcap, false_and, plain.fees, sub_zero, not_lt.mpr hsell,
    not_lt.mpr hbuy, false_or, exactQuote, Int.cast_sub, Int.cast_add]
  split_ifs <;> rfl

theorem lookup_bookDict (distinct : (venues.map VenueBook.venueName).Nodup) {vb : VenueBook}
    (member : vb ∈ venues) : (bookDict venues).lookup vb.venueName = some vb.toBookState := by
  induction venues with
  | nil => cases member
  | cons first venues ih =>
      rw [List.map_cons, List.nodup_cons] at distinct
      rw [bookDict, List.map_cons, List.lookup_cons]
      rcases List.mem_cons.mp member with rfl | htail
      · simp
      · have hne : vb.venueName ≠ first.venueName := fun h =>
          distinct.1 (h ▸ List.mem_map_of_mem htail)
        rw [beq_eq_false_iff_ne.mpr hne]
        exact ih distinct.2 htail

variable (cfg) in
/-- The script's guards, on two books of the dictionary with both sides present. -/
theorem directedPair_present {maxDiffNs : ℚ} (distinct : (venues.map VenueBook.venueName).Nodup)
    (sameLimit : (cfg.maxAgeDiffNs : ℚ) = maxDiffNs) (seller : sv ∈ venues) (buyer : bv ∈ venues)
    (names : sv.venueName ≠ bv.venueName) {bid ask : Level} {bids asks : List Level}
    (sellSide : sv.book.bids = bid :: bids) (buySide : bv.book.asks = ask :: asks)
    (bid_pos : 0 < bid.priceTick) (ask_pos : 0 < ask.priceTick) :
    ∃ result, directedPair (bookDict venues) cfg.minSpreadBps maxDiffNs bv.venueName sv.venueName =
        .ok result ∧
      result.map tupleQuote = exactQuote cfg sv bv bid.priceTick ask.priceTick := by
  have hbid : (0 : ℚ) < bid.priceTick := Int.cast_pos.mpr bid_pos
  have hask : (0 : ℚ) < ask.priceTick := Int.cast_pos.mpr ask_pos
  have hsum : (0 : ℚ) < (bid.priceTick : ℚ) + ask.priceTick := add_pos hbid hask
  have hmid : ((bid.priceTick : ℚ) / 100 + (ask.priceTick : ℚ) / 100) / 2 ≠ 0 := by
    have hpos : (0 : ℚ) < ((bid.priceTick : ℚ) / 100 + (ask.priceTick : ℚ) / 100) / 2 := by linarith
    exact hpos.ne'
  -- the unit of the prices cancels in the spread
  have hspread : ((bid.priceTick : ℚ) / 100 - (ask.priceTick : ℚ) / 100) /
      (((bid.priceTick : ℚ) / 100 + (ask.priceTick : ℚ) / 100) / 2) * 10000 =
      ((bid.priceTick : ℚ) - ask.priceTick) / (((bid.priceTick : ℚ) + ask.priceTick) / 2) * 10000 := by
    have hne := hsum.ne'
    field_simp
  have hcrossed : (bid.priceTick : ℚ) / 100 ≤ (ask.priceTick : ℚ) / 100 ↔
      bid.priceTick ≤ ask.priceTick := by
    rw [div_le_div_iff_of_pos_right (by norm_num), Int.cast_le]
  have hage : maxDiffNs < |(bv.tsBookNs : ℚ) - sv.tsBookNs| ↔
      cfg.maxAgeDiffNs < |sv.tsBookNs - bv.tsBookNs| := by
    rw [← sameLimit, abs_sub_comm, ← Int.cast_sub, ← Int.cast_abs, Int.cast_lt]
  simp only [directedPair, names.symm, if_false, bookOf, lookup_bookDict distinct buyer,
    lookup_bookDict distinct seller, VenueBook.toBookState, pricesOf, sellSide, buySide, List.map_cons,
    hage, hcrossed, hmid, hspread, bind, Except.bind, pure, Except.pure, exactQuote]
  split_ifs <;> exact ⟨_, rfl, rfl⟩

/-- A pair with an empty side is passed over by the script. -/
theorem directedPair_empty {maxDiffNs : ℚ} (distinct : (venues.map VenueBook.venueName).Nodup)
    (seller : sv ∈ venues) (buyer : bv ∈ venues) (empty : sv.book.bids = [] ∨ bv.book.asks = []) :
    directedPair (bookDict venues) cfg.minSpreadBps maxDiffNs bv.venueName sv.venueName = .ok none := by
  by_cases hnames : bv.venueName = sv.venueName
  · simp [directedPair, hnames, pure, Except.pure]
  · simp only [directedPair, hnames, if_false, bookOf, lookup_bookDict distinct buyer,
      lookup_bookDict distinct seller, VenueBook.toBookState, pricesOf, bind, Except.bind, pure, Except.pure]
    rcases empty with hbids | hasks
    · rw [hbids]
      cases bv.book.asks <;> simp
    · simp [hasks]

/-- One directed pair, in both programs. -/
theorem directedPair_eq {maxDiffNs : ℚ} (plain : Plain cfg) (limit : 0 < cfg.maxAgeDiffNs)
    (exact : ExactArithmetic tsNow venues) (fresh : ∀ vb ∈ venues, tsNow - vb.tsBookNs ≤ cfg.maxAgeDiffNs)
    (distinct : (venues.map VenueBook.venueName).Nodup)
    (positive : ∀ vb ∈ venues, ∀ lvl ∈ vb.book.bids ++ vb.book.asks, 0 < lvl.priceTick)
    (sameLimit : (cfg.maxAgeDiffNs : ℚ) = maxDiffNs) (seller : sv ∈ venues) (buyer : bv ∈ venues)
    (names : sv.venueName ≠ bv.venueName) :
    ∃ result, directedPair (bookDict venues) cfg.minSpreadBps maxDiffNs bv.venueName sv.venueName =
        .ok result ∧
      result.map tupleQuote = (pairCross cfg tsNow sv bv).map ArbCross.quote := by
  cases hbids : sv.book.bids with
  | nil =>
      refine ⟨none, directedPair_empty distinct seller buyer (Or.inl hbids), ?_⟩
      simp [pairCross, OrderBook.bestBid, hbids, OrderBook.emptyLevel]
  | cons bid bids =>
      cases hasks : bv.book.asks with
      | nil =>
          refine ⟨none, directedPair_empty distinct seller buyer (Or.inr hasks), ?_⟩
          simp [pairCross, OrderBook.bestAsk, hasks, OrderBook.emptyLevel]
      | cons ask asks =>
          have hbid : sv.book.bestBid = bid := by rw [OrderBook.bestBid, hbids, List.headD_cons]
          have hask : bv.book.bestAsk = ask := by rw [OrderBook.bestAsk, hasks, List.headD_cons]
          have hbid_pos : 0 < bid.priceTick := positive sv seller bid (by simp [hbids])
          have hask_pos : 0 < ask.priceTick := positive bv buyer ask (by simp [hasks])
          obtain ⟨result, hresult, hquote⟩ := directedPair_present cfg distinct sameLimit seller
            buyer names hbids hasks hbid_pos hask_pos
          refine ⟨result, hresult, ?_⟩
          rw [hquote, pairCross_quote plain limit exact fresh seller buyer (hbid ▸ hbid_pos)
            (hask ▸ hask_pos), hbid, hask]

end Pair

/-!
### The whole scan

The outer loop of one program is the inner loop of the other, so the two results are compared as sets of
quotes.
-/

/-- What a computation returns if it does not raise. -/
def returned {α : Type} : Except PyError (Option α) → Option α
  | .ok result => result
  | .error _ => none

/-- Loop bodies that do not raise give the list of their results. -/
theorem mapM_returned {α β : Type} {f : α → Except PyError (Option β)} {xs : List α}
    (total : ∀ x ∈ xs, ∃ result, f x = .ok result) :
    xs.mapM f = .ok (xs.map fun x => returned (f x)) := by
  induction xs with
  | nil => rfl
  | cons x xs ih =>
      obtain ⟨result, hresult⟩ := total x (List.mem_cons_self ..)
      rw [List.mapM_cons, ih fun y hy => total y (List.mem_cons_of_mem x hy), List.map_cons, hresult]
      rfl

theorem mem_venuePairs {venues : List VenueBook} {pair : String × String} :
    pair ∈ venues.map VenueBook.venueName ×ˢ venues.map VenueBook.venueName ↔
      ∃ bv ∈ venues, ∃ sv ∈ venues, pair = (bv.venueName, sv.venueName) := by
  constructor
  · intro hmem
    obtain ⟨hbuy, hsell⟩ := List.mem_product.mp hmem
    obtain ⟨bv, hbv, hbuyName⟩ := List.mem_map.mp hbuy
    obtain ⟨sv, hsv, hsellName⟩ := List.mem_map.mp hsell
    exact ⟨bv, hbv, sv, hsv, by rw [hbuyName, hsellName]⟩
  · rintro ⟨bv, hbv, sv, hsv, rfl⟩
    exact List.mem_product.mpr ⟨List.mem_map_of_mem hbv, List.mem_map_of_mem hsv⟩

/-- What the script returns, given what it does with one directed pair: the quotes of the pairs of venues,
    and nothing else. -/
theorem detectCrosses_quotes {cfg : ArbDetectorConfig} {tsNow : Int} {venues : List VenueBook}
    {maxAgeDiffMs : ℚ}
    (pair : ∀ bv ∈ venues, ∀ sv ∈ venues, sv.venueName ≠ bv.venueName →
      ∃ result, directedPair (bookDict venues) cfg.minSpreadBps (maxAgeDiffMs * nsPerMs) bv.venueName
          sv.venueName = .ok result ∧
        result.map tupleQuote = (pairCross cfg tsNow sv bv).map ArbCross.quote) :
    ∃ results, detectCrosses (bookDict venues) cfg.minSpreadBps maxAgeDiffMs = .ok results ∧
      ∀ quote, quote ∈ results.map tupleQuote ↔
        ∃ sv ∈ venues, ∃ bv ∈ venues, sv.venueName ≠ bv.venueName ∧
          (pairCross cfg tsNow sv bv).map ArbCross.quote = some quote := by
  have hkeys : (bookDict venues).map Prod.fst = venues.map VenueBook.venueName := by
    simp [bookDict]
  let body (names : String × String) : Except PyError (Option CrossTuple) :=
    directedPair (bookDict venues) cfg.minSpreadBps (maxAgeDiffMs * nsPerMs) names.1 names.2
  let pairs := venues.map VenueBook.venueName ×ˢ venues.map VenueBook.venueName
  have hself : ∀ venue, body (venue, venue) = .ok none := fun venue => by
    simp [body, directedPair, pure, Except.pure]
  have htotal : ∀ names ∈ pairs, ∃ result, body names = .ok result := by
    intro names hmem
    obtain ⟨bv, hbv, sv, hsv, rfl⟩ := mem_venuePairs.mp hmem
    by_cases hnames : sv.venueName = bv.venueName
    · exact ⟨none, by rw [hnames]; exact hself _⟩
    · obtain ⟨result, hresult, -⟩ := pair bv hbv sv hsv hnames
      exact ⟨result, hresult⟩
  refine ⟨(pairs.map fun names => returned (body names)).reduceOption, ?_, ?_⟩
  · rw [detectCrosses, hkeys, mapM_returned htotal]
    rfl
  · intro quote
    simp only [List.mem_map, List.reduceOption_mem_iff]
    constructor
    · rintro ⟨tuple, ⟨names, hmem, hreturned⟩, rfl⟩
      obtain ⟨bv, hbv, sv, hsv, rfl⟩ := mem_venuePairs.mp hmem
      have hnames : sv.venueName ≠ bv.venueName := by
        intro hsame
        rw [hsame, hself] at hreturned
        cases hreturned
      obtain ⟨result, hresult, hquote⟩ := pair bv hbv sv hsv hnames
      have hbody : body (bv.venueName, sv.venueName) = .ok result := hresult
      rw [hbody, returned] at hreturned
      rw [hreturned, Option.map_some] at hquote
      exact ⟨sv, hsv, bv, hbv, hnames, hquote.symm⟩
    · rintro ⟨sv, hsv, bv, hbv, hnames, hcross⟩
      obtain ⟨result, hresult, hquote⟩ := pair bv hbv sv hsv hnames
      obtain ⟨tuple, rfl, htuple⟩ := Option.map_eq_some_iff.mp (hquote.trans hcross)
      have hbody : body (bv.venueName, sv.venueName) = .ok (some tuple) := hresult
      refine ⟨tuple, ⟨(bv.venueName, sv.venueName), ?_, ?_⟩, htuple⟩
      · exact mem_venuePairs.mpr ⟨bv, hbv, sv, hsv, rfl⟩
      · rw [hbody, returned]

/-- On the same at most sixteen synced books of distinct venues, whose ticks are positive, with every book
    within the age limit and the guards that only the detector has switched off, a scan returns the same
    set of quotes as the script. -/
theorem scan_eq_detectCrosses (cfg : ArbDetectorConfig) (tsNow : Int) (venues : List VenueBook)
    (d : ArbDetector) (maxAgeDiffMs : ℚ) (few : venues.length ≤ kMaxVenues)
    (synced : ∀ vb ∈ venues, vb.synced = true) (distinct : (venues.map VenueBook.venueName).Nodup)
    (positive : ∀ vb ∈ venues, ∀ lvl ∈ vb.book.bids ++ vb.book.asks, 0 < lvl.priceTick)
    (sameLimit : (cfg.maxAgeDiffNs : ℚ) = maxAgeDiffMs * nsPerMs) (limit : 0 < cfg.maxAgeDiffNs)
    (fresh : ∀ vb ∈ venues, tsNow - vb.tsBookNs ≤ cfg.maxAgeDiffNs) (plain : Plain cfg)
    (exact : ExactArithmetic tsNow venues) :
    ∃ results, detectCrosses (bookDict venues) cfg.minSpreadBps maxAgeDiffMs = .ok results ∧
      ∀ quote, quote ∈ (scan cfg tsNow venues d).2.map ArbCross.quote ↔
        quote ∈ results.map tupleQuote := by
  obtain ⟨results, hresults, hquotes⟩ := detectCrosses_quotes fun bv hbv sv hsv hnames =>
    directedPair_eq plain limit exact fresh distinct positive sameLimit hsv hbv hnames
  refine ⟨results, hresults, fun quote => ?_⟩
  rw [hquotes, List.mem_map]
  constructor
  · rintro ⟨cross, hscanned, hquote⟩
    obtain ⟨sv, hsv, bv, hbv, hnames, hcross⟩ :=
      (mem_scan_iff plain.rateLimit plain.deviation few synced distinct).mp hscanned
    exact ⟨sv, hsv, bv, hbv, hnames, by rw [hcross, Option.map_some, hquote]⟩
  · rintro ⟨sv, hsv, bv, hbv, hnames, hpair⟩
    obtain ⟨cross, hcross, hquote⟩ := Option.map_eq_some_iff.mp hpair
    have hscanned : cross ∈ (scan cfg tsNow venues d).2 :=
      (mem_scan_iff plain.rateLimit plain.deviation few synced distinct).mpr
        ⟨sv, hsv, bv, hbv, hnames, hcross⟩
    exact ⟨cross, hscanned, hquote⟩

/-- Two quoting venues and one without a level, each as old as the limit allows: the cross of the first two
    is found by both. -/
theorem scan_eq_detectCrosses_three_books :
    let quoted (venue : Feed.VenueId) (bid ask : Int) : VenueBook :=
      quotedBook ⟨venue, "BTC", "USDT"⟩ 5 (by decide) bid ask
    let empty : VenueBook :=
      { venueName := "kucoin", symbol := "BTC-USDT"
        controller :=
          { book := OrderBook.empty 5 (by decide), state := .synced, lastSeq := 1, expectedSeq := 2,
            validateCounter := 0 }
        tsBookNs := 0, feedHealthy := true }
    let venues := [quoted .okx 300 400, empty, quoted .bybit 100 200]
    let cfg : ArbDetectorConfig := { unfiltered with maxAgeDiffNs := 5000000 }
    ∃ results, detectCrosses (bookDict venues) cfg.minSpreadBps 5 = .ok results ∧
      ({ buyVenue := "bybit", sellVenue := "okx", buyAsk := 2, sellBid := 3, spreadBps := 4000 } : Quote) ∈
        results.map tupleQuote := by
  intro quoted empty venues cfg
  have hplain : Plain cfg := ⟨fun _ => rfl, le_refl _, le_refl _, le_refl _⟩
  have hexact : ExactArithmetic 5000000 venues :=
    ⟨by decide, by decide, by decide, by decide⟩
  obtain ⟨results, hresults, hquotes⟩ := scan_eq_detectCrosses cfg 5000000 venues ArbDetector.new 5
    (by decide) (by decide) (by decide) (by decide) (by norm_num [cfg, nsPerMs]) (by decide) (by decide)
    hplain hexact
  refine ⟨results, hresults, (hquotes _).mp ?_⟩
  have hcross : pairCross cfg 5000000 (quoted .okx 300 400) (quoted .bybit 100 200) =
      some { sellVenue := "okx", buyVenue := "bybit", sellBidTick := 300, buyAskTick := 200
             spreadBps := 4000, netSpreadBps := 4000, tsDetectedNs := 5000000
             sellTsBookNs := 0, buyTsBookNs := 0 } := by
    norm_num [pairCross, cfg, unfiltered, quoted, quotedBook, VenueBook.book, OrderBook.bestBid,
      OrderBook.bestAsk, oneLot, ArbDetectorConfig.feeFor, wrap64, Int.bmod, Feed.VenueId.name]
  have hscan (cross : ArbCross) : cross ∈ (scan cfg 5000000 venues ArbDetector.new).2 ↔ _ :=
    mem_scan_iff hplain.rateLimit hplain.deviation (by decide) (by decide) (by decide)
  have hseller : quoted .okx 300 400 ∈ venues := List.mem_cons_self ..
  have hbuyer : quoted .bybit 100 200 ∈ venues := by simp [venues]
  exact List.mem_map.mpr ⟨_, (hscan _).mpr ⟨_, hseller, _, hbuyer, by decide, hcross⟩,
    by norm_num [ArbCross.quote]⟩

end ZidaBot.Brain
