/-
Module: ZidaBot.Proofs.ArbDetector
Purpose: Where a cross comes from.  Each cross of a scan names two different positions of the scanned
  vector whose books passed every guard; nothing compares their symbols, so which instruments a cross pairs
  is decided by the fleet that feeds the books.
Trusted boundary: none
Main exports: Sound, mem_detections, PairsOneInstrument, CrossesPairOneInstrument, OneFeedPerVenue,
  crosses_pair_one_instrument_iff
-/
import ZidaBot.Feed.Venue
import ZidaBot.Proofs.OrderBookController
import ZidaBot.Proofs.Scan
import ZidaBot.Proofs.UnifiedBook
import ZidaBot.Proofs.Wire
import Mathlib.Tactic.NormNum

namespace ZidaBot.Brain

/-!
### Every detection is sound

The rate limiter can only suppress detections, so soundness is a fact about the two loops, from any state of
the limiter.
-/

section Sound

variable {cfg : ArbDetectorConfig} {tsNow : Int} {venues : List VenueBook}

/-- A detection names two different synced books of the vector, and its cross is theirs. -/
structure Sound (cfg : ArbDetectorConfig) (tsNow : Int) (venues : List VenueBook) (d : Detection) :
    Prop where
  distinct : d.si ≠ d.bi
  books : ∃ sv bv, venues[d.si]? = some sv ∧ venues[d.bi]? = some bv ∧
    sv.synced = true ∧ bv.synced = true ∧ pairCross cfg tsNow sv bv = some d.cross

/-- Everything found so far is sound. -/
def AllSound (cfg : ArbDetectorConfig) (tsNow : Int) (venues : List VenueBook)
    (acc : ArbDetector × List Detection) : Prop :=
  ∀ d ∈ acc.2, Sound cfg tsNow venues d

theorem sound_of_take {d : Detection} (sound : Sound cfg tsNow (venues.take kMaxVenues) d) :
    Sound cfg tsNow venues d := by
  obtain ⟨sv, bv, hseller, hbuyer, hrest⟩ := sound.books
  refine ⟨sound.distinct, sv, bv, ?_, ?_, hrest⟩
  · rw [List.getElem?_take] at hseller
    split at hseller <;> simp_all
  · rw [List.getElem?_take] at hbuyer
    split at hbuyer <;> simp_all

/-- What passes the limiter was found by the two loops, whatever the limiter has seen before. -/
theorem allSound_detections (d : ArbDetector) : AllSound cfg tsNow venues (detections cfg tsNow venues d) := by
  intro found mem
  rw [detections_eq] at mem
  have hcandidate := (mem_of_mem_offers mem).resolve_left List.not_mem_nil
  obtain ⟨sv, bv, hseller, hbuyer, hne, hsell, hbuy, -, -, hcross⟩ := mem_candidates.mp hcandidate
  exact sound_of_take ⟨Ne.symm hne, sv, bv, hseller, hbuyer, hsell, hbuy, hcross⟩

/-- Every detection of a scan is sound. -/
theorem mem_detections {d : ArbDetector} {found : Detection}
    (mem : found ∈ (detections cfg tsNow venues d).2) : Sound cfg tsNow venues found :=
  allSound_detections d found mem

end Sound

/-!
### Crosses of a fleet

The detector compares venues and never symbols. A fleet is safe exactly if it leaves the detector nothing to
confuse.
-/

open Feed

/-- The cross is between two venues, and all feeds of its two books carry one instrument. -/
def PairsOneInstrument (fleet : List Pop) (venues : List VenueBook) (d : Detection) : Prop :=
  d.cross.sellVenue ≠ d.cross.buyVenue ∧
    ∀ sv bv, venues[d.si]? = some sv → venues[d.bi]? = some bv →
      ∀ p ∈ fleet, ∀ q ∈ fleet, p.key = sv.key → q.key = bv.key → p.SameInstrument q

/-- Every event that is routed at all carries the venue and the symbol of a feed of the fleet. -/
def FromFleet (fleet : List Pop) (j : Json) : Prop :=
  UnifiedBook.RoutedTo (fun key => ∃ p ∈ fleet, p.key = key) j

/-- Whatever the fleet sends, and however the detector is configured and has been used before, each cross
    of a scan pairs one instrument on two venues. -/
def CrossesPairOneInstrument (fleet : List Pop) (depth : Nat) (depth_pos : 0 < depth) : Prop :=
  ∀ events : List (Int × Json), (∀ event ∈ events, FromFleet fleet event.2) →
    ∀ (cfg : ArbDetectorConfig) (tsNow : Int) (d : ArbDetector),
      let venues := (Runs.run UnifiedBook.step (UnifiedBook.new depth depth_pos) events).venues
      ∀ found ∈ (detections cfg tsNow venues d).2, PairsOneInstrument fleet venues found

/-- Feeds that do not share a book are on different venues and carry the same instrument. -/
def OneFeedPerVenue (fleet : List Pop) : Prop :=
  ∀ p ∈ fleet, ∀ q ∈ fleet, p.key ≠ q.key → p.venue ≠ q.venue ∧ p.SameInstrument q

theorem pairsOneInstrument_of_fleet {fleet : List Pop} (one : OneFeedPerVenue fleet)
    {ub : UnifiedBook} (keysFrom : ub.KeysFrom fun key => ∃ p ∈ fleet, p.key = key)
    {cfg : ArbDetectorConfig} {tsNow : Int} {found : Detection}
    (sound : Sound cfg tsNow ub.venues found) : PairsOneInstrument fleet ub.venues found := by
  obtain ⟨sv, bv, hseller, hbuyer, -, -, hcross⟩ := sound.books
  -- two positions with pairwise distinct keys hold books of different keys
  have hkeys : sv.key ≠ bv.key := by
    intro hsame
    have hsell : ub.keys[found.si]? = some sv.key := by
      rw [UnifiedBook.keys, List.getElem?_map]
      exact congrArg (Option.map VenueBook.key) hseller
    have hbuy : ub.keys[found.bi]? = some sv.key := by
      rw [UnifiedBook.keys, List.getElem?_map, hsame]
      exact congrArg (Option.map VenueBook.key) hbuyer
    have hlt : found.si < ub.keys.length := (List.getElem?_eq_some_iff.mp hsell).1
    exact sound.distinct ((List.getElem?_inj hlt keysFrom.nodup).mp (hsell.trans hbuy.symm))
  have horigin : ∀ {i : Nat} {vb : VenueBook}, ub.venues[i]? = some vb → ∃ p ∈ fleet, p.key = vb.key := by
    intro i vb hvb
    exact keysFrom.origin vb.key (List.mem_map_of_mem (List.mem_of_getElem? hvb))
  obtain ⟨p, hp, hpkey⟩ := horigin hseller
  obtain ⟨q, hq, hqkey⟩ := horigin hbuyer
  obtain ⟨hsellVenue, hbuyVenue⟩ := pairCross_venues hcross
  refine ⟨?_, ?_⟩
  · intro hsame
    rw [hsellVenue, hbuyVenue] at hsame
    have hnames : p.venue.name = q.venue.name := by
      have h1 : p.venue.name = sv.venueName := congrArg Prod.fst hpkey
      have h2 : q.venue.name = bv.venueName := congrArg Prod.fst hqkey
      rw [h1, h2, hsame]
    exact (one p hp q hq (by rwa [hpkey, hqkey])).1 (VenueId.name_inj hnames)
  · intro sv' bv' hsv' hbv' p' hp' q' hq' hpkey' hqkey'
    obtain rfl : sv = sv' := Option.some.inj (hseller.symm.trans hsv')
    obtain rfl : bv = bv' := Option.some.inj (hbuyer.symm.trans hbv')
    exact (one p' hp' q' hq' (by rwa [hpkey', hqkey'])).2

/-!
### Two feeds that cross

For the converse two feeds are needed that do produce a cross: one snapshot each, at prices that cross, is
enough for any two feeds that do not share a book.
-/

section TwoFeeds

/-- A level of one lot. -/
def oneLot (tick : Int) : Level := { priceTick := tick, quantityLot := 1, price := "", quantity := "" }

theorem oneLot_acceptable {tick : Int} (pos : 0 < tick) (range : tick < 2 ^ 63) :
    (oneLot tick).Acceptable :=
  ⟨⟨by simp only [oneLot]; omega, range⟩, show InInt64 1 by decide, Int.one_nonneg, fun _ => pos⟩

/-- A snapshot of one bid and one ask. -/
def quote (bid ask : Int) : GenericSnapshotFormat :=
  { lastUpdateId := 1, tsRecvNs := 0, checksum := 0, bids := [oneLot bid], asks := [oneLot ask] }

/-- The book of such a snapshot. -/
theorem loadSnapshot_quote (depth : Nat) (depth_pos : 0 < depth) (bid ask : Int) :
    OrderBookController.loadSnapshot (OrderBook.empty depth depth_pos) (quote bid ask) =
      { depth := depth, bids := [oneLot bid], asks := [oneLot ask], depth_pos := depth_pos } := by
  simp [OrderBookController.loadSnapshot, OrderBookController.updateAll,
    OrderBookController.snapshotLevels, quote, oneLot, Level.isEmpty, OrderBook.clear, OrderBook.empty,
    OrderBook.update, OrderBook.placeIn, OrderBook.setSide, OrderBook.side, OrderBook.lowerBound,
    SortedSeq.lowerBound, SortedSeq.lowerBoundLoop, depth_pos]

/-- The frame with which a feed publishes such a snapshot. -/
def quoteFrame (pop : Pop) (bid ask : Int) : Json :=
  (PubEvent.snapshot (quote bid ask) "ws_snapshot").toJson
    { venue := pop.venue.name, symbol := pop.symbol, persistSeq := 1, nowNs := 0 }

/-- The book of a feed after its first snapshot. -/
def quotedBook (pop : Pop) (depth : Nat) (depth_pos : 0 < depth) (bid ask : Int) : VenueBook :=
  { venueName := pop.venue.name, symbol := pop.symbol
    controller :=
      { book := { depth := depth, bids := [oneLot bid], asks := [oneLot ask], depth_pos := depth_pos }
        state := .synced, lastSeq := 1, expectedSeq := 2, validateCounter := 0 }
    tsBookNs := 0, feedHealthy := true }

theorem routed_quoteFrame (pop : Pop) (bid ask : Int) :
    UnifiedBook.Routed (quoteFrame pop bid ask)
      { schemaVersion := 1, eventType := "snapshot", venue := pop.venue.name, symbol := pop.symbol } :=
  ⟨parseHeader_toJson _ _, pop.venue.name_ne_empty, by simp⟩

theorem fromFleet_quoteFrame {fleet : List Pop} {pop : Pop} (mem : pop ∈ fleet) (bid ask : Int) :
    FromFleet fleet (quoteFrame pop bid ask) := by
  intro hdr routed
  have hhdr := routed.header.symm.trans (routed_quoteFrame pop bid ask).header
  cases hhdr
  exact ⟨pop, mem, rfl⟩

/-- The same snapshot, received at the given time. -/
def stampedFrame (pop : Pop) (bid ask ts : Int) : Json :=
  (PubEvent.snapshot { quote bid ask with tsRecvNs := ts } "ws_snapshot").toJson
    { venue := pop.venue.name, symbol := pop.symbol, persistSeq := 1, nowNs := 0 }

theorem routed_stampedFrame (pop : Pop) (bid ask ts : Int) :
    UnifiedBook.Routed (stampedFrame pop bid ask ts)
      { schemaVersion := 1, eventType := "snapshot", venue := pop.venue.name, symbol := pop.symbol } :=
  ⟨parseHeader_toJson _ _, pop.venue.name_ne_empty, by simp⟩

theorem parseSnapshot_stampedFrame (pop : Pop) {bid ask ts : Int} (bid_pos : 0 < bid) (bid_lt : bid < 2 ^ 63)
    (ask_pos : 0 < ask) (ask_lt : ask < 2 ^ 63) (range : InInt64 ts) :
    parseSnapshot (stampedFrame pop bid ask ts) = .ok { quote bid ask with tsRecvNs := ts } := by
  have hok : AllAcceptable (quote bid ask).bids (quote bid ask).asks := by
    constructor
    · simpa [quote] using oneLot_acceptable bid_pos bid_lt
    · simpa [quote] using oneLot_acceptable ask_pos ask_lt
  have hparse := @parseSnapshot_toJson { quote bid ask with tsRecvNs := ts } hok
    { venue := pop.venue.name, symbol := pop.symbol, persistSeq := 1, nowNs := 0 } "ws_snapshot"
  rw [wrap64_of_inInt64 range] at hparse
  exact hparse

variable {depth : Nat} {depth_pos : 0 < depth}

theorem onEvent_stampedFrame (pop : Pop) {bid ask ts now : Int} (bid_pos : 0 < bid) (bid_lt : bid < 2 ^ 63)
    (ask_pos : 0 < ask) (ask_lt : ask < 2 ^ 63) (range : InInt64 ts) (hdr : EventHeader)
    (snapshot : hdr.eventType = "snapshot") :
    ((VenueBook.new pop.venue.name pop.symbol depth depth_pos).onEvent now hdr
        (stampedFrame pop bid ask ts)).1 =
      { quotedBook pop depth depth_pos bid ask with tsBookNs := sanitizeTs now ts } := by
  rw [VenueBook.onEvent, if_pos snapshot, parseSnapshot_stampedFrame pop bid_pos bid_lt ask_pos ask_lt range]
  dsimp only
  rw [OrderBookController.onSnapshot_of_no_checksum rfl]
  have hbook := loadSnapshot_quote depth depth_pos bid ask
  simp only [VenueBook.new, OrderBookController.new, OrderBookController.loaded, quotedBook]
  rw [OrderBookController.loadSnapshot] at hbook
  simp only [OrderBookController.loadSnapshot, hbook]
  rfl

/-- The first snapshot of a feed appends its book. -/
theorem step_stampedFrame (pop : Pop) {bid ask ts now : Int} (bid_pos : 0 < bid) (bid_lt : bid < 2 ^ 63)
    (ask_pos : 0 < ask) (ask_lt : ask < 2 ^ 63) (range : InInt64 ts) {ub : UnifiedBook}
    (absent : pop.key ∉ ub.keys) :
    ub.step (now, stampedFrame pop bid ask ts) =
      { ub with
        books := ub.books ++
          [{ quotedBook pop ub.depth ub.depth_pos bid ask with tsBookNs := sanitizeTs now ts }] } := by
  rw [UnifiedBook.step, UnifiedBook.onEvent_fresh (routed_stampedFrame pop bid ask ts) absent,
    onEvent_stampedFrame pop bid_pos bid_lt ask_pos ask_lt range _ rfl]

/-- The books after one snapshot of each of two feeds with different keys. -/
theorem run_two_stamped {p q : Pop} (keys : p.key ≠ q.key) {now tsP tsQ : Int} (rangeP : InInt64 tsP)
    (rangeQ : InInt64 tsQ) :
    (Runs.run UnifiedBook.step (UnifiedBook.new depth depth_pos)
        [(now, stampedFrame p 300 400 tsP), (now, stampedFrame q 100 200 tsQ)]).venues =
      [{ quotedBook p depth depth_pos 300 400 with tsBookNs := sanitizeTs now tsP },
        { quotedBook q depth depth_pos 100 200 with tsBookNs := sanitizeTs now tsQ }] := by
  rw [Runs.run_cons, Runs.run_cons, Runs.run_nil,
    step_stampedFrame p (by decide) (by decide) (by decide) (by decide) rangeP List.not_mem_nil,
    step_stampedFrame q (by decide) (by decide) (by decide) (by decide) rangeQ]
  · rfl
  · intro hmem
    exact keys (List.mem_singleton.mp hmem).symm

theorem run_two_quotes {p q : Pop} (keys : p.key ≠ q.key) :
    (Runs.run UnifiedBook.step (UnifiedBook.new depth depth_pos)
        [(0, quoteFrame p 300 400), (0, quoteFrame q 100 200)]).venues =
      [quotedBook p depth depth_pos 300 400, quotedBook q depth depth_pos 100 200] :=
  run_two_stamped keys (by decide) (by decide)

/-- A detector without any filter. -/
def unfiltered : ArbDetectorConfig :=
  { minSpreadBps := 0, maxSpreadBps := 0, rateLimitNs := 0, maxAgeDiffNs := 0, maxPriceDeviationPct := 0,
    venueFeeBps := [] }

theorem pairCross_quoted (depth : Nat) (depth_pos : 0 < depth) (p q : Pop) :
    ∃ cross, pairCross unfiltered 0 (quotedBook p depth depth_pos 300 400)
      (quotedBook q depth depth_pos 100 200) = some cross := by
  norm_num [pairCross, unfiltered, quotedBook, VenueBook.book, OrderBook.bestBid, OrderBook.bestAsk,
    oneLot, ArbDetectorConfig.feeFor, wrap64, Int.bmod]

/-- The scan of the two books finds that cross. -/
theorem detections_two_quotes (depth : Nat) (depth_pos : 0 < depth) (p q : Pop) :
    ∃ found ∈ (detections unfiltered 0
        [quotedBook p depth depth_pos 300 400, quotedBook q depth depth_pos 100 200]
        ArbDetector.new).2,
      found.si = 0 ∧ found.bi = 1 := by
  obtain ⟨cross, hcross⟩ := pairCross_quoted depth depth_pos p q
  refine ⟨{ si := 0, bi := 1, cross := cross }, ?_, rfl, rfl⟩
  rw [detections_unlimited (by decide)]
  exact mem_candidates.mpr ⟨_, _, rfl, rfl, Nat.one_ne_zero, rfl, rfl, rfl, rfl, hcross⟩

/-- Two feeds of a fleet that do not share a book, and differ in the instrument or not in the venue, can
    make the detector return a cross between them. -/
theorem crossesPair_of_two {fleet : List Pop} (all : CrossesPairOneInstrument fleet depth depth_pos)
    {p q : Pop} (hp : p ∈ fleet) (hq : q ∈ fleet) (keys : p.key ≠ q.key) :
    p.venue ≠ q.venue ∧ p.SameInstrument q := by
  obtain ⟨found, hfound, hsi, hbi⟩ := detections_two_quotes depth depth_pos p q
  have hevents : ∀ event ∈ [((0 : Int), quoteFrame p 300 400), (0, quoteFrame q 100 200)],
      FromFleet fleet event.2 := by
    intro event hevent
    simp only [List.mem_cons, List.not_mem_nil, or_false] at hevent
    rcases hevent with rfl | rfl
    · exact fromFleet_quoteFrame hp 300 400
    · exact fromFleet_quoteFrame hq 100 200
  have hpairs := all _ hevents unfiltered 0 ArbDetector.new
  rw [run_two_quotes keys] at hpairs
  obtain ⟨hvenues, hinstrument⟩ := hpairs found hfound
  obtain ⟨sv, bv, hseller, hbuyer, -, -, hcross⟩ := (mem_detections hfound).books
  rw [hsi] at hseller
  rw [hbi] at hbuyer
  cases hseller
  cases hbuyer
  refine ⟨?_, hinstrument _ _ (by rw [hsi]; rfl) (by rw [hbi]; rfl) p hp q hq rfl rfl⟩
  intro hsame
  obtain ⟨hsellVenue, hbuyVenue⟩ := pairCross_venues hcross
  rw [hsellVenue, hbuyVenue] at hvenues
  exact hvenues (congrArg VenueId.name hsame)

end TwoFeeds

/-!
### Result
-/

/-- Every cross pairs one instrument on two venues exactly for the fleets in which feeds of different books
    are on different venues and carry the same instrument.  The scan itself compares all pairs of books,
    whatever their symbols and venues. -/
theorem crosses_pair_one_instrument_iff (fleet : List Pop) (depth : Nat) (depth_pos : 0 < depth) :
    CrossesPairOneInstrument fleet depth depth_pos ↔ OneFeedPerVenue fleet := by
  constructor
  · intro all p hp q hq keys
    exact crossesPair_of_two all hp hq keys
  · intro one events hevents cfg tsNow d venues found hfound
    exact pairsOneInstrument_of_fleet one (UnifiedBook.keysFrom_run depth depth_pos hevents)
      (mem_detections hfound)

theorem toUpper_btc : "btc".toUpper = "BTC" ∧ "BTC".toUpper = "BTC" :=
  ⟨by decide +kernel, by decide +kernel⟩

theorem toUpper_usdt : "usdt".toUpper = "USDT" ∧ "USDT".toUpper = "USDT" :=
  ⟨by decide +kernel, by decide +kernel⟩

/-- One instrument on two venues, in different letter case. -/
theorem crosses_pair_one_instrument_two_venues :
    CrossesPairOneInstrument [⟨.binance, "btc", "usdt"⟩, ⟨.okx, "BTC", "USDT"⟩] 400 (by decide) :=
  (crosses_pair_one_instrument_iff _ 400 (by decide)).mpr <| by
    intro p hp q hq keys
    simp only [List.mem_cons, List.not_mem_nil, or_false] at hp hq
    have hbtc := toUpper_btc.1.trans toUpper_btc.2.symm
    have husdt := toUpper_usdt.1.trans toUpper_usdt.2.symm
    rcases hp with rfl | rfl <;> rcases hq with rfl | rfl
    · exact (keys rfl).elim
    · exact ⟨by decide, hbtc, husdt⟩
    · exact ⟨by decide, hbtc.symm, husdt.symm⟩
    · exact (keys rfl).elim

/-- Bitcoin on one venue and ether on another: a snapshot of each is enough for a cross between them. -/
theorem cross_of_two_instruments :
    ¬ CrossesPairOneInstrument [⟨.binance, "BTC", "USDT"⟩, ⟨.okx, "ETH", "USDT"⟩] 400 (by decide) := by
  intro all
  have h := crossesPair_of_two all (List.mem_cons_self ..)
    (List.mem_cons_of_mem _ (List.mem_cons_self ..)) (by simp [Pop.key, VenueId.name])
  have heth : "ETH".toUpper = "ETH" := by decide +kernel
  have hsame : "BTC".toUpper = "ETH".toUpper := h.2.1
  rw [toUpper_btc.2, heth] at hsame
  exact absurd hsame (by decide)

end ZidaBot.Brain
