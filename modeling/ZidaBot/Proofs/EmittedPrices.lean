/-
Module: ZidaBot.Proofs.EmittedPrices
Purpose: The prices of emitted crosses, from the frames to the signals.  The parser of the brain refuses a
  resting level without a positive price, and reads 64-bit integers, so every level in every book of the
  brain has a positive 64-bit price.  On such prices the arithmetic of a scan is exact wherever it matters:
  the only sum that can overflow then looks negative, and the guard on the mid price drops the pair.
Trusted boundary: none
Main exports: OrderBook.Ticks, PricedTick, UnifiedBook.forall_onEvent, priced_run, WellPriced,
  emitted_well_priced
-/
import ZidaBot.Proofs.ScanThread
import ZidaBot.Proofs.Staleness
import ZidaBot.Proofs.CrossedBook
import ZidaBot.Proofs.TopOfBook

namespace ZidaBot

/-!
### A property of all resting ticks

Ticks enter a book with the levels of messages and nowhere else.
-/

namespace OrderBook

variable {P : Int → Prop} {book : OrderBook}

/-- Every resting tick of the book has the property. -/
def Ticks (P : Int → Prop) (book : OrderBook) : Prop := ∀ s, ∀ level ∈ book.side s, P level.priceTick

theorem Ticks.clear (P : Int → Prop) (book : OrderBook) : book.clear.Ticks P := by
  intro s level hlevel
  rw [side_clear] at hlevel
  cases hlevel

theorem Ticks.update (ticks : book.Ticks P) (s : Side) {level : Level}
    (resting : level.quantityLot ≠ 0 → P level.priceTick) : (book.update s level).Ticks P := by
  intro s' l hl
  by_cases hside : s' = s
  · subst hside
    rw [OrderBook.update] at hl
    split at hl
    · rw [remove, side_setSide_self] at hl
      exact ticks s' l (mem_of_mem_removeFrom hl)
    · rename_i hresting
      have hquantity : level.quantityLot ≠ 0 := by simpa [Level.isEmpty] using hresting
      rw [side_setSide_self] at hl
      rcases of_mem_placeIn hl with hold | rfl | ⟨found, hfound, htick, rfl⟩
      · exact ticks s' l hold
      · exact resting hquantity
      · exact ticks s' found hfound
  · rw [side_update_of_ne hside] at hl
    exact ticks s' l hl

end OrderBook

namespace OrderBookController

open OrderBook

variable {P : Int → Prop}

/-- The levels of a message that say where an order rests have the property. -/
def RestingTicks (P : Int → Prop) (levels : List Level) : Prop :=
  ∀ level ∈ levels, level.quantityLot ≠ 0 → P level.priceTick

theorem ticks_updateAll {book : OrderBook} (ticks : book.Ticks P) (s : Side) {levels : List Level}
    (resting : RestingTicks P levels) : (updateAll s book levels).Ticks P := by
  induction levels generalizing book with
  | nil => exact ticks
  | cons level levels ih =>
      exact ih (ticks.update s (resting level (List.mem_cons_self ..)))
        fun l hl => resting l (List.mem_cons_of_mem level hl)

theorem ticks_loadSnapshot (book : OrderBook) {msg : GenericSnapshotFormat} (bids : RestingTicks P msg.bids)
    (asks : RestingTicks P msg.asks) : (loadSnapshot book msg).Ticks P := by
  have hsorted : ∀ s levels, RestingTicks P levels → RestingTicks P (snapshotLevels s levels) :=
    fun s levels resting level hlevel => resting level (mem_snapshotLevels.mp hlevel).1
  exact ticks_updateAll (ticks_updateAll (Ticks.clear P book) .bid (hsorted .bid _ bids)) .ask
    (hsorted .ask _ asks)

theorem ticks_onSnapshot (cfg : ControllerConfig) (c : OrderBookController) {msg : GenericSnapshotFormat}
    (kind : BaselineKind) (bids : RestingTicks P msg.bids) (asks : RestingTicks P msg.asks) :
    (c.onSnapshot cfg msg kind).1.book.Ticks P := by
  rcases onSnapshot_cases cfg c msg kind with ⟨hreset, -⟩ | hloaded
  · rw [hreset]
    exact Ticks.clear P c.book
  · rw [hloaded]
    exact ticks_loadSnapshot c.book bids asks

theorem ticks_onIncrement (cfg : ControllerConfig) {c : OrderBookController} {msg : GenericIncrementalFormat}
    (ticks : c.book.Ticks P) (bids : RestingTicks P msg.bids) (asks : RestingTicks P msg.asks) :
    (c.onIncrement cfg msg).1.book.Ticks P := by
  have hcase := onIncrement_cases cfg c msg
  generalize c.onIncrement cfg msg = outcome at hcase
  cases hcase with
  | skipped reason => exact ticks
  | resynced reason counter => exact Ticks.clear P c.book
  | applied counter => exact ticks_updateAll (ticks_updateAll ticks .bid bids) .ask asks

end OrderBookController

namespace Brain

open OrderBookController

/-!
### What the parser lets through

`parse_level` reads a 64-bit tick and refuses one that is not positive where a quantity rests.
-/

/-- A positive 64-bit price. -/
def PricedTick (tick : Int) : Prop := 0 < tick ∧ InInt64 tick

theorem priced_of_parseLevel {j : Json} {level : Level} (parsed : parseLevel j = .ok level)
    (resting : level.quantityLot ≠ 0) : PricedTick level.priceTick := by
  simp only [parseLevel, bind_ok_iff] at parsed
  obtain ⟨priceTick, hprice, quantityLot, -, price, -, quantity, -, parsed⟩ := parsed
  split at parsed
  · cases parsed
  · rename_i hsign
    split at parsed
    · cases parsed
    · rename_i hpositive
      obtain rfl := pure_ok_iff.mp parsed
      have hquantity : 0 < quantityLot := lt_of_le_of_ne (not_lt.mp hsign) (Ne.symm resting)
      exact ⟨not_le.mp fun hlow => hpositive ⟨hquantity, hlow⟩, inInt64_of_value hprice⟩

theorem priced_of_parseLevels {j : Json} {levels : List Level} (parsed : parseLevels j = .ok levels) :
    RestingTicks PricedTick levels := by
  have hall : ∀ (items : List Json) levels, items.mapM parseLevel = .ok levels →
      RestingTicks PricedTick levels := by
    intro items
    induction items with
    | nil =>
        intro levels hparsed level hlevel
        rw [List.mapM_nil, pure_ok_iff] at hparsed
        rw [← hparsed] at hlevel
        cases hlevel
    | cons item items ih =>
        intro levels hparsed level hlevel
        rw [List.mapM_cons, bind_ok_iff] at hparsed
        obtain ⟨first, hfirst, hparsed⟩ := hparsed
        obtain ⟨rest, hrest, hparsed⟩ := bind_ok_iff.mp hparsed
        rw [← pure_ok_iff.mp hparsed] at hlevel
        rcases List.mem_cons.mp hlevel with rfl | hlevel
        · exact priced_of_parseLevel hfirst
        · exact ih rest hrest level hlevel
  have hnone : RestingTicks PricedTick [] := fun level hlevel => (by cases hlevel)
  cases j with
  | array items => exact hall items levels parsed
  | _ => exact Except.ok.inj parsed ▸ hnone

theorem priced_of_parseSnapshot {j : Json} {snap : GenericSnapshotFormat} (parsed : parseSnapshot j = .ok snap) :
    RestingTicks PricedTick snap.bids ∧ RestingTicks PricedTick snap.asks := by
  simp only [parseSnapshot, bind_ok_iff, pure_ok_iff] at parsed
  obtain ⟨-, -, -, -, -, -, _, -, bids, hbids, _, -, asks, hasks, rfl⟩ := parsed
  exact ⟨priced_of_parseLevels hbids, priced_of_parseLevels hasks⟩

theorem priced_of_parseIncremental {j : Json} {inc : GenericIncrementalFormat}
    (parsed : parseIncremental j = .ok inc) :
    RestingTicks PricedTick inc.bids ∧ RestingTicks PricedTick inc.asks := by
  simp only [parseIncremental, bind_ok_iff, pure_ok_iff] at parsed
  obtain ⟨-, -, -, -, -, -, -, -, -, -, _, -, bids, hbids, _, -, asks, hasks, rfl⟩ := parsed
  exact ⟨priced_of_parseLevels hbids, priced_of_parseLevels hasks⟩

theorem priced_of_parseBookState {j : Json} {snap : GenericSnapshotFormat}
    (parsed : parseBookStateAsSnapshot j = .ok snap) :
    RestingTicks PricedTick snap.bids ∧ RestingTicks PricedTick snap.asks := by
  simp only [parseBookStateAsSnapshot, bind_ok_iff, pure_ok_iff] at parsed
  obtain ⟨-, -, -, -, _, -, bids, hbids, _, -, asks, hasks, rfl⟩ := parsed
  exact ⟨priced_of_parseLevels hbids, priced_of_parseLevels hasks⟩

/-!
### The books of the brain

Books are changed by events that were parsed. The levels of a removal may have any tick, but they leave
nothing behind.
-/

/-- Every level that rests in the book has a positive 64-bit price. -/
def Priced (vb : VenueBook) : Prop := vb.book.Ticks PricedTick

theorem priced_new (venue symbol : String) (depth : Nat) (depth_pos : 0 < depth) :
    Priced (VenueBook.new venue symbol depth depth_pos) :=
  OrderBook.Ticks.clear PricedTick (OrderBook.empty depth depth_pos)

theorem priced_onEvent {vb : VenueBook} (priced : Priced vb) (now : Int) (hdr : EventHeader) (j : Json) :
    Priced (vb.onEvent now hdr j).1 := by
  rw [VenueBook.onEvent]
  split
  · cases hparse : parseSnapshot j with
    | error err => exact priced
    | ok snap =>
        obtain ⟨hbids, hasks⟩ := priced_of_parseSnapshot hparse
        exact ticks_onSnapshot venueBookConfig vb.controller .wsAuthoritative hbids hasks
  · split
    · cases hparse : parseIncremental j with
      | error err => exact priced
      | ok inc =>
          obtain ⟨hbids, hasks⟩ := priced_of_parseIncremental hparse
          exact ticks_onIncrement venueBookConfig priced hbids hasks
    · split
      · cases extractTsBookNs j with
        | error err => exact priced
        | ok ts =>
            dsimp only
            cases hparse : parseBookStateAsSnapshot j with
            | error err => exact priced
            | ok snap =>
                obtain ⟨hbids, hasks⟩ := priced_of_parseBookState hparse
                exact ticks_onSnapshot venueBookConfig vb.controller .wsAuthoritative hbids hasks
      · split
        · split
          · split
            · exact OrderBook.Ticks.clear PricedTick vb.book
            · exact priced
          · exact priced
        · exact priced

/-- What a fresh book has and every event keeps, all books have. -/
theorem UnifiedBook.forall_onEvent {property : VenueBook → Prop} {ub : UnifiedBook} {now : Int} {j : Json}
    (fresh : ∀ venue symbol, property (VenueBook.new venue symbol ub.depth ub.depth_pos))
    (kept : ∀ vb hdr, property vb → property (vb.onEvent now hdr j).1)
    (all : ∀ vb ∈ ub.books, property vb) : ∀ vb ∈ (ub.onEvent now j).1.books, property vb := by
  by_cases hrouted : ∃ hdr, UnifiedBook.Routed j hdr
  · obtain ⟨hdr, routed⟩ := hrouted
    by_cases hpresent : UnifiedBook.headerKey hdr ∈ ub.keys
    · obtain ⟨before, vb, after, hbooks, hkey, hfirst⟩ := UnifiedBook.exists_first hpresent
      rw [hbooks] at all
      rw [UnifiedBook.onEvent_known routed hbooks hkey hfirst]
      intro v hv
      rcases List.mem_append.mp hv with hv | hv
      · exact all v (List.mem_append_left _ hv)
      · rcases List.mem_cons.mp hv with rfl | hv
        · exact kept vb hdr (all vb (by simp))
        · exact all v (by simp [hv])
    · rw [UnifiedBook.onEvent_fresh routed hpresent]
      intro v hv
      rcases List.mem_append.mp hv with hv | hv
      · exact all v hv
      · rw [List.mem_singleton.mp hv]
        exact kept _ hdr (fresh _ _)
  · rw [UnifiedBook.onEvent_refused fun hdr routed => hrouted ⟨hdr, routed⟩]
    exact all

/-!
### The arithmetic of a scan

With positive 64-bit prices a difference cannot overflow. A sum can, and is then negative, so that the guard
on the mid price drops the pair; whatever passes has an exact sum.
-/

/-- The price of the best level, or zero on an empty side. -/
theorem priced_best {vb : VenueBook} (priced : Priced vb) :
    (vb.book.bestBid.priceTick = 0 ∨ PricedTick vb.book.bestBid.priceTick) ∧
      (vb.book.bestAsk.priceTick = 0 ∨ PricedTick vb.book.bestAsk.priceTick) := by
  have hhead : ∀ levels : List Level, (∀ level ∈ levels, PricedTick level.priceTick) →
      (levels.headD OrderBook.emptyLevel).priceTick = 0 ∨
        PricedTick (levels.headD OrderBook.emptyLevel).priceTick := by
    intro levels hpriced
    cases levels with
    | nil => exact Or.inl rfl
    | cons top rest => exact Or.inr (hpriced top (List.mem_cons_self ..))
  exact ⟨hhead _ (priced .bid), hhead _ (priced .ask)⟩

/-- A sum of two prices that does not fit is negative as the source computes it. -/
theorem sum_lt_of_pos {a b : Int} (first : PricedTick a) (second : PricedTick b) (positive : 0 < wrap64 (a + b)) :
    a + b < 2 ^ 63 := by
  obtain ⟨hapos, -, ha⟩ := first
  obtain ⟨hbpos, -, hb⟩ := second
  by_contra hlarge
  rw [wrap64, Int.bmod_def] at positive
  omega

/-- What an emitted cross says about its prices; all of it is exact arithmetic. -/
structure WellPriced (cfg : ArbDetectorConfig) (c : ArbCross) : Prop where
  ask_pos : 0 < c.buyAskTick
  crossed : c.buyAskTick < c.sellBidTick
  noOverflow : c.sellBidTick + c.buyAskTick < 2 ^ 63
  spread : c.spreadBps =
    (c.sellBidTick - c.buyAskTick : ℚ) / ((c.sellBidTick + c.buyAskTick : ℚ) / 2) * 10000
  net : c.netSpreadBps = c.spreadBps - cfg.feeFor c.sellVenue - cfg.feeFor c.buyVenue
  enough : cfg.minSpreadBps ≤ c.netSpreadBps
  sane : 0 < cfg.maxSpreadBps → c.spreadBps ≤ cfg.maxSpreadBps

/-- The guards of a pair of books with positive 64-bit prices. -/
theorem wellPriced_of_pairCross {cfg : ArbDetectorConfig} {tsNow : Int} {sv bv : VenueBook} {c : ArbCross}
    (seller : Priced sv) (buyer : Priced bv) (found : pairCross cfg tsNow sv bv = some c) : WellPriced cfg c := by
  have hbid := (priced_best seller).1
  have hask := (priced_best buyer).2
  rw [pairCross] at found
  dsimp only at found
  split at found
  · cases found
  rename_i hresting
  split at found
  · cases found
  rename_i hcrossed
  split at found
  · cases found
  split at found
  · cases found
  rename_i hmid
  split at found
  · cases found
  rename_i hsane
  split at found
  · cases found
  rename_i henough
  have hbid := hbid.resolve_left fun hzero => hresting (Or.inl hzero)
  have hask := hask.resolve_left fun hzero => hresting (Or.inr hzero)
  have hcrossed : bv.book.bestAsk.priceTick < sv.book.bestBid.priceTick := not_le.mp hcrossed
  have hsum : 0 < wrap64 (sv.book.bestBid.priceTick + bv.book.bestAsk.priceTick) := by
    by_contra hlow
    have hrat : (wrap64 (sv.book.bestBid.priceTick + bv.book.bestAsk.priceTick) : ℚ) ≤ 0 :=
      Int.cast_nonpos.mpr (not_lt.mp hlow)
    exact hmid (by linarith)
  have hfits := sum_lt_of_pos hbid hask hsum
  obtain ⟨hbidPos, -, hbidHigh⟩ := hbid
  obtain ⟨haskPos, -, -⟩ := hask
  have hwrapSum := wrap64_of_inInt64 (n := sv.book.bestBid.priceTick + bv.book.bestAsk.priceTick)
    ⟨by omega, hfits⟩
  have hwrapDiff := wrap64_of_inInt64 (n := sv.book.bestBid.priceTick - bv.book.bestAsk.priceTick)
    ⟨by omega, by omega⟩
  cases found
  refine ⟨haskPos, hcrossed, hfits, ?_, rfl, not_lt.mp henough, ?_⟩
  · dsimp only
    rw [hwrapSum, hwrapDiff]
    push_cast
    rfl
  · intro hmax
    exact not_lt.mp fun hlarge => hsane ⟨hmax, hlarge⟩

theorem wellPriced_of_mem_scan {cfg : ArbDetectorConfig} {tsNow : Int} {venues : List VenueBook} {d : ArbDetector}
    (priced : ∀ vb ∈ venues, Priced vb) {c : ArbCross} (returned : c ∈ (scan cfg tsNow venues d).2) :
    WellPriced cfg c := by
  rw [scan_eq_offers] at returned
  obtain ⟨found, hfound, rfl⟩ := List.mem_map.mp returned
  have hcandidate := (mem_of_mem_offers hfound).resolve_left List.not_mem_nil
  obtain ⟨sv, bv, hseller, hbuyer, -, -, -, -, -, hcross⟩ := mem_candidates.mp hcandidate
  exact wellPriced_of_pairCross (priced sv (List.mem_of_mem_take (List.mem_of_getElem? hseller)))
    (priced bv (List.mem_of_mem_take (List.mem_of_getElem? hbuyer))) hcross

/-!
### Along a run of the brain

Books and emitted crosses together, over everything that reaches the scan thread.
-/

/-- Books and signals of the scan thread are priced. -/
structure ScanThread.Priced (opts : BrainOptions) (s : ScanThread) : Prop where
  books : ∀ vb ∈ s.book.books, Brain.Priced vb
  signals : ∀ c ∈ s.arb.signals, WellPriced opts.arbConfig c

namespace ScanThread.Priced

variable {opts : BrainOptions} {s : ScanThread}

theorem new (opts : BrainOptions) : ScanThread.Priced opts (ScanThread.new opts) := by
  constructor
  · intro vb hvb
    cases hvb
  · intro c hc
    have hnone : (ScanThread.new opts).arb.signals = [] := by
      rw [ScanThread.new]
      dsimp only
      split <;> rfl
    rw [hnone] at hc
    cases hc

theorem process (priced : ScanThread.Priced opts s) (now : Reading) (j : Json) :
    ScanThread.Priced opts (s.process opts now j) := by
  have hbooks : ∀ vb ∈ (s.book.onEvent now.eventNs j).1.books, Brain.Priced vb :=
    UnifiedBook.forall_onEvent (fun venue symbol => priced_new venue symbol _ _)
      (fun vb hdr hvb => priced_onEvent hvb now.eventNs hdr j) priced.books
  constructor
  · rw [process_book]
    exact hbooks
  · intro c hc
    rw [process_arb] at hc
    cases hactive : s.arb.active with
    | true =>
        rw [(emitted_detect opts now j s.book hactive).signals] at hc
        rcases List.mem_append.mp hc with hold | hnew
        · exact priced.signals c hold
        · rw [detect] at hnew
          split at hnew
          · exact wellPriced_of_mem_scan hbooks hnew
          · cases hnew
    | false =>
        -- in standby the detector remembers what it would have emitted, and emits nothing
        rw [detect_of_standby opts now j s.book hactive] at hc
        exact priced.signals c hc

theorem take (priced : ScanThread.Priced opts s) (input : ScanInput) :
    ScanThread.Priced opts (ScanThread.take opts s input) := by
  cases input with
  | event now j => exact priced.process now j
  | promote => exact ⟨priced.books, priced.signals⟩

theorem step {p : BrainProcess} (priced : ScanThread.Priced opts p.scan) (e : BrainEvent) :
    ScanThread.Priced opts (p.step opts e).scan := by
  rw [BrainProcess.scan_step]
  exact Runs.invariant_run (fun _ input => fun hpriced => hpriced.take input) priced _

end ScanThread.Priced

theorem priced_run (opts : BrainOptions) (events : List BrainEvent) :
    ScanThread.Priced opts (Runs.run (BrainProcess.step opts) (BrainProcess.start opts) events).scan := by
  have hstep : ∀ p e, ScanThread.Priced opts p.scan → ScanThread.Priced opts (BrainProcess.step opts p e).scan :=
    fun _ e priced => priced.step e
  exact Runs.invariant_run hstep (ScanThread.Priced.new opts) events

/-- Whatever the brain is sent, and whatever its clock says: every cross that it emits has positive prices with
    the ask below the bid, its spread is the exact one, since a sum of prices that overflows is never emitted,
    and it is within the bounds of the detector after fees. -/
theorem emitted_well_priced (opts : BrainOptions) (events : List BrainEvent) :
    ∀ c ∈ (Runs.run (BrainProcess.step opts) (BrainProcess.start opts) events).scan.arb.signals,
      WellPriced opts.arbConfig c := (priced_run opts events).signals

theorem emitted_well_priced_two_venues :
    ∃ c ∈ (Runs.run (BrainProcess.step {}) (BrainProcess.start {}) crossedQuotes).scan.arb.signals,
      c.buyAskTick = 200 ∧ c.sellBidTick = 300 ∧ WellPriced (BrainOptions.arbConfig {}) c := by
  have hemitted : ∃ c ∈ (Runs.run (BrainProcess.step {}) (BrainProcess.start {}) crossedQuotes).scan.arb.signals,
      c.buyAskTick = 200 ∧ c.sellBidTick = 300 := by decide +kernel
  obtain ⟨c, hc, hask, hbid⟩ := hemitted
  exact ⟨c, hc, hask, hbid, emitted_well_priced {} crossedQuotes c hc⟩

end Brain

end ZidaBot
