/-
Module: ZidaBot.Proofs.Checkpoint
Purpose: Restoring a replica from a book state that shows only the best levels.  The restored book and the
  full one agree on every price better than the levels that were left out, and they go on agreeing there
  under the same increments, whatever happens beyond.  While the full book stays better than what was left
  out, the two therefore show the same top, take the same decisions and count the same sequence numbers.
Trusted boundary: none
Main exports: LeftOut, AgreeBelow, AgreeBelow.updateAll, SameTop, StaysAhead, Matched,
  checkpoint_restore_matches_replay
-/
import ZidaBot.Proofs.Replica
import ZidaBot.Proofs.CrossedBook

namespace ZidaBot

open OrderBookController SortedSeq

namespace Feed

open Brain

/-!
### Agreement on the better prices

A checkpoint of the best levels leaves out all prices from some rank on. Below that rank an update of one
book is an update of the other, since cuts only reach the far end.
-/

/-- The levels a book state of the `topN` best levels does not show. -/
def LeftOut (book : OrderBook) (topN : Nat) (s : Side) : List Level := (book.side s).drop topN

/-- Ranks better than everything that was left out of a side. -/
def ahead (leftOut : Side → List Level) (s : Side) (k : Int) : Bool :=
  (leftOut s).all fun level => decide (k < level.rank s)

theorem ahead_lower (leftOut : Side → List Level) (s : Side) : SortedMap.Lower (ahead leftOut s) := by
  intro a b hle hb
  simp only [ahead, List.all_eq_true, decide_eq_true_eq] at hb ⊢
  exact fun level hlevel => lt_of_le_of_lt hle (hb level hlevel)

/-- Two well-formed books of one depth show the same quantities at the better prices. -/
structure AgreeBelow (leftOut : Side → List Level) (full restored : OrderBook) : Prop where
  depth : restored.depth = full.depth
  fullValid : full.Valid
  restoredValid : restored.Valid
  same : ∀ s, SortedMap.below (ahead leftOut s) (quotes s (full.side s)) =
    SortedMap.below (ahead leftOut s) (quotes s (restored.side s))

namespace AgreeBelow

variable {leftOut : Side → List Level} {full restored : OrderBook}

theorem update (agree : AgreeBelow leftOut full restored) (s : Side) (level : Level) :
    AgreeBelow leftOut (full.update s level) (restored.update s level) := by
  refine ⟨?_, agree.fullValid.update s level, agree.restoredValid.update s level, ?_⟩
  · rw [OrderBook.depth_update, OrderBook.depth_update, agree.depth]
  · intro s'
    by_cases hside : s' = s
    · subst hside
      rw [OrderBook.quotes_update agree.fullValid, OrderBook.quotes_update agree.restoredValid,
        agree.depth]
      exact SortedMap.below_edit_congr (ahead_lower leftOut s')
        (sorted_quotes (agree.fullValid s').ascending)
        (sorted_quotes (agree.restoredValid s').ascending) (agree.same s') _ _ _
    · rw [OrderBook.side_update_of_ne hside, OrderBook.side_update_of_ne hside]
      exact agree.same s'

theorem updateAll (agree : AgreeBelow leftOut full restored) (s : Side) (levels : List Level) :
    AgreeBelow leftOut (OrderBookController.updateAll s full levels)
      (OrderBookController.updateAll s restored levels) := by
  induction levels generalizing full restored with
  | nil => exact agree
  | cons level levels ih => exact ih (agree.update s level)

theorem applyIncrementUpdate (agree : AgreeBelow leftOut full restored)
    (inc : GenericIncrementalFormat) :
    AgreeBelow leftOut (OrderBookController.applyIncrementUpdate full inc)
      (OrderBookController.applyIncrementUpdate restored inc) :=
  (agree.updateAll .bid inc.bids).updateAll .ask inc.asks

end AgreeBelow

/-- On every side from which something was left out, the book has a best level, and it is better than all
    of that. -/
def StaysAhead (leftOut : Side → List Level) (book : OrderBook) : Prop :=
  ∀ s, ∀ level ∈ leftOut s, ∃ top, (book.side s).head? = some top ∧ top.rank s < level.rank s

/-- The same tick and quantity on top of both sides. -/
def SameBest (full restored : OrderBook) : Prop :=
  ∀ s, (restored.best s).priceTick = (full.best s).priceTick ∧
    (restored.best s).quantityLot = (full.best s).quantityLot

theorem sameBest_of_head? {full restored : OrderBook}
    (heads : ∀ s, (quotes s (restored.side s)).head? = (quotes s (full.side s)).head?) :
    SameBest full restored := by
  intro s
  have hhead := heads s
  rw [head?_quotes, head?_quotes] at hhead
  rw [OrderBook.best_eq, OrderBook.best_eq]
  cases hrestored : restored.side s with
  | nil =>
      cases hfull : full.side s with
      | nil => exact ⟨rfl, rfl⟩
      | cons top rest => simp [hrestored, hfull] at hhead
  | cons top rest =>
      cases hfull : full.side s with
      | nil => simp [hrestored, hfull] at hhead
      | cons top' rest' =>
          simp only [hrestored, hfull, List.head?_cons, Option.map_some, Option.some.injEq,
            Prod.mk.injEq] at hhead
          exact ⟨(s.rank_inj _ _).mp hhead.1, hhead.2⟩

/-- The crossed-book test looks at the top only. -/
theorem SameBest.crossed_eq {full restored : OrderBook} (best : SameBest full restored) :
    crossed restored = crossed full := by
  have hbid : restored.bestBid.priceTick = full.bestBid.priceTick := (best .bid).1
  have hask : restored.bestAsk.priceTick = full.bestAsk.priceTick := (best .ask).1
  rw [crossed, crossed, hbid, hask]

/-- While the full book stays ahead of what was left out, the restored one has the same top. -/
theorem AgreeBelow.sameBest {leftOut : Side → List Level} {full restored : OrderBook}
    (agree : AgreeBelow leftOut full restored) (stays : StaysAhead leftOut full) :
    SameBest full restored := by
  apply sameBest_of_head?
  intro s
  have hfullSorted := sorted_quotes (agree.fullValid s).ascending
  have hrestoredSorted := sorted_quotes (agree.restoredValid s).ascending
  have hsame := agree.same s
  by_cases hnothing : leftOut s = []
  · -- nothing was left out: the two sides agree as a whole
    have hall : ∀ entries : List (Int × Int), SortedMap.below (ahead leftOut s) entries = entries := by
      intro entries
      apply List.filter_eq_self.mpr
      intro e he
      simp [ahead, hnothing]
    rw [hall, hall] at hsame
    rw [hsame]
  · obtain ⟨level, hlevel⟩ := List.exists_mem_of_ne_nil _ hnothing
    obtain ⟨top, htop, -⟩ := stays s level hlevel
    have hahead : ahead leftOut s (top.rank s) = true := by
      simp only [ahead, List.all_eq_true, decide_eq_true_eq]
      intro other hother
      obtain ⟨top', htop', hlt⟩ := stays s other hother
      rwa [Option.some.inj (htop.symm.trans htop')]
    have hfull : (quotes s (full.side s)).head? = some (top.rank s, top.quantityLot) := by
      rw [head?_quotes, htop]
      rfl
    have hbelow := (SortedMap.head?_below (ahead_lower leftOut s) hfullSorted).mpr ⟨hfull, hahead⟩
    rw [hsame] at hbelow
    rw [hfull]
    exact ((SortedMap.head?_below (ahead_lower leftOut s) hrestoredSorted).mp hbelow).1

/-!
### Increments at the two replicas

The controllers decide by the top of the book and the sequence number. As long as the top of the full book
is ahead of what was left out, it is the top of both.
-/

/-- What the brain's controller does with an increment once it is synced. -/
theorem onIncrement_of_synced {c : OrderBookController} (synced : c.state = .synced)
    (inc : GenericIncrementalFormat) :
    c.onIncrement venueBookConfig inc =
      if inc.lastSeq = 0 then c.needResync .incrementalMissingSeqAndChecksum
      else if inc.lastSeq < c.expectedSeq then (c, none)
      else if crossed (OrderBookController.applyIncrementUpdate c.book inc) then
        (c.applied inc).needResync .bookCrossed
      else (c.applied inc, none) := by
  by_cases hseq : inc.lastSeq = 0
  · simp [OrderBookController.onIncrement, synced, venueBookConfig, hseq]
  · by_cases hold : inc.lastSeq < c.expectedSeq
    · simp [OrderBookController.onIncrement, synced, hseq, hold]
    · simp [OrderBookController.onIncrement, synced, venueBookConfig, hseq, hold, steadyGuards,
        checksumGuards]

/-- Full and restored replica in step: the same state and numbers, the same top, and agreement ahead of
    what was left out. -/
structure Matched (leftOut : Side → List Level) (full restored : OrderBookController) : Prop where
  state : restored.state = full.state
  unbridged : full.state ≠ .waitingBridge
  lastSeq : restored.lastSeq = full.lastSeq
  expectedSeq : restored.expectedSeq = full.expectedSeq
  agree : AgreeBelow leftOut full.book restored.book
  best : SameBest full.book restored.book

namespace Matched

variable {leftOut : Side → List Level} {full restored : OrderBookController}

theorem reset (depth : restored.book.depth = full.book.depth) :
    Matched leftOut full.resetBook restored.resetBook := by
  have hclear : restored.book.clear = full.book.clear := clear_eq_of_depth depth
  refine ⟨rfl, nofun, rfl, rfl, ⟨depth, OrderBook.valid_clear _, OrderBook.valid_clear _, ?_⟩, ?_⟩
  · intro s
    simp [resetBook]
  · intro s
    simp [resetBook, hclear]

/-- One increment, if the full replica stays ahead of what was left out in case it applies it. -/
theorem onIncrement (matched : Matched leftOut full restored) (inc : GenericIncrementalFormat)
    (stays : Applies venueBookConfig full inc →
      StaysAhead leftOut (OrderBookController.applyIncrementUpdate full.book inc)) :
    Matched leftOut (full.onIncrement venueBookConfig inc).1
      (restored.onIncrement venueBookConfig inc).1 := by
  cases hstate : full.state with
  | waitingBridge => exact absurd hstate matched.unbridged
  | waitingSnapshot =>
      have hrestored := matched.state.trans hstate
      rw [onIncrement_skipped (Or.inl hstate), onIncrement_skipped (Or.inl hrestored)]
      exact matched
  | synced =>
      have hrestored := matched.state.trans hstate
      rw [onIncrement_of_synced hstate, onIncrement_of_synced hrestored, matched.expectedSeq]
      by_cases hseq : inc.lastSeq = 0
      · rw [if_pos hseq, if_pos hseq]
        exact reset matched.agree.depth
      · rw [if_neg hseq, if_neg hseq]
        by_cases hold : inc.lastSeq < full.expectedSeq
        · rw [if_pos hold, if_pos hold]
          exact matched
        · rw [if_neg hold, if_neg hold]
          have happlies : Applies venueBookConfig full inc :=
            ⟨by simp [hstate], fun h => absurd h hseq, fun _ => hold, nofun⟩
          have hagree := matched.agree.applyIncrementUpdate inc
          have hbest := hagree.sameBest (stays happlies)
          rw [hbest.crossed_eq]
          split
          · have hdepth : (restored.applied inc).book.depth = (full.applied inc).book.depth :=
              hagree.depth
            exact reset hdepth
          · refine ⟨rfl, nofun, ?_, ?_, hagree, hbest⟩
            · simp [applied, matched.lastSeq]
            · simp [applied, matched.expectedSeq]

end Matched

/-!
### The restored replica

The restored book is the full one, less the levels that the checkpoint does not show. So the two start in
agreement.
-/

/-- The best levels of a well-formed book. -/
def shownBook (book : OrderBook) (topN : Nat) : OrderBook :=
  { book with bids := book.bids.take topN, asks := book.asks.take topN }

theorem side_shownBook (book : OrderBook) (topN : Nat) (s : Side) :
    (shownBook book topN).side s = (book.side s).take topN := by
  cases s <;> rfl

theorem valid_shownBook {book : OrderBook} (valid : book.Valid) (topN : Nat) :
    (shownBook book topN).Valid := by
  intro s
  rw [side_shownBook]
  have hside := valid s
  refine ⟨?_, List.Pairwise.sublist (List.take_sublist ..) hside.ascending, ?_⟩
  · exact (List.length_take_le' topN (book.side s)).trans hside.length_le
  · exact fun level hlevel => hside.resting level (List.mem_of_mem_take hlevel)

/-- Showing the best levels keeps everything ahead of the others. -/
theorem agreeBelow_shownBook {book : OrderBook} (valid : book.Valid) (topN : Nat) :
    AgreeBelow (LeftOut book topN) book (shownBook book topN) := by
  refine ⟨rfl, valid, valid_shownBook valid topN, ?_⟩
  intro s
  have hrest : SortedMap.below (ahead (LeftOut book topN) s) (quotes s (LeftOut book topN s)) = [] := by
    apply List.filter_eq_nil_iff.mpr
    intro e he
    obtain ⟨level, hlevel, rfl⟩ := List.mem_map.mp he
    simp only [ahead, List.all_eq_true, decide_eq_true_eq, not_forall]
    exact ⟨level, hlevel, lt_irrefl _⟩
  have hsplit : quotes s (book.side s) =
      quotes s ((book.side s).take topN) ++ quotes s (LeftOut book topN s) := by
    rw [← quotes_append, LeftOut, List.take_append_drop]
  rw [side_shownBook, hsplit, SortedMap.below, List.filter_append]
  rw [SortedMap.below] at hrest
  rw [hrest, List.append_nil]
  rfl

theorem sameBest_shownBook (book : OrderBook) {topN : Nat} (shown : 1 ≤ topN) :
    SameBest book (shownBook book topN) := by
  apply sameBest_of_head?
  intro s
  rw [side_shownBook, head?_quotes, head?_quotes, List.head?_take, if_neg (by omega)]

/-- The frame of a book state, taken up by a venue book of the same depth, gives a replica that matches
    every other one that holds the whole book. -/
theorem matched_restored {c full : OrderBookController} (inv : c.Inv) (synced : c.state = .synced)
    (acceptable : c.book.Acceptable) (fullSynced : full.state = .synced) (held : Agree c full)
    {vb : VenueBook} (sameDepth : vb.controller.book.depth = c.book.depth) {topN : Nat}
    (shown : 1 ≤ topN) (stamp : Stamp) (now : Int) (source : String) (tsBookNs : Int)
    {hdr : EventHeader}
    (header : parseHeader
      ((PubEvent.bookState c.book c.getAppliedSeqID topN source tsBookNs).toJson stamp) = .ok hdr) :
    Matched (LeftOut c.book topN) full
      (vb.onEvent now hdr
        ((PubEvent.bookState c.book c.getAppliedSeqID topN source tsBookNs).toJson stamp)).1.controller := by
  have hlevels : ∀ s, bookStateLevels c.book topN s = (shownBook c.book topN).side s := by
    intro s
    rw [bookStateLevels, pointedLevels_eq inv.valid, List.drop_zero, side_shownBook]
  have hok : PubEvent.Acceptable (.bookState c.book c.getAppliedSeqID topN source tsBookNs) := by
    have hside : ∀ s, ∀ level ∈ bookStateLevels c.book topN s, level.Acceptable := by
      intro s level hlevel
      rw [hlevels, side_shownBook] at hlevel
      exact acceptable s level (List.mem_of_mem_take hlevel)
    exact ⟨hside .bid, hside .ask⟩
  have hbook : loadSnapshot vb.controller.book
      (bookStateSnapshot c.book c.getAppliedSeqID topN tsBookNs) = shownBook c.book topN :=
    loadSnapshot_of_valid (valid_shownBook inv.valid topN) sameDepth (hlevels .bid) (hlevels .ask)
  rw [onEvent_controller hok stamp now vb header, absorb_bookState]
  refine ⟨fullSynced.symm, by simp [fullSynced], held.lastSeq.symm, ?_, ?_, ?_⟩
  · exact ((inv.next (by simp [synced])).symm).trans held.expectedSeq.symm
  · rw [loaded, hbook, held.book]
    exact agreeBelow_shownBook inv.valid topN
  · rw [loaded, hbook, held.book]
    exact sameBest_shownBook c.book shown

/-- The controller of a replica after one more increment. -/
def replay (replica : OrderBookController) (inc : GenericIncrementalFormat) : OrderBookController :=
  (replica.onIncrement venueBookConfig inc).1

/-- An increment that the full replica applies leaves it ahead of what was left out. -/
def KeepsAhead (leftOut : Side → List Level) (full : OrderBookController)
    (inc : GenericIncrementalFormat) : Prop :=
  Applies venueBookConfig full inc →
    StaysAhead leftOut (OrderBookController.applyIncrementUpdate full.book inc)

/-- The same best bid, best ask and applied sequence number. -/
def SameTop (full restored : OrderBookController) : Prop :=
  SameBest full.book restored.book ∧ restored.getAppliedSeqID = full.getAppliedSeqID

/-!
### Result
-/

/-- Checkpoint restore against continuous replay: for every synced book a controller can reach, a replica
    restored from the published book state and one that holds the whole book show the same best bid, best
    ask and sequence number after every sequence of increments, if each increment the latter applies
    leaves its best levels ahead of the levels the checkpoint left out. -/
theorem checkpoint_restore_matches_replay (cfg : ControllerConfig) (depth : Nat) (depth_pos : 0 < depth)
    (ops : List ControllerOp) {c : OrderBookController}
    (reachable : c = Runs.run (step cfg) (OrderBookController.new depth depth_pos) ops)
    (synced : c.state = .synced) (acceptable : c.book.Acceptable)
    {full : OrderBookController} (fullSynced : full.state = .synced) (held : Agree c full)
    {vb : VenueBook} (sameDepth : vb.controller.book.depth = c.book.depth)
    {topN : Nat} (shown : 1 ≤ topN) (stamp : Stamp) (now : Int) (source : String) (tsBookNs : Int)
    {hdr : EventHeader}
    (header : parseHeader
      ((PubEvent.bookState c.book c.getAppliedSeqID topN source tsBookNs).toJson stamp) = .ok hdr)
    (increments : List GenericIncrementalFormat)
    (ahead : Runs.Along replay (KeepsAhead (LeftOut c.book topN)) full increments) :
    let restored := (vb.onEvent now hdr
      ((PubEvent.bookState c.book c.getAppliedSeqID topN source tsBookNs).toJson stamp)).1.controller
    SameTop (Runs.run replay full increments) (Runs.run replay restored increments) := by
  intro restored
  have inv : c.Inv := reachable ▸ inv_run cfg depth depth_pos ops
  have hstart : Matched (LeftOut c.book topN) full restored :=
    matched_restored inv synced acceptable fullSynced held sameDepth shown stamp now source tsBookNs
      header
  -- both replicas take the increments in step
  have hmatched : Matched (LeftOut c.book topN) (Runs.run replay full increments)
      (Runs.run replay restored increments) := by
    clear_value restored
    clear fullSynced held
    induction increments generalizing full restored with
    | nil => exact hstart
    | cons inc increments ih => exact ih ahead.2 _ (hstart.onIncrement inc ahead.1)
  exact ⟨hmatched.best, hmatched.lastSeq⟩

/-- A synced controller with two bids and an ask. -/
def checkpointOps : List ControllerOp :=
  [.snapshot ⟨7, 0, 0, [lotAt 100, lotAt 99], [lotAt 110]⟩ .wsAuthoritative]

theorem five_levels_pos : 0 < 5 := by decide

/-- The controller of `checkpointOps`. -/
def checkpointed : OrderBookController :=
  Runs.run (step {}) (OrderBookController.new 5 five_levels_pos) checkpointOps

theorem checkpointed_acceptable : checkpointed.book.Acceptable := by
  intro s
  cases s with
  | bid => decide
  | ask => decide

/-- The stamp of its checkpoint. -/
def checkpointStamp : Stamp := { venue := "binance", symbol := "BTCUSDT", persistSeq := 1, nowNs := 0 }

/-- The venue book that has taken up the checkpoint of the best level of each side. -/
def restoredBook : VenueBook :=
  ((VenueBook.new "binance" "BTCUSDT" 5 five_levels_pos).onEvent 0 ⟨1, "book_state", "binance", "BTCUSDT"⟩
    ((PubEvent.bookState checkpointed.book checkpointed.getAppliedSeqID 1 "" 0).toJson
      checkpointStamp)).1

/-- The second bid goes, and the best one changes its quantity. -/
def quietIncrement : GenericIncrementalFormat :=
  ⟨8, 8, 0, 0, 0, [{ lotAt 99 with quantityLot := 0 }, { lotAt 100 with quantityLot := 3 }], []⟩

/-- The full replica stays ahead of the bid at 99 that the checkpoint left out. -/
theorem quietIncrement_keepsAhead :
    KeepsAhead (LeftOut checkpointed.book 1) checkpointed quietIncrement := by
  intro _ s level hlevel
  cases s with
  | bid =>
      have hleft : LeftOut checkpointed.book 1 .bid = [lotAt 99] := by decide
      rw [hleft, List.mem_singleton] at hlevel
      subst hlevel
      exact ⟨{ lotAt 100 with quantityLot := 3 }, by decide, by decide⟩
  | ask =>
      have hleft : LeftOut checkpointed.book 1 .ask = [] := by decide
      rw [hleft] at hlevel
      exact absurd hlevel List.not_mem_nil

/-- The restored replica shows what the full one shows after the increment. -/
theorem checkpoint_restore_matches_quiet :
    SameTop (Runs.run replay checkpointed [quietIncrement])
      (Runs.run replay restoredBook.controller [quietIncrement]) := by
  have sameDepth : (VenueBook.new "binance" "BTCUSDT" 5 (by decide)).controller.book.depth =
      checkpointed.book.depth := by decide
  exact checkpoint_restore_matches_replay {} 5 (by decide) checkpointOps rfl (by decide)
    checkpointed_acceptable (by decide) ⟨rfl, rfl, rfl⟩ sameDepth (Nat.le_refl 1) checkpointStamp 0 "" 0
    (parseHeader_toJson checkpointStamp _) [quietIncrement] ⟨quietIncrement_keepsAhead, trivial⟩

/-- The best bid goes: what comes to the top was left out of the checkpoint. -/
def exposingIncrement : GenericIncrementalFormat :=
  ⟨8, 8, 0, 0, 0, [{ lotAt 100 with quantityLot := 0 }], []⟩

/-- The full replica falls back to the bid at 99, the restored one has no bid. -/
theorem checkpoint_restore_differs :
    checkpointed.state = .synced ∧ checkpointed.book.Acceptable ∧
      ¬ SameTop (Runs.run replay checkpointed [exposingIncrement])
        (Runs.run replay restoredBook.controller [exposingIncrement]) := by
  refine ⟨by decide, checkpointed_acceptable, ?_⟩
  intro hsame
  exact absurd (hsame.1 .bid).1 (by decide)

end Feed

end ZidaBot
