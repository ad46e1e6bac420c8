/-
Module: ZidaBot.Proofs.BookState
Purpose: A book state takes the published book to the brain.  The sink reads the first levels of each side
  through the book's pointers, the brain parses them back, and loading them into a book of another depth
  cuts them once more; what the venue book held before plays no part.
Trusted boundary: none
Main exports: Wired, side_of_bookState, book_state_restores_book
-/
import ZidaBot.Proofs.FeedHealth
import ZidaBot.Proofs.Replica

namespace ZidaBot.Feed

open Brain OrderBookController SortedSeq

/-- A level of positive 64-bit numbers. -/
structure Wired (level : Level) : Prop where
  tick_range : InInt64 level.priceTick
  lot_range : InInt64 level.quantityLot
  tick_pos : 0 < level.priceTick
  lot_pos : 0 < level.quantityLot

theorem Wired.acceptable {level : Level} (wired : Wired level) : level.Acceptable :=
  ⟨wired.tick_range, wired.lot_range, wired.lot_pos.le, fun _ => wired.tick_pos⟩

/-- The levels of a book state are the first ones of each side. -/
theorem bookStateLevels_eq {book : OrderBook} (valid : book.Valid) (topN : Nat) (s : Side) :
    bookStateLevels book topN s = (book.side s).take topN := by
  rw [bookStateLevels, pointedLevels_eq valid, List.drop_zero]

/-- A part of a well-formed side is a snapshot of itself. -/
theorem snapshotLevels_take {book : OrderBook} (valid : book.Valid) (topN : Nat) (s : Side) :
    snapshotLevels s ((book.side s).take topN) = (book.side s).take topN := by
  have hpart : SideValid s book.depth ((book.side s).take topN) := by
    refine ⟨?_, List.Pairwise.sublist (List.take_sublist ..) (valid s).ascending, ?_⟩
    · exact (List.length_take_le' ..).trans (valid s).length_le
    · exact fun level hlevel => (valid s).resting level (List.mem_of_mem_take hlevel)
  exact snapshotLevels_of_valid hpart

theorem levels_bookStateSnapshot {book : OrderBook} (valid : book.Valid) (appliedSeq : UInt64)
    (topN : Nat) (tsBookNs : Int) (s : Side) :
    (bookStateSnapshot book appliedSeq topN tsBookNs).levels s = (book.side s).take topN := by
  cases s <;> exact bookStateLevels_eq valid topN _

/-- Loading a book state leaves what both depths let through. -/
theorem side_of_bookState {book : OrderBook} (valid : book.Valid) (other : OrderBook)
    (appliedSeq : UInt64) (topN : Nat) (tsBookNs : Int) (s : Side) :
    (loadSnapshot other (bookStateSnapshot book appliedSeq topN tsBookNs)).side s =
      (book.side s).take (min topN other.depth) := by
  have hlevels := levels_bookStateSnapshot valid appliedSeq topN tsBookNs
  have hdistinct : ∀ s, DistinctTicks ((bookStateSnapshot book appliedSeq topN tsBookNs).levels s) := by
    intro s
    rw [hlevels]
    have hpart : (((book.side s).take topN).filter fun l => !l.isEmpty).Sublist (book.side s) :=
      List.filter_sublist.trans (List.take_sublist ..)
    refine (List.Pairwise.sublist hpart (valid s).ascending).imp ?_
    intro better worse hlt heq
    simp [Level.rank, heq] at hlt
  rw [side_loadSnapshot other hdistinct, hlevels, snapshotLevels_take valid, List.take_take,
    Nat.min_comm]

/-- A book state of a reachable book of positive levels, handed to the brain in whatever state the venue
    book is: the event is accepted under the venue's name, and the venue book is synced, at the published
    sequence number, with the first levels of each side as far as both the publication and the depth of the
    venue book reach. -/
theorem book_state_restores_book (depth : Nat) (depth_pos : 0 < depth) (ops : List BookOp)
    (wired : ∀ s, ∀ level ∈
      (Runs.run OrderBook.apply (OrderBook.empty depth depth_pos) ops).side s, Wired level)
    (appliedSeq : UInt64) (topN : Nat) (source : String) (tsBookNs : Int) (venue : VenueId) (stamp : Stamp)
    (named : stamp.venue = venue.name) (now : Int) (ub : UnifiedBook) :
    let book := Runs.run OrderBook.apply (OrderBook.empty depth depth_pos) ops
    let frame := (PubEvent.bookState book appliedSeq topN source tsBookNs).toJson stamp
    let before := ub.bookAt (stamp.venue, stamp.symbol)
    let after := (ub.onEvent now frame).1.bookAt (stamp.venue, stamp.symbol)
    (ub.onEvent now frame).2 = venue.name ∧ after ∈ (ub.onEvent now frame).1.books ∧
      after.synced = true ∧ after.controller.getAppliedSeqID = appliedSeq ∧
      ∀ s, after.book.side s = (book.side s).take (min topN before.book.depth) := by
  intro book frame before after
  let event := PubEvent.bookState book appliedSeq topN source tsBookNs
  have valid : book.Valid := OrderBook.valid_run depth depth_pos ops
  have hok : event.Acceptable := by
    have hlevels : ∀ s, ∀ level ∈ bookStateLevels book topN s, level.Acceptable := by
      intro s level hlevel
      rw [bookStateLevels_eq valid] at hlevel
      exact (wired s level (List.mem_of_mem_take hlevel)).acceptable
    exact ⟨hlevels .bid, hlevels .ask⟩
  have hheader : parseHeader frame = _ := parseHeader_toJson stamp event
  have routed : UnifiedBook.Routed frame _ :=
    ⟨hheader, fun hempty => venue.name_ne_empty (named ▸ hempty), event.eventType_ne_empty⟩
  have hstamped := extractTsBookNs_toJson stamp book appliedSeq topN source tsBookNs
  have hparsed := parseBookState_toJson hok stamp appliedSeq source tsBookNs
  have hafter : after = (before.onEvent now _ frame).1 := UnifiedBook.bookAt_onEvent_self routed
  have hcontroller : after.controller =
      before.controller.loaded (bookStateSnapshot book appliedSeq topN tsBookNs) .synced := by
    rw [hafter, onEvent_controller hok stamp now before hheader, absorb_bookState]
  refine ⟨?_, UnifiedBook.bookAt_mem_onEvent routed, ?_, ?_, ?_⟩
  · rw [UnifiedBook.onEvent_returned routed, if_pos]
    · exact named
    · simp [accepted, PubEvent.eventType, event, frame, hstamped, hparsed]
  · have hhealthy : after.feedHealthy = true := by
      rw [hafter]
      exact VenueBook.feedHealthy_of_bookState rfl hstamped
    rw [VenueBook.synced, hhealthy, isSynced, hcontroller]
    rfl
  · rw [getAppliedSeqID, hcontroller]
    rfl
  · intro s
    rw [VenueBook.book, hcontroller]
    exact side_of_bookState valid before.book appliedSeq topN tsBookNs s

/-- Two asks published in full reach a fresh brain of depth one: the better one is left. -/
theorem book_state_restores_two_asks :
    let asks : List BookOp := [.update .ask (singleLot 105), .update .ask (singleLot 100)]
    let book := Runs.run OrderBook.apply (OrderBook.empty 3 (by decide)) asks
    let stamp : Stamp := { venue := "okx", symbol := "BTC-USDT", persistSeq := 1, nowNs := 0 }
    let out := (UnifiedBook.new 1 Nat.one_pos).onEvent 0
      ((PubEvent.bookState book 9 2 "ws" 0).toJson stamp)
    out.2 = "okx" ∧ (out.1.bookAt ("okx", "BTC-USDT")).synced = true ∧
      (out.1.bookAt ("okx", "BTC-USDT")).book.side .ask = [singleLot 100] := by
  intro asks book stamp out
  have hall := book_state_restores_book 3 (by decide) asks
    (by
      intro s level hlevel
      cases s with
      | bid => exact absurd hlevel List.not_mem_nil
      | ask =>
          have hside : book.side .ask = [singleLot 100, singleLot 105] := by decide
          have hmember : level ∈ [singleLot 100, singleLot 105] := hside ▸ hlevel
          obtain rfl | rfl : level = singleLot 100 ∨ level = singleLot 105 := by simpa using hmember
          · exact ⟨by decide, by decide, by decide, by decide⟩
          · exact ⟨by decide, by decide, by decide, by decide⟩)
    9 2 "ws" 0 .okx stamp rfl 0 (UnifiedBook.new 1 Nat.one_pos)
  exact ⟨hall.1, hall.2.2.1, hall.2.2.2.2 .ask⟩

end ZidaBot.Feed
