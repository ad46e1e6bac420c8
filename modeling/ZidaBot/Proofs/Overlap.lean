/-
Module: ZidaBot.Proofs.Overlap
Purpose: Increments that are applied again, or in another order of their levels.  On an unbounded book both
  would make no difference; on a bounded one a removal makes room that the writes before it did not have.
  `SettledSide` says of a side and the levels of an increment when this cannot show, whatever the order of the
  levels; `LastingSide` when it does not show in the order as it is, which is all that counts where a tick is
  named more than once.
Trusted boundary: none
Main exports: GenericIncrementalFormat.levels, Harmless, SettledSide, LastingSide, RepeatableSide, WithinDepth,
  overlap_harmless_iff
-/
import ZidaBot.Library.RepeatedBatch
import ZidaBot.Proofs.BookEntries
import ZidaBot.Proofs.CrossedBook

namespace ZidaBot

open OrderBookController SortedSeq

/-- The levels of an increment on a side. -/
def GenericIncrementalFormat.levels (msg : GenericIncrementalFormat) : Side → List Level
  | .bid => msg.bids
  | .ask => msg.asks

/-- The increment with other levels on a side. -/
def GenericIncrementalFormat.withLevels (msg : GenericIncrementalFormat) (s : Side) (levels : List Level) :
    GenericIncrementalFormat :=
  match s with
  | .bid => { msg with bids := levels }
  | .ask => { msg with asks := levels }

/-- No two levels name the same tick. -/
def OneEach (levels : List Level) : Prop := (levels.map Level.priceTick).Nodup

instance (levels : List Level) : Decidable (OneEach levels) := inferInstanceAs (Decidable (List.Nodup _))

/-- Applying the increment once more changes nothing, and on a side where it names every tick once the order
    of its levels makes no difference. -/
def Harmless (book : OrderBook) (msg : GenericIncrementalFormat) : Prop :=
  applyIncrementUpdate (applyIncrementUpdate book msg) msg = applyIncrementUpdate book msg ∧
    ∀ s levels, OneEach (msg.levels s) → levels.Perm (msg.levels s) →
      applyIncrementUpdate book (msg.withLevels s levels) = applyIncrementUpdate book msg

/-- Of all ticks that rest on the side or get a quantity from the levels, and with the last level at a tick
    deciding whether it is finally removed: no tick among the best up to the depth is finally removed, or
    every tick beyond them is. -/
def SettledSide (s : Side) (book : OrderBook) (levels : List Level) : Prop :=
  BoundedMap.Settled book.depth (BoundedMap.reach (entries s (book.side s)) (levels.map (change s)))
    (levels.map (change s))

/-- Of the side as it would be without a depth, level by level: every tick that it has among the best up to the
    depth in the end is so from its last level on, in both applications; and where the texts of its levels
    differ, it is so, while it is there, from its last removal on, in the second application from the start if
    there is none. -/
def LastingSide (s : Side) (book : OrderBook) (levels : List Level) : Prop :=
  BoundedMap.Lasting Level.requoted book.depth (entries s (book.side s)) (levels.map (change s))

instance (s : Side) (book : OrderBook) (levels : List Level) : Decidable (LastingSide s book levels) :=
  inferInstanceAs (Decidable (BoundedMap.Lasting ..))

/-- The increment may be applied to this side again. -/
def RepeatableSide (s : Side) (book : OrderBook) (levels : List Level) : Prop :=
  SettledSide s book levels ∨ (¬ OneEach levels ∧ LastingSide s book levels)

/-- Without a depth the side would not get more levels than the depth either, in neither application. -/
def WithinDepth (s : Side) (book : OrderBook) (levels : List Level) : Prop :=
  BoundedMap.Fits book.depth (entries s (book.side s)) [] (levels.map (change s)) ∧
    BoundedMap.Fits book.depth (entries s (book.side s)) (levels.map (change s)) (levels.map (change s))

/-!
### One side

An increment is a batch of writes and removals on the entries of each side, so what is known about such batches
applies to it.
-/

/-- An increment is a batch on each side. -/
theorem entries_applyIncrementUpdate {book : OrderBook} (valid : book.Valid)
    (msg : GenericIncrementalFormat) (s : Side) :
    entries s ((applyIncrementUpdate book msg).side s) =
      Runs.run (BoundedMap.amend Level.requoted book.depth) (entries s (book.side s))
        ((msg.levels s).map (change s)) := by
  rw [applyIncrementUpdate]
  cases s with
  | bid =>
      rw [side_updateAll_of_ne (by decide)]
      exact OrderBook.entries_updateAll valid .bid msg.bids
  | ask =>
      have hbids : (updateAll .bid book msg.bids).Valid := updateAll_valid valid
      have hother : (updateAll .bid book msg.bids).side .ask = book.side .ask :=
        side_updateAll_of_ne (by decide) msg.bids book
      rw [OrderBook.entries_updateAll hbids, hother, depth_updateAll]
      rfl

theorem nodup_change {s : Side} {levels : List Level} (distinct : OneEach levels) :
    ((levels.map (change s)).map Prod.fst).Nodup := by
  have hranks : (levels.map (change s)).map Prod.fst = (levels.map Level.priceTick).map s.rank := by
    simp [change, Level.rank]
  rw [hranks]
  exact distinct.map fun _ _ heq => (s.rank_inj _ _).mp heq

theorem length_entries (s : Side) (vec : List Level) : (entries s vec).length = vec.length :=
  List.length_map ..

/-- An increment that may be applied again on each side is harmless. -/
theorem harmless_of_repeatable {book : OrderBook} (valid : book.Valid) {msg : GenericIncrementalFormat}
    (repeatable : ∀ s, RepeatableSide s book (msg.levels s)) : Harmless book msg := by
  have hsorted : ∀ s, SortedMap.Sorted (entries s (book.side s)) := fun s =>
    sorted_entries (valid s).ascending
  have hfits : ∀ s, (entries s (book.side s)).length ≤ book.depth := by
    intro s
    rw [length_entries]
    exact (valid s).length_le
  refine ⟨?_, ?_⟩
  · apply OrderBook.ext_side
    · simp
    · intro s
      apply entries_inj (s := s)
      rw [entries_applyIncrementUpdate (applyIncrementUpdate_valid valid msg), depth_applyIncrementUpdate,
        entries_applyIncrementUpdate valid]
      rcases repeatable s with hsettled | ⟨-, hlasting⟩
      · exact BoundedMap.run_run_of_settled (fun _ _ _ => rfl) (fun _ => rfl) (hsorted s) (hfits s) hsettled
      · exact BoundedMap.run_run_of_lasting (fun _ _ _ => rfl) (fun _ => rfl) (hsorted s) (hfits s) hlasting
  · intro s levels distinct perm
    apply OrderBook.ext_side
    · simp
    · intro s'
      apply entries_inj (s := s')
      rw [entries_applyIncrementUpdate valid, entries_applyIncrementUpdate valid]
      by_cases hs : s' = s
      · subst hs
        have hlevels : (msg.withLevels s' levels).levels s' = levels := by cases s' <;> rfl
        have hsettled : SettledSide s' book (msg.levels s') :=
          (repeatable s').resolve_right fun h => h.1 distinct
        rw [hlevels]
        exact BoundedMap.run_perm_of_settled (hsorted s') (hfits s') (nodup_change distinct) hsettled
          (perm.map (change s'))
      · have hlevels : (msg.withLevels s levels).levels s' = msg.levels s' := by
          cases s <;> cases s' <;> first | rfl | exact absurd rfl hs
        rw [hlevels]

/-- On a side where a harmless increment names every tick once, it is settled: its removals may come first
    or last. -/
theorem settled_of_harmless {book : OrderBook} (valid : book.Valid) {msg : GenericIncrementalFormat}
    (harmless : Harmless book msg) {s : Side} (distinct : OneEach (msg.levels s)) :
    SettledSide s book (msg.levels s) := by
  let removals := (msg.levels s).filter fun l => l.isEmpty
  let placements := (msg.levels s).filter fun l => !l.isEmpty
  have herasures : BoundedMap.erasures ((msg.levels s).map (change s)) = removals.map (change s) := by
    rw [BoundedMap.erasures, List.filter_map]
    congr 2
    funext level
    cases hempty : level.isEmpty <;> simp [change, hempty]
  have hwrites : BoundedMap.writes ((msg.levels s).map (change s)) = placements.map (change s) := by
    rw [BoundedMap.writes, List.filter_map]
    congr 2
    funext level
    cases hempty : level.isEmpty <;> simp [change, hempty]
  have hrun : ∀ levels : List Level, levels.Perm (msg.levels s) →
      Runs.run (BoundedMap.amend Level.requoted book.depth) (entries s (book.side s))
        (levels.map (change s)) = entries s ((applyIncrementUpdate book msg).side s) := by
    intro levels perm
    have hlevels : (msg.withLevels s levels).levels s = levels := by cases s <;> rfl
    rw [← harmless.2 s levels distinct perm, entries_applyIncrementUpdate valid, hlevels]
  have hperm : (removals ++ placements).Perm (msg.levels s) := List.filter_append_perm ..
  have hfits : (entries s (book.side s)).length ≤ book.depth := by
    rw [length_entries]
    exact (valid s).length_le
  apply BoundedMap.settled_of_same_order (sorted_entries (valid s).ascending) hfits (nodup_change distinct)
  rw [herasures, hwrites, ← List.map_append, ← List.map_append, hrun _ hperm,
    hrun _ (List.perm_append_comm.trans hperm)]

/-!
### Result

`RepeatableSide` is enough.  It is exact for the sides on which the increment names every tick once, where the
order of the levels is free.  On the others it leaves out only increments under which the side, were it not for
the depth, would at some moment be deeper than the book.
-/

/-- On every reachable book an increment is harmless that may be applied again on each side; a harmless one is
    settled on every side on which it names every tick once; so an increment that names every tick once per
    side is harmless exactly if it is settled on both sides.  And on a side that would fit into the depth all
    the time, whatever ticks it names, it lasts. -/
theorem overlap_harmless_iff (depth : Nat) (depth_pos : 0 < depth) (ops : List BookOp)
    (msg : GenericIncrementalFormat) :
    let book := Runs.run OrderBook.apply (OrderBook.empty depth depth_pos) ops
    ((∀ s, RepeatableSide s book (msg.levels s)) → Harmless book msg) ∧
      (Harmless book msg → ∀ s, OneEach (msg.levels s) → SettledSide s book (msg.levels s)) ∧
      ((∀ s, OneEach (msg.levels s)) →
        (Harmless book msg ↔ ∀ s, SettledSide s book (msg.levels s))) ∧
      ∀ s, WithinDepth s book (msg.levels s) → LastingSide s book (msg.levels s) := by
  intro book
  have valid : book.Valid := OrderBook.valid_run depth depth_pos ops
  refine ⟨harmless_of_repeatable valid, fun harmless s => settled_of_harmless valid harmless, ?_,
    fun s within => BoundedMap.lasting_of_fits within.1 within.2⟩
  intro distinct
  exact ⟨fun harmless s => settled_of_harmless valid harmless (distinct s),
    fun settled => harmless_of_repeatable valid fun s => Or.inl (settled s)⟩

/-- An increment of asks. -/
def askIncrement (asks : List (Int × Int)) : GenericIncrementalFormat :=
  { firstSeq := 1, lastSeq := 1, prevLast := 0, tsRecvNs := 0, checksum := 0, bids := []
    asks := asks.map fun ask => { priceTick := ask.1, quantityLot := ask.2, price := "", quantity := "" } }

/-- A side of which the increment says nothing. -/
theorem settledSide_nil (s : Side) (book : OrderBook) : SettledSide s book [] :=
  Or.inl fun k _ _ herased => by simp [BoundedMap.FinallyErased, BoundedMap.opsAt] at herased

/-- On a full side of depth one: placing one ask, whether it improves the side or not; giving the room of the
    ask to another one, which is named twice; and naming that one before there is room, and again after. -/
theorem overlap_harmless_one_ask :
    let book := Runs.run OrderBook.apply (OrderBook.empty 1 Nat.one_pos)
      [.update .ask { priceTick := 100, quantityLot := 1, price := "", quantity := "" }]
    Harmless book (askIncrement [(105, 1)]) ∧ Harmless book (askIncrement [(95, 1)]) ∧
      Harmless book (askIncrement [(100, 0), (105, 1), (105, 1)]) ∧
      Harmless book (askIncrement [(105, 1), (100, 0), (105, 2)]) := by
  intro book
  have hone : ∀ tick, Harmless book (askIncrement [(tick, 1)]) := by
    intro tick
    apply (overlap_harmless_iff 1 Nat.one_pos _ (askIncrement [(tick, 1)])).1
    intro s
    cases s with
    | bid => exact Or.inl (settledSide_nil .bid book)
    | ask =>
        refine Or.inl (Or.inl fun k _ _ herased => ?_)
        by_cases hk : tick = k
        · simp [BoundedMap.FinallyErased, BoundedMap.opsAt, GenericIncrementalFormat.levels,
            askIncrement, change, Level.rank, Side.rank, Level.isEmpty, hk] at herased
        · simp [BoundedMap.FinallyErased, BoundedMap.opsAt, GenericIncrementalFormat.levels,
            askIncrement, change, Level.rank, Side.rank, hk] at herased
  have hlasting : ∀ asks, (¬ OneEach (askIncrement asks).asks ∧ LastingSide .ask book (askIncrement asks).asks) →
      Harmless book (askIncrement asks) := by
    intro asks lasting
    apply (overlap_harmless_iff 1 Nat.one_pos _ (askIncrement asks)).1
    intro s
    cases s with
    | bid => exact Or.inl (settledSide_nil .bid book)
    | ask => exact Or.inr lasting
  exact ⟨hone 105, hone 95, hlasting _ (by decide +kernel), hlasting _ (by decide +kernel)⟩

/-- The first time the worse ask is not taken and the better one goes; the second time there is room. -/
theorem overlap_not_harmless :
    ¬ ∀ (depth : Nat) (depth_pos : 0 < depth) (ops : List BookOp) (msg : GenericIncrementalFormat),
      Harmless (Runs.run OrderBook.apply (OrderBook.empty depth depth_pos) ops) msg := by
  intro all
  have hagain := (all 1 Nat.one_pos
    [.update .ask { priceTick := 100, quantityLot := 1, price := "", quantity := "" }]
    (askIncrement [(105, 1), (100, 0)])).1
  exact absurd hagain (by decide)

end ZidaBot
