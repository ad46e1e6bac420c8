/-
Module: ZidaBot.Proofs.SnapshotLoad
Purpose: What loading a snapshot leaves behind.  Levels that continue a side in book order are appended
  until the side is full; the levels of a snapshot reach the cleared book filtered and sorted, so their own
  order and the earlier life of the controller leave no trace.
Trusted boundary: none
Main exports: updateAll_of_ascending, side_loadSnapshot, BestOf, GenericSnapshotFormat.levels,
  snapshot_forgets_past_and_order
-/
import ZidaBot.Proofs.OrderBookController

namespace ZidaBot

open OrderBookController SortedSeq

/-!
### Levels that continue a side

A snapshot is loaded level by level through the same `update` as an increment. On levels that come in book
order each of these calls appends, which turns the loop into a cut.
-/

/-- A level worse than all that rest goes to the end of the side, if there is room. -/
theorem placeIn_of_worst {s : Side} {depth : Nat} {vec : List Level} {level : Level}
    (ascending : Ascending (Level.rank s) (vec ++ [level])) (fits : vec.length ≤ depth) :
    OrderBook.placeIn s depth vec level = (vec ++ [level]).take depth := by
  obtain ⟨hvec, -, hcross⟩ := Ascending.append_iff.mp ascending
  obtain ⟨better, worse, rfl, -, habove, hfind⟩ := OrderBook.exists_split hvec level.priceTick
  have hworse : worse = [] := by
    cases worse with
    | nil => rfl
    | cons found rest =>
        have hbelow := hcross found (by simp) level (List.mem_cons_self ..)
        exact absurd hbelow (not_lt.mpr (habove found (List.mem_cons_self ..)))
  subst hworse
  rw [OrderBook.placeIn_split hfind]
  simp only [List.append_nil] at fits ⊢
  split
  · rename_i hroom
    rw [List.take_of_length_le]
    simpa [Nat.succ_le_iff] using hroom
  · rename_i hfull
    rw [List.take_left' (by omega)]

/-- What a cut has dropped makes no difference behind it. -/
theorem take_append_take {α : Type*} (n : Nat) (xs ys : List α) :
    (xs.take n ++ ys).take n = (xs ++ ys).take n := by
  have hlength : n - (xs.take n).length = n - xs.length := by
    rw [List.length_take]
    omega
  rw [List.take_append, List.take_take, Nat.min_self, hlength, List.take_append]

/-- Levels that continue a side in book order are appended one by one until the side is full. -/
theorem updateAll_of_ascending {s : Side} {levels : List Level} {book : OrderBook}
    (ascending : Ascending (Level.rank s) (book.side s ++ levels))
    (resting : ∀ level ∈ levels, level.quantityLot ≠ 0) (fits : (book.side s).length ≤ book.depth) :
    updateAll s book levels = book.setSide s ((book.side s ++ levels).take book.depth) := by
  induction levels generalizing book with
  | nil =>
      rw [List.append_nil, List.take_of_length_le fits]
      cases s <;> rfl
  | cons level levels ih =>
      rw [List.append_cons] at ascending
      have hplaced := placeIn_of_worst (Ascending.append_iff.mp ascending).1 fits
      have hupdate : book.update s level =
          book.setSide s ((book.side s ++ [level]).take book.depth) := by
        have hlevel := resting level (List.mem_cons_self ..)
        rw [OrderBook.update, if_neg (by simpa [Level.isEmpty] using hlevel), hplaced]
      have hrest := take_append_take book.depth (book.side s ++ [level]) levels
      rw [updateAll, List.foldl_cons, hupdate, ← updateAll, ih]
      · rw [OrderBook.side_setSide_self, OrderBook.depth_setSide, hrest, ← List.append_cons]
        cases s <;> rfl
      · rw [OrderBook.side_setSide_self]
        exact List.Pairwise.sublist ((List.take_sublist ..).append_right levels) ascending
      · exact fun l hl => resting l (List.mem_cons_of_mem level hl)
      · rw [OrderBook.side_setSide_self, OrderBook.depth_setSide]
        exact List.length_take_le ..

/-!
### The levels of a snapshot

What is filtered and sorted does not depend on the order in which distinct levels were listed. With two
levels at one tick it would.
-/

/-- No two non-empty levels of a list share a tick. -/
def DistinctTicks (levels : List Level) : Prop :=
  (levels.filter fun l => !l.isEmpty).Pairwise fun x y => x.priceTick ≠ y.priceTick

instance (levels : List Level) : Decidable (DistinctTicks levels) :=
  inferInstanceAs (Decidable (List.Pairwise _ _))

theorem perm_snapshotLevels (s : Side) (levels : List Level) :
    (snapshotLevels s levels).Perm (levels.filter fun l => !l.isEmpty) :=
  List.perm_insertionSort _ _

/-- What a snapshot contributes has a quantity. -/
theorem resting_of_mem_snapshotLevels {s : Side} {levels : List Level} {level : Level}
    (member : level ∈ snapshotLevels s levels) : level.quantityLot ≠ 0 := by
  have hfiltered := (perm_snapshotLevels s levels).mem_iff.mp member
  simpa [Level.isEmpty] using (List.mem_filter.mp hfiltered).2

/-- Sorting distinct ticks leaves them in strict book order. -/
theorem ascending_snapshotLevels {s : Side} {levels : List Level} (distinct : DistinctTicks levels) :
    Ascending (Level.rank s) (snapshotLevels s levels) := by
  let notAfter (x y : Level) : Prop := s.before y.priceTick x.priceTick = false
  have notAfter_iff : ∀ x y, notAfter x y ↔ x.rank s ≤ y.rank s := by
    intro x y
    rw [← not_lt, ← Side.before_iff, Bool.not_eq_true]
  have : Std.Total notAfter := ⟨fun x y => by
    rw [notAfter_iff, notAfter_iff]
    exact le_total _ _⟩
  have : IsTrans Level notAfter := ⟨fun x y z hxy hyz => by
    rw [notAfter_iff] at hxy hyz ⊢
    exact hxy.trans hyz⟩
  have hsorted : (snapshotLevels s levels).Pairwise notAfter := List.pairwise_insertionSort ..
  have hdistinct := ((perm_snapshotLevels s levels).pairwise_iff fun h => Ne.symm h).mpr distinct
  refine hsorted.imp₂ ?_ hdistinct
  intro x y hle hne
  refine lt_of_le_of_ne ((notAfter_iff x y).mp hle) ?_
  simpa [Level.rank] using hne

/-- The order in which distinct levels are listed leaves no trace. -/
theorem snapshotLevels_congr {s : Side} {levels levels' : List Level} (same : levels.Perm levels')
    (distinct : DistinctTicks levels) : snapshotLevels s levels = snapshotLevels s levels' := by
  have hfiltered := same.filter fun l => !l.isEmpty
  have hdistinct : DistinctTicks levels' := (hfiltered.pairwise_iff fun h => Ne.symm h).mp distinct
  have hperm : (snapshotLevels s levels).Perm (snapshotLevels s levels') :=
    ((perm_snapshotLevels s levels).trans hfiltered).trans (perm_snapshotLevels s levels').symm
  refine hperm.eq_of_pairwise ?_ (ascending_snapshotLevels distinct) (ascending_snapshotLevels hdistinct)
  intro x y _ _ hxy hyx
  exact absurd hxy (not_lt.mpr hyx.le)

/-- The levels of a snapshot on a side. -/
def GenericSnapshotFormat.levels (msg : GenericSnapshotFormat) : Side → List Level
  | .bid => msg.bids
  | .ask => msg.asks

/-- Loading a snapshot leaves, on each side, its sorted levels up to the depth. -/
theorem side_loadSnapshot (book : OrderBook) {msg : GenericSnapshotFormat}
    (distinct : ∀ s, DistinctTicks (msg.levels s)) (s : Side) :
    (loadSnapshot book msg).side s = (snapshotLevels s (msg.levels s)).take book.depth := by
  have hload : ∀ s (other : OrderBook), other.side s = [] →
      updateAll s other (snapshotLevels s (msg.levels s)) =
        other.setSide s ((snapshotLevels s (msg.levels s)).take other.depth) := by
    intro s other hempty
    have hascending : Ascending (Level.rank s) (other.side s ++ snapshotLevels s (msg.levels s)) := by
      rw [hempty]
      exact ascending_snapshotLevels (distinct s)
    rw [updateAll_of_ascending hascending (fun level hlevel => resting_of_mem_snapshotLevels hlevel)
      (by simp [hempty]), hempty, List.nil_append]
  have hbids := hload .bid book.clear (OrderBook.side_clear book .bid)
  have hasks := hload .ask
    (book.clear.setSide .bid ((snapshotLevels .bid msg.bids).take book.depth)) rfl
  rw [loadSnapshot]
  simp only [GenericSnapshotFormat.levels, OrderBook.depth_clear] at hbids hasks
  rw [hbids, hasks]
  cases s <;> rfl

/-!
### Result
-/

/-- The best levels of a list on a side of the given depth: its non-empty ones in book order, cut to the
    depth. -/
def BestOf (s : Side) (depth : Nat) (levels vec : List Level) : Prop :=
  ∃ sorted : List Level, sorted.Perm (levels.filter fun l => !l.isEmpty) ∧
    Ascending (Level.rank s) sorted ∧ vec = sorted.take depth

/-- A snapshot is loaded as if nothing had happened before and in whatever order its levels are listed:
    two controllers of one configuration come to the same outcome, book, state and sequence numbers, and a
    snapshot that is not refused leaves the best of its levels on each side. -/
theorem snapshot_forgets_past_and_order (cfg : ControllerConfig) (c c' : OrderBookController)
    (sameDepth : c.book.depth = c'.book.depth) (msg msg' : GenericSnapshotFormat) (kind : BaselineKind)
    (sameId : msg.lastUpdateId = msg'.lastUpdateId) (sameChecksum : msg.checksum = msg'.checksum)
    (sameLevels : ∀ s, (msg.levels s).Perm (msg'.levels s))
    (distinct : ∀ s, DistinctTicks (msg.levels s)) :
    (c.onSnapshot cfg msg kind).action = (c'.onSnapshot cfg msg' kind).action ∧
      (c.onSnapshot cfg msg kind).1.book = (c'.onSnapshot cfg msg' kind).1.book ∧
      (c.onSnapshot cfg msg kind).1.state = (c'.onSnapshot cfg msg' kind).1.state ∧
      (c.onSnapshot cfg msg kind).1.lastSeq = (c'.onSnapshot cfg msg' kind).1.lastSeq ∧
      (c.onSnapshot cfg msg kind).1.expectedSeq = (c'.onSnapshot cfg msg' kind).1.expectedSeq ∧
      ((c.onSnapshot cfg msg kind).action = .none →
        ∀ s, BestOf s c.book.depth (msg.levels s) ((c.onSnapshot cfg msg kind).1.book.side s)) := by
  have hbook : loadSnapshot c.book msg = loadSnapshot c'.book msg' := by
    have hbids := snapshotLevels_congr (s := .bid) (sameLevels .bid) (distinct .bid)
    have hasks := snapshotLevels_congr (s := .ask) (sameLevels .ask) (distinct .ask)
    rw [loadSnapshot_congr sameDepth, loadSnapshot, loadSnapshot]
    simp only [GenericSnapshotFormat.levels] at hbids hasks
    rw [hbids, hasks]
  have hrefused : refusesSnapshot cfg c.book msg = refusesSnapshot cfg c'.book msg' := by
    rw [refusesSnapshot, refusesSnapshot, hbook, sameChecksum]
  rw [onSnapshot_eq, onSnapshot_eq, hrefused]
  split
  · refine ⟨rfl, clear_eq_of_depth sameDepth, rfl, rfl, rfl, ?_⟩
    intro hnone
    cases hnone
  · refine ⟨rfl, hbook, rfl, sameId, congrArg (· + 1) sameId, ?_⟩
    intro _ s
    exact ⟨snapshotLevels s (msg.levels s), perm_snapshotLevels s _, ascending_snapshotLevels (distinct s),
      side_loadSnapshot c.book distinct s⟩

/-- A bid of one lot. -/
def singleLot (tick : Int) : Level := { priceTick := tick, quantityLot := 1, price := "", quantity := "" }

/-- Two bids and an emptied one, in the order given. -/
def bidsSnapshot (bids : List Level) : GenericSnapshotFormat :=
  { lastUpdateId := 7, tsRecvNs := 0, checksum := 0, bids := bids, asks := [] }

/-- A fresh controller and one that has lived through another snapshot, two orders of the same bids. -/
theorem snapshot_forgets_earlier_snapshot :
    let emptied : Level := { priceTick := 102, quantityLot := 0, price := "", quantity := "" }
    let msg := bidsSnapshot [singleLot 100, emptied, singleLot 101]
    let msg' := bidsSnapshot [singleLot 101, singleLot 100, emptied]
    let fresh := OrderBookController.new 1 Nat.one_pos
    let used := (fresh.onSnapshot {} (bidsSnapshot [singleLot 5]) .wsAuthoritative).1
    (fresh.onSnapshot {} msg .restAnchored).1.book = (used.onSnapshot {} msg' .restAnchored).1.book ∧
      BestOf .bid 1 msg.bids ((fresh.onSnapshot {} msg .restAnchored).1.book.side .bid) := by
  intro emptied msg msg' fresh used
  have hall := snapshot_forgets_past_and_order {} fresh used (by decide) msg msg' .restAnchored rfl rfl
    (by intro s; cases s <;> decide) (by intro s; cases s <;> decide)
  exact ⟨hall.2.1, hall.2.2.2.2.2 rfl .bid⟩

end ZidaBot
