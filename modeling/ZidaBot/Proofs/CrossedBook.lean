/-
Module: ZidaBot.Proofs.CrossedBook
Purpose: When a synced book can be crossed.  Both phases of `onIncrement` end with the crossed-book test;
  an authoritative snapshot makes the controller synced without it.  What the snapshot leads to can be read
  off its levels, since the best of them is never cut off by the depth.
Trusted boundary: none
Main exports: least_updateAll, CrossedLevels, crossed_loadSnapshot, NotCrossed, UncrossedBaseline,
  synced_never_crossed_iff
-/
import ZidaBot.Proofs.OrderBookController
import ZidaBot.Proofs.TopOfBook

namespace ZidaBot

open SortedSeq OrderBook

namespace OrderBookController

/-!
### The best level of a snapshot

The best level of all that were placed is never the one a full side gives up. So whether a snapshot loads a
crossed book depends on its levels alone, and not on the depth.
-/

/-- A side that was only written shows the best of the written ranks. -/
structure ShowsLeast (s : Side) (vec : List Level) (written : List Int) : Prop where
  le : ∀ k ∈ written, ∃ level, vec.head? = some level ∧ level.rank s ≤ k
  mem : ∀ level, vec.head? = some level → level.rank s ∈ written

theorem head?_quotes (s : Side) (vec : List Level) :
    (quotes s vec).head? = vec.head?.map fun level => (level.rank s, level.quantityLot) := by
  cases vec <;> rfl

/-- Placing one more level. -/
theorem ShowsLeast.update {s : Side} {book : OrderBook} {written : List Int} (valid : book.Valid)
    (shows : ShowsLeast s (book.side s) written) {level : Level} (resting : level.quantityLot ≠ 0) :
    ShowsLeast s ((book.update s level).side s) (written ++ [level.rank s]) := by
  obtain ⟨e, hhead, hkey, hold, horigin⟩ := SortedMap.head?_edit (k := level.rank s) book.depth_pos
    resting (sorted_quotes (valid s).ascending)
  rw [← quotes_update valid, head?_quotes, Option.map_eq_some_iff] at hhead
  obtain ⟨top, htop, rfl⟩ := hhead
  constructor
  · intro k hk
    refine ⟨top, htop, ?_⟩
    rcases List.mem_append.mp hk with hwritten | hnew
    · obtain ⟨first, hfirst, hle⟩ := shows.le k hwritten
      have hmember : (first.rank s, first.quantityLot) ∈ quotes s (book.side s) :=
        List.mem_map.mpr ⟨first, List.mem_of_head? hfirst, rfl⟩
      exact le_trans (hold _ hmember) hle
    · rw [List.mem_singleton.mp hnew]
      exact hkey
  · intro other hother
    obtain rfl : top = other := Option.some.inj (htop.symm.trans hother)
    rcases horigin with hwritten | hfirst
    · rw [(Prod.mk.inj hwritten).1]
      exact List.mem_append_right _ (List.mem_singleton_self _)
    · rw [head?_quotes, Option.map_eq_some_iff] at hfirst
      obtain ⟨first, hfirst, hsame⟩ := hfirst
      rw [← (Prod.mk.inj hsame).1]
      exact List.mem_append_left _ (shows.mem first hfirst)

/-- Placing a list of levels on a cleared side. -/
theorem ShowsLeast.updateAll {s : Side} {levels : List Level} {book : OrderBook} {written : List Int}
    (valid : book.Valid) (shows : ShowsLeast s (book.side s) written)
    (resting : ∀ level ∈ levels, level.quantityLot ≠ 0) :
    ShowsLeast s ((OrderBookController.updateAll s book levels).side s)
      (written ++ levels.map (Level.rank s)) := by
  induction levels generalizing book written with
  | nil => simpa [OrderBookController.updateAll] using shows
  | cons level levels ih =>
      have hnext := shows.update valid (resting level (List.mem_cons_self ..))
      have hrest := ih (valid.update s level) hnext
        fun l hl => resting l (List.mem_cons_of_mem level hl)
      rwa [List.append_assoc] at hrest

theorem mem_snapshotLevels {s : Side} {levels : List Level} {level : Level} :
    level ∈ snapshotLevels s levels ↔ level ∈ levels ∧ level.quantityLot ≠ 0 := by
  rw [snapshotLevels, List.mem_insertionSort, List.mem_filter]
  simp [Level.isEmpty]

theorem side_updateAll_of_ne {s s' : Side} (different : s' ≠ s) (levels : List Level)
    (book : OrderBook) : (updateAll s book levels).side s' = book.side s' := by
  induction levels generalizing book with
  | nil => rfl
  | cons level levels ih =>
      exact (ih (book.update s level)).trans (side_update_of_ne different book level)

/-- The levels a message gives for a side. -/
def levelsOf (msg : GenericSnapshotFormat) : Side → List Level
  | .bid => msg.bids
  | .ask => msg.asks

/-- The best level of a side of a loaded snapshot: the best of its non-empty levels. -/
theorem showsLeast_loadSnapshot (s : Side) (book : OrderBook) (msg : GenericSnapshotFormat) :
    ShowsLeast s ((loadSnapshot book msg).side s)
      ((snapshotLevels s (levelsOf msg s)).map (Level.rank s)) := by
  have hstart : ∀ book : OrderBook, book.side s = [] → ShowsLeast s (book.side s) [] := by
    intro book hempty
    rw [hempty]
    exact ⟨fun k hk => absurd hk List.not_mem_nil, fun level hlevel => by cases hlevel⟩
  have hresting : ∀ levels, ∀ level ∈ snapshotLevels s levels, level.quantityLot ≠ 0 :=
    fun levels level hlevel => (mem_snapshotLevels.mp hlevel).2
  cases s with
  | bid =>
      rw [loadSnapshot, side_updateAll_of_ne (by decide)]
      exact (hstart _ (side_clear book .bid)).updateAll (valid_clear book) (hresting msg.bids)
  | ask =>
      have hside : (updateAll .bid book.clear (snapshotLevels .bid msg.bids)).side .ask =
          book.clear.side .ask := side_updateAll_of_ne (by decide) _ _
      rw [loadSnapshot]
      exact (hstart _ (hside.trans (side_clear book .ask))).updateAll
        (updateAll_valid (valid_clear book)) (hresting msg.asks)

/-- Some ask of the snapshot stands at or below some bid, and every ask has a positive price; levels
    without quantity do not count. -/
def CrossedLevels (msg : GenericSnapshotFormat) : Prop :=
  (∃ bid ∈ msg.bids, bid.quantityLot ≠ 0 ∧
    ∃ ask ∈ msg.asks, ask.quantityLot ≠ 0 ∧ ask.priceTick ≤ bid.priceTick) ∧
  ∀ ask ∈ msg.asks, ask.quantityLot ≠ 0 → 0 < ask.priceTick

instance (msg : GenericSnapshotFormat) : Decidable (CrossedLevels msg) :=
  inferInstanceAs (Decidable (_ ∧ _))

/-- The best level of a loaded snapshot: none if the snapshot has no level with a quantity, and otherwise
    one of these that no other is better than. -/
theorem best_loadSnapshot (s : Side) (book : OrderBook) (msg : GenericSnapshotFormat) :
    ((∀ level ∈ levelsOf msg s, level.quantityLot = 0) ∧
        (loadSnapshot book msg).best s = emptyLevel) ∨
      ∃ level ∈ levelsOf msg s, level.quantityLot ≠ 0 ∧
        level.priceTick = ((loadSnapshot book msg).best s).priceTick ∧
        ∀ other ∈ levelsOf msg s, other.quantityLot ≠ 0 → level.rank s ≤ other.rank s := by
  have shows := showsLeast_loadSnapshot s book msg
  generalize loadSnapshot book msg = loaded at shows ⊢
  have hle : ∀ other ∈ levelsOf msg s, other.quantityLot ≠ 0 →
      ∃ top, (loaded.side s).head? = some top ∧ top.rank s ≤ other.rank s :=
    fun other hother hresting => shows.le (other.rank s)
      (List.mem_map.mpr ⟨other, mem_snapshotLevels.mpr ⟨hother, hresting⟩, rfl⟩)
  rw [best_eq, List.headD_eq_head?_getD]
  cases htop : (loaded.side s).head? with
  | none =>
      refine Or.inl ⟨fun level hlevel => ?_, rfl⟩
      by_contra hresting
      obtain ⟨top, hsome, -⟩ := hle level hlevel hresting
      rw [htop] at hsome
      cases hsome
  | some top =>
      obtain ⟨level, hlevel, hrank⟩ := List.mem_map.mp (shows.mem top htop)
      obtain ⟨hmember, hresting⟩ := mem_snapshotLevels.mp hlevel
      refine Or.inr ⟨level, hmember, hresting, (s.rank_inj _ _).mp hrank, ?_⟩
      intro other hother hotherResting
      obtain ⟨top', hsame, hbest⟩ := hle other hother hotherResting
      obtain rfl : top = top' := Option.some.inj (htop.symm.trans hsame)
      exact hrank ▸ hbest

/-- Whether a snapshot loads a crossed book can be read off its levels. -/
theorem crossed_loadSnapshot (book : OrderBook) (msg : GenericSnapshotFormat) :
    crossed (loadSnapshot book msg) = true ↔ CrossedLevels msg := by
  have hcrossed : crossed (loadSnapshot book msg) = true ↔
      (0 < ((loadSnapshot book msg).best .bid).priceTick ∧
        0 < ((loadSnapshot book msg).best .ask).priceTick) ∧
        ((loadSnapshot book msg).best .ask).priceTick ≤
          ((loadSnapshot book msg).best .bid).priceTick := by
    simp [crossed, best]
  rw [hcrossed]
  rcases best_loadSnapshot .bid book msg with
    ⟨hnoBid, hbest⟩ | ⟨bid, hbid, hbidResting, hbidTick, hbidBest⟩
  · -- without a bid neither the book nor the levels are crossed
    rw [hbest]
    refine iff_of_false (fun h => absurd h.1.1 (by decide)) ?_
    rintro ⟨⟨bid, hbid, hresting, -⟩, -⟩
    exact hresting (hnoBid bid hbid)
  · rcases best_loadSnapshot .ask book msg with
      ⟨hnoAsk, hbest⟩ | ⟨ask, hask, haskResting, haskTick, haskBest⟩
    · rw [hbest]
      refine iff_of_false (fun h => absurd h.1.2 (by decide)) ?_
      rintro ⟨⟨-, -, -, ask, hask, hresting, -⟩, -⟩
      exact hresting (hnoAsk ask hask)
    · rw [← hbidTick, ← haskTick]
      constructor
      · rintro ⟨⟨-, haskPos⟩, hle⟩
        refine ⟨⟨bid, hbid, hbidResting, ask, hask, haskResting, hle⟩, ?_⟩
        intro other hother hresting
        exact haskPos.trans_le (haskBest other hother hresting)
      · rintro ⟨⟨bid', hbid', hbidResting', ask', hask', haskResting', hle⟩, hpositive⟩
        have haskPos := hpositive ask hask haskResting
        have haskLe : ask.priceTick ≤ ask'.priceTick := haskBest ask' hask' haskResting'
        have hbidLe : -bid.priceTick ≤ -bid'.priceTick := hbidBest bid' hbid' hbidResting'
        exact ⟨⟨by omega, haskPos⟩, by omega⟩

/-!
### Runs of the controller

An increment is tested for a crossed book before it is accepted, and a REST snapshot does not make the
controller synced. That leaves the authoritative snapshots.
-/

/-- In the state `Synced`, positive best ticks are in order. -/
def NotCrossed (c : OrderBookController) : Prop :=
  c.state = .synced → 0 < c.book.bestBid.priceTick → 0 < c.book.bestAsk.priceTick →
    c.book.bestBid.priceTick < c.book.bestAsk.priceTick

/-- An authoritative snapshot that is not refused for its checksum does not have crossed levels. -/
def UncrossedBaseline (cfg : ControllerConfig) (c : OrderBookController) : ControllerOp → Prop
  | .snapshot msg .wsAuthoritative => refusesSnapshot cfg c.book msg = false → ¬ CrossedLevels msg
  | _ => True

variable {cfg : ControllerConfig} {c : OrderBookController}

theorem notCrossed_of_not_synced (other : c.state ≠ .synced) : NotCrossed c :=
  fun hsynced => absurd hsynced other

theorem notCrossed_iff (synced : c.state = .synced) : NotCrossed c ↔ crossed c.book = false := by
  simp only [NotCrossed, synced, crossed, Bool.and_eq_false_iff, decide_eq_false_iff_not, forall_const]
  omega

/-- A step from an uncrossed controller leads to a crossed one exactly if it is such a snapshot. -/
theorem notCrossed_step_iff (notCrossed : NotCrossed c) (op : ControllerOp) :
    NotCrossed (c.step cfg op) ↔ UncrossedBaseline cfg c op := by
  cases op with
  | snapshot msg kind =>
      rw [step, call, onSnapshot_eq]
      by_cases hrefused : refusesSnapshot cfg c.book msg = true
      · rw [if_pos hrefused]
        apply iff_of_true (notCrossed_of_not_synced (by simp [resetBook]))
        cases kind with
        | wsAuthoritative => simp [UncrossedBaseline, hrefused]
        | restAnchored => trivial
      · rw [if_neg hrefused]
        cases kind with
        | wsAuthoritative =>
            rw [notCrossed_iff rfl, Bool.eq_false_iff]
            simp only [UncrossedBaseline, Bool.eq_false_iff.mpr hrefused, forall_const]
            exact not_congr (crossed_loadSnapshot c.book msg)
        | restAnchored =>
            exact iff_of_true (notCrossed_of_not_synced (by simp [loaded, baselineState])) trivial
  | increment msg =>
      apply iff_of_true _ trivial
      rw [step, call]
      have outcome := onIncrement_cases cfg c msg
      generalize c.onIncrement cfg msg = result at outcome
      cases outcome with
      | skipped => exact notCrossed
      | resynced reason counter => exact notCrossed_of_not_synced (by simp [resetWith, resetBook])
      | applied counter applies uncrossed => exact (notCrossed_iff rfl).mpr uncrossed
  | reset => exact iff_of_true (notCrossed_of_not_synced (by simp [step, call, resetBook])) trivial

end OrderBookController

/-!
### Result
-/

open OrderBookController in
/-- In every state a run of the controller passes, a synced book with positive best ticks is uncrossed,
    exactly if every authoritative snapshot of the run that its checksum does not refuse comes with
    uncrossed levels. -/
theorem synced_never_crossed_iff (cfg : ControllerConfig) (depth : Nat) (depth_pos : 0 < depth)
    (ops : List ControllerOp) :
    (∀ reached, reached <+: ops →
      NotCrossed (Runs.run (step cfg) (new depth depth_pos) reached)) ↔
    Runs.Along (step cfg) (UncrossedBaseline cfg) (new depth depth_pos) ops := by
  have hstep : ∀ (c : OrderBookController) (op : ControllerOp), True → NotCrossed c →
      (NotCrossed (c.step cfg op) ↔ UncrossedBaseline cfg c op) :=
    fun _ op _ notCrossed => notCrossed_step_iff notCrossed op
  exact Runs.Along.iff_of_step (fun _ _ _ _ => trivial) hstep trivial
    (notCrossed_of_not_synced (by simp [new])) ops

/-- A baseline of one bid below one ask, and an increment that would cross it. -/
def uncrossedRun : List ControllerOp :=
  [.snapshot ⟨7, 0, 0, [lotAt 100], [lotAt 101]⟩ .wsAuthoritative,
    .increment ⟨8, 8, 0, 0, 0, [lotAt 102], []⟩]

/-- The baseline is uncrossed, so no state of the run is crossed. -/
theorem synced_never_crossed_uncrossed_run :
    OrderBookController.NotCrossed
      (Runs.run (OrderBookController.step {}) (OrderBookController.new 5 (by decide)) uncrossedRun) :=
  (synced_never_crossed_iff {} 5 (by decide) uncrossedRun).mpr ⟨fun _ => by decide, trivial, trivial⟩
    uncrossedRun (List.prefix_refl _)

/-- A bid at 101 above an ask at 100, sent as an authoritative baseline. -/
def crossedBaseline : GenericSnapshotFormat :=
  { lastUpdateId := 7, tsRecvNs := 0, checksum := 0, bids := [lotAt 101], asks := [lotAt 100] }

/-- The controller is synced on the crossed book. -/
theorem synced_book_crossed :
    ¬ ∀ (cfg : ControllerConfig) (depth : Nat) (depth_pos : 0 < depth) (ops : List ControllerOp),
      OrderBookController.NotCrossed
        (Runs.run (OrderBookController.step cfg) (OrderBookController.new depth depth_pos) ops) := by
  intro all
  have hlt := all {} 5 (by decide) [.snapshot crossedBaseline .wsAuthoritative] (by decide) (by decide)
    (by decide)
  exact absurd hlt (by decide)

end ZidaBot
