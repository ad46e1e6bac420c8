/-
Module: ZidaBot.Proofs.OrderBookController
Purpose: What one call of the controller can do, and what every sequence of calls therefore keeps.
  `IncrementCase` lists the three ways an increment can end (skipped, resynced, applied) with every guard
  that leads there; the invariants below are short case analyses over it.
Trusted boundary: none
Main exports: IncrementCase, onIncrement_cases, onSnapshot_cases, Inv, inv_run,
  order_book_always_valid, controller_state_machine
-/
import ZidaBot.Common.OrderBookController
import ZidaBot.Proofs.OrderBook

namespace ZidaBot

open OrderBook

namespace OrderBookController

variable {cfg : ControllerConfig} {c : OrderBookController}

/-!
### Loading levels
-/

theorem updateAll_valid {s : Side} {levels : List Level} {book : OrderBook} (valid : book.Valid) :
    (updateAll s book levels).Valid := by
  induction levels generalizing book with
  | nil => exact valid
  | cons level levels ih => exact ih (valid.update s level)

@[simp] theorem depth_updateAll (s : Side) (levels : List Level) (book : OrderBook) :
    (updateAll s book levels).depth = book.depth := by
  induction levels generalizing book with
  | nil => rfl
  | cons level levels ih => exact (ih (book.update s level)).trans (depth_update s book level)

@[simp] theorem depth_loadSnapshot (book : OrderBook) (msg : GenericSnapshotFormat) :
    (loadSnapshot book msg).depth = book.depth := by
  simp [loadSnapshot]

@[simp] theorem depth_applyIncrementUpdate (book : OrderBook) (msg : GenericIncrementalFormat) :
    (applyIncrementUpdate book msg).depth = book.depth := by
  simp [applyIncrementUpdate]

theorem applyIncrementUpdate_valid {book : OrderBook} (valid : book.Valid)
    (msg : GenericIncrementalFormat) : (applyIncrementUpdate book msg).Valid :=
  updateAll_valid (updateAll_valid valid)

theorem loadSnapshot_valid (book : OrderBook) (msg : GenericSnapshotFormat) :
    (loadSnapshot book msg).Valid :=
  updateAll_valid (updateAll_valid (valid_clear book))

/-- Clearing forgets everything but the depth. -/
theorem clear_eq_of_depth {first second : OrderBook} (depthEq : first.depth = second.depth) :
    first.clear = second.clear :=
  ext_side (by simpa using depthEq) (by simp)

/-- A snapshot is loaded into a cleared book, so only the depth of the old book matters. -/
theorem loadSnapshot_congr {first second : OrderBook} (depthEq : first.depth = second.depth)
    (msg : GenericSnapshotFormat) : loadSnapshot first msg = loadSnapshot second msg := by
  rw [loadSnapshot, loadSnapshot, clear_eq_of_depth depthEq]

/-!
### What an increment can do

`onIncrement` has two phases with a dozen exits. `IncrementCase` names what the exits have in common, and
every later fact about an increment is a case analysis over its three cases. The levels are applied before
the guards that may refuse them; a refusal resets the controller, so this leaves no trace.
-/

/-- The controller after a resync request: reset, with some value of the validation counter. -/
def resetWith (c : OrderBookController) (counter : Nat) : OrderBookController :=
  { c.resetBook with validateCounter := counter }

/-- The controller after an accepted increment, with some value of the validation counter. -/
def appliedWith (c : OrderBookController) (msg : GenericIncrementalFormat) (counter : Nat) :
    OrderBookController :=
  { c.applied msg with validateCounter := counter }

@[simp] theorem applied_book (c : OrderBookController) (msg : GenericIncrementalFormat) :
    (c.applied msg).book = applyIncrementUpdate c.book msg := rfl

/-- Levels of the increment reach the book: there is a baseline, a sequence id or a checksum guards the
    message, it is not older than expected, and it leaves no gap that would be refused. -/
structure Applies (cfg : ControllerConfig) (c : OrderBookController)
    (msg : GenericIncrementalFormat) : Prop where
  baseline : c.state ≠ .waitingSnapshot
  guarded : msg.lastSeq = 0 → cfg.checksumFn.isSome = true
  current : msg.lastSeq ≠ 0 → ¬ msg.lastSeq < c.expectedSeq
  gapless : msg.lastSeq ≠ 0 → cfg.allowSeqGap = false → ¬ c.expectedSeq < msg.firstSeq

instance (cfg : ControllerConfig) (c : OrderBookController) (msg : GenericIncrementalFormat) :
    Decidable (Applies cfg c msg) :=
  decidable_of_iff
    (c.state ≠ .waitingSnapshot ∧ (msg.lastSeq = 0 → cfg.checksumFn.isSome = true) ∧
      (msg.lastSeq ≠ 0 → ¬ msg.lastSeq < c.expectedSeq) ∧
      (msg.lastSeq ≠ 0 → cfg.allowSeqGap = false → ¬ c.expectedSeq < msg.firstSeq))
    ⟨fun ⟨h1, h2, h3, h4⟩ => ⟨h1, h2, h3, h4⟩, fun ⟨h1, h2, h3, h4⟩ => ⟨h1, h2, h3, h4⟩⟩

/-- The three ways an increment ends, with the guards that lead there. -/
inductive IncrementCase (cfg : ControllerConfig) (c : OrderBookController)
    (msg : GenericIncrementalFormat) : Outcome → Prop where
  | skipped
      (reason : c.state = .waitingSnapshot ∨ (msg.lastSeq ≠ 0 ∧ msg.lastSeq < c.expectedSeq)) :
      IncrementCase cfg c msg (c, none)
  | resynced (reason : ResyncReason) (counter : Nat) (baseline : c.state ≠ .waitingSnapshot)
      (broken : reason = .validateFailed → (applyIncrementUpdate c.book msg).validate = false) :
      IncrementCase cfg c msg (c.resetWith counter, some reason)
  | applied (counter : Nat) (applies : Applies cfg c msg)
      (uncrossed : crossed (applyIncrementUpdate c.book msg) = false)
      (checked : ∀ fn, cfg.checksumFn = some fn →
        msg.checksum ≠ 0 ∧ fn (applyIncrementUpdate c.book msg) msg.checksum cfg.checksumTopN = true) :
      IncrementCase cfg c msg (c.appliedWith msg counter, none)

/-- Resetting after the levels were applied leaves no trace of them. -/
theorem applied_resetBook (c : OrderBookController) (msg : GenericIncrementalFormat) :
    (c.applied msg).resetBook = c.resetWith c.validateCounter := by
  simp only [resetBook, applied, resetWith]
  rw [clear_eq_of_depth (depth_applyIncrementUpdate c.book msg)]

theorem appliedWith_resetBook (c : OrderBookController) (msg : GenericIncrementalFormat)
    (counter : Nat) : (c.appliedWith msg counter).resetBook = c.resetWith counter := by
  simp only [resetBook, applied, appliedWith, resetWith]
  rw [clear_eq_of_depth (depth_applyIncrementUpdate c.book msg)]

section Guards

variable {msg : GenericIncrementalFormat}

/-- The checksum guards of the steady state after the other guards passed. -/
theorem checksumGuards_cases (counter : Nat) (applies : Applies cfg c msg)
    (uncrossed : crossed (applyIncrementUpdate c.book msg) = false) :
    IncrementCase cfg c msg ((c.appliedWith msg counter).checksumGuards cfg msg) := by
  have resynced : ∀ reason, reason ≠ .validateFailed →
      IncrementCase cfg c msg ((c.appliedWith msg counter).needResync reason) := by
    intro reason hreason
    rw [needResync, appliedWith_resetBook]
    exact .resynced reason counter applies.baseline (fun h => absurd h hreason)
  rw [checksumGuards]
  split
  · exact resynced _ (by decide)
  · rename_i hpresent
    split
    · exact resynced _ (by decide)
    · rename_i hmatch
      split
      · exact resynced _ (by decide)
      · refine .applied counter applies uncrossed ?_
        intro fn hfn
        simpa [hfn, validateChecksum, appliedWith, OrderBookController.applied] using
          And.intro hpresent hmatch

theorem bridgeGuards_cases (applies : Applies cfg c msg) :
    IncrementCase cfg c msg ((c.applied msg).bridgeGuards cfg msg) := by
  have resynced : ∀ reason, reason ≠ .validateFailed →
      IncrementCase cfg c msg ((c.applied msg).needResync reason) := by
    intro reason hreason
    rw [needResync, applied_resetBook]
    exact .resynced reason _ applies.baseline (fun h => absurd h hreason)
  rw [bridgeGuards]
  split
  · exact resynced _ (by decide)
  · rename_i hcrossed
    have uncrossed : crossed (applyIncrementUpdate c.book msg) = false := by simpa using hcrossed
    split
    · split
      · exact resynced _ (by decide)
      · rename_i hpresent
        split
        · exact resynced _ (by decide)
        · rename_i hmatch
          refine .applied c.validateCounter applies uncrossed ?_
          intro fn hfn
          simpa [hfn, validateChecksum] using And.intro hpresent hmatch
    · rename_i hfn
      refine .applied c.validateCounter applies uncrossed ?_
      intro fn hsome
      simp [hsome] at hfn

theorem steadyGuards_cases (applies : Applies cfg c msg) :
    IncrementCase cfg c msg ((c.applied msg).steadyGuards cfg msg) := by
  rw [steadyGuards]
  split
  · rw [needResync, applied_resetBook]
    exact .resynced _ _ applies.baseline (by simp)
  · rename_i hcrossed
    have uncrossed : crossed (applyIncrementUpdate c.book msg) = false := by simpa using hcrossed
    split
    · split
      · dsimp only
        split
        · -- the periodic validation failed on the updated book
          rename_i hinvalid
          have hbroken : (applyIncrementUpdate c.book msg).validate = false := by
            simpa using hinvalid
          have hreset := appliedWith_resetBook c msg 0
          rw [appliedWith] at hreset
          rw [needResync, hreset]
          exact .resynced _ 0 applies.baseline (fun _ => hbroken)
        · exact checksumGuards_cases 0 applies uncrossed
      · exact checksumGuards_cases (c.validateCounter + 1) applies uncrossed
    · exact checksumGuards_cases c.validateCounter applies uncrossed

end Guards

/-- Everything `onIncrement` can do. -/
theorem onIncrement_cases (cfg : ControllerConfig) (c : OrderBookController)
    (msg : GenericIncrementalFormat) : IncrementCase cfg c msg (c.onIncrement cfg msg) := by
  have refused : ∀ reason, reason ≠ .validateFailed → c.state ≠ .waitingSnapshot →
      IncrementCase cfg c msg (c.needResync reason) :=
    fun reason hreason hbaseline =>
      .resynced reason c.validateCounter hbaseline (fun h => absurd h hreason)
  rw [onIncrement]
  split
  · exact .skipped (Or.inl ‹_›)
  · rename_i hbaseline
    split
    · exact refused _ (by decide) hbaseline
    · rename_i hguarded
      have guarded : msg.lastSeq = 0 → cfg.checksumFn.isSome = true := by
        intro hzero
        cases hfn : cfg.checksumFn with
        | none => exact absurd ⟨hzero, by simp [hfn]⟩ hguarded
        | some fn => rfl
      split
      · split
        · exact .skipped (Or.inr ‹_›)
        · rename_i hcurrent
          split
          · exact refused _ (by decide) hbaseline
          · rename_i hgap
            exact bridgeGuards_cases ⟨hbaseline, guarded, fun hseq hold => hcurrent ⟨hseq, hold⟩,
              fun hseq hallow hlt => hgap ⟨hseq, hlt, hallow⟩⟩
      · split
        · exact .skipped (Or.inr ‹_›)
        · rename_i hcurrent
          split
          · exact refused _ (by decide) hbaseline
          · rename_i hgap
            exact steadyGuards_cases ⟨hbaseline, guarded, fun hseq hold => hcurrent ⟨hseq, hold⟩,
              fun hseq hallow hlt => hgap ⟨hseq, hlt, hallow⟩⟩

/-- An increment before the baseline, or older than expected, changes nothing. -/
theorem onIncrement_skipped {msg : GenericIncrementalFormat}
    (old : c.state = .waitingSnapshot ∨ (msg.lastSeq ≠ 0 ∧ msg.lastSeq < c.expectedSeq)) :
    c.onIncrement cfg msg = (c, none) := by
  rw [onIncrement]
  rcases old with hwait | ⟨hseq, hlt⟩
  · rw [if_pos hwait]
  · simp [hseq, hlt]

/-- An increment that asks for no resync is skipped, or leaves the controller synced. -/
theorem onIncrement_accepted {msg : GenericIncrementalFormat}
    (accepted : (c.onIncrement cfg msg).action = .none) :
    (c.onIncrement cfg msg).1 = c ∨ (c.onIncrement cfg msg).1.state = .synced := by
  have hcase := onIncrement_cases cfg c msg
  generalize c.onIncrement cfg msg = outcome at hcase accepted
  cases hcase with
  | skipped reason => exact Or.inl rfl
  | resynced reason counter => cases accepted
  | applied counter => exact Or.inr rfl

/-!
### What a snapshot can do
-/

/-- The controller once a snapshot is loaded, before its state is set. -/
def loaded (c : OrderBookController) (msg : GenericSnapshotFormat) (state : BookSyncState) :
    OrderBookController :=
  { book := loadSnapshot c.book msg, state := state, lastSeq := msg.lastUpdateId,
    expectedSeq := msg.lastUpdateId + 1, validateCounter := c.validateCounter }

/-- State a baseline of the given kind leads to. -/
def baselineState : BaselineKind → BookSyncState
  | .wsAuthoritative => .synced
  | .restAnchored => .waitingBridge

/-- The snapshot carries a checksum, a function is there to check it, and the loaded book fails. -/
def refusesSnapshot (cfg : ControllerConfig) (book : OrderBook) (msg : GenericSnapshotFormat) : Bool :=
  match cfg.checksumFn with
  | none => false
  | some fn => msg.checksum != 0 && !fn (loadSnapshot book msg) msg.checksum cfg.checksumTopN

/-- Everything `onSnapshot` can do: a snapshot is refused for its checksum, which resets the controller,
    or it is loaded. -/
theorem onSnapshot_eq (cfg : ControllerConfig) (c : OrderBookController) (msg : GenericSnapshotFormat)
    (kind : BaselineKind) :
    c.onSnapshot cfg msg kind =
      if refusesSnapshot cfg c.book msg then (c.resetBook, some .snapshotChecksumMismatch)
      else (c.loaded msg (baselineState kind), none) := by
  have hload : loadSnapshot c.book.clear msg = loadSnapshot c.book msg :=
    loadSnapshot_congr (by simp) msg
  have hclear : (loadSnapshot c.book msg).clear = c.book.clear :=
    clear_eq_of_depth (depth_loadSnapshot c.book msg)
  unfold onSnapshot refusesSnapshot
  simp only [resetBook, needResync, hload, hclear, validateChecksum]
  cases cfg.checksumFn with
  | none => cases kind <;> rfl
  | some fn =>
      cases kind <;> simp [loaded, baselineState]

/-- A snapshot is either refused for its checksum, which resets the controller, or loaded. -/
theorem onSnapshot_cases (cfg : ControllerConfig) (c : OrderBookController)
    (msg : GenericSnapshotFormat) (kind : BaselineKind) :
    (c.onSnapshot cfg msg kind = (c.resetBook, some .snapshotChecksumMismatch) ∧
        cfg.checksumFn.isSome = true) ∨
      c.onSnapshot cfg msg kind = (c.loaded msg (baselineState kind), none) := by
  rw [onSnapshot_eq]
  split
  · rename_i hrefused
    refine Or.inl ⟨rfl, ?_⟩
    cases hfn : cfg.checksumFn with
    | none => simp [refusesSnapshot, hfn] at hrefused
    | some fn => rfl
  · exact Or.inr rfl

/-- Without a checksum function every snapshot is loaded. -/
theorem onSnapshot_of_no_checksum (noChecksum : cfg.checksumFn = none) (c : OrderBookController)
    (msg : GenericSnapshotFormat) (kind : BaselineKind) :
    c.onSnapshot cfg msg kind = (c.loaded msg (baselineState kind), none) := by
  rcases onSnapshot_cases cfg c msg kind with ⟨-, hsome⟩ | hloaded
  · simp [noChecksum] at hsome
  · exact hloaded

/-!
### The invariant of the controller

In each state the sequence numbers and the book are tied to each other. The strict checks of `onIncrement`
compare with `expectedSeq`, and it is this invariant that makes them checks against the last applied id.
-/

/-- The book is well formed; without a baseline it is empty and both sequence numbers are zero; with one,
    the expected number follows the last one. -/
structure Inv (c : OrderBookController) : Prop where
  valid : c.book.Valid
  idle : c.state = .waitingSnapshot →
    (∀ s, c.book.side s = []) ∧ c.lastSeq = 0 ∧ c.expectedSeq = 0
  next : c.state ≠ .waitingSnapshot → c.expectedSeq = c.lastSeq + 1

theorem inv_new (depth : Nat) (depth_pos : 0 < depth) : (new depth depth_pos).Inv :=
  ⟨valid_empty depth depth_pos, fun _ => ⟨fun s => by cases s <;> rfl, rfl, rfl⟩,
    fun h => absurd rfl h⟩

theorem inv_resetWith (c : OrderBookController) (counter : Nat) : (c.resetWith counter).Inv :=
  ⟨valid_clear c.book, fun _ => ⟨fun s => side_clear c.book s, rfl, rfl⟩, fun h => absurd rfl h⟩

theorem inv_resetBook (c : OrderBookController) : c.resetBook.Inv :=
  inv_resetWith c c.validateCounter

theorem inv_loaded (c : OrderBookController) (msg : GenericSnapshotFormat) (kind : BaselineKind) :
    (c.loaded msg (baselineState kind)).Inv :=
  ⟨loadSnapshot_valid c.book msg, fun h => (by cases kind <;> cases h),
    fun _ => rfl⟩

theorem Inv.appliedWith (inv : c.Inv) {msg : GenericIncrementalFormat} (applies : Applies cfg c msg)
    (counter : Nat) : (c.appliedWith msg counter).Inv := by
  refine ⟨applyIncrementUpdate_valid inv.valid msg, fun h => (by cases h), fun _ => ?_⟩
  have hnext := inv.next applies.baseline
  by_cases hseq : msg.lastSeq = 0
  · simpa [OrderBookController.appliedWith, applied, hseq] using hnext
  · simp [OrderBookController.appliedWith, applied, hseq]

theorem Inv.onSnapshot (_ : c.Inv) (msg : GenericSnapshotFormat) (kind : BaselineKind) :
    (c.onSnapshot cfg msg kind).1.Inv := by
  rcases onSnapshot_cases cfg c msg kind with ⟨hrefused, -⟩ | hloaded
  · rw [hrefused]
    exact inv_resetBook c
  · rw [hloaded]
    exact inv_loaded c msg kind

theorem Inv.onIncrement (inv : c.Inv) (msg : GenericIncrementalFormat) :
    (c.onIncrement cfg msg).1.Inv := by
  cases hcase : c.onIncrement cfg msg with
  | mk c' reason =>
      have outcome := onIncrement_cases cfg c msg
      rw [hcase] at outcome
      cases outcome with
      | skipped => exact inv
      | resynced reason counter => exact inv_resetWith c counter
      | applied counter applies => exact inv.appliedWith applies counter

/-- Every call keeps the invariant. -/
theorem Inv.step (inv : c.Inv) (op : ControllerOp) : (c.step cfg op).Inv := by
  cases op with
  | snapshot msg kind => exact inv.onSnapshot msg kind
  | increment msg => exact inv.onIncrement msg
  | reset => exact inv_resetBook c

/-- No call changes the depth of the book. -/
theorem depth_onSnapshot (cfg : ControllerConfig) (c : OrderBookController) (msg : GenericSnapshotFormat)
    (kind : BaselineKind) : (c.onSnapshot cfg msg kind).1.book.depth = c.book.depth := by
  rcases onSnapshot_cases cfg c msg kind with ⟨hrefused, -⟩ | hloaded
  · rw [hrefused]
    rfl
  · rw [hloaded]
    exact depth_loadSnapshot c.book msg

theorem depth_onIncrement (cfg : ControllerConfig) (c : OrderBookController)
    (msg : GenericIncrementalFormat) : (c.onIncrement cfg msg).1.book.depth = c.book.depth := by
  have hcase := onIncrement_cases cfg c msg
  generalize c.onIncrement cfg msg = outcome at hcase
  cases hcase with
  | skipped reason => rfl
  | resynced reason counter => rfl
  | applied counter => exact depth_applyIncrementUpdate c.book msg

/-- The invariant after every sequence of calls. -/
theorem inv_run (cfg : ControllerConfig) (depth : Nat) (depth_pos : 0 < depth)
    (ops : List ControllerOp) :
    (Runs.run (step cfg) (new depth depth_pos) ops).Inv :=
  Runs.invariant_run (fun _ op inv => inv.step op) (inv_new depth depth_pos) ops

/-- On a well-formed book the periodic validation never fails. -/
theorem Inv.onIncrement_validates (inv : c.Inv) (msg : GenericIncrementalFormat) :
    (c.onIncrement cfg msg).2 ≠ some .validateFailed := by
  have hvalid := (validate_iff _).mpr (applyIncrementUpdate_valid inv.valid msg)
  cases hcase : c.onIncrement cfg msg with
  | mk c' reason =>
      have outcome := onIncrement_cases cfg c msg
      rw [hcase] at outcome
      cases outcome with
      | skipped => simp
      | resynced reason counter baseline broken =>
          intro hreason
          rw [broken (Option.some.inj hreason)] at hvalid
          cases hvalid
      | applied => simp

/-- A call that asks for a resync leaves an empty controller behind. -/
theorem call_needResync {op : ControllerOp} (resync : (c.call cfg op).action = .needResync) :
    (c.step cfg op).state = .waitingSnapshot ∧ ∀ s, (c.step cfg op).book.side s = [] := by
  have hreset : ∀ counter, (c.resetWith counter).state = .waitingSnapshot ∧
      ∀ s, (c.resetWith counter).book.side s = [] :=
    fun counter => ⟨rfl, fun s => side_clear c.book s⟩
  cases op with
  | snapshot msg kind =>
      rcases onSnapshot_cases cfg c msg kind with ⟨hrefused, -⟩ | hloaded
      · rw [step, call, hrefused]
        exact hreset c.validateCounter
      · rw [call, hloaded] at resync
        cases resync
  | increment msg =>
      rw [step, call]
      rw [call] at resync
      cases hcase : c.onIncrement cfg msg with
      | mk c' reason =>
          have outcome := onIncrement_cases cfg c msg
          rw [hcase] at outcome resync
          cases outcome with
          | skipped => cases resync
          | resynced reason counter => exact hreset counter
          | applied => cases resync
  | reset => cases resync

/-- Such a call leaves nothing for a reset to do. -/
theorem resetBook_of_needResync {op : ControllerOp} (resync : (c.call cfg op).action = .needResync) :
    (c.step cfg op).resetBook = c.step cfg op := by
  cases op with
  | snapshot msg kind =>
      rcases onSnapshot_cases cfg c msg kind with ⟨hrefused, -⟩ | hloaded
      · rw [step, call, hrefused]
        rfl
      · rw [call, hloaded] at resync
        cases resync
  | increment msg =>
      rw [step, call]
      rw [call] at resync
      have outcome := onIncrement_cases cfg c msg
      generalize c.onIncrement cfg msg = result at outcome resync
      cases outcome with
      | skipped => cases resync
      | resynced reason counter => rfl
      | applied => cases resync
  | reset => cases resync

end OrderBookController

/-!
### Results
-/

/-- Representation invariant: after every sequence of operations on a fresh book, and after every
    sequence of calls of a controller, the book validates; its pointers are non-null exactly below the
    size of a side, the binary search lands on every resting level, and the periodic validation of
    `onIncrement` never asks for a resync. -/
theorem order_book_always_valid (depth : Nat) (depth_pos : 0 < depth) :
    (∀ ops : List BookOp,
      let book := Runs.run OrderBook.apply (OrderBook.empty depth depth_pos) ops
      book.validate = true ∧
        (∀ s, (book.side s).length ≤ depth) ∧
        book.bids.Pairwise (fun x y => x.priceTick > y.priceTick) ∧
        book.asks.Pairwise (fun x y => x.priceTick < y.priceTick) ∧
        (∀ s, ∀ level ∈ book.side s, level.quantityLot ≠ 0) ∧
        (∀ s i, (book.levelPtr s i).isSome = true ↔ i < (book.side s).length) ∧
        (∀ s, ∀ level ∈ book.side s,
          (book.side s)[lowerBound s (book.side s) level.priceTick]? = some level)) ∧
    (∀ (cfg : ControllerConfig) (ops : List ControllerOp),
      let c := Runs.run (OrderBookController.step cfg) (OrderBookController.new depth depth_pos) ops
      c.book.validate = true ∧
        ∀ msg, (c.onIncrement cfg msg).2 ≠ some .validateFailed) := by
  constructor
  · intro ops book
    have valid : book.Valid := valid_run depth depth_pos ops
    have hdepth : book.depth = depth := depth_run depth depth_pos ops
    refine ⟨(validate_iff book).mpr valid, fun s => hdepth ▸ (valid s).length_le, ?_, ?_,
      fun s => (valid s).resting, valid.levelPtr_isSome, ?_⟩
    · refine (valid .bid).ascending.imp ?_
      intro x y hlt
      simpa [Level.rank, Side.rank] using hlt
    · exact (valid .ask).ascending
    · intro s level hlevel
      exact lowerBound_finds (valid s).ascending hlevel
  · intro cfg ops c
    have inv : c.Inv := OrderBookController.inv_run cfg depth depth_pos ops
    exact ⟨(validate_iff c.book).mpr inv.valid, inv.onIncrement_validates⟩

/-- The smallest book, the one of depth one. -/
theorem order_book_always_valid_depth_one :
    (0 < 1) ∧ ∀ (cfg : ControllerConfig) (ops : List ControllerOp),
      (Runs.run (OrderBookController.step cfg)
        (OrderBookController.new 1 Nat.one_pos) ops).book.validate = true :=
  ⟨Nat.one_pos, fun cfg ops => ((order_book_always_valid 1 Nat.one_pos).2 cfg ops).1⟩

/-- State machine of the controller: its sequence numbers in each state, the empty book after every
    resync request, and the calls that change nothing. -/
theorem controller_state_machine (cfg : ControllerConfig) (depth : Nat) (depth_pos : 0 < depth)
    (ops : List ControllerOp) :
    let c := Runs.run (OrderBookController.step cfg) (OrderBookController.new depth depth_pos) ops
    (c.state = .waitingSnapshot →
      (c.book.bids = [] ∧ c.book.asks = []) ∧ c.lastSeq = 0 ∧ c.expectedSeq = 0) ∧
    (c.state = .waitingBridge ∨ c.state = .synced → c.expectedSeq = c.lastSeq + 1) ∧
    (∀ op, (c.call cfg op).action = .needResync →
      (c.step cfg op).state = .waitingSnapshot ∧
        (c.step cfg op).book.bids = [] ∧ (c.step cfg op).book.asks = []) ∧
    (∀ msg : GenericIncrementalFormat,
      c.state = .waitingSnapshot ∨ (0 ≠ msg.lastSeq ∧ msg.lastSeq < c.expectedSeq) →
        (c.onIncrement cfg msg).action = .none ∧ (c.onIncrement cfg msg).1 = c) := by
  intro c
  have inv : c.Inv := OrderBookController.inv_run cfg depth depth_pos ops
  refine ⟨?_, ?_, ?_, ?_⟩
  · intro hwait
    obtain ⟨hempty, hlast, hexpected⟩ := inv.idle hwait
    exact ⟨⟨hempty .bid, hempty .ask⟩, hlast, hexpected⟩
  · intro hstate
    exact inv.next (by rcases hstate with h | h <;> simp [h])
  · intro op hresync
    obtain ⟨hstate, hempty⟩ := OrderBookController.call_needResync hresync
    exact ⟨hstate, hempty .bid, hempty .ask⟩
  · intro msg hold
    rw [OrderBookController.onIncrement_skipped (hold.imp_right fun h => ⟨h.1.symm, h.2⟩)]
    exact ⟨rfl, rfl⟩

/-- A controller of depth one that has loaded a snapshot of sequence 4 expects 5. -/
theorem controller_state_machine_after_snapshot :
    let ops : List ControllerOp := [.snapshot ⟨4, 0, 0, [], []⟩ .wsAuthoritative]
    let c := Runs.run (OrderBookController.step {}) (OrderBookController.new 1 Nat.one_pos) ops
    c.state = .synced ∧ c.expectedSeq = c.lastSeq + 1 := by
  have h := (controller_state_machine {} 1 Nat.one_pos
    [.snapshot ⟨4, 0, 0, [], []⟩ .wsAuthoritative]).2.1
  exact ⟨by decide, h (Or.inr (by decide))⟩

end ZidaBot
