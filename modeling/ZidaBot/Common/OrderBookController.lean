/-
Module: ZidaBot.Common.OrderBookController
Purpose: The controller of `common/src/orderbook/OrderBookController.cpp`: it loads snapshots, bridges a
  REST baseline to the live stream, applies increments under sequence and checksum guards, and asks for a
  resync by resetting itself.  Sequence ids are `UInt64` and wrap as in the source.  `std::sort` is an
  insertion sort; the order it leaves among equal ticks is one of those the standard allows.
Trusted boundary: human-reviewed model
Main exports: GenericSnapshotFormat, GenericIncrementalFormat, BookSyncState, BaselineKind, ResyncReason,
  ControllerConfig, OrderBookController, onSnapshot, onIncrement, resetBook, ControllerOp
-/
import ZidaBot.Common.OrderBook
import Mathlib.Data.List.Sort

namespace ZidaBot

/-- A normalized incremental update. -/
structure GenericIncrementalFormat where
  firstSeq : UInt64
  lastSeq : UInt64
  prevLast : UInt64
  tsRecvNs : Int
  checksum : Int
  bids : List Level
  asks : List Level
deriving DecidableEq, Repr, Inhabited

/-- A normalized snapshot. -/
structure GenericSnapshotFormat where
  lastUpdateId : UInt64
  tsRecvNs : Int
  checksum : Int
  bids : List Level
  asks : List Level
deriving DecidableEq, Repr, Inhabited

/-- Where a baseline comes from: a REST snapshot still has to be bridged to the stream. -/
inductive BaselineKind where
  | restAnchored
  | wsAuthoritative
deriving DecidableEq, Repr, Inhabited

/-- Sync state of the controller. -/
inductive BookSyncState where
  | waitingSnapshot
  | waitingBridge
  | synced
deriving DecidableEq, Repr, Inhabited

/-- What the caller is asked to do. -/
inductive Action where
  | none
  | needResync
deriving DecidableEq, Repr, Inhabited

/-- The reasons handed to `need_resync_`. -/
inductive ResyncReason where
  | snapshotChecksumMismatch
  | incrementalMissingSeqAndChecksum
  | bridgeSequenceGap
  | bookCrossedBridge
  | bridgeMissingChecksum
  | bridgeChecksumMismatch
  | steadyStateSequenceGap
  | bookCrossed
  | validateFailed
  | steadyStateMissingChecksum
  | steadyStateChecksumMismatch
  | requiredChecksumAbsent
deriving DecidableEq, Repr, Inhabited

/-- The text logged for a reason. -/
def ResyncReason.text : ResyncReason → String
  | .snapshotChecksumMismatch => "snapshot_checksum_mismatch"
  | .incrementalMissingSeqAndChecksum => "incremental_missing_seq_and_checksum"
  | .bridgeSequenceGap => "bridge_sequence_gap"
  | .bookCrossedBridge => "book_crossed_bridge"
  | .bridgeMissingChecksum => "bridge_missing_checksum"
  | .bridgeChecksumMismatch => "bridge_checksum_mismatch"
  | .steadyStateSequenceGap => "steady_state_sequence_gap"
  | .bookCrossed => "book_crossed"
  | .validateFailed => "validate_failed"
  | .steadyStateMissingChecksum => "steady_state_missing_checksum"
  | .steadyStateChecksumMismatch => "steady_state_checksum_mismatch"
  | .requiredChecksumAbsent => "required_checksum_absent"

/-- A checksum function: the book, the expected value and how many levels it covers. -/
abbrev ChecksumFn := OrderBook → Int → Nat → Bool

/-- The members that the setters fill before the first message and nothing changes afterwards. -/
structure ControllerConfig where
  checksumFn : Option ChecksumFn := none
  checksumTopN : Nat := 25
  allowSeqGap : Bool := false
  validatePeriod : Nat := 0
  hasChecksum : Bool := false
  requireChecksum : Bool := false

/-- The members that messages change. -/
structure OrderBookController where
  book : OrderBook
  state : BookSyncState
  lastSeq : UInt64
  expectedSeq : UInt64
  validateCounter : Nat
deriving DecidableEq

/-- Result of a call: the controller and, for `NeedResync`, why. -/
abbrev Outcome := OrderBookController × Option ResyncReason

/-- The `Action` the source returns. -/
def Outcome.action (outcome : Outcome) : Action :=
  match outcome.2 with
  | none => .none
  | some _ => .needResync

namespace OrderBookController

/-- A controller as constructed. -/
def new (depth : Nat) (depth_pos : 0 < depth) : OrderBookController :=
  { book := OrderBook.empty depth depth_pos, state := .waitingSnapshot, lastSeq := 0,
    expectedSeq := 0, validateCounter := 0 }

/-- `resetBook`; the validation counter keeps its value. -/
def resetBook (c : OrderBookController) : OrderBookController :=
  { c with book := c.book.clear, state := .waitingSnapshot, lastSeq := 0, expectedSeq := 0 }

/-- `need_resync_`. -/
def needResync (c : OrderBookController) (reason : ResyncReason) : Outcome :=
  (c.resetBook, some reason)

/-- `isSynced`. -/
def isSynced (c : OrderBookController) : Bool := c.state == .synced

/-- `getAppliedSeqID`. -/
def getAppliedSeqID (c : OrderBookController) : UInt64 := c.lastSeq

/-- `validateChecksum`: without a function every value passes. -/
def validateChecksum (cfg : ControllerConfig) (c : OrderBookController) (expected : Int) : Bool :=
  match cfg.checksumFn with
  | none => true
  | some fn => fn c.book expected cfg.checksumTopN

/-- One `book_.update<S>` per level, in order. -/
def updateAll (s : Side) (book : OrderBook) (levels : List Level) : OrderBook :=
  levels.foldl (fun b level => b.update s level) book

/-- The levels a snapshot contributes to a side: non-empty ones, sorted with the side's comparison. -/
def snapshotLevels (s : Side) (levels : List Level) : List Level :=
  (levels.filter fun l => !l.isEmpty).insertionSort fun x y =>
    s.before y.priceTick x.priceTick = false

/-- The book of a snapshot, loaded into a cleared book. -/
def loadSnapshot (book : OrderBook) (msg : GenericSnapshotFormat) : OrderBook :=
  updateAll .ask (updateAll .bid book.clear (snapshotLevels .bid msg.bids))
    (snapshotLevels .ask msg.asks)

/-- `onSnapshot`. -/
def onSnapshot (cfg : ControllerConfig) (c : OrderBookController) (msg : GenericSnapshotFormat)
    (kind : BaselineKind) : Outcome :=
  let c := c.resetBook
  let c := { c with
    book := loadSnapshot c.book msg
    lastSeq := msg.lastUpdateId
    expectedSeq := msg.lastUpdateId + 1 }
  -- a snapshot without checksum is a best-effort baseline
  if cfg.checksumFn.isSome && msg.checksum != 0 && !c.validateChecksum cfg msg.checksum then
    c.needResync .snapshotChecksumMismatch
  else
    let next := match kind with
      | .wsAuthoritative => BookSyncState.synced
      | .restAnchored => BookSyncState.waitingBridge
    ({ c with state := next }, none)

/-- `applyIncrementUpdate`. -/
def applyIncrementUpdate (book : OrderBook) (upd : GenericIncrementalFormat) : OrderBook :=
  updateAll .ask (updateAll .bid book upd.bids) upd.asks

/-- The crossed-book test of both phases. -/
def crossed (book : OrderBook) : Bool :=
  decide (0 < book.bestBid.priceTick) && decide (0 < book.bestAsk.priceTick) &&
    decide (book.bestAsk.priceTick ≤ book.bestBid.priceTick)

/-- Levels applied and sequence numbers moved on, in the state `Synced`; an increment without
    sequence leaves the numbers alone. -/
def applied (c : OrderBookController) (msg : GenericIncrementalFormat) : OrderBookController :=
  { c with
    book := applyIncrementUpdate c.book msg
    state := .synced
    lastSeq := if msg.lastSeq ≠ 0 then msg.lastSeq else c.lastSeq
    expectedSeq := if msg.lastSeq ≠ 0 then msg.lastSeq + 1 else c.expectedSeq }

/-- Checks after a bridging increment: crossed book, then checksum. -/
def bridgeGuards (cfg : ControllerConfig) (c : OrderBookController)
    (msg : GenericIncrementalFormat) : Outcome :=
  if crossed c.book then c.needResync .bookCrossedBridge
  else if cfg.checksumFn.isSome then
    if msg.checksum = 0 then c.needResync .bridgeMissingChecksum
    else if !c.validateChecksum cfg msg.checksum then c.needResync .bridgeChecksumMismatch
    else (c, none)
  else (c, none)

/-- Checksum checks at the end of the steady state, then the strict mode for a venue that declares
    checksums while no function is wired. -/
def checksumGuards (cfg : ControllerConfig) (c : OrderBookController)
    (msg : GenericIncrementalFormat) : Outcome :=
  if cfg.checksumFn.isSome && msg.checksum == 0 then c.needResync .steadyStateMissingChecksum
  else if cfg.checksumFn.isSome && !c.validateChecksum cfg msg.checksum then
    c.needResync .steadyStateChecksumMismatch
  else if cfg.requireChecksum && cfg.hasChecksum && cfg.checksumFn.isNone && msg.checksum == 0 then
    c.needResync .requiredChecksumAbsent
  else (c, none)

/-- Checks after a steady-state increment: crossed book, periodic validation, checksums. -/
def steadyGuards (cfg : ControllerConfig) (c : OrderBookController)
    (msg : GenericIncrementalFormat) : Outcome :=
  if crossed c.book then c.needResync .bookCrossed
  else if 0 < cfg.validatePeriod then
    if cfg.validatePeriod ≤ c.validateCounter + 1 then
      let c := { c with validateCounter := 0 }
      if !c.book.validate then c.needResync .validateFailed
      else c.checksumGuards cfg msg
    else { c with validateCounter := c.validateCounter + 1 }.checksumGuards cfg msg
  else c.checksumGuards cfg msg

/-- `onIncrement`: nothing before a baseline, then the bridging phase, then the steady state.  Both
    phases skip what is older than expected and refuse a gap unless gaps are tolerated. -/
def onIncrement (cfg : ControllerConfig) (c : OrderBookController)
    (msg : GenericIncrementalFormat) : Outcome :=
  if c.state = .waitingSnapshot then (c, none)
  else if msg.lastSeq = 0 ∧ cfg.checksumFn.isNone then
    c.needResync .incrementalMissingSeqAndChecksum
  else if c.state = .waitingBridge then
    if msg.lastSeq ≠ 0 ∧ msg.lastSeq < c.expectedSeq then (c, none)
    else if msg.lastSeq ≠ 0 ∧ c.expectedSeq < msg.firstSeq ∧ cfg.allowSeqGap = false then
      c.needResync .bridgeSequenceGap
    else (c.applied msg).bridgeGuards cfg msg
  else
    if msg.lastSeq ≠ 0 ∧ msg.lastSeq < c.expectedSeq then (c, none)
    else if msg.lastSeq ≠ 0 ∧ c.expectedSeq < msg.firstSeq ∧ cfg.allowSeqGap = false then
      c.needResync .steadyStateSequenceGap
    else (c.applied msg).steadyGuards cfg msg

end OrderBookController

/-- The calls a controller receives. -/
inductive ControllerOp where
  | snapshot (msg : GenericSnapshotFormat) (kind : BaselineKind)
  | increment (msg : GenericIncrementalFormat)
  | reset
deriving DecidableEq, Repr

/-- One call and its outcome; `resetBook` returns nothing. -/
def OrderBookController.call (cfg : ControllerConfig) (c : OrderBookController) : ControllerOp → Outcome
  | .snapshot msg kind => c.onSnapshot cfg msg kind
  | .increment msg => c.onIncrement cfg msg
  | .reset => (c.resetBook, none)

/-- The controller after one call. -/
def OrderBookController.step (cfg : ControllerConfig) (c : OrderBookController) (op : ControllerOp) :
    OrderBookController :=
  (c.call cfg op).1

end ZidaBot
