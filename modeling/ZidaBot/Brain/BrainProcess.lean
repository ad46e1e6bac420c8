/-
Module: ZidaBot.Brain.BrainProcess
Purpose: The brain process of `brain/app/brain.cpp` behind its server: the message callback that parses a
  frame and queues the event, the scan thread that owns the books and the detector, the health snapshot it
  leaves for the callbacks of the I/O threads, the promotion of a standby brain, and the shutdown.  An event
  carries the number of the connection it came in on, which nothing reads.  Parsing is the library's: a
  frame is what the parser makes of it, none where it throws.  A promotion takes effect between two events.
Trusted boundary: human-reviewed model
Main exports: BrainOptions, VenueSnap, HealthSnapshot, HealthSnapshot.ok, WatchdogWarning, watchdog,
  ScanThread, ScanThread.process, scanProtocol, BrainProcess, BrainEvent, BrainProcess.step
-/
import ZidaBot.Brain.ArbDetector
import ZidaBot.Brain.BacktestEngine
import ZidaBot.Brain.LatencyHistogram
import ZidaBot.Library.WorkQueue

namespace ZidaBot.Brain

/-- The options that books and detector are built from. -/
structure BrainOptions where
  depth : Nat := 50
  minSpreadBps : ℚ := 0
  maxSpreadBps : ℚ := 0
  rateLimitMs : Int := 1000
  maxAgeMs : Int := 5000
  maxPriceDeviationPct : ℚ := 0
  venueFeeBps : List (String × ℚ) := []
  standby : Bool := false
  watchdogNoCrossSec : Int := 0
  depth_pos : 0 < depth := by decide

/-- The constructor arguments of the detector. -/
def BrainOptions.arbConfig (opts : BrainOptions) : ArbDetectorConfig :=
  { minSpreadBps := opts.minSpreadBps, maxSpreadBps := opts.maxSpreadBps
    rateLimitNs := wrap64 (opts.rateLimitMs * 1000000), maxAgeDiffNs := wrap64 (opts.maxAgeMs * 1000000)
    maxPriceDeviationPct := opts.maxPriceDeviationPct, venueFeeBps := opts.venueFeeBps }

/-! ### What the scan thread leaves for the health callbacks -/

/-- `VenueSnap`. -/
structure VenueSnap where
  venueName : String
  symbol : String
  state : String
  feedHealthy : Bool
  tsBookNs : Int
deriving DecidableEq, Repr

/-- `HealthSnapshot`; `latency` is none where `compute` would read behind the end of its samples. -/
structure HealthSnapshot where
  synced : Nat := 0
  total : Nat := 0
  lastCrossNs : Int := 0
  latency : Option Percentiles := some {}
  standby : Bool := false
  venues : List VenueSnap := []
deriving DecidableEq, Repr

/-- One book in a snapshot. -/
def VenueBook.snap (vb : VenueBook) : VenueSnap :=
  { venueName := vb.venueName, symbol := vb.symbol
    state := if vb.synced then "synced" else if !vb.feedHealthy then "feed_down" else "syncing"
    feedHealthy := vb.feedHealthy, tsBookNs := vb.tsBookNs }

/-- The member `ok` of the health document. -/
def HealthSnapshot.ok (snap : HealthSnapshot) : Bool := decide (0 < snap.total) && snap.synced == snap.total

/-- What the watchdog logs. -/
inductive WatchdogWarning where
  | noSyncedVenue
  | oneSyncedVenue
  | noCross (silentSec : Int)
deriving DecidableEq, Repr

/-- `watchdog_no_cross_ns`. -/
def BrainOptions.watchdogNoCrossNs (opts : BrainOptions) : Int :=
  if 0 < opts.watchdogNoCrossSec then wrap64 (opts.watchdogNoCrossSec * 1000000000) else 0

/-- The body of the watchdog callback at a clock reading. -/
def watchdog (opts : BrainOptions) (nowNs : Int) (snap : HealthSnapshot) : List WatchdogWarning :=
  let silentNs := wrap64 (nowNs - snap.lastCrossNs)
  (if snap.synced = 0 then [.noSyncedVenue] else if snap.synced = 1 then [.oneSyncedVenue] else []) ++
    if 0 < opts.watchdogNoCrossNs ∧ 2 ≤ snap.synced ∧ 0 < snap.lastCrossNs ∧
        opts.watchdogNoCrossNs < silentNs then
      [.noCross (silentNs.tdiv 1000000000)]
    else []

/-! ### The scan thread -/

/-- What the scan thread owns: books, detector with its latency samples, and the last health snapshot. -/
structure ScanThread where
  book : UnifiedBook
  arb : ArbDetector
  latencyHist : LatencyHistogram
  health : HealthSnapshot

/-- `lag_ns` of a cross. -/
def ArbCross.lagNs (c : ArbCross) : Int := wrap64 (c.tsDetectedNs - max c.sellTsBookNs c.buyTsBookNs)

/-- The samples that `emit_` records for emitted crosses. -/
def recordLags (hist : LatencyHistogram) (emitted : List ArbCross) : LatencyHistogram :=
  emitted.foldl (fun hist c => if 0 < c.lagNs then hist.record c.lagNs else hist) hist

namespace ScanThread

/-- As constructed in `main`. -/
def new (opts : BrainOptions) : ScanThread :=
  { book := UnifiedBook.new opts.depth opts.depth_pos
    arb := if opts.standby then ArbDetector.new.setActive false else ArbDetector.new
    latencyHist := {}
    health := {} }

/-- `update_health_snapshot`. -/
def updateHealthSnapshot (s : ScanThread) : ScanThread :=
  { s with
    health := {
      synced := s.book.syncedCount, total := s.book.venues.length, lastCrossNs := s.arb.lastCrossNs
      latency := s.latencyHist.compute, standby := !s.arb.active
      venues := s.book.venues.map VenueBook.snap } }

/-- A scan with the latency samples of what it has emitted. -/
def scanBooks (opts : BrainOptions) (scanNs : Int) (s : ScanThread) : ScanThread :=
  let arb := (scan opts.arbConfig scanNs s.book.venues s.arb).1
  { s with
    arb := arb
    latencyHist := recordLags s.latencyHist (arb.signals.drop s.arb.signals.length) }

/-- One round of the scan thread: the event, the scan, the snapshot. -/
def process (opts : BrainOptions) (now : Reading) (s : ScanThread) (j : Json) : ScanThread :=
  let (book, updated) := s.book.onEvent now.eventNs j
  let s := { s with book := book }
  let s := if updated ≠ "" ∧ 2 ≤ book.syncedCount then s.scanBooks opts now.scanNs else s
  s.updateHealthSnapshot

/-- The handler of SIGUSR1. -/
def promote (s : ScanThread) : ScanThread := { s with arb := s.arb.setActive true }

end ScanThread

/-! ### The process -/

/-- `kEventQueueCap`. -/
def kEventQueueCap : Nat := 50000

/-- How the event queue is written: the loop of the scan thread tests `scan_running`, which is an atomic
    written without the mutex, and the message callback notifies after it has unlocked. -/
def scanProtocol : WorkQueue.Protocol where
  capacity := kEventQueueCap
  testsFlag := true
  notifiesLocked := false
  stopsLocked := false

/-- An event in the queue, with the number of its connection. -/
abbrev QueuedEvent := Nat × Json

/-- The queue between the threads, and the scan thread. -/
structure BrainProcess where
  queue : WorkQueue.State QueuedEvent := {}
  scan : ScanThread

/-- Steps of the threads: the message callback up to its unlocking and its notification, the two parts of
    the shutdown handler, the scan thread at its queue and with an event, and SIGUSR1. -/
inductive BrainEvent where
  | message (connection : Nat) (parsed : Option Json)
  | notify
  | shutdown
  | notifyAll
  | head
  | lock
  | block
  | wake
  | process (now : Reading)
  | promote

/-- What a step does to the queue. -/
def BrainEvent.queueEvent : BrainEvent → Option (WorkQueue.Event QueuedEvent)
  | .message _ none => none
  | .message connection (some j) => some (.push (connection, j))
  | .notify => some .notify
  | .shutdown => some .stop
  | .notifyAll => some .announce
  | .head => some .head
  | .lock => some .lock
  | .block => some .block
  | .wake => some .wake
  | .process _ => some .done
  | .promote => none

namespace BrainProcess

/-- A started process. -/
def start (opts : BrainOptions) : BrainProcess := { scan := ScanThread.new opts }

/-- What a step does to the scan thread's data. -/
def scanStep (opts : BrainOptions) (p : BrainProcess) (e : BrainEvent) : ScanThread :=
  match e, p.queue.place with
  | .process now, .working event => p.scan.process opts now event.2
  | .promote, _ => p.scan.promote
  | _, _ => p.scan

/-- One step. -/
def step (opts : BrainOptions) (p : BrainProcess) (e : BrainEvent) : BrainProcess :=
  { queue := Runs.translated (WorkQueue.step scanProtocol) BrainEvent.queueEvent p.queue e
    scan := p.scanStep opts e }

end BrainProcess

end ZidaBot.Brain
