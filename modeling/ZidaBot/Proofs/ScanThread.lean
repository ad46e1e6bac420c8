/-
Module: ZidaBot.Proofs.ScanThread
Purpose: What the scan thread makes of its events.  A scan decides what crosses by the books and the memory
  of the limiter alone, and emits all of it or, in standby, nothing.  So the health snapshot is exact, up to
  a promotion since the last event; a standby brain that is promoted emits what the active one emits from
  there on; and without fees a backtest of the processed events returns what was emitted.
Trusted boundary: none
Main exports: scan_detector, scan_memory, process_arb, health_of_process, failover_exact, live_eq_replay
-/
import ZidaBot.Proofs.BrainProcess
import ZidaBot.Proofs.LatencyHistogram
import ZidaBot.Proofs.RateLimit
import Mathlib.Data.List.DropRight

namespace ZidaBot.Brain

/-!
### Decision and emission

A detector in standby still asks its limiter, which remembers what it lets through. So the decisions of an
active and a standby detector are the same, and only `emit_` tells them apart.
-/

section Scan

variable {cfg : ArbDetectorConfig} {tsNow : Int} {venues : List VenueBook} {d d' : ArbDetector}

/-- A detector with another memory of its limiter. -/
def ArbDetector.withMemory (d : ArbDetector) (memory : List (String × Int)) : ArbDetector :=
  { d with lastEmitNs := memory }

theorem emit_withMemory (d : ArbDetector) (memory : List (String × Int)) (c : ArbCross) :
    (d.withMemory memory).emit c = (d.emit c).withMemory memory := by
  cases hactive : d.active <;> simp [ArbDetector.emit, ArbDetector.withMemory, hactive]

/-- A question to the limiter changes its memory only, and is answered from it. -/
theorem checkRateLimit_memory (cfg : ArbDetectorConfig) (d : ArbDetector) (key : String) (tsNow : Int) :
    ∃ memory, d.checkRateLimit cfg key tsNow =
      (d.withMemory memory, ((ArbDetector.new.withMemory d.lastEmitNs).checkRateLimit cfg key tsNow).2) ∧
      ((ArbDetector.new.withMemory d.lastEmitNs).checkRateLimit cfg key tsNow).1.lastEmitNs = memory := by
  simp only [ArbDetector.checkRateLimit, ArbDetector.withMemory]
  split
  · exact ⟨d.lastEmitNs, rfl, rfl⟩
  · cases d.lastEmitNs.lookup key with
    | none => exact ⟨_, rfl, rfl⟩
    | some last =>
        dsimp only
        split
        · exact ⟨d.lastEmitNs, rfl, rfl⟩
        · exact ⟨_, rfl, rfl⟩

/-- What a candidate does to two detectors with the same memory. -/
theorem offer_memory {acc acc' : ArbDetector × List Detection} (memory : acc.1.lastEmitNs = acc'.1.lastEmitNs)
    (found : acc.2 = acc'.2) (candidate : Detection) :
    (offer cfg tsNow acc candidate).1.lastEmitNs = (offer cfg tsNow acc' candidate).1.lastEmitNs ∧
      (offer cfg tsNow acc candidate).2 = (offer cfg tsNow acc' candidate).2 := by
  obtain ⟨after, hcheck, hafter⟩ := checkRateLimit_memory cfg acc.1 (limiterKey candidate.cross) tsNow
  obtain ⟨after', hcheck', hafter'⟩ := checkRateLimit_memory cfg acc'.1 (limiterKey candidate.cross) tsNow
  rw [← memory] at hcheck' hafter'
  have hsame : after = after' := hafter.symm.trans hafter'
  rw [offer, offer, hcheck, hcheck', hsame, found]
  cases ((ArbDetector.new.withMemory acc.1.lastEmitNs).checkRateLimit cfg (limiterKey candidate.cross) tsNow).2
  · exact ⟨rfl, rfl⟩
  · simp [ArbDetector.withMemory]

/-- What a scan finds, and what its limiter remembers, depends on what the limiter remembered only. -/
theorem scan_memory (cfg : ArbDetectorConfig) (tsNow : Int) (venues : List VenueBook)
    (memory : d.lastEmitNs = d'.lastEmitNs) :
    (scan cfg tsNow venues d).1.lastEmitNs = (scan cfg tsNow venues d').1.lastEmitNs ∧
      (scan cfg tsNow venues d).2 = (scan cfg tsNow venues d').2 := by
  let same (acc acc' : ArbDetector × List Detection) : Prop :=
    acc.1.lastEmitNs = acc'.1.lastEmitNs ∧ acc.2 = acc'.2
  have hstart : same (d, []) (d', []) := ⟨memory, rfl⟩
  have hrun : same (Runs.run (offer cfg tsNow) (d, []) (candidates cfg tsNow venues))
      (Runs.run (offer cfg tsNow) (d', []) (candidates cfg tsNow venues)) := by
    refine Runs.run_rel same ?_ hstart
    intro candidate _ acc acc' hsame
    exact offer_memory hsame.1 hsame.2 candidate
  rw [scan_eq_offers, scan_eq_offers]
  exact ⟨hrun.1, congrArg (List.map Detection.cross) hrun.2⟩

/-- The memory apart, the detector after a scan is the one that has emitted what the scan returns. -/
theorem scan_detector (cfg : ArbDetectorConfig) (tsNow : Int) (venues : List VenueBook) (d : ArbDetector) :
    (scan cfg tsNow venues d).1 = (Runs.run ArbDetector.emit d (scan cfg tsNow venues d).2).withMemory
      (scan cfg tsNow venues d).1.lastEmitNs := by
  let emitted (acc : ArbDetector × List Detection) : Prop :=
    acc.1 = (Runs.run ArbDetector.emit d (acc.2.map Detection.cross)).withMemory acc.1.lastEmitNs
  have hstart : emitted (d, []) := rfl
  have hstep : ∀ acc candidate, emitted acc → emitted (offer cfg tsNow acc candidate) := by
    intro acc candidate hacc
    obtain ⟨memory, hcheck, -⟩ := checkRateLimit_memory cfg acc.1 (limiterKey candidate.cross) tsNow
    have hmemory : acc.1.withMemory memory =
        (Runs.run ArbDetector.emit d (acc.2.map Detection.cross)).withMemory memory := by
      calc acc.1.withMemory memory
          = ((Runs.run ArbDetector.emit d (acc.2.map Detection.cross)).withMemory
              acc.1.lastEmitNs).withMemory memory := by rw [← hacc]
        _ = (Runs.run ArbDetector.emit d (acc.2.map Detection.cross)).withMemory memory := rfl
    simp only [emitted, offer]
    rw [hcheck]
    cases ((ArbDetector.new.withMemory acc.1.lastEmitNs).checkRateLimit cfg (limiterKey candidate.cross) tsNow).2
    · exact hmemory
    · simp only [List.map_append, List.map_cons, List.map_nil, Runs.run_append, Runs.run_cons, Runs.run_nil]
      rw [hmemory, emit_withMemory]
      rfl
  rw [scan_eq_offers]
  exact Runs.invariant_run hstep hstart (candidates cfg tsNow venues)

/-- The crosses that an active detector has emitted, on top of what it had. -/
structure Emitted (before after : ArbDetector) (crosses : List ArbCross) : Prop where
  active : after.active = true
  signals : after.signals = before.signals ++ crosses
  total : after.crossesTotal = before.crossesTotal + crosses.length
  last : after.lastCrossNs = (crosses.getLast?.map ArbCross.tsDetectedNs).getD before.lastCrossNs

theorem emitted_run {crosses : List ArbCross} (active : d.active = true) :
    Emitted d (Runs.run ArbDetector.emit d crosses) crosses := by
  induction crosses using List.reverseRecOn with
  | nil => exact ⟨active, (List.append_nil _).symm, rfl, rfl⟩
  | append_singleton crosses c ih =>
      rw [Runs.run_append, Runs.run_cons, Runs.run_nil, ArbDetector.emit, if_pos ih.active]
      refine ⟨ih.active, ?_, ?_, ?_⟩
      · simp [ih.signals]
      · simp [ih.total, Nat.add_assoc]
      · simp

/-- In standby nothing is emitted. -/
theorem run_emit_of_standby {crosses : List ArbCross} (standby : d.active = false) :
    Runs.run ArbDetector.emit d crosses = d := by
  induction crosses with
  | nil => rfl
  | cons c crosses ih => rw [Runs.run_cons, ArbDetector.emit, if_neg (by simp [standby]), ih]

theorem emitted_scan (active : d.active = true) :
    Emitted d (scan cfg tsNow venues d).1 (scan cfg tsNow venues d).2 := by
  have hrun : Emitted d (Runs.run ArbDetector.emit d (scan cfg tsNow venues d).2) (scan cfg tsNow venues d).2 :=
    emitted_run active
  rw [scan_detector]
  exact ⟨hrun.active, hrun.signals, hrun.total, hrun.last⟩

theorem scan_of_standby (standby : d.active = false) :
    (scan cfg tsNow venues d).1 = d.withMemory (scan cfg tsNow venues d).1.lastEmitNs := by
  rw [scan_detector, run_emit_of_standby standby]
  rfl

end Scan

/-!
### One event

A scan follows an event that belongs to a book, if two books are synced.
-/

section Process

variable {opts : BrainOptions}

/-- The event is followed by a scan. -/
def Scans (now : Reading) (j : Json) (book : UnifiedBook) : Prop :=
  (book.onEvent now.eventNs j).2 ≠ "" ∧ 2 ≤ (book.onEvent now.eventNs j).1.syncedCount

instance (now : Reading) (j : Json) (book : UnifiedBook) : Decidable (Scans now j book) :=
  inferInstanceAs (Decidable (_ ∧ _))

/-- The detector and the crosses of one event. -/
def detect (opts : BrainOptions) (now : Reading) (j : Json) (book : UnifiedBook) (d : ArbDetector) :
    ArbDetector × List ArbCross :=
  if Scans now j book then scan opts.arbConfig now.scanNs (book.onEvent now.eventNs j).1.venues d else (d, [])

theorem detect_memory {d d' : ArbDetector} (opts : BrainOptions) (now : Reading) (j : Json) (book : UnifiedBook)
    (memory : d.lastEmitNs = d'.lastEmitNs) :
    (detect opts now j book d).1.lastEmitNs = (detect opts now j book d').1.lastEmitNs ∧
      (detect opts now j book d).2 = (detect opts now j book d').2 := by
  rw [detect, detect]
  split
  · exact scan_memory _ _ _ memory
  · exact ⟨memory, rfl⟩

theorem emitted_detect {d : ArbDetector} (opts : BrainOptions) (now : Reading) (j : Json) (book : UnifiedBook)
    (active : d.active = true) :
    Emitted d (detect opts now j book d).1 (detect opts now j book d).2 := by
  rw [detect]
  split
  · exact emitted_scan active
  · exact ⟨active, (List.append_nil _).symm, rfl, rfl⟩

theorem detect_of_standby {d : ArbDetector} (opts : BrainOptions) (now : Reading) (j : Json) (book : UnifiedBook)
    (standby : d.active = false) :
    (detect opts now j book d).1 = d.withMemory (detect opts now j book d).1.lastEmitNs := by
  rw [detect]
  split
  · exact scan_of_standby standby
  · rfl

theorem process_book (now : Reading) (s : ScanThread) (j : Json) :
    (s.process opts now j).book = (s.book.onEvent now.eventNs j).1 := by
  simp only [ScanThread.process, ScanThread.updateHealthSnapshot]
  split <;> rfl

theorem process_arb (now : Reading) (s : ScanThread) (j : Json) :
    (s.process opts now j).arb = (detect opts now j s.book s.arb).1 := by
  by_cases hscan : Scans now j s.book
  · have hgate : (s.book.onEvent now.eventNs j).2 ≠ "" ∧ 2 ≤ (s.book.onEvent now.eventNs j).1.syncedCount := hscan
    simp only [ScanThread.process, ScanThread.updateHealthSnapshot, detect, if_pos hgate, if_pos hscan]
    rfl
  · have hgate : ¬ ((s.book.onEvent now.eventNs j).2 ≠ "" ∧
        2 ≤ (s.book.onEvent now.eventNs j).1.syncedCount) := hscan
    simp only [ScanThread.process, ScanThread.updateHealthSnapshot, detect, if_neg hgate, if_neg hscan]

theorem process_latencyHist (now : Reading) (s : ScanThread) (j : Json) :
    (s.process opts now j).latencyHist =
      recordLags s.latencyHist ((s.process opts now j).arb.signals.drop s.arb.signals.length) := by
  by_cases hgate : (s.book.onEvent now.eventNs j).2 ≠ "" ∧ 2 ≤ (s.book.onEvent now.eventNs j).1.syncedCount
  · simp only [ScanThread.process, ScanThread.updateHealthSnapshot, if_pos hgate]
    rfl
  · simp only [ScanThread.process, ScanThread.updateHealthSnapshot, if_neg hgate, List.drop_length]
    rfl

theorem process_health (now : Reading) (s : ScanThread) (j : Json) :
    (s.process opts now j).health = (s.process opts now j).updateHealthSnapshot.health := by
  simp only [ScanThread.process, ScanThread.updateHealthSnapshot]

theorem active_process (now : Reading) (s : ScanThread) (j : Json) :
    (s.process opts now j).arb.active = s.arb.active := by
  rw [process_arb]
  cases hactive : s.arb.active with
  | true => exact (emitted_detect opts now j s.book hactive).active
  | false =>
      rw [detect_of_standby opts now j s.book hactive]
      exact hactive

/-!
### The health snapshot

The snapshot is taken after every event and read by other threads at any time. Nothing changes the books or
the detector between events, so only a promotion can make it stale. The warnings of the watchdog are
conditions on the snapshot, and so on the books and the last cross.
-/

theorem recordLags_append (hist : LatencyHistogram) (first second : List ArbCross) :
    recordLags hist (first ++ second) = recordLags (recordLags hist first) second := List.foldl_append

/-- The detector's counters are those of the crosses that it has emitted, the latency samples are theirs, and
    the snapshot is current but for the standby flag. -/
structure Accounted (s : ScanThread) : Prop where
  total : s.arb.crossesTotal = s.arb.signals.length
  last : s.arb.lastCrossNs = (s.arb.signals.getLast?.map ArbCross.tsDetectedNs).getD 0
  latency : s.latencyHist = recordLags {} s.arb.signals
  health : { s.health with standby := !s.arb.active } = s.updateHealthSnapshot.health

namespace Accounted

variable {s : ScanThread}

theorem new (opts : BrainOptions) : Accounted (ScanThread.new opts) := by
  cases hstandby : opts.standby <;> constructor <;>
    simp [ScanThread.new, hstandby, ArbDetector.new, ArbDetector.setActive, recordLags,
      ScanThread.updateHealthSnapshot, UnifiedBook.new, UnifiedBook.syncedCount, UnifiedBook.venues,
      LatencyHistogram.compute]

theorem process (acc : Accounted s) (now : Reading) (j : Json) : Accounted (s.process opts now j) := by
  have hhealth : { (s.process opts now j).health with standby := !(s.process opts now j).arb.active } =
      (s.process opts now j).updateHealthSnapshot.health := by
    rw [process_health]
    rfl
  have hlatency : (s.process opts now j).latencyHist =
      recordLags s.latencyHist ((s.process opts now j).arb.signals.drop s.arb.signals.length) :=
    process_latencyHist now s j
  cases hactive : s.arb.active with
  | true =>
      have hemitted : Emitted s.arb (s.process opts now j).arb (detect opts now j s.book s.arb).2 := by
        rw [process_arb]
        exact emitted_detect opts now j s.book hactive
      refine ⟨?_, ?_, ?_, hhealth⟩
      · rw [hemitted.total, hemitted.signals, List.length_append, acc.total]
      · rw [hemitted.last, hemitted.signals, List.getLast?_append, acc.last]
        cases (detect opts now j s.book s.arb).2.getLast? <;> simp
      · rw [hlatency, hemitted.signals, List.drop_left, recordLags_append, ← acc.latency]
  | false =>
      have hsame := detect_of_standby opts now j s.book hactive
      rw [← process_arb] at hsame
      have hsignals : (s.process opts now j).arb.signals = s.arb.signals := by
        rw [hsame]
        rfl
      refine ⟨?_, ?_, ?_, hhealth⟩
      · rw [hsame]
        exact acc.total
      · rw [hsame]
        exact acc.last
      · rw [hlatency, hsignals, List.drop_length, ← acc.latency]
        rfl

theorem promote (acc : Accounted s) : Accounted s.promote := by
  refine ⟨acc.total, acc.last, acc.latency, ?_⟩
  exact congrArg (fun snap : HealthSnapshot => { snap with standby := false }) acc.health

theorem run (opts : BrainOptions) (inputs : List ScanInput) :
    Accounted (Runs.run (ScanThread.take opts) (ScanThread.new opts) inputs) := by
  have hstep : ∀ s i, Accounted s → Accounted (ScanThread.take opts s i) := by
    intro s i acc
    cases i with
    | event now j => exact acc.process now j
    | promote => exact acc.promote
  exact Runs.invariant_run hstep (new opts) inputs

end Accounted

/-- Events with the clock at their processing, as inputs of a scan thread. -/
def eventInputs (events : List (Reading × Json)) : List ScanInput := events.map fun e => .event e.1 e.2

/-- The scan thread of a brain that was started active, after some events. -/
def activeBrain (opts : BrainOptions) (events : List (Reading × Json)) : ScanThread :=
  Runs.run (ScanThread.take { opts with standby := false }) (ScanThread.new { opts with standby := false })
    (eventInputs events)

/-- The scan thread of a brain that was started in standby and not promoted. -/
def standbyBrain (opts : BrainOptions) (events : List (Reading × Json)) : ScanThread :=
  Runs.run (ScanThread.take { opts with standby := true }) (ScanThread.new { opts with standby := true })
    (eventInputs events)

/-- That of a brain that was started in standby and promoted between two of its events. -/
def promotedBrain (opts : BrainOptions) (before after : List (Reading × Json)) : ScanThread :=
  Runs.run (ScanThread.take { opts with standby := true }) (standbyBrain opts before)
    (.promote :: eventInputs after)

/-- Two scan threads with the same books, and whose limiters remember the same. -/
structure SameView (s t : ScanThread) : Prop where
  book : s.book = t.book
  memory : s.arb.lastEmitNs = t.arb.lastEmitNs

theorem SameView.process {s t : ScanThread} (same : SameView s t) (now : Reading) (j : Json) :
    SameView (s.process opts now j) (t.process opts now j) := by
  constructor
  · rw [process_book, process_book, same.book]
  · rw [process_arb, process_arb, same.book]
    exact (detect_memory opts now j t.book same.memory).1

/-- What two active threads with the same view emit at the same event is the same. -/
theorem SameView.signals (opts : BrainOptions) {s t : ScanThread} (same : SameView s t) (active : s.arb.active = true)
    (active' : t.arb.active = true) (now : Reading) (j : Json) :
    ∃ crosses, (s.process opts now j).arb.signals = s.arb.signals ++ crosses ∧
      (t.process opts now j).arb.signals = t.arb.signals ++ crosses := by
  refine ⟨(detect opts now j s.book s.arb).2, ?_, ?_⟩
  · rw [process_arb]
    exact (emitted_detect opts now j s.book active).signals
  · rw [process_arb, same.book, (detect_memory opts now j t.book same.memory).2]
    exact (emitted_detect opts now j t.book active').signals

/-- A thread in standby beside an active one. -/
structure Shadows (s t : ScanThread) : Prop where
  same : SameView s t
  active : s.arb.active = true
  inactive : t.arb.active = false
  silent : t.arb.signals = []

theorem Shadows.process {s t : ScanThread} (shadows : Shadows s t) (now : Reading) (j : Json) :
    Shadows (s.process opts now j) (t.process opts now j) := by
  refine ⟨shadows.same.process now j, ?_, ?_, ?_⟩
  · rw [active_process]
    exact shadows.active
  · rw [active_process]
    exact shadows.inactive
  · rw [process_arb, detect_of_standby opts now j t.book shadows.inactive]
    exact shadows.silent

/-- A promoted thread beside one that was active all the time, with what that had emitted before. -/
structure Continues (past : List ArbCross) (s t : ScanThread) : Prop where
  same : SameView s t
  active : s.arb.active = true
  promoted : t.arb.active = true
  signals : s.arb.signals = past ++ t.arb.signals

theorem Continues.process {past : List ArbCross} {s t : ScanThread} (continues : Continues past s t)
    (now : Reading) (j : Json) : Continues past (s.process opts now j) (t.process opts now j) := by
  obtain ⟨crosses, hs, ht⟩ := continues.same.signals opts continues.active continues.promoted now j
  refine ⟨continues.same.process now j, ?_, ?_, ?_⟩
  · rw [active_process]
    exact continues.active
  · rw [active_process]
    exact continues.promoted
  · rw [hs, ht, continues.signals, List.append_assoc]

theorem Shadows.promote {s t : ScanThread} (shadows : Shadows s t) : Continues s.arb.signals s t.promote := by
  refine ⟨⟨shadows.same.book, shadows.same.memory⟩, shadows.active, rfl, ?_⟩
  have hsilent : t.promote.arb.signals = [] := shadows.silent
  rw [hsilent, List.append_nil]

/-- Two threads side by side over the same events. -/
theorem run_eventInputs (opts : BrainOptions) (rel : ScanThread → ScanThread → Prop)
    (step : ∀ s t now j, rel s t → rel (s.process opts now j) (t.process opts now j))
    (events : List (Reading × Json)) {s t : ScanThread} (related : rel s t) :
    rel (Runs.run (ScanThread.take opts) s (eventInputs events))
      (Runs.run (ScanThread.take opts) t (eventInputs events)) := by
  refine Runs.run_rel rel ?_ related
  intro i hi s t hrel
  obtain ⟨e, -, rfl⟩ := List.mem_map.mp hi
  exact step s t e.1 e.2 hrel

theorem shadows_run (opts : BrainOptions) (events : List (Reading × Json)) :
    Shadows (activeBrain opts events) (standbyBrain opts events) := by
  have hstart : Shadows (ScanThread.new { opts with standby := false })
      (ScanThread.new { opts with standby := true }) := ⟨⟨rfl, rfl⟩, rfl, rfl, rfl⟩
  exact run_eventInputs opts Shadows (fun _ _ now j shadows => shadows.process now j) events hstart

/-- A hot standby takes over exactly.  A brain that is started in standby, processes the events of an active
    one at the same clock, and is promoted between two of them, has emitted nothing before; from then on it
    emits what the active brain emits, no cross twice and none left out, with the same books. -/
theorem failover_exact (opts : BrainOptions) (before after : List (Reading × Json)) :
    (standbyBrain opts before).arb.signals = [] ∧
      (activeBrain opts (before ++ after)).arb.signals =
        (activeBrain opts before).arb.signals ++ (promotedBrain opts before after).arb.signals ∧
      (promotedBrain opts before after).book = (activeBrain opts (before ++ after)).book := by
  have hshadows := shadows_run opts before
  have hcontinues : Continues (activeBrain opts before).arb.signals (activeBrain opts (before ++ after))
      (promotedBrain opts before after) := by
    have hsplit : activeBrain opts (before ++ after) =
        Runs.run (ScanThread.take opts) (activeBrain opts before) (eventInputs after) := by
      rw [activeBrain, eventInputs, List.map_append, Runs.run_append]
      rfl
    rw [hsplit]
    let past := (activeBrain opts before).arb.signals
    exact run_eventInputs opts (Continues past) (fun _ _ now j continues => continues.process now j)
      after hshadows.promote
  exact ⟨hshadows.silent, hcontinues.signals, hcontinues.same.book.symm⟩

/-!
### Backtests

The engine runs the same scan on the same books. It has no fees and is never in standby, which is all that a
live brain can differ in.
-/

/-- The constructor arguments of a backtest with the options of a brain. -/
def BrainOptions.backtest (opts : BrainOptions) : BacktestConfig :=
  { depth := opts.depth, minSpreadBps := opts.minSpreadBps, maxSpreadBps := opts.maxSpreadBps
    rateLimitNs := wrap64 (opts.rateLimitMs * 1000000), maxAgeNs := wrap64 (opts.maxAgeMs * 1000000)
    maxPriceDeviationPct := opts.maxPriceDeviationPct, depth_pos := opts.depth_pos }

/-- The lines of a recording of the processed events. -/
def recordedLines (inputs : List ScanInput) : List (Option Json × Reading) :=
  inputs.filterMap fun
    | .event now j => some (some j, now)
    | .promote => none

theorem feedEvent_eq (noFees : opts.venueFeeBps = []) (now : Reading) (j : Json) (engine : BacktestEngine) :
    (engine.feedEvent opts.backtest now (some j)).1.book = (engine.book.onEvent now.eventNs j).1 ∧
      (engine.feedEvent opts.backtest now (some j)).1.arb = (detect opts now j engine.book engine.arb).1 ∧
      (engine.feedEvent opts.backtest now (some j)).2 = (detect opts now j engine.book engine.arb).2 := by
  have hcfg : opts.backtest.makeArb = opts.arbConfig := by
    rw [BacktestConfig.makeArb, BrainOptions.arbConfig, noFees]
    rfl
  by_cases hscan : Scans now j engine.book
  · have hgate : (engine.book.onEvent now.eventNs j).2 ≠ "" ∧
        2 ≤ (engine.book.onEvent now.eventNs j).1.syncedCount := hscan
    simp only [BacktestEngine.feedEvent, detect, if_pos hgate, if_pos hscan, hcfg, and_self]
  · have hgate : ¬ ((engine.book.onEvent now.eventNs j).2 ≠ "" ∧
        2 ≤ (engine.book.onEvent now.eventNs j).1.syncedCount) := hscan
    simp only [BacktestEngine.feedEvent, detect, if_neg hgate, if_neg hscan, and_self]

/-- An active thread and an engine with the same books and detector. -/
theorem replay_of_run (noFees : opts.venueFeeBps = []) (inputs : List ScanInput) {s : ScanThread}
    {engine : BacktestEngine} (book : engine.book = s.book) (arb : engine.arb = s.arb)
    (active : s.arb.active = true) :
    (Runs.run (ScanThread.take opts) s inputs).arb.signals =
      s.arb.signals ++ (BacktestEngine.replay opts.backtest engine (recordedLines inputs)).flatten := by
  induction inputs generalizing s engine with
  | nil => exact (List.append_nil _).symm
  | cons i inputs ih =>
      rw [Runs.run_cons]
      cases i with
      | promote =>
          have hpromote : s.promote = s := by
            rw [ScanThread.promote, ArbDetector.setActive, ← active]
          have hlines : recordedLines (.promote :: inputs) = recordedLines inputs := rfl
          rw [hlines, ScanThread.take, hpromote]
          exact ih book arb active
      | event now j =>
          obtain ⟨hbook, harb, hcrosses⟩ := feedEvent_eq noFees now j engine
          have hlines : recordedLines (.event now j :: inputs) = (some j, now) :: recordedLines inputs := rfl
          have hemitted : Emitted s.arb (s.process opts now j).arb (detect opts now j s.book s.arb).2 := by
            rw [process_arb]
            exact emitted_detect opts now j s.book active
          have hbook' : (engine.feedEvent opts.backtest now (some j)).1.book = (s.process opts now j).book := by
            rw [hbook, process_book, book]
          have harb' : (engine.feedEvent opts.backtest now (some j)).1.arb = (s.process opts now j).arb := by
            rw [harb, process_arb, book, arb]
          rw [hlines, ScanThread.take, BacktestEngine.replay, List.flatten_cons, ih hbook' harb' hemitted.active,
            hemitted.signals, hcrosses, book, arb, List.append_assoc]

/-- A backtest of a recording is the live run again: for a brain without fees that was started active, the
    engine returns from the lines of the processed events, at the clock of their processing, the crosses that
    the process has emitted, in order. -/
theorem live_eq_replay (opts : BrainOptions) (noFees : opts.venueFeeBps = []) (active : opts.standby = false)
    (events : List BrainEvent) :
    (Runs.run (BrainProcess.step opts) (BrainProcess.start opts) events).scan.arb.signals =
      (BacktestEngine.replay opts.backtest (BacktestEngine.new opts.backtest)
        (recordedLines (BrainProcess.inputs opts events))).flatten := by
  have harb : (BacktestEngine.new opts.backtest).arb = (ScanThread.new opts).arb := by
    rw [ScanThread.new, active]
    rfl
  have hbook : (BacktestEngine.new opts.backtest).book = (ScanThread.new opts).book := rfl
  have hactive : (ScanThread.new opts).arb.active = true := by
    rw [← harb]
    rfl
  have hsilent : (ScanThread.new opts).arb.signals = [] := by
    rw [← harb]
    rfl
  rw [BrainProcess.scan_run, replay_of_run noFees (BrainProcess.inputs opts events) hbook harb hactive, hsilent,
    List.nil_append]

/-- Two venues quote across each other, and both quotes are processed. -/
def crossedQuotes : List BrainEvent :=
  [.message 0 (some (quoteFrame ⟨.okx, "BTC", "USDT"⟩ 300 400)), .head, .lock,
    .process { eventNs := 1, scanNs := 2 },
    .message 3 (some (quoteFrame ⟨.bybit, "BTC", "USDT"⟩ 100 200)), .head, .lock,
    .process { eventNs := 4, scanNs := 5 }]

/-- Such a run emits a cross, and the backtest of its events returns it. -/
theorem live_eq_replay_crossed_quotes :
    let signals := (Runs.run (BrainProcess.step {}) (BrainProcess.start {}) crossedQuotes).scan.arb.signals
    signals.length = 1 ∧ signals =
      (BacktestEngine.replay (BrainOptions.backtest {}) (BacktestEngine.new (BrainOptions.backtest {}))
        (recordedLines (BrainProcess.inputs {} crossedQuotes))).flatten :=
  ⟨by decide +kernel, live_eq_replay {} rfl rfl crossedQuotes⟩

end Process

end ZidaBot.Brain
