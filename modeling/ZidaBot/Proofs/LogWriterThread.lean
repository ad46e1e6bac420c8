/-
Module: ZidaBot.Proofs.LogWriterThread
Purpose: The writer threads lose nothing but what their bounded queues drop.  A thread with its queue does
  to the files what the sequential log does with the handled lines.  The writer of the detector never sleeps
  through a flush, and after a flush all lines are written; the writer of the file sink sleeps through its
  destructor exactly if the notification comes between its test of the queue and its sleep.  Within one
  process on fresh files rotation keeps every line.
Trusted boundary: none
Main exports: log_run, writer_finishes, flush_writes_all, sink_writer_awake_iff
-/
import ZidaBot.Common.LogWriterThread
import ZidaBot.Library.Decimals
import ZidaBot.Proofs.LogRotation

namespace ZidaBot

open Files Files.Store WorkQueue

namespace LogWriterThread

variable {kind : LogKind}

/-- The run of the queue does not depend on the files. -/
theorem queue_run (kind : LogKind) (t : LogWriterThread) (events : List (Event String)) :
    (Runs.run (step kind) t events).queue = Runs.run (WorkQueue.step kind.protocol) t.queue events :=
  Runs.run_view LogWriterThread.queue (fun _ _ => rfl) t events

/-- The files are those of a sequential log that is given the handled lines. -/
def Sequential (kind : LogKind) (log : Log) (t : LogWriterThread) : Prop :=
  t.log = Runs.run kind.step log (t.queue.handled.map LogEvent.write)

theorem Sequential.step {log : Log} {t : LogWriterThread} (seq : Sequential kind log t) (e : Event String) :
    Sequential kind log (t.step kind e) := by
  have hlog : (t.step kind e).log =
      Runs.run kind.step t.log ((t.queue.finished e).map LogEvent.write) := by
    cases e with
    | done => cases hplace : t.queue.place <;> simp [LogWriterThread.step, writes, State.finished,
        State.inHand, hplace, LogKind.step]
    | _ => rfl
  rw [Sequential, hlog, LogWriterThread.step, step_handled, List.map_append, Runs.run_append, ← seq]

/-- The files of a thread are those of the sequential log with its handled lines. -/
theorem log_run (kind : LogKind) (log : Log) (events : List (Event String)) :
    Sequential kind log (Runs.run (LogWriterThread.step kind) (start log) events) := by
  have hstep : ∀ t e, Sequential kind log t → Sequential kind log (t.step kind e) := fun _ e seq => seq.step e
  exact Runs.invariant_run hstep (rfl : Sequential kind log (start log)) events

/-!
### The writer alone

After the stop is announced nobody else moves. The steps of the writer are then a function that can be
iterated until it leaves its loop.
-/

theorem queue_alone (kind : LogKind) (t : LogWriterThread) :
    (t.alone kind).queue = WorkQueue.alone kind.protocol t.queue := by
  cases hplace : t.queue.place <;> simp [LogWriterThread.alone, WorkQueue.alone, LogWriterThread.step, hplace]

theorem queue_iterate (kind : LogKind) (n : Nat) (t : LogWriterThread) :
    ((alone kind)^[n] t).queue = (WorkQueue.alone kind.protocol)^[n] t.queue := by
  induction n generalizing t with
  | zero => rfl
  | succ n ih => rw [Function.iterate_succ_apply, Function.iterate_succ_apply, ih, queue_alone]

theorem Sequential.iterate {log : Log} {t : LogWriterThread} (seq : Sequential kind log t) (n : Nat) :
    Sequential kind log ((alone kind)^[n] t) := by
  induction n generalizing t with
  | zero => exact seq
  | succ n ih =>
      rw [Function.iterate_succ_apply]
      apply ih
      rw [LogWriterThread.alone]
      split
      · exact seq.step _
      · exact seq.step _
      · exact seq.step _
      · exact seq

/-!
### One process

A process counts its rotations from one, and nothing else uses these names on a fresh disk. So every
rotation is safe, as long as the counter does not wrap.
-/

/-- The files of a process whose writer has not rotated more often than it has written: its rotations use
    the numbers one after the other. -/
structure OneProcess (path : String) (log : Log) : Prop where
  seq_le : log.writer.rotateSeq.toNat ≤ log.written.length
  unused : ∀ seq : UInt32, log.writer.rotateSeq < seq → log.disk.file (rotatedPath path seq) = none

theorem rotatedPath_inj {path : String} {seq seq' : UInt32} (same : rotatedPath path seq = rotatedPath path seq') :
    seq = seq' :=
  UInt32.toNat_inj.mp (Decimals.append_toString_inj same)

namespace OneProcess

variable {path : String} {log : Log}

theorem start (kind : LogKind) (path : String) (maxBytes : UInt64) :
    OneProcess path (kind.start path maxBytes) := by
  obtain ⟨_, _, hdisk⟩ := openLog_spec kind path maxBytes .empty
  have hseq : (kind.start path maxBytes).writer.rotateSeq = 0 := by
    cases kind with
    | arbDetector =>
        simp only [LogKind.start, LogKind.openLog, Brain.ArbDetector.openOutput]
        split <;> rfl
    | filePersistSink =>
        simp only [LogKind.start, LogKind.openLog, Feed.FilePersistSink.openFile]
        split
        · rfl
        · split <;> rfl
  constructor
  · rw [hseq]
    exact Nat.zero_le _
  · intro seq _
    have hne : rotatedPath path seq ≠ path := (rotatedPath_ne path seq).symm
    change (kind.openLog path maxBytes .empty).2.file (rotatedPath path seq) = none
    rcases hdisk with hsame | happend
    · rw [hsame]
      rfl
    · rw [happend, file_openAppend, if_neg hne]
      rfl

theorem next_number (one : OneProcess path log) (few : log.written.length + 1 < 2 ^ 32) :
    (log.writer.rotateSeq + 1).toNat = log.writer.rotateSeq.toNat + 1 := by
  have hle := one.seq_le
  rw [UInt32.toNat_add, UInt32.toNat_one, Nat.mod_eq_of_lt (by omega)]

/-- The next rotation finds its number free. -/
theorem rotatesSafely (one : OneProcess path log) (inv : LogInv path log)
    (few : log.written.length + 1 < 2 ^ 32) (text : String) : RotatesSafely log (.write text) := by
  intro _ _
  have hnumber := one.next_number few
  constructor
  · intro hzero
    rw [hzero] at hnumber
    exact absurd hnumber (Nat.succ_ne_zero _).symm
  · rw [inv.path_eq]
    apply one.unused
    rw [UInt32.lt_iff_toNat_lt, hnumber]
    exact Nat.lt_succ_self _

theorem write (one : OneProcess path log) (inv : LogInv path log) (kind : LogKind)
    (few : log.written.length + 1 < 2 ^ 32) (text : String) :
    OneProcess path (kind.writerLoop text log) := by
  have hput : OneProcess path (log.put text) := by
    constructor
    · exact one.seq_le.trans (by simp [Log.put])
    · intro seq hseq
      rw [inv.disk_put text, file_append, if_neg (rotatedPath_ne path seq).symm]
      exact one.unused seq hseq
  rcases writerLoop_cases kind inv text with ⟨hopen, _, hloop⟩ | ⟨_, hsame | hloop | hloop⟩
  · rw [hloop]
    have hnumber := one.next_number few
    have hinv : LogInv path ((log.put text).count text) := (inv.put text).count text
    constructor
    · calc (log.writer.rotateSeq + 1).toNat = log.writer.rotateSeq.toNat + 1 := hnumber
        _ ≤ log.written.length + 1 := Nat.succ_le_succ one.seq_le
        _ = (log.written ++ [log.nextLine text]).length := by simp
    · intro seq hseq
      have hlater : log.writer.rotateSeq + 1 < seq := hseq
      have hold : log.writer.rotateSeq < seq := by
        rw [UInt32.lt_iff_toNat_lt] at hlater ⊢
        omega
      have hother : rotatedPath path seq ≠
          rotatedPath path (((log.put text).count text).writer.rotateSeq + 1) := by
        intro hsame
        rw [rotatedPath_inj hsame] at hlater
        exact absurd hlater (UInt32.lt_irrefl _)
      rw [hinv.disk_rotateFile, file_setAside (hinv.present hopen) (rotatedPath_ne path _),
        if_neg (rotatedPath_ne path seq).symm, if_neg hother]
      exact hput.unused seq hold
  · rw [hsame]
    exact one
  · rw [hloop]
    exact hput
  · rw [hloop]
    exact ⟨hput.seq_le, hput.unused⟩

end OneProcess

/-- The output is open for the writer of its kind. -/
def OpenFor (kind : LogKind) (log : Log) : Prop :=
  match kind with
  | .arbDetector => log.writer.plainOpen = true
  | .filePersistSink => log.writer.gzipOpen = true ∨ log.writer.plainOpen = true

theorem openFor_start (kind : LogKind) {path : String} (maxBytes : UInt64) (opened : path ≠ "") :
    OpenFor kind (kind.start path maxBytes) := by
  cases kind with
  | arbDetector => simp [OpenFor, LogKind.start, LogKind.openLog, Brain.ArbDetector.openOutput, opened]
  | filePersistSink =>
      simp only [OpenFor, LogKind.start, LogKind.openLog, Feed.FilePersistSink.openFile]
      split
      · exact Or.inl rfl
      · exact Or.inr rfl

/-- A writer whose output is open writes its line and leaves the output open. -/
theorem OpenFor.write {log : Log} (isOpen : OpenFor kind log) (text : String) :
    OpenFor kind (kind.writerLoop text log) ∧
      (kind.writerLoop text log).written = log.written ++ [log.nextLine text] := by
  cases kind with
  | arbDetector =>
      have hopen : log.writer.plainOpen = true := isOpen
      simp only [LogKind.writerLoop, Brain.ArbDetector.writerLoop, hopen, Brain.ArbDetector.rotateOutput]
      rw [if_neg (by simp)]
      split
      · split <;> exact ⟨hopen, rfl⟩
      · exact ⟨hopen, rfl⟩
  | filePersistSink =>
      simp only [LogKind.writerLoop, Feed.FilePersistSink.writerLoop, Feed.FilePersistSink.rotate]
      split
      · exact ⟨isOpen, rfl⟩
      · rename_i hplain
        have hopen : log.writer.plainOpen = true := isOpen.resolve_left hplain
        rw [if_pos hopen]
        split
        · split <;> exact ⟨isOpen, rfl⟩
        · exact ⟨isOpen, rfl⟩

/-- Lines that a process writes after others. -/
theorem lines_kept_run {path : String} {texts : List String} {log : Log} (inv : LogInv path log)
    (one : OneProcess path log) (isOpen : OpenFor kind log)
    (few : log.written.length + texts.length < 2 ^ 32) :
    LinesKept path (Runs.run kind.step log (texts.map LogEvent.write)) ∧
      (Runs.run kind.step log (texts.map LogEvent.write)).written.map LogLine.text =
        log.written.map LogLine.text ++ texts := by
  induction texts generalizing log with
  | nil => exact ⟨inv.kept, (List.append_nil _).symm⟩
  | cons text texts ih =>
      rw [List.length_cons] at few
      have hone : log.written.length + 1 < 2 ^ 32 := by omega
      obtain ⟨hopen, hwritten⟩ := isOpen.write text
      have hinv : LogInv path (kind.writerLoop text log) :=
        (inv.write kind text).1 (one.rotatesSafely inv hone text)
      have hfew : (kind.writerLoop text log).written.length + texts.length < 2 ^ 32 := by
        rw [hwritten, List.length_append, List.length_singleton]
        omega
      obtain ⟨hkept, htexts⟩ := ih hinv (one.write inv kind hone text) hopen hfew
      refine ⟨hkept, ?_⟩
      rw [List.map_cons, Runs.run_cons]
      refine htexts.trans ?_
      rw [hwritten, List.map_append, List.append_assoc]
      rfl

/-- A process that starts on an empty disk writes every line it is given and keeps it. -/
theorem lines_kept (kind : LogKind) {path : String} (maxBytes : UInt64) (opened : path ≠ "")
    {texts : List String} (few : texts.length < 2 ^ 32) :
    LinesKept path (Runs.run kind.step (kind.start path maxBytes) (texts.map LogEvent.write)) ∧
      (Runs.run kind.step (kind.start path maxBytes) (texts.map LogEvent.write)).written.map LogLine.text =
        texts := by
  have hfew : (kind.start path maxBytes).written.length + texts.length < 2 ^ 32 := by
    have hnone : (kind.start path maxBytes).written = [] := rfl
    rw [hnone, List.length_nil, Nat.zero_add]
    exact few
  exact lines_kept_run (logInv_start kind path maxBytes) (OneProcess.start kind path maxBytes)
    (openFor_start kind maxBytes opened) hfew

/-!
### Results

The two sinks differ in how they announce the stop. The detector holds the mutex as it stores its flag, so
its writer cannot be between its test and its sleep.
-/

/-- What a stopped writer leaves behind when it runs on: all lines that were queued and not dropped, in
    order, each in exactly one file of the log. -/
structure Finished (path : String) (t done : LogWriterThread) : Prop where
  exited : done.queue.place = .exited
  empty : done.queue.queue = []
  written : done.log.written.map LogLine.text = done.queue.handled
  ordered : done.queue.handled.Sublist t.queue.pushed
  accounted : t.queue.pushed.Perm (t.queue.dropped ++ done.queue.handled)
  kept : LinesKept path done.log

/-- A writer that is awake when it is told to stop needs no more help to finish. -/
theorem writer_finishes (kind : LogKind) {path : String} (maxBytes : UInt64) (opened : path ≠ "")
    (events : List (Event String))
    (few : (Runs.run (step kind) (start (kind.start path maxBytes)) events).queue.pushed.length < 2 ^ 32)
    (announced : (Runs.run (step kind) (start (kind.start path maxBytes)) events).queue.announced = true)
    (awake : ¬ Asleep (Runs.run (step kind) (start (kind.start path maxBytes)) events).queue)
    (inside : (Runs.run (step kind) (start (kind.start path maxBytes)) events).queue.place ≠ .exited) :
    ∃ n, Finished path (Runs.run (step kind) (start (kind.start path maxBytes)) events)
      ((alone kind)^[n] (Runs.run (step kind) (start (kind.start path maxBytes)) events)) := by
  generalize hreached : Runs.run (step kind) (start (kind.start path maxBytes)) events = t at *
  have hqueue : t.queue = Runs.run (WorkQueue.step kind.protocol) {} events := by
    rw [← hreached, queue_run]
    rfl
  have hseen : StopSeen kind.protocol t.queue := hqueue ▸ stopSeen_run kind.protocol events
  have hordered : Ordered kind.protocol t.queue := hqueue ▸ ordered_run kind.capacity_pos events
  have hlog : Sequential kind (kind.start path maxBytes) t := hreached ▸ log_run kind _ events
  obtain ⟨n, hplace, hempty, hhandled, _, _⟩ := exits_alone rfl hseen announced awake inside
  rw [← queue_iterate] at hplace hempty hhandled
  have hsub : ((alone kind)^[n] t).queue.handled.Sublist t.queue.pushed := by
    rw [hhandled]
    exact hordered.handled_sublist
  have hlines := lines_kept kind maxBytes opened (Nat.lt_of_le_of_lt hsub.length_le few)
  rw [← hlog.iterate n] at hlines
  refine ⟨n, hplace, hempty, hlines.2, hsub, ?_, hlines.1⟩
  obtain ⟨_, older, hpushed, _, hperm⟩ := hordered
  rw [hpushed, hhandled, ← List.append_assoc]
  exact hperm.append_right _

/-- `flush` of the detector always comes back and loses nothing: whatever the threads have done before, its
    writer does not sleep through it, and writes every line that was queued and not dropped. -/
theorem flush_writes_all {path : String} (maxBytes : UInt64) (opened : path ≠ "") (events : List (Event String))
    (few : (Runs.run (step .arbDetector) (start (LogKind.start .arbDetector path maxBytes)) events).queue.pushed.length
      < 2 ^ 32)
    (announced : (Runs.run (step .arbDetector) (start (LogKind.start .arbDetector path maxBytes))
      events).queue.announced = true)
    (inside : (Runs.run (step .arbDetector) (start (LogKind.start .arbDetector path maxBytes)) events).queue.place
      ≠ .exited) :
    ∃ n, Finished path (Runs.run (step .arbDetector) (start (LogKind.start .arbDetector path maxBytes)) events)
      ((alone .arbDetector)^[n]
        (Runs.run (step .arbDetector) (start (LogKind.start .arbDetector path maxBytes)) events)) := by
  apply writer_finishes .arbDetector maxBytes opened events few announced
  · rw [queue_run]
    exact awake_of_stopsLocked rfl events
  · exact inside

/-- Two crosses are emitted, the first is written, and the detector is destroyed. -/
def flushed : List (Event String) :=
  [.push "first\n", .head, .lock, .push "second\n", .done, .stop, .head, .announce]

theorem flush_writes_all_two_lines :
    ∃ n, Finished "out.jsonl" (Runs.run (step .arbDetector) (start (LogKind.start .arbDetector "out.jsonl" 0)) flushed)
      ((alone .arbDetector)^[n]
        (Runs.run (step .arbDetector) (start (LogKind.start .arbDetector "out.jsonl" 0)) flushed)) :=
  flush_writes_all 0 (by decide) flushed (by decide) (by decide) (by decide)

/-- The writer of the file sink is asleep after its destructor has notified, or about to sleep, exactly if the
    notification came while it had found the queue empty and not gone to sleep yet. -/
theorem sink_writer_awake_iff (log : Log) (events : List (Event String)) :
    (∀ reached, reached <+: events →
        ¬ Asleep (Runs.run (step .filePersistSink) (start log) reached).queue) ↔
      Runs.Along (step .filePersistSink) (fun t e => ¬ Overtakes t.queue e) (start log) events := by
  have hviewed : Runs.Along (step .filePersistSink) (fun t e => ¬ Overtakes t.queue e) (start log) events ↔
      Runs.Along (WorkQueue.step (LogKind.protocol .filePersistSink)) (fun s e => ¬ Overtakes s e) {} events :=
    Runs.along_view LogWriterThread.queue (fun _ _ => rfl) (fun s e => ¬ Overtakes s e) (start log) events
  rw [hviewed]
  simp only [queue_run]
  exact awake_iff (LogKind.protocol .filePersistSink) events

end LogWriterThread

end ZidaBot
