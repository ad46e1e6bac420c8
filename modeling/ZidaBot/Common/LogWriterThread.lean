/-
Module: ZidaBot.Common.LogWriterThread
Purpose: The writer threads of `brain/src/brain/ArbDetector.cpp` and
  `feed/src/postprocess/FilePersistSink.cpp` with the queue that feeds them: `emit_` and `enqueue_line_` push
  lines, `writer_loop_` takes them one by one and writes them, and `flush` or the destructor sets the flag
  that ends the loop, notifies, and joins.  The flag of the detector is written under the mutex of the queue,
  that of the sink is an atomic written without it.
Trusted boundary: human-reviewed model
Main exports: LogKind.writeQueueCap, LogKind.protocol, LogWriterThread, LogWriterThread.start,
  LogWriterThread.step, LogWriterThread.alone
-/
import ZidaBot.Common.RotatedLog
import ZidaBot.Library.WorkQueue

namespace ZidaBot

namespace LogKind

/-- `kWriteQueueCap`. -/
def writeQueueCap : LogKind → Nat
  | .arbDetector => 4096
  | .filePersistSink => 10000

/-- How the queue is written.  Both loops are `while (true)`, and both producers notify while they hold the
    lock. -/
def protocol (kind : LogKind) : WorkQueue.Protocol where
  capacity := kind.writeQueueCap
  testsFlag := false
  notifiesLocked := true
  stopsLocked :=
    match kind with
    | .arbDetector => true
    | .filePersistSink => false

theorem capacity_pos (kind : LogKind) : 0 < kind.protocol.capacity := by cases kind <;> decide

end LogKind

/-- A writer thread with its queue and its files. -/
structure LogWriterThread where
  queue : WorkQueue.State String
  log : Log

namespace LogWriterThread

/-- The thread of a process that opens its output on a given disk. -/
def start (log : Log) : LogWriterThread := { queue := {}, log := log }

/-- The file part of a round: the line in hand is written when the consumer is done with it. -/
def writes (kind : LogKind) (t : LogWriterThread) (event : WorkQueue.Event String) : Log :=
  match event, t.queue.place with
  | .done, .working text => kind.writerLoop text t.log
  | _, _ => t.log

/-- One step of a producer, of the stopping thread or of the writer. -/
def step (kind : LogKind) (t : LogWriterThread) (event : WorkQueue.Event String) : LogWriterThread :=
  { queue := WorkQueue.step kind.protocol t.queue event, log := t.writes kind event }

/-- The writer's next step, where there is one it can take by itself. -/
def alone (kind : LogKind) (t : LogWriterThread) : LogWriterThread :=
  match t.queue.place with
  | .atHead => t.step kind .head
  | .locking => t.step kind .lock
  | .working _ => t.step kind .done
  | _ => t

end LogWriterThread

end ZidaBot
