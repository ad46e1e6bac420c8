/-
Module: ZidaBot.Feed.Recorder
Purpose: A feed handler that records to a file: the handler of `feed/src/md/GenericFeedHandler.cpp` on its I/O
  thread, the calls it makes on its `FilePersistSink`, the queue of the sink, the writer thread and the disk.
  The calls of a callback are made one after the other, and the writer may run in between; a call has to wait
  while the writer holds the mutex.  `init` leaves the size limit of the sink at zero, so the file is never
  rotated; it is opened for appending, whatever it holds.
Trusted boundary: human-reviewed model
Main exports: FilePersistSink.record, FilePersistSink.line, RecorderSetting, Recorder, RecorderEvent,
  Recorder.start, Recorder.step
-/
import ZidaBot.Common.LogWriterThread
import ZidaBot.Feed.FeedRuntime
import ZidaBot.Feed.FilePersistSink
import ZidaBot.Feed.Venue

namespace ZidaBot.Feed

/-- The record that `write_snapshot`, `write_incremental` or `write_book_state` builds; the sink has no call
    for a status. -/
def FilePersistSink.record (stamp : Stamp) : PubEvent → Option Json
  | .status _ _ => none
  | .snapshot snap source => some (snapshotRecord stamp snap source)
  | .incremental inc source => some (incrementalRecord stamp inc source)
  | .bookState book appliedSeq topN source tsBookNs =>
      some (bookStateRecord stamp book appliedSeq topN source tsBookNs)

/-- The line of a record, `j.dump() + '\n'`. -/
def FilePersistSink.line (dump : Json → String) (j : Json) : String := dump j ++ "\n"

/-- A feed with the arguments of its sink, and the disk when it starts. -/
structure RecorderSetting where
  cfg : HandlerConfig
  venue : VenueId
  symbol : String
  path : String
  disk : Files.Store String LogLine
  dump : Json → String

/-- The handler keeps its sink if the file could be opened. -/
def RecorderSetting.handlerConfig (s : RecorderSetting) : HandlerConfig :=
  { s.cfg with persistOpen := s.path ≠ "" }

/-- The handler, the calls on the sink that the last callback has still to make, the running number of the
    sink, and its writer thread.  `records` records what the sink has dumped. -/
structure Recorder where
  runtime : FeedRuntime
  calls : List PubEvent
  persistSeq : Nat
  records : List Json
  thread : LogWriterThread

/-- A callback begins once the one before has made its calls. -/
inductive RecorderEvent where
  | callback (event : RuntimeEvent)
  | call (nowNs : Int)
  | writer (event : WorkQueue.Event String)
deriving DecidableEq, Repr

namespace Recorder

/-- `init` and `start`; statuses are set, and the sink is not called. -/
def start (s : RecorderSetting) : Recorder :=
  let (writer, disk) := FilePersistSink.openFile s.path 0 s.disk
  { runtime := FeedRuntime.started s.handlerConfig, calls := [], persistSeq := 0, records := []
    thread := LogWriterThread.start { disk := disk, writer := writer, written := [] } }

/-- A callback of the handler. -/
def onCallback (s : RecorderSetting) (r : Recorder) (event : RuntimeEvent) : Recorder :=
  if r.calls ≠ [] then r
  else
    let runtime := r.runtime.step s.handlerConfig event
    { r with runtime := runtime, calls := runtime.persisted.drop r.runtime.persisted.length }

/-- What the sink makes of its next call. -/
def stamp (s : RecorderSetting) (r : Recorder) (nowNs : Int) : Stamp :=
  { venue := s.venue.name, symbol := s.symbol, persistSeq := r.persistSeq + 1, nowNs := nowNs }

/-- The next call on the sink. -/
def onCall (s : RecorderSetting) (r : Recorder) (nowNs : Int) : Recorder :=
  if r.thread.queue.holdsMutex then r
  else
    match r.calls with
    | [] => r
    | call :: rest =>
        match FilePersistSink.record (r.stamp s nowNs) call with
        | none => { r with calls := rest }
        | some record =>
            { r with
              calls := rest, persistSeq := r.persistSeq + 1, records := r.records ++ [record]
              thread := r.thread.step .filePersistSink (.push (FilePersistSink.line s.dump record)) }

/-- A step of the writer thread or of the destructor; only calls push lines. -/
def onWriter (r : Recorder) : WorkQueue.Event String → Recorder
  | .push _ => r
  | event => { r with thread := r.thread.step .filePersistSink event }

/-- One step. -/
def step (s : RecorderSetting) (r : Recorder) : RecorderEvent → Recorder
  | .callback event => r.onCallback s event
  | .call nowNs => r.onCall s nowNs
  | .writer event => r.onWriter event

end Recorder

end ZidaBot.Feed
