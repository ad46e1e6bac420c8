/-
Module: ZidaBot.Common.RotatedLog
Purpose: The writer threads of `brain/src/brain/ArbDetector.cpp` and
  `feed/src/postprocess/FilePersistSink.cpp` on the file system: lines are appended, and once the counted
  bytes reach a limit the file is renamed to the next number and opened anew.  The byte counter and the
  rotation counter belong to the process, the files do not.  A line is taken from the queue of its writer;
  the lines are numbered in the order in which they reach the disk, and `written` records them.  Opening a
  file fails for the empty path only.
Trusted boundary: human-reviewed model
Main exports: LogLine, LogWriter, Log, rotatedPath, ArbDetector.writerLoop, FilePersistSink.writerLoop,
  LogKind, LogEvent, LogKind.step, LogKind.start
-/
import ZidaBot.Library.Files
import ZidaBot.Library.Runs

namespace ZidaBot

/-- A line on the disk, with its number and its text. -/
structure LogLine where
  number : Nat
  text : String
deriving DecidableEq, Repr

/-- What a process knows of its output: the path and the limit it was given, whether a plain or a compressed
    file is open, the bytes counted since it was opened, and the number of the last rotation. -/
structure LogWriter where
  path : String
  maxBytes : UInt64
  plainOpen : Bool
  gzipOpen : Bool
  bytes : UInt64 := 0
  rotateSeq : UInt32 := 0
deriving DecidableEq, Repr

/-- A writer with the disk it writes to. -/
structure Log where
  disk : Files.Store String LogLine
  writer : LogWriter
  written : List LogLine

/-- The name that a file is set aside under. -/
def rotatedPath (path : String) (seq : UInt32) : String := path ++ "." ++ toString seq.toNat

namespace Log

/-- Write and flush a line. -/
def put (text : String) (log : Log) : Log :=
  let line : LogLine := { number := log.written.length, text := text }
  { log with disk := log.disk.append log.writer.path line, written := log.written ++ [line] }

/-- Count the bytes of a line. -/
def count (text : String) (log : Log) : Log :=
  { log with writer := { log.writer with
      bytes := log.writer.bytes + UInt64.ofNat text.utf8ByteSize } }

/-- There is a limit, and the counted bytes have reached it. -/
def full (log : Log) : Bool := 0 < log.writer.maxBytes && log.writer.maxBytes ≤ log.writer.bytes

/-- The common part of `rotate_output_` and `rotate_`. -/
def rotateFile (log : Log) : Log :=
  let seq := log.writer.rotateSeq + 1
  { log with
    disk := log.disk.setAside log.writer.path (rotatedPath log.writer.path seq)
    writer := { log.writer with rotateSeq := seq, bytes := 0 } }

end Log

namespace Brain.ArbDetector

/-- The part of the constructor that opens the output. -/
def openOutput (outputPath : String) (outputMaxBytes : UInt64) (disk : Files.Store String LogLine) :
    LogWriter × Files.Store String LogLine :=
  if outputPath ≠ "" then
    ({ path := outputPath, maxBytes := outputMaxBytes, plainOpen := true, gzipOpen := false },
      disk.openAppend outputPath)
  else ({ path := outputPath, maxBytes := outputMaxBytes, plainOpen := false, gzipOpen := false }, disk)

/-- `rotate_output_`. -/
def rotateOutput (log : Log) : Log := if log.writer.path = "" then log else log.rotateFile

/-- One round of `writer_loop_`. -/
def writerLoop (text : String) (log : Log) : Log :=
  if !log.writer.plainOpen then log
  else
    let log := (log.put text).count text
    if log.full then rotateOutput log else log

end Brain.ArbDetector

namespace Feed.FilePersistSink

/-- `has_gzip_suffix`. -/
def hasGzipSuffix (path : String) : Bool := ".gz".toList.isSuffixOf path.toList

/-- The constructor. -/
def openFile (path : String) (maxFileBytes : UInt64) (disk : Files.Store String LogLine) :
    LogWriter × Files.Store String LogLine :=
  if hasGzipSuffix path then
    ({ path := path, maxBytes := maxFileBytes, plainOpen := false, gzipOpen := true }, disk.openAppend path)
  else if path ≠ "" then
    ({ path := path, maxBytes := maxFileBytes, plainOpen := true, gzipOpen := false }, disk.openAppend path)
  else ({ path := path, maxBytes := maxFileBytes, plainOpen := false, gzipOpen := false }, disk)

/-- `rotate_`; compressed files are not rotated. -/
def rotate (log : Log) : Log :=
  if log.writer.gzipOpen || !log.writer.plainOpen then log else log.rotateFile

/-- One round of `writer_loop_`; the bytes of a compressed file are not counted. -/
def writerLoop (text : String) (log : Log) : Log :=
  if log.writer.gzipOpen then log.put text
  else if log.writer.plainOpen then
    let log := (log.put text).count text
    if log.full then rotate log else log
  else log

end Feed.FilePersistSink

/-- The two outputs. -/
inductive LogKind where
  | arbDetector
  | filePersistSink
deriving DecidableEq, Repr

/-- A line that a writer takes from its queue, or the process is started again, possibly with another
    limit. -/
inductive LogEvent where
  | write (text : String)
  | restart (maxBytes : UInt64)
deriving DecidableEq, Repr

namespace LogKind

/-- Open the output of a new process. -/
def openLog (kind : LogKind) (path : String) (maxBytes : UInt64) (disk : Files.Store String LogLine) :
    LogWriter × Files.Store String LogLine :=
  match kind with
  | .arbDetector => Brain.ArbDetector.openOutput path maxBytes disk
  | .filePersistSink => Feed.FilePersistSink.openFile path maxBytes disk

/-- One round of the writer. -/
def writerLoop (kind : LogKind) (text : String) (log : Log) : Log :=
  match kind with
  | .arbDetector => Brain.ArbDetector.writerLoop text log
  | .filePersistSink => Feed.FilePersistSink.writerLoop text log

/-- The first process, on an empty disk. -/
def start (kind : LogKind) (path : String) (maxBytes : UInt64) : Log :=
  let (writer, disk) := kind.openLog path maxBytes .empty
  { disk := disk, writer := writer, written := [] }

/-- One event; a new process is given the path of the one before. -/
def step (kind : LogKind) (log : Log) : LogEvent → Log
  | .write text => kind.writerLoop text log
  | .restart maxBytes =>
      let (writer, disk) := kind.openLog log.writer.path maxBytes log.disk
      { log with disk := disk, writer := writer }

end LogKind

end ZidaBot
