/-
Module: ZidaBot.Feed.FilePersistSink
Purpose: The file sink of `feed/src/postprocess/FilePersistSink.cpp`: the records it builds and the bounded
  queue towards its writer thread.  `dump` is taken to round-trip, so a line is the JSON value itself.
  Opening and rotating the file are modelled in `Common.RotatedLog`.
Trusted boundary: human-reviewed model
Main exports: FilePersistSink, enqueueLine, writeSnapshot, writeIncremental, writeBookState
-/
import ZidaBot.Feed.WsPublishSink

namespace ZidaBot.Feed

/-- `kWriteQueueCap`. -/
def kWriteQueueCap : Nat := 10000

/-- The sink with its own running number, and the lines the writer thread has not taken yet. -/
structure FilePersistSink where
  venue : String
  symbol : String
  persistSeq : Nat := 0
  writeQueue : List Json := []

namespace FilePersistSink

/-- `enqueue_line_`: the oldest lines make room. -/
def enqueueLine (s : FilePersistSink) (line : Json) : FilePersistSink :=
  { s with
    writeQueue := s.writeQueue.drop (s.writeQueue.length + 1 - kWriteQueueCap) ++ [line] }

/-- The record of a snapshot. -/
def snapshotRecord (stamp : Stamp) (snap : GenericSnapshotFormat) (source : String) : Json :=
  .object [
    ("schema_version", .int 1), ("event_type", .string "snapshot"), ("source", .string source),
    ("venue", .string stamp.venue), ("symbol", .string stamp.symbol),
    ("persist_seq", .int stamp.persistSeq), ("ts_recv_ns", .int snap.tsRecvNs),
    ("ts_persist_ns", .int stamp.nowNs),
    ("seq_first", .int snap.lastUpdateId.toNat), ("seq_last", .int snap.lastUpdateId.toNat),
    ("checksum", .int snap.checksum),
    ("bids", levelsToJson snap.bids), ("asks", levelsToJson snap.asks)]

/-- The record of an incremental. -/
def incrementalRecord (stamp : Stamp) (inc : GenericIncrementalFormat) (source : String) : Json :=
  .object [
    ("schema_version", .int 1), ("event_type", .string "incremental"), ("source", .string source),
    ("venue", .string stamp.venue), ("symbol", .string stamp.symbol),
    ("persist_seq", .int stamp.persistSeq), ("ts_recv_ns", .int inc.tsRecvNs),
    ("ts_persist_ns", .int stamp.nowNs),
    ("seq_first", .int inc.firstSeq.toNat), ("seq_last", .int inc.lastSeq.toNat),
    ("prev_last", .int inc.prevLast.toNat), ("checksum", .int inc.checksum),
    ("bids", levelsToJson inc.bids), ("asks", levelsToJson inc.asks)]

/-- The record of a checkpoint. -/
def bookStateRecord (stamp : Stamp) (book : OrderBook) (appliedSeq : UInt64) (topN : Nat)
    (source : String) (tsBookNs : Int) : Json :=
  .object [
    ("schema_version", .int 1), ("event_type", .string "book_state"), ("source", .string source),
    ("venue", .string stamp.venue), ("symbol", .string stamp.symbol),
    ("persist_seq", .int stamp.persistSeq), ("ts_recv_ns", .int 0),
    ("ts_book_ns", .int tsBookNs), ("ts_persist_ns", .int stamp.nowNs),
    ("applied_seq", .int appliedSeq.toNat), ("top_n", .int topN),
    ("bids", levelsFromBook book topN .bid), ("asks", levelsFromBook book topN .ask)]

/-- The stamp of the next record. -/
def stamp (s : FilePersistSink) (nowNs : Int) : Stamp :=
  { venue := s.venue, symbol := s.symbol, persistSeq := s.persistSeq + 1, nowNs := nowNs }

/-- Count a record and queue it. -/
def write (s : FilePersistSink) (nowNs : Int) (record : Stamp → Json) : FilePersistSink :=
  { s with persistSeq := s.persistSeq + 1 }.enqueueLine (record (s.stamp nowNs))

/-- `write_snapshot`. -/
def writeSnapshot (s : FilePersistSink) (nowNs : Int) (snap : GenericSnapshotFormat) (source : String) :
    FilePersistSink :=
  s.write nowNs fun stamp => snapshotRecord stamp snap source

/-- `write_incremental`. -/
def writeIncremental (s : FilePersistSink) (nowNs : Int) (inc : GenericIncrementalFormat)
    (source : String) : FilePersistSink :=
  s.write nowNs fun stamp => incrementalRecord stamp inc source

/-- `write_book_state`. -/
def writeBookState (s : FilePersistSink) (nowNs : Int) (book : OrderBook) (appliedSeq : UInt64)
    (topN : Nat) (source : String) (tsBookNs : Int) : FilePersistSink :=
  s.write nowNs fun stamp => bookStateRecord stamp book appliedSeq topN source tsBookNs

end FilePersistSink

end ZidaBot.Feed
