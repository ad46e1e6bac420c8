/-
Module: ZidaBot.Feed.WsPublishSink
Purpose: The publisher of `feed/src/postprocess/WsPublishSink.cpp`: the events the feed handler hands to
  it, the objects it builds from them, and the connection it keeps to the brain.  MessagePack is taken to
  round-trip, so a frame is the JSON value itself.
Trusted boundary: human-reviewed model
Main exports: PubEvent, Stamp, levelsToJson, levelsFromBook, PubEvent.toJson, WsPublishSink,
  WsPublishSink.start, stop, publish, scheduleReconnect, SinkEvent, WsPublishSink.step
-/
import ZidaBot.Common.Json
import ZidaBot.Common.OrderBookController
import ZidaBot.Common.WsClient

namespace ZidaBot.Feed

/-- The calls `publish_status`, `publish_snapshot`, `publish_incremental` and `publish_book_state`. -/
inductive PubEvent where
  | status (feedState reason : String)
  | snapshot (snap : GenericSnapshotFormat) (source : String)
  | incremental (inc : GenericIncrementalFormat) (source : String)
  | bookState (book : OrderBook) (appliedSeq : UInt64) (topN : Nat) (source : String) (tsBookNs : Int)
deriving DecidableEq

/-- One level on the wire. -/
def levelToJson (lvl : Level) : Json :=
  .object [
    ("price", .string lvl.price), ("quantity", .string lvl.quantity),
    ("priceTick", .int lvl.priceTick), ("quantityLot", .int lvl.quantityLot)]

/-- `levels_to_json_`. -/
def levelsToJson (levels : List Level) : Json := .array (levels.map levelToJson)

/-- The levels read through `bid_ptr` or `ask_ptr` from position `i` on, up to the first null pointer. -/
def pointedLevels (book : OrderBook) (s : Side) : Nat → Nat → List Level
  | _, 0 => []
  | i, n + 1 =>
      match book.levelPtr s i with
      | none => []
      | some lvl => lvl :: pointedLevels book s (i + 1) n

/-- `levels_from_book_`. -/
def levelsFromBook (book : OrderBook) (topN : Nat) (s : Side) : Json :=
  levelsToJson (pointedLevels book s 0 topN)

/-- What the sink itself adds to a frame: its venue and symbol, the running number of the frame and the
    clock reading. -/
structure Stamp where
  venue : String
  symbol : String
  persistSeq : Nat
  nowNs : Int
deriving DecidableEq

/-- The frame built for an event. -/
def PubEvent.toJson (stamp : Stamp) : PubEvent → Json
  | .status feedState reason =>
      .object [
        ("schema_version", .int 1), ("event_type", .string "status"),
        ("venue", .string stamp.venue), ("symbol", .string stamp.symbol),
        ("feed_state", .string feedState), ("reason", .string reason), ("ts_ns", .int stamp.nowNs)]
  | .snapshot snap source =>
      .object [
        ("schema_version", .int 1), ("event_type", .string "snapshot"), ("source", .string source),
        ("venue", .string stamp.venue), ("symbol", .string stamp.symbol),
        ("persist_seq", .int stamp.persistSeq), ("ts_recv_ns", .int snap.tsRecvNs),
        ("ts_persist_ns", .int stamp.nowNs),
        ("seq_first", .int snap.lastUpdateId.toNat), ("seq_last", .int snap.lastUpdateId.toNat),
        ("checksum", .int snap.checksum),
        ("bids", levelsToJson snap.bids), ("asks", levelsToJson snap.asks)]
  | .incremental inc source =>
      .object [
        ("schema_version", .int 1), ("event_type", .string "incremental"), ("source", .string source),
        ("venue", .string stamp.venue), ("symbol", .string stamp.symbol),
        ("persist_seq", .int stamp.persistSeq), ("ts_recv_ns", .int inc.tsRecvNs),
        ("ts_persist_ns", .int stamp.nowNs),
        ("seq_first", .int inc.firstSeq.toNat), ("seq_last", .int inc.lastSeq.toNat),
        ("prev_last", .int inc.prevLast.toNat), ("checksum", .int inc.checksum),
        ("bids", levelsToJson inc.bids), ("asks", levelsToJson inc.asks)]
  | .bookState book appliedSeq topN source tsBookNs =>
      .object [
        ("schema_version", .int 1), ("event_type", .string "book_state"), ("source", .string source),
        ("venue", .string stamp.venue), ("symbol", .string stamp.symbol),
        ("persist_seq", .int stamp.persistSeq), ("ts_recv_ns", .int 0),
        ("ts_book_ns", .int tsBookNs), ("ts_persist_ns", .int stamp.nowNs),
        ("applied_seq", .int appliedSeq.toNat), ("top_n", .int topN),
        ("bids", levelsFromBook book topN .bid), ("asks", levelsFromBook book topN .ask)]

/-- The publisher; `reconnectTimer` holds the generation of the armed wait.  The frames are of any type
    that a queued event can be turned into. -/
structure WsPublishSink (α : Type) where
  running : Bool := false
  ws : WsClient α := { maxOutbox := 5000 }
  reconnectScheduled : Bool := false
  reconnectGen : Nat := 0
  reconnectTimer : Option Nat := none
  reconnectDelayMs : Nat := 1000
deriving DecidableEq

namespace WsPublishSink

variable {α : Type}

/-- `connect_`. -/
def connect (s : WsPublishSink α) : WsPublishSink α :=
  if s.running then { s with ws := s.ws.connect } else s

/-- `start`; loading the client certificate may fail, and the sink then stays stopped. -/
def start (certLoaded : Bool) (s : WsPublishSink α) : WsPublishSink α :=
  if s.running then s
  else
    let s := { s with
      running := true, reconnectDelayMs := 1000, reconnectScheduled := false
      reconnectGen := s.reconnectGen + 1 }
    if certLoaded then s.connect else { s with running := false }

/-- `schedule_reconnect_`. -/
def scheduleReconnect (s : WsPublishSink α) : WsPublishSink α :=
  if !s.running || s.reconnectScheduled then s
  else
    { s with
      reconnectScheduled := true
      reconnectGen := s.reconnectGen + 1
      reconnectTimer := some (s.reconnectGen + 1)
      reconnectDelayMs := min (s.reconnectDelayMs * 2) 30000 }

/-- The callback given to `set_on_close`, run when the client says so. -/
def notified (s : WsPublishSink α) (outcome : WsClient α × Bool) : WsPublishSink α :=
  let s := { s with ws := outcome.1 }
  if outcome.2 && s.running then s.scheduleReconnect else s

/-- Completion of the handshake with the callback given to `set_on_open`. -/
def opened (s : WsPublishSink α) : WsPublishSink α :=
  let (ws, fired) := s.ws.handshakeDone
  if fired then { s with ws := ws, reconnectDelayMs := 1000, reconnectScheduled := false }
  else { s with ws := ws }

/-- The armed reconnect wait expired. -/
def timerFired (s : WsPublishSink α) : WsPublishSink α :=
  match s.reconnectTimer with
  | none => s
  | some gen =>
      let s := { s with reconnectTimer := none }
      if s.running && gen == s.reconnectGen then { s with reconnectScheduled := false }.connect
      else s

/-- `connect_` whose client throws before an attempt is under way: the exception is caught, and a reconnect
    is scheduled. -/
def connectThrown (s : WsPublishSink α) : WsPublishSink α :=
  if s.running then { s with ws := { s.ws.connect with connecting := false } }.scheduleReconnect else s

/-- `connect_` with either outcome of the call. -/
def tryConnect (threw : Bool) (s : WsPublishSink α) : WsPublishSink α :=
  if threw then s.connectThrown else s.connect

/-- `start` that keeps the sink running. -/
def startTrying (threw : Bool) (s : WsPublishSink α) : WsPublishSink α :=
  if s.running then s
  else
    { s with
      running := true, reconnectDelayMs := 1000, reconnectScheduled := false
      reconnectGen := s.reconnectGen + 1 }.tryConnect threw

/-- The handler of a reconnect wait that has captured a generation. -/
def timerHandler (threw : Bool) (gen : Nat) (s : WsPublishSink α) : WsPublishSink α :=
  if s.running && gen == s.reconnectGen then { s with reconnectScheduled := false }.tryConnect threw
  else s

/-- The armed reconnect wait expired, with either outcome of the call in its handler. -/
def timerExpired (threw : Bool) (s : WsPublishSink α) : WsPublishSink α :=
  match s.reconnectTimer with
  | none => s
  | some gen => { s with reconnectTimer := none }.timerHandler threw gen

/-- `send_json_` behind every `publish_*`; a sink that is not running publishes nothing. -/
def publish (s : WsPublishSink α) (frame : α) : WsPublishSink α :=
  if s.running then { s with ws := s.ws.send frame } else s

/-- `stop`. -/
def stop (s : WsPublishSink α) : WsPublishSink α :=
  let s := { s with
    running := false, reconnectScheduled := false, reconnectGen := s.reconnectGen + 1
    reconnectTimer := none }
  s.notified s.ws.close

end WsPublishSink

/-- What reaches a running sink.  `failed` is any way into `fail_`, also that of an operation of an earlier
    connection, `remoteClosed` a read, current or not, that reports the end of the peer, and `lateTimer` the
    handler of a wait that was armed before. -/
inductive SinkEvent (α : Type) where
  | opened
  | connectFailed
  | failed
  | remoteClosed
  | writeDone
  | timer (threw : Bool)
  | lateTimer (gen : Nat) (threw : Bool)
  | publish (frame : α)
deriving DecidableEq

/-- One callback or call. -/
def WsPublishSink.step {α : Type} (s : WsPublishSink α) : SinkEvent α → WsPublishSink α
  | .opened => s.opened
  | .connectFailed => s.notified s.ws.connectFailed
  | .failed => s.notified s.ws.fail
  | .remoteClosed => s.notified { s.ws with closing := true }.notifyCloseOnce
  | .writeDone => { s with ws := s.ws.writeDone.1 }
  | .timer threw => s.timerExpired threw
  | .lateTimer gen threw => s.timerHandler threw gen
  | .publish frame => s.publish frame

end ZidaBot.Feed
