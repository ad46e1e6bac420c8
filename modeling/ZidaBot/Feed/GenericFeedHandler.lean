/-
Module: ZidaBot.Feed.GenericFeedHandler
Purpose: The feed handler of `feed/src/md/GenericFeedHandler.cpp` as a machine whose events are the
  callbacks that its timers, its WebSocket client and its REST client run on the one I/O thread.  An
  operation of a client called from a callback runs in place, its own callback included.  An exception of a
  parse hook ends the callback where it was thrown.  Logging, counters, the heartbeat, the connect id and
  the jitter of delays are not part of the model; the clock is read once per callback.  What the sinks are
  given is kept in `published` and `persisted`.  `history` is written and never read: it records which
  WebSocket session things belong to.
Trusted boundary: human-reviewed model
Main exports: FeedSyncState, HandlerConfig, GenericFeedHandler, restartSync, onWSClose, requestSnapshot,
  onSnapshotResponse, drainBufferedIncrementals, onWSMessage, start, stop, FeedEvent, step
-/
import ZidaBot.Feed.VenueAdapter
import ZidaBot.Feed.WsPublishSink

namespace ZidaBot.Feed

/-- Synchronization state of a feed. -/
inductive FeedSyncState where
  | disconnected
  | connecting
  | bootstrapping
  | waitRestSnapshot
  | waitWsSnapshot
  | waitBridge
  | synced
deriving DecidableEq, Repr

/-- The text published for a state. -/
def FeedSyncState.feedState : FeedSyncState → String
  | .disconnected => "disconnected"
  | .synced => "synced"
  | _ => "resyncing"

/-- What `init` fixes for a feed. -/
structure HandlerConfig where
  adapter : Adapter
  depth : Nat
  depth_pos : 0 < depth
  requireChecksum : Bool := false
  validateEvery : Nat := 0
  persistOpen : Bool := false
  persistBookEveryUpdates : Nat := 0
  persistBookTop : Nat := 0
  brainConfigured : Bool := true
  maxBuffer : Nat := 10000
  wsStaleAfterMs : Int := 45000

/-- The depth of a feed that is started without one, `depthLevel.value_or(400)`. -/
theorem defaultDepth_pos : 0 < 400 := by decide

namespace HandlerConfig

/-- The controller as `init` configures it. -/
def controllerConfig (cfg : HandlerConfig) : ControllerConfig :=
  { checksumFn := cfg.adapter.caps.checksumFn
    checksumTopN := cfg.adapter.caps.checksumTopN
    allowSeqGap := cfg.adapter.caps.allowSeqGap
    validatePeriod := cfg.validateEvery
    hasChecksum := cfg.adapter.caps.hasChecksum
    requireChecksum := cfg.requireChecksum }

/-- `persist_book_top_` after `init`: zero stands for the whole depth. -/
def bookTop (cfg : HandlerConfig) : Nat :=
  if 0 < cfg.persistBookTop then cfg.persistBookTop else cfg.depth

end HandlerConfig

/-- A frame kept until there is a baseline. -/
structure BufferedMsg where
  payload : String
  recvTsNs : Int
  session : Nat
deriving DecidableEq, Repr

/-- The wait armed on `reconnect_timer_`, which is also used to retry a rate-limited snapshot. -/
inductive TimerWait where
  | reconnect (gen : Nat)
  | retrySnapshot
deriving DecidableEq, Repr

/-- Sessions opened so far, the session of the request or frame that gave the current baseline, and for
    each increment handed to a controller with a baseline the session of its frame beside the baseline's. -/
structure SessionHistory where
  opened : Nat := 0
  baseline : Option Nat := none
  applied : List (Nat × Option Nat) := []
deriving DecidableEq, Repr

/-- The members of the handler.  `watchdogTimer` holds the generation of the armed watchdog, `published`
    what the running brain sinks were given and `persisted` what the file sink was given. -/
structure GenericFeedHandler where
  running : Bool
  state : FeedSyncState
  buffer : List BufferedMsg
  controller : OrderBookController
  ws : WsClient String
  rest : Option RestRequest
  reconnectGen : Nat
  reconnectTimer : Option TimerWait
  reconnectDelayMs : Nat
  closingForRestart : Bool
  watchdogGen : Nat
  watchdogTimer : Option Nat
  lastWsMessageNs : Int
  persistOpen : Bool
  persistBookEveryUpdates : Nat
  persistBookTop : Nat
  updatesSinceBookPersist : Nat
  brainSinks : Bool
  sinksRunning : Bool
  published : List PubEvent
  persisted : List PubEvent
  history : SessionHistory
deriving DecidableEq

namespace GenericFeedHandler

/-- `init` on a fresh handler. -/
def init (cfg : HandlerConfig) : GenericFeedHandler :=
  { running := false, state := .disconnected, buffer := []
    controller := OrderBookController.new cfg.depth cfg.depth_pos
    ws := {}, rest := none, reconnectGen := 0, reconnectTimer := none, reconnectDelayMs := 1000
    closingForRestart := false, watchdogGen := 0, watchdogTimer := none, lastWsMessageNs := 0
    persistOpen := cfg.persistOpen, persistBookEveryUpdates := cfg.persistBookEveryUpdates
    persistBookTop := cfg.bookTop, updatesSinceBookPersist := 0
    brainSinks := cfg.brainConfigured, sinksRunning := false, published := [], persisted := []
    history := {} }

/-- A `publish_*` call on every brain sink; a sink that does not run ignores it. -/
def publish (h : GenericFeedHandler) (event : PubEvent) : GenericFeedHandler :=
  if h.brainSinks && h.sinksRunning then { h with published := h.published ++ [event] } else h

/-- A `write_*` call on the file sink, if there is one. -/
def write (h : GenericFeedHandler) (event : PubEvent) : GenericFeedHandler :=
  if h.persistOpen then { h with persisted := h.persisted ++ [event] } else h

/-- The file sink, then the brain sinks: `persist_snapshot_`, `persist_incremental_` and the end of
    `maybe_persist_book_`. -/
def persist (h : GenericFeedHandler) (event : PubEvent) : GenericFeedHandler :=
  (h.write event).publish event

/-- `set_state_`. -/
def setState (h : GenericFeedHandler) (next : FeedSyncState) (reason : String) : GenericFeedHandler :=
  if h.state = next then h
  else
    let h := { h with
      state := next
      reconnectDelayMs := if next = FeedSyncState.synced then 1000 else h.reconnectDelayMs }
    h.publish (.status next.feedState reason)

/-- `arm_ws_watchdog_`. -/
def armWsWatchdog (cfg : HandlerConfig) (h : GenericFeedHandler) : GenericFeedHandler :=
  if cfg.wsStaleAfterMs ≤ 0 then h
  else { h with watchdogGen := h.watchdogGen + 1, watchdogTimer := some (h.watchdogGen + 1) }

/-- `disarm_ws_watchdog_`. -/
def disarmWsWatchdog (h : GenericFeedHandler) : GenericFeedHandler :=
  { h with watchdogGen := h.watchdogGen + 1, watchdogTimer := none }

/-- `schedule_ws_reconnect_(next_reconnect_delay_())`. -/
def scheduleWsReconnect (h : GenericFeedHandler) : GenericFeedHandler :=
  { h with
    reconnectDelayMs := min (h.reconnectDelayMs * 2) 60000
    reconnectGen := h.reconnectGen + 1
    reconnectTimer := some (.reconnect (h.reconnectGen + 1)) }

/-- `onWSClose_` for a close that `restartSync` has caused. -/
def suppressClose (h : GenericFeedHandler) : GenericFeedHandler :=
  { h.disarmWsWatchdog with closingForRestart := false }

/-- `restartSync`.  If `cancel` notifies the close, `onWSClose_` runs inside it and finds the flag set. -/
def restartSync (h : GenericFeedHandler) : GenericFeedHandler :=
  if !h.running then h
  else
    let h := h.disarmWsWatchdog
    let h := { h with
      buffer := [], controller := h.controller.resetBook
      history := { h.history with baseline := none } }
    let h := h.setState .connecting "restart_sync"
    let h := { h with closingForRestart := true }
    let (ws, closed) := h.ws.cancel
    let h := { h with ws := ws }
    let h := if closed then h.suppressClose else h
    h.scheduleWsReconnect

/-- The `on_close_` callback with `onWSClose_`. -/
def onWSClose (h : GenericFeedHandler) : GenericFeedHandler :=
  if !h.running then h
  else if h.closingForRestart then h.suppressClose
  else h.disarmWsWatchdog.restartSync

/-- Take over the client's state, and run `on_close_` where the client says so. -/
def notified (h : GenericFeedHandler) (outcome : WsClient String × Bool) : GenericFeedHandler :=
  let h := { h with ws := outcome.1 }
  if outcome.2 then h.onWSClose else h

/-- `connectWS`. -/
def connectWS (h : GenericFeedHandler) : GenericFeedHandler := { h with ws := h.ws.connect }

/-- `bootstrapWS`: a missing target, a request already in flight and an invalid target all end in
    `restartSync`. -/
def bootstrapWS (cfg : HandlerConfig) (h : GenericFeedHandler) : GenericFeedHandler :=
  if !h.running then h
  else if cfg.adapter.wsBootstrapTarget = "" then h.restartSync
  else if h.rest.isSome || !validTarget cfg.adapter.wsBootstrapTarget then h.restartSync
  else { h with rest := some .post }

/-- The callback of the bootstrap POST. -/
def onBootstrapResponse (cfg : HandlerConfig) (h : GenericFeedHandler) (outcome : HttpOutcome) :
    GenericFeedHandler :=
  if outcome.failed then h.restartSync
  else if !cfg.adapter.parseWsBootstrap outcome.body then h.restartSync
  else h.connectWS

/-- `requestSnapshot`: where the request is refused, its callback runs at once with an error. -/
def requestSnapshot (cfg : HandlerConfig) (h : GenericFeedHandler) : GenericFeedHandler :=
  let h := h.setState .waitRestSnapshot "request_snapshot"
  if h.rest.isSome || !validTarget cfg.adapter.restSnapshotTarget then h.restartSync
  else { h with rest := some (.get h.history.opened) }

/-- `onWSOpen`. -/
def onWSOpen (cfg : HandlerConfig) (now : Int) (h : GenericFeedHandler) : GenericFeedHandler :=
  if !h.running then h
  else
    let h := { h with lastWsMessageNs := now }.armWsWatchdog cfg
    let h := if cfg.adapter.wsSubscribeFrame = "" then h
      else { h with ws := h.ws.send cfg.adapter.wsSubscribeFrame }
    match cfg.adapter.caps.syncMode with
    | .restAnchored => (h.setState .waitRestSnapshot "ws_open_rest_anchored").requestSnapshot cfg
    | .wsAuthoritative => h.setState .waitWsSnapshot "ws_open_ws_authoritative"

/-- `maybe_persist_book_`. -/
def maybePersistBook (now : Int) (source : String) (h : GenericFeedHandler) : GenericFeedHandler :=
  if !h.persistOpen && !h.brainSinks then h
  else if h.persistBookEveryUpdates = 0 ∨ h.persistBookTop = 0 then h
  else if !h.controller.isSynced then h
  else if h.updatesSinceBookPersist + 1 < h.persistBookEveryUpdates then
    { h with updatesSinceBookPersist := h.updatesSinceBookPersist + 1 }
  else
    { h with updatesSinceBookPersist := 0 }.persist
      (.bookState h.controller.book h.controller.getAppliedSeqID h.persistBookTop source now)

/-- `onSnapshot` on the controller with the publication before it and the session of the baseline noted;
    `true` for `NeedResync`. -/
def applySnapshot (cfg : HandlerConfig) (h : GenericFeedHandler) (snap : GenericSnapshotFormat)
    (kind : BaselineKind) (source : String) (session : Nat) : GenericFeedHandler × Bool :=
  let h := h.persist (.snapshot snap source)
  let outcome := h.controller.onSnapshot cfg.controllerConfig snap kind
  ({ h with
      controller := outcome.1
      history := { h.history with baseline := some session } },
    outcome.action == .needResync)

/-- `onIncrement` on the controller with the publication after it; `true` for `NeedResync`. -/
def applyIncrement (cfg : HandlerConfig) (h : GenericFeedHandler) (inc : GenericIncrementalFormat)
    (session : Nat) : GenericFeedHandler × Bool :=
  let history :=
    if h.controller.state = .waitingSnapshot then h.history
    else { h.history with applied := h.history.applied ++ [(session, h.history.baseline)] }
  let outcome := h.controller.onIncrement cfg.controllerConfig inc
  ({ h with controller := outcome.1, history := history }.persist (.incremental inc "ws_incremental"),
    outcome.action == .needResync)

/-- The loop of `drainBufferedIncrementals` over the messages that are left; `true` where a parser threw.
    The message that made it throw stays at the front, moved from. -/
def drainLoop (cfg : HandlerConfig) (now : Int) :
    List BufferedMsg → GenericFeedHandler → GenericFeedHandler × Bool
  | [], h => ({ h with buffer := [] }, false)
  | msg :: rest, h =>
      if !cfg.adapter.isIncremental msg.payload then drainLoop cfg now rest h
      else
        match cfg.adapter.parseIncremental msg.payload with
        | .threw => ({ h with buffer := { msg with payload := "" } :: rest }, true)
        | .rejected => drainLoop cfg now rest h
        | .accepted inc =>
            let (h, resync) := h.applyIncrement cfg { inc with tsRecvNs := msg.recvTsNs } msg.session
            if resync then (h.restartSync, false)
            else drainLoop cfg now rest (h.maybePersistBook now "incremental_applied")

/-- `drainBufferedIncrementals`. -/
def drainBufferedIncrementals (cfg : HandlerConfig) (now : Int) (h : GenericFeedHandler) :
    GenericFeedHandler × Bool :=
  drainLoop cfg now h.buffer h

/-- The drain and the move to `SYNCED` if it bridged; an exception ends the callback before that. -/
def drainThenSync (cfg : HandlerConfig) (now : Int) (reason : String) (h : GenericFeedHandler) :
    GenericFeedHandler :=
  let (h, threw) := h.drainBufferedIncrementals cfg now
  if threw then h
  else if h.controller.isSynced then h.setState .synced reason
  else h

/-- `onSnapshotResponse`, for a request issued during `session`. -/
def onSnapshotResponse (cfg : HandlerConfig) (now : Int) (session : Nat) (body : String)
    (h : GenericFeedHandler) : GenericFeedHandler :=
  if !h.running then h
  else
    match cfg.adapter.parseSnapshot body with
    | .threw => h
    | .rejected => h.restartSync
    | .accepted snap =>
        let kind := cfg.adapter.caps.syncMode.baselineKind
        let (h, resync) :=
          h.applySnapshot cfg { snap with tsRecvNs := now } kind "rest_snapshot" session
        if resync then h.restartSync
        else
          let h := h.maybePersistBook now "snapshot_applied"
          let h := h.setState .waitBridge "snapshot_applied"
          h.drainThenSync cfg now "post_snapshot_bridge_complete"

/-- The callback of the snapshot GET. -/
def onSnapshotDone (cfg : HandlerConfig) (now : Int) (session : Nat) (outcome : HttpOutcome)
    (h : GenericFeedHandler) : GenericFeedHandler :=
  if !h.running then h
  else if outcome.failed then h.restartSync
  else if outcome.status = 429 ∨ outcome.status = 418 then
    { h with reconnectTimer := some .retrySnapshot }
  else if outcome.status < 200 ∨ 300 ≤ outcome.status then h.restartSync
  else h.onSnapshotResponse cfg now session outcome.body

/-- Push into the buffer, or give up on the session when it is full; `true` where there was room. -/
def bufferFrame (cfg : HandlerConfig) (now : Int) (msg : String) (h : GenericFeedHandler) :
    GenericFeedHandler × Bool :=
  if h.buffer.length < cfg.maxBuffer then
    ({ h with buffer := h.buffer ++
        [{ payload := msg, recvTsNs := now, session := h.history.opened }] }, true)
  else (h.restartSync, false)

/-- The snapshot a frame carries, if the adapter takes it for one. -/
def wsSnapshotOf (cfg : HandlerConfig) (msg : String) : Parsed GenericSnapshotFormat :=
  if cfg.adapter.isSnapshot msg then cfg.adapter.parseWsSnapshot msg else .rejected

/-- The incremental a frame carries, if the adapter takes it for one. -/
def incrementalOf (cfg : HandlerConfig) (msg : String) : Parsed GenericIncrementalFormat :=
  if cfg.adapter.isIncremental msg then cfg.adapter.parseIncremental msg else .rejected

/-- A frame in `WAIT_REST_SNAPSHOT`. -/
def onMessageWaitRest (cfg : HandlerConfig) (now : Int) (msg : String) (h : GenericFeedHandler) :
    GenericFeedHandler :=
  if cfg.adapter.isIncremental msg then (h.bufferFrame cfg now msg).1 else h

/-- A frame in `WAIT_WS_SNAPSHOT`.  The state is stored without being published before the drain. -/
def onMessageWaitWs (cfg : HandlerConfig) (now : Int) (msg : String) (h : GenericFeedHandler) :
    GenericFeedHandler :=
  match wsSnapshotOf cfg msg with
  | .threw => h
  | .accepted snap =>
      let (h, resync) :=
        h.applySnapshot cfg { snap with tsRecvNs := now } .wsAuthoritative "ws_snapshot" h.history.opened
      if resync then h.restartSync
      else
        let h := h.maybePersistBook now "snapshot_applied"
        { h with state := .waitBridge }.drainThenSync cfg now "ws_snapshot_baseline_ready"
  | .rejected => if cfg.adapter.isIncremental msg then (h.bufferFrame cfg now msg).1 else h

/-- A snapshot frame that interrupts `WAIT_BRIDGE` or `SYNCED`. -/
def onInterruptingSnapshot (cfg : HandlerConfig) (now : Int) (snap : GenericSnapshotFormat)
    (h : GenericFeedHandler) : GenericFeedHandler :=
  let (h, resync) :=
    h.applySnapshot cfg { snap with tsRecvNs := now } .wsAuthoritative "ws_snapshot" h.history.opened
  if resync then h.restartSync
  else
    let h := h.maybePersistBook now "snapshot_applied"
    let h := { h with buffer := [] }
    h.setState (if h.controller.isSynced then .synced else .waitBridge) "interrupting_ws_snapshot"

/-- An incremental frame in `WAIT_BRIDGE` of a REST-anchored venue. -/
def onMessageBridge (cfg : HandlerConfig) (now : Int) (msg : String) (h : GenericFeedHandler) :
    GenericFeedHandler :=
  if cfg.adapter.isIncremental msg then
    match h.bufferFrame cfg now msg with
    | (h, false) => h
    | (h, true) => h.drainThenSync cfg now "ws_buffered_bridge_complete"
  else h

/-- A frame applied directly. -/
def onMessageSteady (cfg : HandlerConfig) (now : Int) (msg : String) (h : GenericFeedHandler) :
    GenericFeedHandler :=
  match incrementalOf cfg msg with
  | .threw => h
  | .rejected => h
  | .accepted inc =>
      let state := h.state
      let (h, resync) := h.applyIncrement cfg { inc with tsRecvNs := now } h.history.opened
      if resync then h.restartSync
      else
        let h := h.maybePersistBook now "incremental_applied"
        if state = .waitBridge ∧ h.controller.isSynced = true then
          h.setState .synced "steady_state_bridge_complete"
        else h

/-- A frame in `WAIT_BRIDGE` or `SYNCED`. -/
def onMessageLive (cfg : HandlerConfig) (now : Int) (msg : String) (h : GenericFeedHandler) :
    GenericFeedHandler :=
  let snapshot := if cfg.adapter.caps.wsSendsSnapshot then wsSnapshotOf cfg msg else .rejected
  match snapshot with
  | .threw => h
  | .accepted snap => h.onInterruptingSnapshot cfg now snap
  | .rejected =>
      if cfg.adapter.caps.syncMode = .restAnchored ∧ h.state = .waitBridge then
        h.onMessageBridge cfg now msg
      else h.onMessageSteady cfg now msg

/-- `onWSMessage`. -/
def onWSMessage (cfg : HandlerConfig) (now : Int) (msg : String) (h : GenericFeedHandler) :
    GenericFeedHandler :=
  if !h.running || msg == "" then h
  else
    let h := { h with lastWsMessageNs := now }.armWsWatchdog cfg
    match h.state with
    | .waitRestSnapshot => h.onMessageWaitRest cfg now msg
    | .waitWsSnapshot => h.onMessageWaitWs cfg now msg
    | .waitBridge => h.onMessageLive cfg now msg
    | .synced => h.onMessageLive cfg now msg
    | .disconnected => h
    | .connecting => h
    | .bootstrapping => h

/-- The armed reconnect wait expired. -/
def onReconnectTimer (cfg : HandlerConfig) (h : GenericFeedHandler) : GenericFeedHandler :=
  match h.reconnectTimer with
  | none => h
  | some .retrySnapshot =>
      let h := { h with reconnectTimer := none }
      if h.running then h.requestSnapshot cfg else h
  | some (.reconnect gen) =>
      let h := { h with reconnectTimer := none }
      if !h.running || gen != h.reconnectGen then h
      else if cfg.adapter.caps.requiresWsBootstrap then
        (h.setState .bootstrapping "scheduled_rebootstrap").bootstrapWS cfg
      else (h.setState .connecting "scheduled_reconnect").connectWS

/-- The armed watchdog expired. -/
def onWatchdogTimer (cfg : HandlerConfig) (now : Int) (h : GenericFeedHandler) : GenericFeedHandler :=
  match h.watchdogTimer with
  | none => h
  | some gen =>
      let h := { h with watchdogTimer := none }
      if !h.running || gen != h.watchdogGen then h
      else if h.state = .disconnected ∨ h.state = .connecting ∨ h.state = .bootstrapping then h
      else if 0 < h.lastWsMessageNs ∧
          cfg.wsStaleAfterMs * 1000000 ≤ wrap64 (now - h.lastWsMessageNs) then h.restartSync
      else h

/-- `start`; the sinks run from the point where the source starts them. -/
def start (cfg : HandlerConfig) (h : GenericFeedHandler) : GenericFeedHandler :=
  if h.running then h
  else
    let h := { h with running := true }.setState .connecting "start"
    let h := { h with sinksRunning := h.brainSinks }
    if cfg.adapter.caps.requiresWsBootstrap then
      (h.setState .bootstrapping "venue_bootstrap_required").bootstrapWS cfg
    else h.connectWS

/-- `stop`.  Cancelling a request whose TLS connection is not up finishes it at once, with no effect since
    the handler does not run any more; otherwise its callback is still to come.  The sinks are stopped
    before the state is set, so that nothing is published. -/
def stop (tlsUp : Bool) (h : GenericFeedHandler) : GenericFeedHandler :=
  let h := { h with running := false, rest := if tlsUp then h.rest else none, ws := h.ws.close.1 }
  let h := { h with sinksRunning := false }.disarmWsWatchdog.setState .disconnected "stop"
  { h with
    buffer := [], controller := h.controller.resetBook, persistOpen := false, brainSinks := false
    persistBookEveryUpdates := 0, persistBookTop := 0, updatesSinceBookPersist := 0
    lastWsMessageNs := 0, history := { h.history with baseline := none } }

end GenericFeedHandler

/-- The callbacks that reach a handler.  `wsFailed` is an error of a read, a write or a ping. -/
inductive FeedEvent where
  | wsOpen (now : Int)
  | wsMessage (now : Int) (msg : String)
  | wsClosed
  | wsFailed
  | wsConnectFailed
  | wsConnectTimeout
  | wsCloseDone
  | restDone (now : Int) (outcome : HttpOutcome)
  | reconnectTimer
  | watchdogTimer (now : Int)
  | stop (tlsUp : Bool)
deriving DecidableEq, Repr

namespace GenericFeedHandler

/-- Completion of the handshake. -/
def wsOpened (cfg : HandlerConfig) (now : Int) (h : GenericFeedHandler) : GenericFeedHandler :=
  let (ws, opened) := h.ws.handshakeDone
  if opened then
    { h with ws := ws, history := { h.history with opened := h.history.opened + 1 } }.onWSOpen cfg now
  else { h with ws := ws }

/-- Completion of the request in flight. -/
def restDone (cfg : HandlerConfig) (now : Int) (outcome : HttpOutcome) (h : GenericFeedHandler) :
    GenericFeedHandler :=
  match h.rest with
  | none => h
  | some .post => { h with rest := none }.onBootstrapResponse cfg outcome
  | some (.get session) => { h with rest := none }.onSnapshotDone cfg now session outcome

/-- One callback. -/
def step (cfg : HandlerConfig) (h : GenericFeedHandler) : FeedEvent → GenericFeedHandler
  | .wsOpen now => h.wsOpened cfg now
  | .wsMessage now msg => if h.ws.opened then h.onWSMessage cfg now msg else h
  | .wsClosed => h.notified h.ws.readClosed
  | .wsFailed => h.notified h.ws.ioFailed
  | .wsConnectFailed => h.notified h.ws.connectFailed
  | .wsConnectTimeout => h.notified h.ws.fail
  | .wsCloseDone => h.notified h.ws.closeDone
  | .restDone now outcome => h.restDone cfg now outcome
  | .reconnectTimer => h.onReconnectTimer cfg
  | .watchdogTimer now => h.onWatchdogTimer cfg now
  | .stop tlsUp => h.stop tlsUp

/-- A handler that was initialised and started. -/
def started (cfg : HandlerConfig) : GenericFeedHandler := (init cfg).start cfg

end GenericFeedHandler

end ZidaBot.Feed
