/-
Module: ZidaBot.Feed.FeedRuntime
Purpose: The feed handler of `feed/src/md/GenericFeedHandler.cpp` with the parts of it that its own model
  leaves out: the heartbeat timer, the calls of `WsClient::connect`, and the handlers of timer waits that had
  expired before their timer was armed again or cancelled.
Trusted boundary: human-reviewed model
Main exports: reconnectHandler, watchdogHandler, connectCalls, FeedRuntime, RuntimeEvent, FeedRuntime.step
-/
import ZidaBot.Feed.GenericFeedHandler

namespace ZidaBot.Feed

namespace GenericFeedHandler

/-- The handler of a wait on `reconnect_timer_` that ended without an error. -/
def reconnectHandler (cfg : HandlerConfig) (wait : TimerWait) (h : GenericFeedHandler) : GenericFeedHandler :=
  match wait with
  | .retrySnapshot => if h.running then h.requestSnapshot cfg else h
  | .reconnect gen =>
      if !h.running || gen != h.reconnectGen then h
      else if cfg.adapter.caps.requiresWsBootstrap then
        (h.setState .bootstrapping "scheduled_rebootstrap").bootstrapWS cfg
      else (h.setState .connecting "scheduled_reconnect").connectWS

/-- The handler of a wait on `ws_watchdog_timer_` that ended without an error. -/
def watchdogHandler (cfg : HandlerConfig) (now : Int) (gen : Nat) (h : GenericFeedHandler) :
    GenericFeedHandler :=
  if !h.running || gen != h.watchdogGen then h
  else if h.state = .disconnected ∨ h.state = .connecting ∨ h.state = .bootstrapping then h
  else if 0 < h.lastWsMessageNs ∧
      cfg.wsStaleAfterMs * 1000000 ≤ wrap64 (now - h.lastWsMessageNs) then h.restartSync
  else h

/-- How often the handler of a reconnect wait calls `connect`. -/
def reconnectCalls (cfg : HandlerConfig) (wait : TimerWait) (h : GenericFeedHandler) : Nat :=
  match wait with
  | .retrySnapshot => 0
  | .reconnect gen =>
      if !h.running || gen != h.reconnectGen then 0
      else if cfg.adapter.caps.requiresWsBootstrap then 0
      else 1

/-- How often the callback of the bootstrap POST calls `connect`. -/
def bootstrapCalls (cfg : HandlerConfig) (outcome : HttpOutcome) : Nat :=
  if outcome.failed then 0
  else if !cfg.adapter.parseWsBootstrap outcome.body then 0
  else 1

/-- How often a callback calls `connect`; the callbacks left out never do. -/
def connectCalls (cfg : HandlerConfig) (h : GenericFeedHandler) : FeedEvent → Nat
  | .restDone _ outcome =>
      match h.rest with
      | some .post => bootstrapCalls cfg outcome
      | _ => 0
  | .reconnectTimer =>
      match h.reconnectTimer with
      | none => 0
      | some wait => h.reconnectCalls cfg wait
  | _ => 0

end GenericFeedHandler

/-- A handler with its heartbeat timer.  `connects` records how often `connect` was called. -/
structure FeedRuntime where
  handler : GenericFeedHandler
  heartbeatArmed : Bool
  connects : Nat
deriving DecidableEq

/-- What the I/O thread can run: a callback of the handler, the handler of a wait that had expired before
    its timer was armed again or cancelled, or the handler of the heartbeat with its error code set or not. -/
inductive RuntimeEvent where
  | callback (event : FeedEvent)
  | lateReconnect (wait : TimerWait)
  | lateWatchdog (now : Int) (gen : Nat)
  | heartbeat (ec : Bool)
deriving DecidableEq, Repr

namespace FeedRuntime

/-- What the file sink was given. -/
abbrev persisted (r : FeedRuntime) : List PubEvent := r.handler.persisted

/-- `start`: the heartbeat is armed before the connect, and not at all where a bootstrap comes first. -/
def start (cfg : HandlerConfig) (r : FeedRuntime) : FeedRuntime :=
  if r.handler.running then r
  else
    let bootstrap := cfg.adapter.caps.requiresWsBootstrap
    { r with
      handler := r.handler.start cfg
      heartbeatArmed := r.heartbeatArmed || !bootstrap
      connects := r.connects + if bootstrap then 0 else 1 }

/-- `stop`. -/
def stop (tlsUp : Bool) (r : FeedRuntime) : FeedRuntime :=
  { r with handler := r.handler.stop tlsUp, heartbeatArmed := false }

/-- `init` and `start`. -/
def started (cfg : HandlerConfig) : FeedRuntime :=
  start cfg { handler := .init cfg, heartbeatArmed := false, connects := 0 }

/-- One handler. -/
def step (cfg : HandlerConfig) (r : FeedRuntime) : RuntimeEvent → FeedRuntime
  | .callback (.stop tlsUp) => r.stop tlsUp
  | .callback event =>
      { r with
        handler := r.handler.step cfg event
        connects := r.connects + r.handler.connectCalls cfg event }
  | .lateReconnect wait =>
      { r with
        handler := r.handler.reconnectHandler cfg wait
        connects := r.connects + r.handler.reconnectCalls cfg wait }
  | .lateWatchdog now gen => { r with handler := r.handler.watchdogHandler cfg now gen }
  | .heartbeat ec => if ec || !r.handler.running then r else { r with heartbeatArmed := true }

end FeedRuntime

end ZidaBot.Feed
