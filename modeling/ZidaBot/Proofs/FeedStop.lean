/-
Module: ZidaBot.Proofs.FeedStop
Purpose: What is left to happen after `stop`.  Every callback but one looks at `running_` before it does
  anything; the callback of the bootstrap POST looks at its error code and its body only, and connects.  So
  a stopped feed stays silent exactly as long as no such POST is answered.
Trusted boundary: none
Main exports: connectCalls_eq_zero_iff, StaysStopped, BootstrapsLate, stop_is_final_iff, stop_not_final
-/
import ZidaBot.Feed.FeedRuntime
import ZidaBot.Proofs.FeedLiveness
import ZidaBot.Proofs.RestClient

namespace ZidaBot.Feed

open GenericFeedHandler

/-!
### The calls of `connect`

A call of `connect` leaves no mark but a client that is open again. The counts are checked against the model
by that mark: each function opens a closed client exactly if its count is not zero.
-/

section Calls

variable {h h' : GenericFeedHandler} {cfg : HandlerConfig}

theorem cancel_closing (c : WsClient String) (closed : c.closing = true) : c.cancel.1.closing = true := by
  rw [WsClient.cancel, if_pos closed]
  exact closed

theorem restartSync_closing (closed : h.ws.closing = true) : h.restartSync.ws.closing = true := by
  cases hrunning : h.running with
  | false => rwa [restartSync_of_not_running h hrunning]
  | true =>
      obtain ⟨gen, flag, delay, statuses, -, hsame⟩ := restartSync_eq h hrunning
      rw [hsame]
      exact cancel_closing h.ws closed

theorem ws_of_link (same : link h' = link h) : h'.ws = h.ws := by
  simp only [link, Prod.mk.injEq] at same
  exact same.2.1

/-- Data callbacks never connect. -/
theorem moves_closing {Base Frame : GenericFeedHandler → Nat → Prop} (moves : Moves cfg Base Frame h h')
    (closed : h.ws.closing = true) : h'.ws.closing = true := by
  apply moves.invariant _ closed
  intro h h' move closed
  rcases move.link_cases with hsame | ⟨before, hsame, rfl⟩
  · rwa [ws_of_link hsame]
  · exact restartSync_closing (ws_of_link hsame ▸ closed)

theorem onWSClose_closing (closed : h.ws.closing = true) : h.onWSClose.ws.closing = true := by
  rw [onWSClose]
  split
  · exact closed
  · split
    · exact closed
    · exact restartSync_closing closed

theorem notified_closing {outcome : WsClient String × Bool} (closed : outcome.1.closing = true) :
    (h.notified outcome).ws.closing = true := by
  rw [notified]
  split
  · exact onWSClose_closing closed
  · exact closed

theorem readClosed_closing {c : WsClient String} (closed : c.closing = true) :
    c.readClosed.1.closing = true := by
  rw [WsClient.readClosed]
  split
  · exact WsClient.notifyCloseOnce_closing rfl
  · exact closed

theorem ioFailed_closing {c : WsClient String} (closed : c.closing = true) : c.ioFailed.1.closing = true := by
  rw [WsClient.ioFailed]
  split
  · exact WsClient.fail_closing c
  · exact closed

theorem connectFailed_closing {c : WsClient String} (closed : c.closing = true) :
    c.connectFailed.1.closing = true := by
  rw [WsClient.connectFailed]
  split
  · exact closed
  · exact WsClient.fail_closing c

theorem closeDone_closing {c : WsClient String} (closed : c.closing = true) :
    c.closeDone.1.closing = true := by
  rw [WsClient.closeDone]
  split
  · exact WsClient.notifyCloseOnce_closing closed
  · exact closed

theorem stop_closing (tlsUp : Bool) (closed : h.ws.closing = true) : (h.stop tlsUp).ws.closing = true := by
  have hset : ∀ before : GenericFeedHandler, (before.setState .disconnected "stop").ws = before.ws :=
    fun _ => ws_of_link (link_setState _ _)
  have hclose : h.ws.close.1.closing = true := by
    rw [WsClient.close, if_pos closed]
    exact closed
  rw [stop]
  dsimp only
  rw [hset]
  exact hclose

theorem requestSnapshot_closing (closed : h.ws.closing = true) :
    (h.requestSnapshot cfg).ws.closing = true := by
  have hset : (h.setState .waitRestSnapshot "request_snapshot").ws.closing = true := by
    rwa [ws_of_link (link_setState _ _)]
  rw [requestSnapshot]
  split
  · exact restartSync_closing hset
  · exact hset

theorem bootstrapWS_closing (closed : h.ws.closing = true) : (h.bootstrapWS cfg).ws.closing = true := by
  rw [bootstrapWS]
  split
  · exact closed
  · split
    · exact restartSync_closing closed
    · split
      · exact restartSync_closing closed
      · exact closed

/-- The armed wait runs its handler. -/
theorem onReconnectTimer_eq (cfg : HandlerConfig) (h : GenericFeedHandler) :
    h.onReconnectTimer cfg = match h.reconnectTimer with
      | none => h
      | some wait => { h with reconnectTimer := none }.reconnectHandler cfg wait := by
  rw [onReconnectTimer]
  cases h.reconnectTimer with
  | none => rfl
  | some wait => cases wait <;> rfl

theorem onWatchdogTimer_eq (cfg : HandlerConfig) (now : Int) (h : GenericFeedHandler) :
    h.onWatchdogTimer cfg now = match h.watchdogTimer with
      | none => h
      | some gen => { h with watchdogTimer := none }.watchdogHandler cfg now gen := by
  rw [onWatchdogTimer]
  cases h.watchdogTimer <;> rfl

theorem watchdogHandler_closing (now : Int) (gen : Nat) (closed : h.ws.closing = true) :
    (h.watchdogHandler cfg now gen).ws.closing = true := by
  rw [watchdogHandler]
  split
  · exact closed
  · split
    · exact closed
    · split
      · exact restartSync_closing closed
      · exact closed

/-- A handler of a reconnect wait opens a closed client exactly if it calls `connect`. -/
theorem reconnectCalls_eq_zero_iff (wait : TimerWait) (closed : h.ws.closing = true) :
    h.reconnectCalls cfg wait = 0 ↔ (h.reconnectHandler cfg wait).ws.closing = true := by
  cases wait with
  | retrySnapshot =>
      refine iff_of_true rfl ?_
      rw [reconnectHandler]
      split
      · exact requestSnapshot_closing closed
      · exact closed
  | reconnect gen =>
      have hset : ∀ next reason, (h.setState next reason).ws = h.ws := fun _ _ => ws_of_link (link_setState _ _)
      rw [reconnectHandler, reconnectCalls]
      split
      · exact iff_of_true rfl closed
      · split
        · exact iff_of_true rfl (bootstrapWS_closing (by rwa [hset]))
        · exact iff_of_false Nat.one_ne_zero Bool.false_ne_true

theorem bootstrapCalls_eq_zero_iff (outcome : HttpOutcome) (closed : h.ws.closing = true) :
    bootstrapCalls cfg outcome = 0 ↔ (h.onBootstrapResponse cfg outcome).ws.closing = true := by
  rw [bootstrapCalls, onBootstrapResponse]
  split
  · exact iff_of_true rfl (restartSync_closing closed)
  · split
    · exact iff_of_true rfl (restartSync_closing closed)
    · exact iff_of_false Nat.one_ne_zero Bool.false_ne_true

/-- The calls that are counted are those that happen: a callback opens a closed client exactly if it calls
    `connect`. -/
theorem connectCalls_eq_zero_iff (closed : h.ws.closing = true) (e : FeedEvent) :
    h.connectCalls cfg e = 0 ↔ (h.step cfg e).ws.closing = true := by
  cases e with
  | wsOpen now =>
      have hdropped : h.ws.handshakeDone.2 = false := by simp [WsClient.handshakeDone, closed]
      exact iff_of_true rfl (by rwa [step, wsOpened_dropped cfg now hdropped])
  | wsMessage now msg =>
      refine iff_of_true rfl ?_
      rw [step]
      split
      · exact moves_closing (onWSMessage_any cfg now msg h) closed
      · exact closed
  | wsClosed => exact iff_of_true rfl (notified_closing (readClosed_closing closed))
  | wsFailed => exact iff_of_true rfl (notified_closing (ioFailed_closing closed))
  | wsConnectFailed => exact iff_of_true rfl (notified_closing (connectFailed_closing closed))
  | wsConnectTimeout => exact iff_of_true rfl (notified_closing (WsClient.fail_closing h.ws))
  | wsCloseDone => exact iff_of_true rfl (notified_closing (closeDone_closing closed))
  | restDone now outcome =>
      rw [step, restDone, connectCalls]
      cases h.rest with
      | none => exact iff_of_true rfl closed
      | some request =>
          cases request with
          | post => exact bootstrapCalls_eq_zero_iff (h := { h with rest := none }) outcome closed
          | get session =>
              exact iff_of_true rfl (moves_closing (onSnapshotDone_any cfg now session outcome _) closed)
  | reconnectTimer =>
      rw [step, onReconnectTimer_eq, connectCalls]
      cases h.reconnectTimer with
      | none => exact iff_of_true rfl closed
      | some wait => exact reconnectCalls_eq_zero_iff (h := { h with reconnectTimer := none }) wait closed
  | watchdogTimer now =>
      refine iff_of_true rfl ?_
      rw [step, onWatchdogTimer_eq]
      cases h.watchdogTimer with
      | none => exact closed
      | some gen => exact watchdogHandler_closing (h := { h with watchdogTimer := none }) now gen closed
  | stop tlsUp => exact iff_of_true rfl (stop_closing tlsUp closed)

end Calls

/-!
### A stopped feed

`stop` cancels what it can, but handlers that are queued already run. Each is a no-op on a stopped handler,
but for the callback of the bootstrap POST.
-/

/-- The feed is still as `stop` has left it: disconnected, without a book, and since then nothing was
    published or persisted and `connect` was not called. -/
structure StaysStopped (stopped r : FeedRuntime) : Prop where
  disconnected : r.handler.state = .disconnected
  waiting : r.handler.controller.state = .waitingSnapshot
  no_bids : r.handler.controller.book.bids = []
  no_asks : r.handler.controller.book.asks = []
  published : r.handler.published = stopped.handler.published
  persisted : r.persisted = stopped.persisted
  connects : r.connects = stopped.connects

/-- The bootstrap POST is in flight, and it is answered without an error and with a body that the venue's
    parser accepts. -/
def BootstrapsLate (cfg : HandlerConfig) (r : FeedRuntime) (e : RuntimeEvent) : Prop :=
  ∃ now outcome, e = .callback (.restDone now outcome) ∧ r.handler.rest = some .post ∧
    outcome.failed = false ∧ cfg.adapter.parseWsBootstrap outcome.body = true

/-- What callbacks know a stopped handler by. -/
def Halted (r : FeedRuntime) : Prop := r.handler.running = false

section Stopped

variable {cfg : HandlerConfig} {stopped r : FeedRuntime}

theorem bootstrapCalls_ne_zero {outcome : HttpOutcome} :
    bootstrapCalls cfg outcome ≠ 0 ↔
      outcome.failed = false ∧ cfg.adapter.parseWsBootstrap outcome.body = true := by
  rw [bootstrapCalls]
  cases outcome.failed <;> cases cfg.adapter.parseWsBootstrap outcome.body <;> simp

theorem reconnectCalls_of_halted {h : GenericFeedHandler} (stopped : h.running = false) (wait : TimerWait) :
    h.reconnectCalls cfg wait = 0 := by
  cases wait with
  | retrySnapshot => rfl
  | reconnect gen => rw [reconnectCalls, if_pos (by simp [stopped])]

/-- A stopped handler calls `connect` exactly for a late answer of the bootstrap POST. -/
theorem connectCalls_of_halted (halted : Halted r) (e : FeedEvent) :
    r.handler.connectCalls cfg e = 0 ↔ ¬ BootstrapsLate cfg r (.callback e) := by
  have hother : (∀ now outcome, e ≠ .restDone now outcome) → ¬ BootstrapsLate cfg r (.callback e) := by
    rintro hnot ⟨now, outcome, hevent, -⟩
    exact hnot now outcome (RuntimeEvent.callback.inj hevent)
  cases e with
  | restDone now outcome =>
      rw [connectCalls]
      cases hrest : r.handler.rest with
      | none =>
          refine iff_of_true rfl ?_
          rintro ⟨-, -, -, hpost, -⟩
          rw [hrest] at hpost
          cases hpost
      | some request =>
          cases request with
          | get session =>
              refine iff_of_true rfl ?_
              rintro ⟨-, -, -, hpost, -⟩
              rw [hrest] at hpost
              cases hpost
          | post =>
              rw [iff_not_comm, ← ne_eq, bootstrapCalls_ne_zero]
              constructor
              · rintro ⟨now', outcome', hevent, -, haccepted⟩
                cases hevent
                exact haccepted
              · exact fun haccepted => ⟨now, outcome, rfl, hrest, haccepted⟩
  | reconnectTimer =>
      refine iff_of_true ?_ (hother nofun)
      rw [connectCalls]
      cases r.handler.reconnectTimer with
      | none => rfl
      | some wait => exact reconnectCalls_of_halted halted wait
  | wsOpen | wsMessage | wsClosed | wsFailed | wsConnectFailed | wsConnectTimeout | wsCloseDone
  | watchdogTimer | stop => exact iff_of_true rfl (hother nofun)

/-- What `stop` does to the flag and the book. -/
theorem stop_halted (tlsUp : Bool) (r : FeedRuntime) :
    Halted (r.stop tlsUp) ∧ (r.stop tlsUp).handler.controller = r.handler.controller.resetBook := by
  obtain ⟨hrunning, -⟩ := stop_spec (h := r.handler) tlsUp
  obtain ⟨delay, statuses, -, hset⟩ := setState_eq
    { r.handler with
      running := false, rest := if tlsUp then r.handler.rest else none, ws := r.handler.ws.close.1
      sinksRunning := false }.disarmWsWatchdog .disconnected "stop"
  refine ⟨hrunning, ?_⟩
  rw [FeedRuntime.stop, GenericFeedHandler.stop]
  dsimp only at hset ⊢
  rw [hset]
  rfl

/-- Right after `stop`, and after another one, the feed is stopped. -/
theorem staysStopped_stop (tlsUp : Bool) (published : r.handler.published = stopped.handler.published)
    (persisted : r.persisted = stopped.persisted) (connects : r.connects = stopped.connects) :
    StaysStopped stopped (r.stop tlsUp) := by
  obtain ⟨-, hstate, hpublished, -⟩ := stop_spec (h := r.handler) tlsUp
  obtain ⟨-, hcontroller⟩ := stop_halted tlsUp r
  have hpersisted : (r.stop tlsUp).persisted = r.persisted := stop_persisted tlsUp
  refine ⟨hstate, ?_, ?_, ?_, hpublished.trans published, hpersisted.trans persisted, connects⟩
  · rw [hcontroller]
    rfl
  · rw [hcontroller]
    rfl
  · rw [hcontroller]
    rfl

/-- Handlers of waits that were overtaken find a stopped handler, and leave it alone. -/
theorem reconnectHandler_of_halted {h : GenericFeedHandler} (stopped : h.running = false) (wait : TimerWait) :
    h.reconnectHandler cfg wait = h := by
  cases wait with
  | retrySnapshot => rw [reconnectHandler, if_neg (by simp [stopped])]
  | reconnect gen => rw [reconnectHandler, if_pos (by simp [stopped])]

theorem watchdogHandler_of_halted {h : GenericFeedHandler} (stopped : h.running = false) (now : Int)
    (gen : Nat) : h.watchdogHandler cfg now gen = h := by
  rw [watchdogHandler, if_pos (by simp [stopped])]

/-- A callback of a stopped feed: it calls `connect` or not, and does nothing else that can be seen. -/
theorem callback_of_halted (cfg : HandlerConfig) (halted : Halted r) (stays : StaysStopped stopped r)
    {e : FeedEvent} (going : ∀ tlsUp, e ≠ .stop tlsUp) :
    Halted (r.step cfg (.callback e)) ∧
      (StaysStopped stopped (r.step cfg (.callback e)) ↔ r.handler.connectCalls cfg e = 0) := by
  obtain ⟨ws, rest, timer, watchdog, opened, hhandler⟩ := step_of_halted cfg halted going
  have hstep : r.step cfg (.callback e) =
      { r with
        handler := r.handler.step cfg e
        connects := r.connects + r.handler.connectCalls cfg e } := by
    cases e with
    | stop tlsUp => exact absurd rfl (going tlsUp)
    | wsOpen | wsMessage | wsClosed | wsFailed | wsConnectFailed | wsConnectTimeout | wsCloseDone
    | restDone | reconnectTimer | watchdogTimer =>
        rw [FeedRuntime.step]
        exact nofun
  rw [hstep, hhandler]
  refine ⟨halted, fun hstays => ?_, fun hnone => ?_⟩
  · have hcalls : r.connects + r.handler.connectCalls cfg e = stopped.connects := hstays.connects
    rw [stays.connects] at hcalls
    omega
  · exact
      { disconnected := stays.disconnected, waiting := stays.waiting, no_bids := stays.no_bids
        no_asks := stays.no_asks, published := stays.published, persisted := stays.persisted
        connects := by
          rw [hnone]
          exact stays.connects }

/-- One handler after `stop`: the feed stays stopped exactly if it is not a late answer of the POST. -/
theorem step_of_stopped_feed (halted : Halted r) (stays : StaysStopped stopped r) (e : RuntimeEvent) :
    Halted (r.step cfg e) ∧ (StaysStopped stopped (r.step cfg e) ↔ ¬ BootstrapsLate cfg r e) := by
  have hother : (∀ event, e ≠ .callback event) → ¬ BootstrapsLate cfg r e := by
    rintro hnot ⟨now, outcome, hevent, -⟩
    exact hnot _ hevent
  cases e with
  | callback event =>
      by_cases hstop : ∃ tlsUp, event = .stop tlsUp
      · obtain ⟨tlsUp, rfl⟩ := hstop
        refine ⟨(stop_halted tlsUp r).1, iff_of_true ?_ ?_⟩
        · exact staysStopped_stop tlsUp stays.published stays.persisted stays.connects
        · exact (connectCalls_of_halted halted _).mp rfl
      · obtain ⟨hhalted, hiff⟩ := callback_of_halted cfg halted stays
          fun tlsUp hsame => hstop ⟨tlsUp, hsame⟩
        exact ⟨hhalted, hiff.trans (connectCalls_of_halted halted event)⟩
  | lateReconnect wait =>
      have hstep : r.step cfg (.lateReconnect wait) = r := by
        rw [FeedRuntime.step, reconnectHandler_of_halted halted,
          reconnectCalls_of_halted halted]
        rfl
      rw [hstep]
      exact ⟨halted, iff_of_true stays (hother nofun)⟩
  | lateWatchdog now gen =>
      have hstep : r.step cfg (.lateWatchdog now gen) = r := by
        rw [FeedRuntime.step, watchdogHandler_of_halted halted]
      rw [hstep]
      exact ⟨halted, iff_of_true stays (hother nofun)⟩
  | heartbeat ec =>
      have hstep : r.step cfg (.heartbeat ec) = r := by
        have hstopped : r.handler.running = false := halted
        rw [FeedRuntime.step, if_pos (by simp [hstopped])]
      rw [hstep]
      exact ⟨halted, iff_of_true stays (hother nofun)⟩

end Stopped

/-! ### Results -/

/-- A feed that is stopped, in whatever state, stays stopped through all handlers that still run, in any
    order, exactly if none of them is the answer, without error and accepted by the venue's parser, of a
    bootstrap POST in flight. -/
theorem stop_is_final_iff (cfg : HandlerConfig) (r : FeedRuntime) (tlsUp : Bool) (events : List RuntimeEvent) :
    (∀ reached, reached <+: events →
        StaysStopped (r.stop tlsUp) (Runs.run (FeedRuntime.step cfg) (r.stop tlsUp) reached)) ↔
      Runs.Along (FeedRuntime.step cfg) (fun r e => ¬ BootstrapsLate cfg r e) (r.stop tlsUp) events := by
  have hstays : StaysStopped (r.stop tlsUp) (r.stop tlsUp) := by
    obtain ⟨-, -, hpublished, -⟩ := stop_spec (h := r.handler) tlsUp
    have hpersisted : (r.stop tlsUp).persisted = r.persisted := stop_persisted tlsUp
    exact staysStopped_stop tlsUp hpublished.symm hpersisted.symm rfl
  have hkept : ∀ s e, Halted s → StaysStopped (r.stop tlsUp) s → Halted (s.step cfg e) :=
    fun s e halted stays => (step_of_stopped_feed halted stays e).1
  have hexact : ∀ s e, Halted s → StaysStopped (r.stop tlsUp) s →
      (StaysStopped (r.stop tlsUp) (s.step cfg e) ↔ ¬ BootstrapsLate cfg s e) :=
    fun s e halted stays => (step_of_stopped_feed halted stays e).2
  exact Runs.Along.iff_of_step hkept hexact (stop_halted tlsUp r).1 hstays events

/-- A response to the bootstrap POST. -/
def bulletBody : String :=
  "\x7b\"code\":\"200000\",\"data\":\x7b\"token\":\"2neAiuYvAU61\",\"instanceServers\":[\x7b" ++
    "\"endpoint\":\"wss://ws-api-spot.kucoin.com/endpoint\",\"pingInterval\":18000," ++
    "\"pingTimeout\":10000\x7d]\x7d\x7d"

/-- A feed that needs a bootstrap. -/
def bulletFeed : HandlerConfig :=
  { adapter :=
      { Adapter.ofTraffic VenueId.kucoin.caps "/api/v3/market/orderbook/level2?symbol=BTC-USDT" [] [] with
        parseWsBootstrap := fun body => body == bulletBody }
    depth := 10, depth_pos := by decide }

/-- The feed is stopped while the read of its bootstrap response is queued: the REST client reports the
    response although it was cancelled, and the stopped feed connects. -/
theorem stop_not_final :
    let posted : List RestEvent :=
      [.asyncPost "api.kucoin.com" "443" "/api/v1/bullet-public" "" false,
        .handler 1 {}, .handler 1 {}, .handler 1 {}, .handler 1 {}]
    let queuedRead : RestEvent := .handler 1 { keepAlive := true, body := bulletBody }
    let client := Runs.run RestClient.step { keepAlive := true } (posted ++ [.cancel, queuedRead])
    let stopped := (FeedRuntime.started bulletFeed).stop true
    let reached := stopped.step bulletFeed (.callback (.restDone 0 (.response 200 true true bulletBody)))
    client.answers = [(0, { ec := none, body := bulletBody })] ∧
      stopped.connects = 0 ∧ reached.connects = 1 ∧ ¬ StaysStopped stopped reached := by
  intro posted queuedRead client stopped reached
  have hconnects : reached.connects = 1 := by decide +kernel
  refine ⟨by decide +kernel, rfl, hconnects, fun stays => ?_⟩
  have hsame : reached.connects = 0 := stays.connects
  rw [hconnects] at hsame
  cases hsame

end ZidaBot.Feed
