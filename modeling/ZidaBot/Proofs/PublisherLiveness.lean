/-
Module: ZidaBot.Proofs.PublisherLiveness
Purpose: A publisher that runs never waits for nothing.  The end of a connection is notified once, and the
  notification arms the reconnect timer unless it is armed already; so a client that has ended finds its
  sink with an armed timer, whatever order the errors of its pending operations come in.
Trusted boundary: none
Main exports: ReconnectPending, LinkAlive, LinkAlive.step, no_stuck_publisher
-/
import ZidaBot.Feed.WsPublishSink
import ZidaBot.Library.Runs

namespace ZidaBot.Feed

namespace WsPublishSink

variable {α : Type} {s : WsPublishSink α}

/-- The reconnect timer is armed with the current generation, and the sink knows. -/
def ReconnectPending (s : WsPublishSink α) : Prop :=
  s.reconnectTimer = some s.reconnectGen ∧ s.reconnectScheduled = true

/-- A running sink with something to wait for.  Only an ended connection has been notified, and a scheduled
    reconnect is an armed one. -/
structure LinkAlive (s : WsPublishSink α) : Prop where
  running : s.running = true
  waiting : s.ws.Active ∨ s.ReconnectPending
  closing_of_notified : s.ws.closeNotified = true → s.ws.closing = true
  armed_of_scheduled : s.reconnectScheduled = true → s.reconnectTimer = some s.reconnectGen

/-!
### The operations of the sink

A client may report the end of its connection at once, later, or by throwing from `connect`. In each case
`schedule_reconnect_` is reached, and after it the timer is armed.
-/

/-- A sink that runs ends `schedule_reconnect_` with an armed timer. -/
theorem scheduleReconnect_pending (running : s.running = true)
    (armed : s.reconnectScheduled = true → s.reconnectTimer = some s.reconnectGen) :
    s.scheduleReconnect.ReconnectPending := by
  rw [scheduleReconnect]
  cases hscheduled : s.reconnectScheduled with
  | true =>
      rw [if_pos (by simp)]
      exact ⟨armed hscheduled, hscheduled⟩
  | false =>
      rw [if_neg (by simp [running])]
      exact ⟨rfl, rfl⟩

/-- `schedule_reconnect_` leaves the client alone. -/
theorem scheduleReconnect_same (s : WsPublishSink α) :
    s.scheduleReconnect.running = s.running ∧ s.scheduleReconnect.ws = s.ws := by
  rw [scheduleReconnect]
  split
  · exact ⟨rfl, rfl⟩
  · exact ⟨rfl, rfl⟩

/-- A reconnect that is scheduled whatever the client has reached. -/
theorem linkAlive_scheduleReconnect (running : s.running = true)
    (notified : s.ws.closeNotified = true → s.ws.closing = true)
    (armed : s.reconnectScheduled = true → s.reconnectTimer = some s.reconnectGen) :
    LinkAlive s.scheduleReconnect := by
  have hpending := scheduleReconnect_pending running armed
  obtain ⟨hrunning, hws⟩ := scheduleReconnect_same s
  exact ⟨hrunning.trans running, Or.inr hpending, by rwa [hws], fun _ => hpending.1⟩

/-- A fresh connect, started or thrown out of, has an attempt or a scheduled reconnect. -/
theorem linkAlive_tryConnect (threw : Bool) (running : s.running = true)
    (idle : s.reconnectScheduled = false) : LinkAlive (s.tryConnect threw) := by
  have harmed : s.reconnectScheduled = true → s.reconnectTimer = some s.reconnectGen := by
    intro hscheduled
    rw [idle] at hscheduled
    cases hscheduled
  cases threw with
  | false =>
      have hconnect : s.tryConnect false = { s with ws := s.ws.connect } := if_pos running
      rw [hconnect]
      exact ⟨running, Or.inl ⟨rfl, Or.inl rfl⟩, nofun, harmed⟩
  | true =>
      have hthrown : s.tryConnect true =
          { s with ws := { s.ws.connect with connecting := false } }.scheduleReconnect := if_pos running
      rw [hthrown]
      exact linkAlive_scheduleReconnect running nofun harmed

/-- The callbacks of the client that may end a connection: it is closing afterwards, and where it says
    nothing it had ended before. -/
theorem LinkAlive.notified (alive : LinkAlive s) {outcome : WsClient α × Bool}
    (closing : outcome.1.closing = true) (silent : outcome.2 = false → ¬ s.ws.Active) :
    LinkAlive (s.notified outcome) := by
  rw [WsPublishSink.notified]
  dsimp only
  cases htold : outcome.2 with
  | true =>
      rw [if_pos (by simp [alive.running])]
      exact linkAlive_scheduleReconnect alive.running (fun _ => closing) alive.armed_of_scheduled
  | false =>
      have hpending : s.ReconnectPending := alive.waiting.resolve_left (silent htold)
      exact ⟨alive.running, Or.inr hpending, fun _ => closing, alive.armed_of_scheduled⟩

/-- The client says nothing about an end only if it has said so. -/
theorem LinkAlive.notifyCloseOnce (alive : LinkAlive s) {ended : WsClient α} (closing : ended.closing = true)
    (flag : ended.closeNotified = s.ws.closeNotified) : LinkAlive (s.notified ended.notifyCloseOnce) := by
  apply alive.notified (WsClient.notifyCloseOnce_closing closing)
  rw [WsClient.notifyCloseOnce]
  split
  · rename_i htold
    rintro - ⟨hopen, -⟩
    rw [alive.closing_of_notified (flag ▸ htold)] at hopen
    cases hopen
  · intro h
    cases h

/-- A client that has not changed in what matters, in a sink that has not changed. -/
theorem LinkAlive.same_link (alive : LinkAlive s) {ws : WsClient α} (active : ws.Active ↔ s.ws.Active)
    (closing : ws.closing = s.ws.closing) (notified : ws.closeNotified = s.ws.closeNotified) :
    LinkAlive { s with ws := ws } := by
  refine ⟨alive.running, alive.waiting.imp_left active.mpr, ?_, alive.armed_of_scheduled⟩
  rw [closing, notified]
  exact alive.closing_of_notified

/-!
### The callbacks

One lemma for each callback. Late errors of an ended connection find a client that is closing, and those of
a wait that was armed anew a generation that is not theirs, so neither disturbs what the sink is waiting
for.
-/

theorem LinkAlive.failed (alive : LinkAlive s) : LinkAlive (s.notified s.ws.fail) := by
  rw [WsClient.fail]
  split
  · rename_i hclosing
    exact alive.notifyCloseOnce hclosing rfl
  · exact alive.notifyCloseOnce rfl rfl

theorem LinkAlive.connectFailed (alive : LinkAlive s) : LinkAlive (s.notified s.ws.connectFailed) := by
  rw [WsClient.connectFailed]
  split
  · exact alive.same_link Iff.rfl rfl rfl
  · exact alive.failed

theorem LinkAlive.opened (alive : LinkAlive s) : LinkAlive s.opened := by
  rw [WsPublishSink.opened, WsClient.handshakeDone]
  by_cases hdropped : (s.ws.closing || !s.ws.connecting) = true
  · rw [if_pos hdropped]
    exact alive.same_link Iff.rfl rfl rfl
  · obtain ⟨inFlight, hsame⟩ :=
      WsClient.startWrite_same { s.ws with opened := true, connecting := false }
    have hopen : s.ws.closing = false := by
      cases hclosing : s.ws.closing with
      | false => rfl
      | true => simp [hclosing] at hdropped
    rw [if_neg hdropped, hsame]
    exact ⟨alive.running, Or.inl ⟨hopen, Or.inr rfl⟩, alive.closing_of_notified, fun h => (by cases h)⟩

theorem LinkAlive.writeDone (alive : LinkAlive s) : LinkAlive { s with ws := s.ws.writeDone.1 } := by
  rw [WsClient.writeDone]
  split
  · exact alive.same_link Iff.rfl rfl rfl
  · obtain ⟨inFlight, hsame⟩ :=
      WsClient.startWrite_same { s.ws with inFlight := none, outbox := s.ws.outbox.tail }
    dsimp only
    rw [hsame]
    exact alive.same_link Iff.rfl rfl rfl

theorem LinkAlive.publish (alive : LinkAlive s) (frame : α) : LinkAlive (s.publish frame) := by
  obtain ⟨outbox, inFlight, hsame⟩ := s.ws.send_same frame
  rw [WsPublishSink.publish, if_pos alive.running, hsame]
  exact alive.same_link Iff.rfl rfl rfl

theorem LinkAlive.timerHandler (alive : LinkAlive s) (threw : Bool) (gen : Nat) :
    LinkAlive (s.timerHandler threw gen) := by
  rw [WsPublishSink.timerHandler]
  split
  · exact linkAlive_tryConnect threw alive.running rfl
  · exact alive

/-- An expired wait that is not the current one was not what the sink was waiting for. -/
theorem LinkAlive.timerExpired (alive : LinkAlive s) (threw : Bool) : LinkAlive (s.timerExpired threw) := by
  rw [WsPublishSink.timerExpired]
  split
  · exact alive
  · rename_i gen htimer
    rw [WsPublishSink.timerHandler]
    split
    · exact linkAlive_tryConnect threw alive.running rfl
    · rename_i hstale
      have hother : s.reconnectTimer ≠ some s.reconnectGen := by
        rw [htimer]
        rintro ⟨⟩
        simp [alive.running] at hstale
      have hactive : s.ws.Active := alive.waiting.resolve_right fun hpending => hother hpending.1
      refine ⟨alive.running, Or.inl hactive, alive.closing_of_notified, ?_⟩
      intro hscheduled
      exact absurd (alive.armed_of_scheduled hscheduled) hother

/-- One callback or call keeps the sink waiting for something. -/
theorem LinkAlive.step (alive : LinkAlive s) (event : SinkEvent α) : LinkAlive (s.step event) := by
  cases event with
  | opened => exact alive.opened
  | connectFailed => exact alive.connectFailed
  | failed => exact alive.failed
  | remoteClosed => exact alive.notifyCloseOnce rfl rfl
  | writeDone => exact alive.writeDone
  | timer threw => exact alive.timerExpired threw
  | lateTimer gen threw => exact alive.timerHandler threw gen
  | publish frame => exact alive.publish frame

/-- A start that keeps the sink running, whatever was left of an earlier run. -/
theorem linkAlive_start (threw : Bool) (stopped : s.running = false) : LinkAlive (s.startTrying threw) := by
  rw [startTrying, if_neg (by simp [stopped])]
  exact linkAlive_tryConnect threw rfl rfl

/-! ### Result -/

/-- A sink that was started is, after any callbacks and publishes in any order, in a connect attempt or an
    open session, or has its reconnect timer armed with the current generation. -/
theorem no_stuck_publisher (s : WsPublishSink α) (stopped : s.running = false) (threw : Bool)
    (events : List (SinkEvent α)) :
    let reached := Runs.run step (s.startTrying threw) events
    reached.running = true ∧
      ((reached.ws.closing = false ∧ (reached.ws.connecting = true ∨ reached.ws.opened = true)) ∨
        (reached.reconnectTimer = some reached.reconnectGen ∧ reached.reconnectScheduled = true)) := by
  intro reached
  have halive : LinkAlive reached :=
    Runs.invariant_run (fun _ event alive => alive.step event) (linkAlive_start threw stopped) events
  exact ⟨halive.running, halive.waiting⟩

/-- A session that both its read and its write report as broken, and the reconnect after it. -/
theorem no_stuck_publisher_two_errors :
    let events : List (SinkEvent String) :=
      [.opened, .publish "frame", .failed, .failed, .lateTimer 1 false, .timer false, .failed]
    let reached := Runs.run step (WsPublishSink.startTrying false {}) events
    reached.running = true ∧
      ((reached.ws.closing = false ∧ (reached.ws.connecting = true ∨ reached.ws.opened = true)) ∨
        (reached.reconnectTimer = some reached.reconnectGen ∧ reached.reconnectScheduled = true)) :=
  no_stuck_publisher {} rfl false _

end WsPublishSink

end ZidaBot.Feed
