/-
Module: ZidaBot.Proofs.FeedSinks
Purpose: The sinks do not touch the feed.  A feed may have a file sink, brain sinks, both or neither; every
  callback of the feed handler makes the same calls and leaves the same feed whichever it has, whether its
  brain sinks run, and whatever they were given before.  Only the counter of checkpoints stands still where
  there is no sink at all.
Trusted boundary: none
Main exports: statusOnly, Sinks, SinkCall, Sinks.record, GenericFeedHandler.withSinks, Emits, EmitsFlag,
  GenericFeedHandler.step_emits, FeedRuntime.step_emits, FeedRuntime.started_eq
-/
import ZidaBot.Library.Emission
import ZidaBot.Proofs.FeedChanges
import ZidaBot.Proofs.FeedStop

namespace ZidaBot.Feed

open Emission (EmitsWith)

/-! ### The sinks of a feed

What the sinks of a feed are and what they were given is taken together, apart from the rest of the handler.
A call is an event given to them, or the end of all of them in `stop`. -/

/-- A call that goes to the brain sinks only. -/
def statusOnly : PubEvent → Bool
  | .status _ _ => true
  | _ => false

/-- The sinks a feed has, whether its brain sinks run, and what they were given. -/
structure Sinks where
  file : Bool := false
  brain : Bool := false
  running : Bool := false
  published : List PubEvent := []
  persisted : List PubEvent := []

/-- What a feed does to its sinks. -/
inductive SinkCall where
  | given (event : PubEvent)
  | closed

namespace Sinks

/-- There is no sink. -/
def none (k : Sinks) : Bool := !k.file && !k.brain

/-- Running brain sinks are given everything, a file sink everything but the statuses. -/
def record (k : Sinks) : SinkCall → Sinks
  | .given event =>
      { k with
        published := if k.brain && k.running then k.published ++ [event] else k.published
        persisted := if k.file && !statusOnly event then k.persisted ++ [event] else k.persisted }
  | .closed => { k with file := false, brain := false, running := false }

end Sinks

namespace GenericFeedHandler

/-- The handler with other sinks.  Without any its counter of checkpoints has never been used. -/
def withSinks (k : Sinks) (h : GenericFeedHandler) : GenericFeedHandler :=
  { h with
    persistOpen := k.file, brainSinks := k.brain, sinksRunning := k.running
    published := k.published, persisted := k.persisted
    updatesSinceBookPersist := if k.none then 0 else h.updatesSinceBookPersist }

/-- A function of a handler that its sinks do not touch. -/
abbrev Emits (f : GenericFeedHandler → GenericFeedHandler) : Prop := Emission.Emits withSinks Sinks.record f

/-- See `Emits`; the result tells whether the session goes on. -/
abbrev EmitsFlag (f : GenericFeedHandler → GenericFeedHandler × Bool) : Prop :=
  EmitsWith withSinks Sinks.record f

/-! ### Parts of the callbacks

Where a function of the source branches on something that the handler holds, the branches are named here, so
that the rules for such a choice apply to them. -/

/-- What a restart forgets. -/
def forgotten (h : GenericFeedHandler) : GenericFeedHandler :=
  { h.disarmWsWatchdog with
    buffer := [], controller := h.controller.resetBook
    history := { h.history with baseline := none } }

/-- A restart has closed the socket, with what the client said, and waits. -/
def closedForRestart (outcome : WsClient String × Bool) (h : GenericFeedHandler) : GenericFeedHandler :=
  let h := { h with closingForRestart := true, ws := outcome.1 }
  let h := if outcome.2 then h.suppressClose else h
  h.scheduleWsReconnect

/-- An open socket waits for its snapshot. -/
def awaitSnapshot (cfg : HandlerConfig) (h : GenericFeedHandler) : GenericFeedHandler :=
  match cfg.adapter.caps.syncMode with
  | .restAnchored => (h.setState .waitRestSnapshot "ws_open_rest_anchored").requestSnapshot cfg
  | .wsAuthoritative => h.setState .waitWsSnapshot "ws_open_ws_authoritative"

/-- A frame in a state. -/
def messageIn (cfg : HandlerConfig) (now : Int) (msg : String) (state : FeedSyncState) (h : GenericFeedHandler) :
    GenericFeedHandler :=
  match state with
  | .waitRestSnapshot => h.onMessageWaitRest cfg now msg
  | .waitWsSnapshot => h.onMessageWaitWs cfg now msg
  | .waitBridge => h.onMessageLive cfg now msg
  | .synced => h.onMessageLive cfg now msg
  | .disconnected => h
  | .connecting => h
  | .bootstrapping => h

/-- The end of a wait on each of the timers. -/
def reconnectWaited (cfg : HandlerConfig) (timer : Option TimerWait) (h : GenericFeedHandler) :
    GenericFeedHandler :=
  match timer with
  | none => h
  | some wait => { h with reconnectTimer := none }.reconnectHandler cfg wait

def watchdogWaited (cfg : HandlerConfig) (now : Int) (timer : Option Nat) (h : GenericFeedHandler) :
    GenericFeedHandler :=
  match timer with
  | none => h
  | some gen => { h with watchdogTimer := none }.watchdogHandler cfg now gen

/-- The end of a request. -/
def requestDone (cfg : HandlerConfig) (now : Int) (outcome : HttpOutcome) (rest : Option RestRequest)
    (h : GenericFeedHandler) : GenericFeedHandler :=
  match rest with
  | none => h
  | some .post => { h with rest := none }.onBootstrapResponse cfg outcome
  | some (.get session) => { h with rest := none }.onSnapshotDone cfg now session outcome

variable {cfg : HandlerConfig} {now : Int}

/-! ### Publication and state

A status is given to the brain sinks alone, everything else first to the file sink and then to the brain sinks.
A restart, the closing of a connection and the request of a snapshot give statuses only. -/

/-- A status reaches running brain sinks. -/
theorem publish_withSinks (k : Sinks) (h : GenericFeedHandler) {event : PubEvent}
    (status : statusOnly event = true) :
    (h.withSinks k).publish event = h.withSinks (k.record (.given event)) := by
  rw [publish, Sinks.record]
  cases hgiven : k.brain && k.running <;> simp [withSinks, Sinks.none, status, hgiven]

/-- Everything else reaches the file sink, too. -/
theorem persist_withSinks (k : Sinks) (h : GenericFeedHandler) {event : PubEvent}
    (data : statusOnly event = false) :
    (h.withSinks k).persist event = h.withSinks (k.record (.given event)) := by
  rw [persist, write, publish, Sinks.record]
  cases hfile : k.file <;> cases hgiven : k.brain && k.running <;>
    simp [withSinks, Sinks.none, data, hgiven, hfile]

theorem persist_emits {event : PubEvent} (data : statusOnly event = false) : Emits fun h => h.persist event :=
  .call fun k h => persist_withSinks k h data

theorem setState_emits (next : FeedSyncState) (reason : String) : Emits fun h => h.setState next reason := by
  refine .ite (fun h : GenericFeedHandler => h.state = next) (fun _ _ => Iff.rfl) .id ?_
  let stored (h : GenericFeedHandler) : GenericFeedHandler := { h with
    state := next, reconnectDelayMs := if next = .synced then 1000 else h.reconnectDelayMs }
  have hstored : Emits stored := .quiet fun _ _ => rfl
  have hsaid : Emits fun h => h.publish (.status next.feedState reason) :=
    .call fun k h => publish_withSinks k h rfl
  exact hsaid.comp hstored

theorem armWsWatchdog_emits (cfg : HandlerConfig) : Emits fun h => h.armWsWatchdog cfg := by
  refine .ite (fun _ : GenericFeedHandler => cfg.wsStaleAfterMs ≤ 0) (fun _ _ => Iff.rfl) .id ?_
  exact .quiet fun _ _ => rfl

theorem restartSync_emits : Emits restartSync := by
  refine .ite (fun h : GenericFeedHandler => (!h.running) = true) (fun _ _ => Iff.rfl) .id ?_
  have hforgotten : Emits forgotten := .quiet fun _ _ => rfl
  have hclosed : Emits fun h => closedForRestart h.ws.cancel h := by
    refine .select (f := closedForRestart) (fun h : GenericFeedHandler => h.ws.cancel) (fun _ _ => rfl) ?_
    rintro ⟨ws, closed⟩
    cases closed <;> exact .quiet fun _ _ => rfl
  have hrestarted := hclosed.comp ((setState_emits .connecting "restart_sync").comp hforgotten)
  exact hrestarted

theorem onWSClose_emits : Emits onWSClose := by
  refine .ite (fun h : GenericFeedHandler => (!h.running) = true) (fun _ _ => Iff.rfl) .id ?_
  refine .ite (fun h : GenericFeedHandler => h.closingForRestart = true) (fun _ _ => Iff.rfl) ?_ ?_
  · exact .quiet fun _ _ => rfl
  · refine restartSync_emits.comp ?_
    exact .quiet fun _ _ => rfl

/-- What the client says does not depend on the sinks. -/
theorem notified_emits (act : WsClient String → WsClient String × Bool) :
    Emits fun h => h.notified (act h.ws) := by
  refine .select (f := fun outcome (h : GenericFeedHandler) => h.notified outcome)
    (fun h : GenericFeedHandler => act h.ws) (fun _ _ => rfl) ?_
  intro outcome
  have htaken : Emits fun h : GenericFeedHandler => { h with ws := outcome.1 } :=
    .quiet fun _ _ => rfl
  refine .comp (g := fun h => if outcome.2 then h.onWSClose else h) ?_ htaken
  exact .ite (fun _ : GenericFeedHandler => outcome.2 = true) (fun _ _ => Iff.rfl) onWSClose_emits .id

theorem connectWS_emits : Emits connectWS := .quiet fun _ _ => rfl

theorem bootstrapWS_emits (cfg : HandlerConfig) : Emits fun h => h.bootstrapWS cfg := by
  refine .ite (fun h : GenericFeedHandler => (!h.running) = true) (fun _ _ => Iff.rfl) .id ?_
  refine .ite (fun _ : GenericFeedHandler => cfg.adapter.wsBootstrapTarget = "") (fun _ _ => Iff.rfl)
    restartSync_emits ?_
  refine .ite
    (fun h : GenericFeedHandler => (h.rest.isSome || !validTarget cfg.adapter.wsBootstrapTarget) = true)
    (fun _ _ => Iff.rfl) restartSync_emits ?_
  exact .quiet fun _ _ => rfl

theorem onBootstrapResponse_emits (cfg : HandlerConfig) (outcome : HttpOutcome) :
    Emits fun h => h.onBootstrapResponse cfg outcome := by
  refine .ite (fun _ : GenericFeedHandler => outcome.failed = true) (fun _ _ => Iff.rfl) restartSync_emits ?_
  exact .ite (fun _ : GenericFeedHandler => (!cfg.adapter.parseWsBootstrap outcome.body) = true)
    (fun _ _ => Iff.rfl) restartSync_emits connectWS_emits

theorem requestSnapshot_emits (cfg : HandlerConfig) : Emits fun h => h.requestSnapshot cfg := by
  let request (h : GenericFeedHandler) : GenericFeedHandler :=
    if h.rest.isSome || !validTarget cfg.adapter.restSnapshotTarget then h.restartSync
    else { h with rest := some (.get h.history.opened) }
  have hrequest : Emits request := by
    refine .ite
      (fun h : GenericFeedHandler => (h.rest.isSome || !validTarget cfg.adapter.restSnapshotTarget) = true)
      (fun _ _ => Iff.rfl) restartSync_emits ?_
    exact .quiet fun _ _ => rfl
  exact hrequest.comp (setState_emits .waitRestSnapshot "request_snapshot")

theorem onWSOpen_emits (cfg : HandlerConfig) (now : Int) : Emits fun h => h.onWSOpen cfg now := by
  refine .ite (fun h : GenericFeedHandler => (!h.running) = true) (fun _ _ => Iff.rfl) .id ?_
  have htouched : Emits fun h : GenericFeedHandler => { h with lastWsMessageNs := now } :=
    .quiet fun _ _ => rfl
  have hsubscribed : Emits fun h : GenericFeedHandler =>
      if cfg.adapter.wsSubscribeFrame = "" then h
      else { h with ws := h.ws.send cfg.adapter.wsSubscribeFrame } := by
    refine .ite (fun _ : GenericFeedHandler => cfg.adapter.wsSubscribeFrame = "") (fun _ _ => Iff.rfl) .id ?_
    exact .quiet fun _ _ => rfl
  have hwaiting : Emits (awaitSnapshot cfg) := by
    unfold awaitSnapshot
    cases cfg.adapter.caps.syncMode with
    | restAnchored => exact (requestSnapshot_emits cfg).comp (setState_emits _ _)
    | wsAuthoritative => exact setState_emits _ _
  exact hwaiting.comp (hsubscribed.comp ((armWsWatchdog_emits cfg).comp htouched))

/-!
### Market data

Data goes to both kinds of sinks, and a checkpoint is taken where there is at least one. This is the only
place where the presence of a sink is looked at.
-/

/-- Without sinks a checkpoint is neither counted nor taken. -/
theorem maybePersistBook_of_none {k : Sinks} (none : k.none = true) (now : Int) (source : String)
    (h : GenericFeedHandler) : (h.withSinks k).maybePersistBook now source = h.withSinks k := by
  rw [maybePersistBook]
  exact if_pos none

theorem record_of_none {k : Sinks} (none : k.none = true) (event : PubEvent) :
    k.record (.given event) = k := by
  obtain ⟨file, brain, running, published, persisted⟩ := k
  cases file <;> cases brain <;> first | rfl | cases none

/-- With a sink of either kind the counter of checkpoints runs, and both get the checkpoint. -/
theorem maybePersistBook_emits (now : Int) (source : String) : Emits fun h => h.maybePersistBook now source := by
  intro h
  let checkpoint : PubEvent :=
    .bookState h.controller.book h.controller.getAppliedSeqID h.persistBookTop source now
  by_cases hoff : h.persistBookEveryUpdates = 0 ∨ h.persistBookTop = 0
  · refine ⟨h, [], fun k => ?_⟩
    cases hnone : k.none with
    | true => exact maybePersistBook_of_none hnone now source h
    | false => exact (if_neg (ne_true_of_eq_false hnone)).trans (if_pos hoff)
  by_cases hunsynced : (!h.controller.isSynced) = true
  · refine ⟨h, [], fun k => ?_⟩
    cases hnone : k.none with
    | true => exact maybePersistBook_of_none hnone now source h
    | false =>
        exact (if_neg (ne_true_of_eq_false hnone)).trans ((if_neg hoff).trans (if_pos hunsynced))
  have hcounter : ∀ k : Sinks, k.none = false →
      (h.withSinks k).maybePersistBook now source =
        if h.updatesSinceBookPersist + 1 < h.persistBookEveryUpdates then
          { h with updatesSinceBookPersist := h.updatesSinceBookPersist + 1 }.withSinks k
        else ({ h with updatesSinceBookPersist := 0 }.withSinks k).persist checkpoint := by
    intro k hnone
    have hsinks : ¬ (!(h.withSinks k).persistOpen && !(h.withSinks k).brainSinks) = true :=
      ne_true_of_eq_false hnone
    have hcount : (h.withSinks k).updatesSinceBookPersist = h.updatesSinceBookPersist := by
      simp [withSinks, hnone]
    have hcounted : ∀ n, { h.withSinks k with updatesSinceBookPersist := n } =
        { h with updatesSinceBookPersist := n }.withSinks k := by
      intro n
      simp [withSinks, hnone]
    rw [maybePersistBook, if_neg hsinks, hcount, hcounted, hcounted]
    exact (if_neg hoff).trans (if_neg hunsynced)
  by_cases hdue : h.updatesSinceBookPersist + 1 < h.persistBookEveryUpdates
  · refine ⟨{ h with updatesSinceBookPersist := h.updatesSinceBookPersist + 1 }, [], fun k => ?_⟩
    cases hnone : k.none with
    | true =>
        refine (maybePersistBook_of_none hnone now source h).trans ?_
        simp [withSinks, hnone]
    | false => exact (hcounter k hnone).trans (if_pos hdue)
  · refine ⟨{ h with updatesSinceBookPersist := 0 }, [.given checkpoint], fun k => ?_⟩
    cases hnone : k.none with
    | true =>
        refine (maybePersistBook_of_none hnone now source h).trans ?_
        simp [record_of_none hnone, withSinks, hnone]
    | false =>
        exact (hcounter k hnone).trans ((if_neg hdue).trans (persist_withSinks k _ rfl))

theorem applySnapshot_emits (cfg : HandlerConfig) (snap : GenericSnapshotFormat) (kind : BaselineKind)
    (source : String) (session : Nat) : EmitsFlag fun h => h.applySnapshot cfg snap kind source session := by
  let load (h : GenericFeedHandler) : GenericFeedHandler × Bool :=
    let outcome := h.controller.onSnapshot cfg.controllerConfig snap kind
    ({ h with
        controller := outcome.1
        history := { h.history with baseline := some session } },
      outcome.action == .needResync)
  have hload : EmitsFlag load := .quiet fun _ _ => rfl
  exact hload.comp (persist_emits rfl)

theorem applyIncrement_emits (cfg : HandlerConfig) (inc : GenericIncrementalFormat) (session : Nat) :
    EmitsFlag fun h => h.applyIncrement cfg inc session := by
  let apply (h : GenericFeedHandler) : GenericFeedHandler × Bool :=
    let history :=
      if h.controller.state = .waitingSnapshot then h.history
      else { h.history with applied := h.history.applied ++ [(session, h.history.baseline)] }
    let outcome := h.controller.onIncrement cfg.controllerConfig inc
    ({ h with controller := outcome.1, history := history }, outcome.action == .needResync)
  have happly : EmitsFlag apply := .quiet fun _ _ => rfl
  exact happly.bindWith (k := fun resync (h : GenericFeedHandler) =>
    (h.persist (.incremental inc "ws_incremental"), resync)) fun resync => .pure (persist_emits rfl) resync

theorem drainLoop_emits (cfg : HandlerConfig) (now : Int) (msgs : List BufferedMsg) :
    EmitsFlag (drainLoop cfg now msgs) := by
  induction msgs with
  | nil =>
      refine .pure (g := fun h : GenericFeedHandler => { h with buffer := [] }) ?_ false
      exact .quiet fun _ _ => rfl
  | cons msg rest ih =>
      change EmitsFlag fun h => drainLoop cfg now (msg :: rest) h
      unfold drainLoop
      cases cfg.adapter.isIncremental msg.payload with
      | false => exact ih
      | true =>
          cases cfg.adapter.parseIncremental msg.payload with
          | threw =>
              refine .pure (g := fun h : GenericFeedHandler =>
                { h with buffer := { msg with payload := "" } :: rest }) ?_ true
              exact .quiet fun _ _ => rfl
          | rejected => exact ih
          | accepted inc =>
              let next (resync : Bool) (h : GenericFeedHandler) : GenericFeedHandler × Bool :=
                if resync then (h.restartSync, false)
                else drainLoop cfg now rest (h.maybePersistBook now "incremental_applied")
              have hnext : ∀ resync, EmitsFlag (next resync) := by
                intro resync
                cases resync with
                | true => exact .pure restartSync_emits false
                | false => exact ih.comp (maybePersistBook_emits now "incremental_applied")
              exact (applyIncrement_emits cfg { inc with tsRecvNs := msg.recvTsNs } msg.session).bindWith hnext

theorem drainThenSync_emits (cfg : HandlerConfig) (now : Int) (reason : String) :
    Emits fun h => h.drainThenSync cfg now reason := by
  have hdrain : EmitsFlag (drainBufferedIncrementals cfg now) :=
    .select (fun h : GenericFeedHandler => h.buffer) (fun _ _ => rfl) (drainLoop_emits cfg now)
  let settle (threw : Bool) (h : GenericFeedHandler) : GenericFeedHandler :=
    if threw then h
    else if h.controller.isSynced then h.setState .synced reason
    else h
  have hsettle : ∀ threw, Emits (settle threw) := by
    intro threw
    refine .ite (fun _ : GenericFeedHandler => threw = true) (fun _ _ => Iff.rfl) .id ?_
    exact .ite (fun h : GenericFeedHandler => h.controller.isSynced = true) (fun _ _ => Iff.rfl)
      (setState_emits .synced reason) .id
  exact hdrain.bind hsettle

theorem onSnapshotResponse_emits (cfg : HandlerConfig) (now : Int) (session : Nat) (body : String) :
    Emits fun h => h.onSnapshotResponse cfg now session body := by
  refine .ite (fun h : GenericFeedHandler => (!h.running) = true) (fun _ _ => Iff.rfl) .id ?_
  cases cfg.adapter.parseSnapshot body with
  | threw => exact .id
  | rejected => exact restartSync_emits
  | accepted snap =>
      let next (resync : Bool) (h : GenericFeedHandler) : GenericFeedHandler :=
        if resync then h.restartSync
        else
          let h := h.maybePersistBook now "snapshot_applied"
          let h := h.setState .waitBridge "snapshot_applied"
          h.drainThenSync cfg now "post_snapshot_bridge_complete"
      have hnext : ∀ resync, Emits (next resync) := by
        intro resync
        cases resync with
        | true => exact restartSync_emits
        | false =>
            exact (drainThenSync_emits cfg now "post_snapshot_bridge_complete").comp
              ((setState_emits .waitBridge "snapshot_applied").comp
                (maybePersistBook_emits now "snapshot_applied"))
      exact (applySnapshot_emits cfg { snap with tsRecvNs := now } cfg.adapter.caps.syncMode.baselineKind
        "rest_snapshot" session).bind hnext

theorem onSnapshotDone_emits (cfg : HandlerConfig) (now : Int) (session : Nat) (outcome : HttpOutcome) :
    Emits fun h => h.onSnapshotDone cfg now session outcome := by
  refine .ite (fun h : GenericFeedHandler => (!h.running) = true) (fun _ _ => Iff.rfl) .id ?_
  refine .ite (fun _ : GenericFeedHandler => outcome.failed = true) (fun _ _ => Iff.rfl) restartSync_emits ?_
  refine .ite (fun _ : GenericFeedHandler => outcome.status = 429 ∨ outcome.status = 418)
    (fun _ _ => Iff.rfl) (.quiet fun _ _ => rfl) ?_
  exact .ite (fun _ : GenericFeedHandler => outcome.status < 200 ∨ 300 ≤ outcome.status)
    (fun _ _ => Iff.rfl) restartSync_emits (onSnapshotResponse_emits cfg now session outcome.body)

theorem bufferFrame_emits (cfg : HandlerConfig) (now : Int) (msg : String) :
    EmitsFlag fun h => h.bufferFrame cfg now msg := by
  have hroom : EmitsFlag fun h : GenericFeedHandler =>
      ({ h with buffer := h.buffer ++
        [{ payload := msg, recvTsNs := now, session := h.history.opened }] }, true) :=
    .quiet fun _ _ => rfl
  exact .ite (fun h : GenericFeedHandler => h.buffer.length < cfg.maxBuffer) (fun _ _ => Iff.rfl) hroom
    (.pure restartSync_emits false)

/-- A snapshot frame is loaded, and what is done with the result comes after it. -/
theorem loadFrame_emits (cfg : HandlerConfig) (now : Int) (snap : GenericSnapshotFormat)
    {accepted : GenericFeedHandler → GenericFeedHandler} (rest : Emits accepted) :
    Emits fun h =>
      let (h, resync) :=
        h.applySnapshot cfg { snap with tsRecvNs := now } .wsAuthoritative "ws_snapshot" h.history.opened
      if resync then h.restartSync else accepted h := by
  have hload : EmitsFlag fun h : GenericFeedHandler =>
      h.applySnapshot cfg { snap with tsRecvNs := now } .wsAuthoritative "ws_snapshot" h.history.opened :=
    .select (f := fun session (h : GenericFeedHandler) =>
        h.applySnapshot cfg { snap with tsRecvNs := now } .wsAuthoritative "ws_snapshot" session)
      (fun h : GenericFeedHandler => h.history.opened) (fun _ _ => rfl)
      (applySnapshot_emits cfg { snap with tsRecvNs := now } .wsAuthoritative "ws_snapshot")
  refine hload.bind (k := fun resync h => if resync then h.restartSync else accepted h) ?_
  intro resync
  exact .ite (fun _ : GenericFeedHandler => resync = true) (fun _ _ => Iff.rfl) restartSync_emits rest

theorem onMessageWaitRest_emits (cfg : HandlerConfig) (now : Int) (msg : String) :
    Emits fun h => h.onMessageWaitRest cfg now msg := by
  refine .ite (fun _ : GenericFeedHandler => cfg.adapter.isIncremental msg = true) (fun _ _ => Iff.rfl) ?_ .id
  exact (bufferFrame_emits cfg now msg).bind (k := fun _ h => h) fun _ => .id

theorem onMessageWaitWs_emits (cfg : HandlerConfig) (now : Int) (msg : String) :
    Emits fun h => h.onMessageWaitWs cfg now msg := by
  unfold onMessageWaitWs
  cases wsSnapshotOf cfg msg with
  | threw => exact .id
  | accepted snap =>
      have hstored : Emits fun h : GenericFeedHandler => { h with state := .waitBridge } :=
        .quiet fun _ _ => rfl
      exact loadFrame_emits cfg now snap ((drainThenSync_emits cfg now "ws_snapshot_baseline_ready").comp
        (hstored.comp (maybePersistBook_emits now "snapshot_applied")))
  | rejected => exact onMessageWaitRest_emits cfg now msg

theorem onInterruptingSnapshot_emits (cfg : HandlerConfig) (now : Int) (snap : GenericSnapshotFormat) :
    Emits fun h => h.onInterruptingSnapshot cfg now snap := by
  have hcleared : Emits fun h : GenericFeedHandler => { h with buffer := [] } :=
    .quiet fun _ _ => rfl
  have hset : Emits fun h : GenericFeedHandler =>
      h.setState (if h.controller.isSynced then .synced else .waitBridge) "interrupting_ws_snapshot" :=
    .select (f := fun next (h : GenericFeedHandler) => h.setState next "interrupting_ws_snapshot")
      (fun h : GenericFeedHandler => if h.controller.isSynced then .synced else .waitBridge) (fun _ _ => rfl)
      fun next => setState_emits next "interrupting_ws_snapshot"
  exact loadFrame_emits cfg now snap (hset.comp (hcleared.comp (maybePersistBook_emits now "snapshot_applied")))

theorem onMessageBridge_emits (cfg : HandlerConfig) (now : Int) (msg : String) :
    Emits fun h => h.onMessageBridge cfg now msg := by
  refine .ite (fun _ : GenericFeedHandler => cfg.adapter.isIncremental msg = true) (fun _ _ => Iff.rfl) ?_ .id
  let next (room : Bool) (h : GenericFeedHandler) : GenericFeedHandler :=
    if room then h.drainThenSync cfg now "ws_buffered_bridge_complete" else h
  have hnext : ∀ room, Emits (next room) := fun room =>
    .ite (fun _ : GenericFeedHandler => room = true) (fun _ _ => Iff.rfl)
      (drainThenSync_emits cfg now "ws_buffered_bridge_complete") .id
  have hbridge : Emits fun h => next (h.bufferFrame cfg now msg).2 (h.bufferFrame cfg now msg).1 :=
    (bufferFrame_emits cfg now msg).bind hnext
  convert hbridge using 2 with h
  cases h.bufferFrame cfg now msg with
  | mk h room => cases room <;> rfl

/-- What a frame in `SYNCED` or `WAIT_BRIDGE` does depends on which of the two it is. -/
theorem onMessageSteady_emits (cfg : HandlerConfig) (now : Int) (msg : String) :
    Emits fun h => h.onMessageSteady cfg now msg := by
  unfold onMessageSteady
  cases incrementalOf cfg msg with
  | threw => exact .id
  | rejected => exact .id
  | accepted inc =>
      let settle (state : FeedSyncState) (h : GenericFeedHandler) : GenericFeedHandler :=
        if state = .waitBridge ∧ h.controller.isSynced = true then
          h.setState .synced "steady_state_bridge_complete"
        else h
      let next (state : FeedSyncState) (resync : Bool) (h : GenericFeedHandler) : GenericFeedHandler :=
        if resync then h.restartSync else settle state (h.maybePersistBook now "incremental_applied")
      have hsettle : ∀ state, Emits (settle state) := by
        intro state
        exact .ite (fun h : GenericFeedHandler => state = .waitBridge ∧ h.controller.isSynced = true)
          (fun _ _ => Iff.rfl) (setState_emits .synced "steady_state_bridge_complete") .id
      have hnext : ∀ state resync, Emits (next state resync) := by
        intro state resync
        exact .ite (fun _ : GenericFeedHandler => resync = true) (fun _ _ => Iff.rfl) restartSync_emits
          ((hsettle state).comp (maybePersistBook_emits now "incremental_applied"))
      have happly : EmitsFlag fun h : GenericFeedHandler =>
          h.applyIncrement cfg { inc with tsRecvNs := now } h.history.opened :=
        .select (f := fun session (h : GenericFeedHandler) =>
            h.applyIncrement cfg { inc with tsRecvNs := now } session)
          (fun h : GenericFeedHandler => h.history.opened) (fun _ _ => rfl)
          (applyIncrement_emits cfg { inc with tsRecvNs := now })
      exact .select (f := fun state (h : GenericFeedHandler) =>
          next state (h.applyIncrement cfg { inc with tsRecvNs := now } h.history.opened).2
            (h.applyIncrement cfg { inc with tsRecvNs := now } h.history.opened).1)
        (fun h : GenericFeedHandler => h.state) (fun _ _ => rfl) fun state => happly.bind (hnext state)

theorem onMessageLive_emits (cfg : HandlerConfig) (now : Int) (msg : String) :
    Emits fun h => h.onMessageLive cfg now msg := by
  unfold onMessageLive
  dsimp only
  generalize (if cfg.adapter.caps.wsSendsSnapshot then wsSnapshotOf cfg msg else .rejected) = snapshot
  cases snapshot with
  | threw => exact .id
  | accepted snap => exact onInterruptingSnapshot_emits cfg now snap
  | rejected =>
      exact .ite
        (fun h : GenericFeedHandler => cfg.adapter.caps.syncMode = .restAnchored ∧ h.state = .waitBridge)
        (fun _ _ => Iff.rfl) (onMessageBridge_emits cfg now msg) (onMessageSteady_emits cfg now msg)

theorem onWSMessage_emits (cfg : HandlerConfig) (now : Int) (msg : String) :
    Emits fun h => h.onWSMessage cfg now msg := by
  refine .ite (fun h : GenericFeedHandler => (!h.running || msg == "") = true) (fun _ _ => Iff.rfl) .id ?_
  have htouched : Emits fun h : GenericFeedHandler => { h with lastWsMessageNs := now } :=
    .quiet fun _ _ => rfl
  have hhandle : ∀ state, Emits (messageIn cfg now msg state) := by
    intro state
    cases state with
    | waitRestSnapshot => exact onMessageWaitRest_emits cfg now msg
    | waitWsSnapshot => exact onMessageWaitWs_emits cfg now msg
    | waitBridge => exact onMessageLive_emits cfg now msg
    | synced => exact onMessageLive_emits cfg now msg
    | disconnected => exact .id
    | connecting => exact .id
    | bootstrapping => exact .id
  have hstate : Emits fun h : GenericFeedHandler => messageIn cfg now msg h.state h :=
    .select (fun h : GenericFeedHandler => h.state) (fun _ _ => rfl) hhandle
  exact hstate.comp ((armWsWatchdog_emits cfg).comp htouched)

/-!
### Callbacks

A callback is put together from the parts above, so that its emission is put together from theirs.
-/

theorem reconnectHandler_emits (cfg : HandlerConfig) (wait : TimerWait) :
    Emits fun h => h.reconnectHandler cfg wait := by
  unfold reconnectHandler
  cases wait with
  | retrySnapshot =>
      exact .ite (fun h : GenericFeedHandler => h.running = true) (fun _ _ => Iff.rfl)
        (requestSnapshot_emits cfg) .id
  | reconnect gen =>
      refine .ite (fun h : GenericFeedHandler => (!h.running || gen != h.reconnectGen) = true)
        (fun _ _ => Iff.rfl) .id ?_
      exact .ite (fun _ : GenericFeedHandler => cfg.adapter.caps.requiresWsBootstrap = true)
        (fun _ _ => Iff.rfl)
        ((bootstrapWS_emits cfg).comp (setState_emits .bootstrapping "scheduled_rebootstrap"))
        (connectWS_emits.comp (setState_emits .connecting "scheduled_reconnect"))

theorem watchdogHandler_emits (cfg : HandlerConfig) (now : Int) (gen : Nat) :
    Emits fun h => h.watchdogHandler cfg now gen := by
  refine .ite (fun h : GenericFeedHandler => (!h.running || gen != h.watchdogGen) = true)
    (fun _ _ => Iff.rfl) .id ?_
  refine .ite (fun h : GenericFeedHandler =>
      h.state = .disconnected ∨ h.state = .connecting ∨ h.state = .bootstrapping) (fun _ _ => Iff.rfl) .id ?_
  exact .ite (fun h : GenericFeedHandler => 0 < h.lastWsMessageNs ∧
      cfg.wsStaleAfterMs * 1000000 ≤ wrap64 (now - h.lastWsMessageNs)) (fun _ _ => Iff.rfl) restartSync_emits .id

theorem onReconnectTimer_emits (cfg : HandlerConfig) : Emits fun h => h.onReconnectTimer cfg := by
  have hcleared : Emits fun h : GenericFeedHandler => { h with reconnectTimer := none } :=
    .quiet fun _ _ => rfl
  have hhandle : ∀ timer, Emits (reconnectWaited cfg timer) := by
    intro timer
    cases timer with
    | none => exact .id
    | some wait => exact (reconnectHandler_emits cfg wait).comp hcleared
  have hsame : (fun h : GenericFeedHandler => h.onReconnectTimer cfg) =
      fun h => reconnectWaited cfg h.reconnectTimer h := by
    funext h
    refine (onReconnectTimer_eq cfg h).trans ?_
    cases h.reconnectTimer <;> rfl
  rw [Emits, hsame]
  exact .select (fun h : GenericFeedHandler => h.reconnectTimer) (fun _ _ => rfl) hhandle

theorem onWatchdogTimer_emits (cfg : HandlerConfig) (now : Int) : Emits fun h => h.onWatchdogTimer cfg now := by
  have hcleared : Emits fun h : GenericFeedHandler => { h with watchdogTimer := none } :=
    .quiet fun _ _ => rfl
  have hhandle : ∀ timer, Emits (watchdogWaited cfg now timer) := by
    intro timer
    cases timer with
    | none => exact .id
    | some gen => exact (watchdogHandler_emits cfg now gen).comp hcleared
  have hsame : (fun h : GenericFeedHandler => h.onWatchdogTimer cfg now) =
      fun h => watchdogWaited cfg now h.watchdogTimer h := by
    funext h
    refine (onWatchdogTimer_eq cfg now h).trans ?_
    cases h.watchdogTimer <;> rfl
  rw [Emits, hsame]
  exact .select (fun h : GenericFeedHandler => h.watchdogTimer) (fun _ _ => rfl) hhandle

theorem wsOpened_emits (cfg : HandlerConfig) (now : Int) : Emits fun h => h.wsOpened cfg now := by
  let taken (outcome : WsClient String × Bool) (h : GenericFeedHandler) : GenericFeedHandler :=
    if outcome.2 then
      { h with ws := outcome.1, history := { h.history with opened := h.history.opened + 1 } }.onWSOpen cfg now
    else { h with ws := outcome.1 }
  have htaken : ∀ outcome, Emits (taken outcome) := by
    intro outcome
    have hopened : Emits fun h : GenericFeedHandler =>
        { h with ws := outcome.1, history := { h.history with opened := h.history.opened + 1 } } :=
      .quiet fun _ _ => rfl
    exact .ite (fun _ : GenericFeedHandler => outcome.2 = true) (fun _ _ => Iff.rfl)
      ((onWSOpen_emits cfg now).comp hopened) (.quiet fun _ _ => rfl)
  exact .select (f := taken) (fun h : GenericFeedHandler => h.ws.handshakeDone) (fun _ _ => rfl) htaken

theorem restDone_emits (cfg : HandlerConfig) (now : Int) (outcome : HttpOutcome) :
    Emits fun h => h.restDone cfg now outcome := by
  have hcleared : Emits fun h : GenericFeedHandler => { h with rest := none } :=
    .quiet fun _ _ => rfl
  have hhandle : ∀ rest, Emits (requestDone cfg now outcome rest) := by
    intro rest
    cases rest with
    | none => exact .id
    | some request =>
        cases request with
        | post => exact (onBootstrapResponse_emits cfg outcome).comp hcleared
        | get session => exact (onSnapshotDone_emits cfg now session outcome).comp hcleared
  exact .select (f := requestDone cfg now outcome) (fun h : GenericFeedHandler => h.rest) (fun _ _ => rfl)
    hhandle

/-- `stop` closes the sinks, whichever there are; the status of a stopped feed reaches none of them. -/
theorem stop_emits (tlsUp : Bool) : Emits fun h => h.stop tlsUp := by
  intro h
  have hsilent : ∀ before : GenericFeedHandler, before.sinksRunning = false →
      before.setState .disconnected "stop" = { before with state := .disconnected } := by
    intro before hsinks
    rw [setState]
    split
    · rename_i hsame
      rw [← hsame]
    · rw [publish, if_neg (by simp [hsinks])]
      rfl
  refine ⟨h.stop tlsUp, [.closed], fun k => ?_⟩
  change (h.withSinks k).stop tlsUp = (h.stop tlsUp).withSinks (k.record .closed)
  rw [stop, stop]
  dsimp only
  rw [hsilent _ rfl, hsilent _ rfl]
  rfl

theorem step_emits (cfg : HandlerConfig) (e : FeedEvent) : Emits fun h => h.step cfg e := by
  cases e with
  | wsOpen now => exact wsOpened_emits cfg now
  | wsMessage now msg =>
      exact .ite (fun h : GenericFeedHandler => h.ws.opened = true) (fun _ _ => Iff.rfl)
        (onWSMessage_emits cfg now msg) .id
  | wsClosed => exact notified_emits WsClient.readClosed
  | wsFailed => exact notified_emits WsClient.ioFailed
  | wsConnectFailed => exact notified_emits WsClient.connectFailed
  | wsConnectTimeout => exact notified_emits WsClient.fail
  | wsCloseDone => exact notified_emits WsClient.closeDone
  | restDone now outcome => exact restDone_emits cfg now outcome
  | reconnectTimer => exact onReconnectTimer_emits cfg
  | watchdogTimer now => exact onWatchdogTimer_emits cfg now
  | stop tlsUp => exact stop_emits tlsUp

end GenericFeedHandler

/-! ### The whole runtime

The timers of the runtime and the count of its connects depend on what the handler is doing, and so on no
sink either. -/

namespace FeedRuntime

open GenericFeedHandler

/-- The runtime of a handler with other sinks. -/
def withSinks (k : Sinks) (r : FeedRuntime) : FeedRuntime := { r with handler := r.handler.withSinks k }

/-- How often `connect` is called does not depend on the sinks. -/
theorem connectCalls_withSinks (cfg : HandlerConfig) (k : Sinks) (h : GenericFeedHandler) (e : FeedEvent) :
    (h.withSinks k).connectCalls cfg e = h.connectCalls cfg e := by
  cases e <;> rfl

theorem step_callback (cfg : HandlerConfig) (r : FeedRuntime) {e : FeedEvent}
    (going : ∀ tlsUp, e ≠ .stop tlsUp) :
    r.step cfg (.callback e) = { r with
      handler := r.handler.step cfg e
      connects := r.connects + r.handler.connectCalls cfg e } := by
  cases e with
  | stop tlsUp => exact absurd rfl (going tlsUp)
  | _ => rfl

/-- Everything that the I/O thread runs. -/
theorem step_emits (cfg : HandlerConfig) (e : RuntimeEvent) :
    Emission.Emits withSinks Sinks.record fun r => r.step cfg e := by
  intro r
  cases e with
  | callback event =>
      obtain ⟨after, calls, hcalls⟩ := GenericFeedHandler.step_emits cfg event r.handler
      rcases event.stop_or_going with ⟨tlsUp, rfl⟩ | hgoing
      · refine ⟨{ r with handler := after, heartbeatArmed := false }, calls, fun k => ?_⟩
        exact congrArg (fun h => { r with handler := h, heartbeatArmed := false }) (hcalls k)
      · refine ⟨{ r with handler := after, connects := r.connects + r.handler.connectCalls cfg event }, calls,
          fun k => ?_⟩
        simp only [step_callback cfg _ hgoing, withSinks, connectCalls_withSinks]
        rw [← hcalls]
  | lateReconnect wait =>
      obtain ⟨after, calls, hcalls⟩ := reconnectHandler_emits cfg wait r.handler
      refine ⟨{ r with handler := after, connects := r.connects + r.handler.reconnectCalls cfg wait }, calls,
        fun k => ?_⟩
      have hconnects : (r.handler.withSinks k).reconnectCalls cfg wait = r.handler.reconnectCalls cfg wait := by
        cases wait <;> rfl
      simp only [step, withSinks, hconnects]
      rw [← hcalls]
  | lateWatchdog now gen =>
      obtain ⟨after, calls, hcalls⟩ := watchdogHandler_emits cfg now gen r.handler
      exact ⟨{ r with handler := after }, calls, fun k => congrArg (fun h => { r with handler := h }) (hcalls k)⟩
  | heartbeat ec =>
      have hbeat : Emission.Emits withSinks Sinks.record fun r => r.step cfg (.heartbeat ec) :=
        .ite (fun r : FeedRuntime => (ec || !r.handler.running) = true) (fun _ _ => Iff.rfl) .id
          (.quiet fun _ _ => rfl)
      exact hbeat r

end FeedRuntime

/-! ### Configurations

Which sinks a feed has is looked at by `init` only, and a feed that is started with other sinks is the same
feed with these attached. -/

/-- The same feed with other sinks. -/
def HandlerConfig.withSinks (file brain : Bool) (cfg : HandlerConfig) : HandlerConfig :=
  { cfg with persistOpen := file, brainConfigured := brain }

variable (file brain : Bool) (cfg : HandlerConfig)

namespace GenericFeedHandler

theorem drainLoop_withSinks (now : Int) (msgs : List BufferedMsg) (h : GenericFeedHandler) :
    drainLoop (cfg.withSinks file brain) now msgs h = drainLoop cfg now msgs h := by
  induction msgs generalizing h with
  | nil => rfl
  | cons msg rest ih =>
      simp only [drainLoop, ih]
      rfl

theorem drainThenSync_withSinks : drainThenSync (cfg.withSinks file brain) = drainThenSync cfg := by
  funext now reason h
  simp only [drainThenSync, drainBufferedIncrementals, drainLoop_withSinks]
  rfl

theorem onSnapshotDone_withSinks : onSnapshotDone (cfg.withSinks file brain) = onSnapshotDone cfg := by
  funext now session outcome h
  simp only [onSnapshotDone, onSnapshotResponse, drainThenSync_withSinks]
  rfl

theorem onWSMessage_withSinks : onWSMessage (cfg.withSinks file brain) = onWSMessage cfg := by
  funext now msg h
  simp only [onWSMessage, onMessageWaitWs, onMessageLive, onMessageBridge, drainThenSync_withSinks]
  rfl

theorem step_withSinks : step (cfg.withSinks file brain) = step cfg := by
  funext h e
  cases e <;> simp only [step, restDone, onSnapshotDone_withSinks, onWSMessage_withSinks] <;> rfl

end GenericFeedHandler

namespace FeedRuntime

open GenericFeedHandler

theorem step_withSinks : step (cfg.withSinks file brain) = step cfg := by
  funext r e
  cases e with
  | callback event => cases event <;> simp only [step, GenericFeedHandler.step_withSinks] <;> rfl
  | lateReconnect wait => rfl
  | lateWatchdog now gen => rfl
  | heartbeat ec => rfl

/-- What `start` does once the brain sinks are started. -/
def firstConnect (cfg : HandlerConfig) (h : GenericFeedHandler) : GenericFeedHandler :=
  if cfg.adapter.caps.requiresWsBootstrap then
    (h.setState .bootstrapping "venue_bootstrap_required").bootstrapWS cfg
  else h.connectWS

theorem firstConnect_emits : Emits (firstConnect cfg) :=
  .ite (fun _ : GenericFeedHandler => cfg.adapter.caps.requiresWsBootstrap = true) (fun _ _ => Iff.rfl)
    ((bootstrapWS_emits cfg).comp (setState_emits .bootstrapping "venue_bootstrap_required")) connectWS_emits

/-- A fresh handler that runs, its brain sinks started. -/
def fresh (cfg : HandlerConfig) : GenericFeedHandler :=
  { init cfg with running := true, state := .connecting, sinksRunning := (init cfg).brainSinks }

theorem handlerStarted_eq : GenericFeedHandler.started cfg = firstConnect cfg (fresh cfg) := by
  have hset : { init cfg with running := true }.setState .connecting "start" =
      { init cfg with running := true, state := .connecting } := by
    simp [setState, publish, init]
  rw [GenericFeedHandler.started, GenericFeedHandler.start, if_neg (by simp [init]), hset]
  rfl

/-- The sinks of a feed that has just been started. -/
def firstSinks (file brain : Bool) : Sinks := { file := file, brain := brain, running := brain }

/-- Feeds that are started with different sinks are one feed with these attached. -/
theorem started_eq :
    ∃ r : FeedRuntime, ∃ calls, ∀ file brain,
      started (cfg.withSinks file brain) = r.withSinks (List.foldl Sinks.record (firstSinks file brain) calls) := by
  obtain ⟨after, calls, hcalls⟩ := firstConnect_emits cfg (fresh cfg)
  refine ⟨{ handler := after, heartbeatArmed := !cfg.adapter.caps.requiresWsBootstrap
            connects := 0 + if cfg.adapter.caps.requiresWsBootstrap then 0 else 1 }, calls, fun file brain => ?_⟩
  have hfresh : fresh (cfg.withSinks file brain) = (fresh cfg).withSinks (firstSinks file brain) := by
    cases file <;> cases brain <;> rfl
  have hhandler : GenericFeedHandler.started (cfg.withSinks file brain) =
      after.withSinks (calls.foldl Sinks.record (firstSinks file brain)) := by
    rw [handlerStarted_eq, hfresh]
    exact hcalls _
  have hfirst : ¬ (init (cfg.withSinks file brain)).running = true := by simp [init]
  rw [withSinks, ← hhandler, started, start]
  exact if_neg hfirst

/-- So they are after every run. -/
theorem run_eq (events : List RuntimeEvent) :
    ∃ r : FeedRuntime, ∃ calls, ∀ file brain,
      Runs.run (step (cfg.withSinks file brain)) (started (cfg.withSinks file brain)) events =
        r.withSinks (List.foldl Sinks.record (firstSinks file brain) calls) := by
  obtain ⟨first, calls, hfirst⟩ := started_eq cfg
  obtain ⟨last, more, hlast⟩ := Emission.Emits.run (fun e (_ : e ∈ events) => step_emits cfg e) first
  refine ⟨last, calls ++ more, fun file brain => ?_⟩
  rw [step_withSinks, hfirst, List.foldl_append]
  exact hlast _

end FeedRuntime

end ZidaBot.Feed
