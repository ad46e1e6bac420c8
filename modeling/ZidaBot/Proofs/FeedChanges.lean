/-
Module: ZidaBot.Proofs.FeedChanges
Purpose: What the callbacks without market data are made of.  Opens, closes, timers and the bootstrap
  response set a state in which no frame reaches the controller, issue the snapshot request, restart the
  feed, or touch the clients and timers alone.  Together with the moves of the data callbacks this says of
  every callback but `stop` what it can do.
Trusted boundary: none
Main exports: setup, Idle, Change, Changes, Changes.invariant, Publishing, StepCase, step_cases,
  step_invariant, step_published, started_changes
-/
import ZidaBot.Proofs.FeedMoves
import ZidaBot.Proofs.OrderBookController

namespace ZidaBot.Feed

open GenericFeedHandler OrderBookController

/-- What `init` and `start` set up and only `stop` changes. -/
def GenericFeedHandler.setup (h : GenericFeedHandler) : Bool × Bool × Bool × Nat × Nat :=
  (h.running, h.brainSinks, h.sinksRunning, h.persistBookTop, h.persistBookEveryUpdates)

/-- The states of a running feed in which no frame reaches the controller. -/
def Idle (state : FeedSyncState) : Prop :=
  state ≠ .disconnected ∧ state ≠ .waitBridge ∧ state ≠ .synced

instance : DecidablePred Idle := fun _ => inferInstanceAs (Decidable (_ ∧ _))

variable (cfg : HandlerConfig) (retried : Prop)

/-- One change made without market data.  `retried` says that the callback is the retry of a rate-limited
    snapshot request. -/
inductive Change : GenericFeedHandler → GenericFeedHandler → Prop where
  | quiet (h h' : GenericFeedHandler) (setup : h'.setup = h.setup)
      (controller : h'.controller = h.controller) (published : h'.published = h.published)
      (state : h'.state = h.state)
      (rest : ∀ session, h'.rest = some (.get session) → h.rest = some (.get session))
      (timer : h'.reconnectTimer = some .retrySnapshot → h.reconnectTimer = some .retrySnapshot) :
      Change h h'
  | state (h : GenericFeedHandler) (next : FeedSyncState) (reason : String) (idle : Idle next)
      (legal : next = .waitWsSnapshot → cfg.adapter.caps.syncMode = .wsAuthoritative) :
      Change h (h.setState next reason)
  | request (h : GenericFeedHandler) (waiting : h.state = .waitRestSnapshot)
      (asked : cfg.adapter.caps.syncMode = .restAnchored ∨ retried) :
      Change h { h with rest := some (.get h.history.opened) }
  | restart (h : GenericFeedHandler) : Change h h.restartSync

/-- Any number of changes. -/
abbrev Changes : GenericFeedHandler → GenericFeedHandler → Prop :=
  Relation.ReflTransGen (Change cfg retried)

variable {cfg retried}

/-- What every change keeps, a callback keeps. -/
theorem Changes.invariant {property : GenericFeedHandler → Prop}
    (preserved : ∀ h h', Change cfg retried h h' → property h → property h')
    {h h' : GenericFeedHandler} (changes : Changes cfg retried h h') (holds : property h) :
    property h' := by
  induction changes with
  | refl => exact holds
  | tail _ change ih => exact preserved _ _ change ih

theorem setState_state (h : GenericFeedHandler) (next : FeedSyncState) (reason : String) :
    (h.setState next reason).state = next := by
  obtain ⟨delay, statuses, -, hsame⟩ := setState_eq h next reason
  rw [hsame]

namespace GenericFeedHandler

variable {h : GenericFeedHandler} {now : Int}

/-- Only clients and timers differ, and no snapshot is requested. -/
theorem quiet_changes {h' : GenericFeedHandler} (setup : h'.setup = h.setup)
    (controller : h'.controller = h.controller) (published : h'.published = h.published)
    (state : h'.state = h.state)
    (rest : ∀ session, h'.rest = some (.get session) → h.rest = some (.get session))
    (timer : h'.reconnectTimer = some .retrySnapshot → h.reconnectTimer = some .retrySnapshot) :
    Changes cfg retried h h' :=
  .single (.quiet h h' setup controller published state rest timer)

theorem requestSnapshot_changes (asked : cfg.adapter.caps.syncMode = .restAnchored ∨ retried) :
    Changes cfg retried h (h.requestSnapshot cfg) := by
  have hset : Changes cfg retried h (h.setState .waitRestSnapshot "request_snapshot") :=
    .single (.state h _ _ (by decide) fun h => by cases h)
  rw [requestSnapshot]
  split
  · exact hset.tail (.restart _)
  · exact hset.tail (.request _ (setState_state _ _ _) asked)

theorem bootstrapWS_changes : Changes cfg retried h (h.bootstrapWS cfg) := by
  rw [bootstrapWS]
  split
  · exact .refl
  · split
    · exact .single (.restart h)
    · split
      · exact .single (.restart h)
      · exact quiet_changes rfl rfl rfl rfl (fun _ h => by cases h) id

theorem onBootstrapResponse_changes (outcome : HttpOutcome) :
    Changes cfg retried h (h.onBootstrapResponse cfg outcome) := by
  rw [onBootstrapResponse]
  split
  · exact .single (.restart h)
  · split
    · exact .single (.restart h)
    · exact quiet_changes rfl rfl rfl rfl (fun _ => id) id

theorem onWSOpen_changes : Changes cfg retried h (h.onWSOpen cfg now) := by
  cases hrunning : h.running with
  | false =>
      rw [onWSOpen, if_pos (by simp [hrunning])]
  | true =>
      obtain ⟨gen, timer, outbox, inFlight, heq⟩ := onWSOpen_eq cfg now hrunning
      have hopened : Changes cfg retried h { h with
          watchdogGen := gen, watchdogTimer := timer, lastWsMessageNs := now
          ws := { h.ws with outbox := outbox, inFlight := inFlight } } :=
        quiet_changes rfl rfl rfl rfl (fun _ => id) id
      rw [heq _ rfl]
      cases hmode : cfg.adapter.caps.syncMode with
      | restAnchored =>
          exact (hopened.tail (.state _ .waitRestSnapshot _ (by decide) fun h => by cases h)).trans
            (requestSnapshot_changes (Or.inl hmode))
      | wsAuthoritative => exact hopened.tail (.state _ .waitWsSnapshot _ (by decide) fun _ => hmode)

theorem wsOpened_changes : Changes cfg retried h (h.wsOpened cfg now) := by
  rw [wsOpened]
  dsimp only
  split
  · have hopened : Changes cfg retried h { h with
        ws := h.ws.handshakeDone.1, history := { h.history with opened := h.history.opened + 1 } } :=
      quiet_changes rfl rfl rfl rfl (fun _ => id) id
    exact hopened.trans onWSOpen_changes
  · exact quiet_changes rfl rfl rfl rfl (fun _ => id) id

theorem onWSClose_changes : Changes cfg retried h h.onWSClose := by
  have hdisarmed : Changes cfg retried h h.disarmWsWatchdog :=
    quiet_changes rfl rfl rfl rfl (fun _ => id) id
  rw [onWSClose]
  split
  · exact .refl
  · split
    · exact quiet_changes rfl rfl rfl rfl (fun _ => id) id
    · exact hdisarmed.tail (.restart _)

theorem notified_changes (outcome : WsClient String × Bool) :
    Changes cfg retried h (h.notified outcome) := by
  have hclient : Changes cfg retried h { h with ws := outcome.1 } :=
    quiet_changes rfl rfl rfl rfl (fun _ => id) id
  rw [notified]
  split
  · exact hclient.trans onWSClose_changes
  · exact hclient

theorem onReconnectTimer_changes :
    Changes cfg (h.reconnectTimer = some .retrySnapshot) h (h.onReconnectTimer cfg) := by
  have hfired : Changes cfg (h.reconnectTimer = some .retrySnapshot) h { h with reconnectTimer := none } :=
    quiet_changes rfl rfl rfl rfl (fun _ => id) fun h => by cases h
  rw [onReconnectTimer]
  split
  · exact .refl
  · rename_i hretry
    dsimp only
    split
    · exact hfired.trans (requestSnapshot_changes (Or.inr hretry))
    · exact hfired
  · dsimp only
    split
    · exact hfired
    · split
      · exact (hfired.tail (.state _ .bootstrapping _ (by decide) fun h => by cases h)).trans bootstrapWS_changes
      · exact (hfired.tail (.state _ .connecting _ (by decide) fun h => by cases h)).trans
          (quiet_changes rfl rfl rfl rfl (fun _ => id) id)

theorem onWatchdogTimer_changes : Changes cfg retried h (h.onWatchdogTimer cfg now) := by
  have hfired : Changes cfg retried h { h with watchdogTimer := none } :=
    quiet_changes rfl rfl rfl rfl (fun _ => id) id
  rw [onWatchdogTimer]
  split
  · exact .refl
  · dsimp only
    split
    · exact hfired
    · split
      · exact hfired
      · split
        · exact hfired.tail (.restart _)
        · exact hfired

end GenericFeedHandler

/-!
### What is published with a change of state

Statuses and data take the same way to the sinks. Here each function is told apart by what it adds to
`published`.
-/

/-- The feed runs, and its brain sinks take what it publishes. -/
structure Publishing (h : GenericFeedHandler) : Prop where
  running : h.running = true
  brainSinks : h.brainSinks = true
  sinksRunning : h.sinksRunning = true

namespace Publishing

variable {h h' : GenericFeedHandler}

theorem publish_eq (up : Publishing h) (event : PubEvent) :
    h.publish event = { h with published := h.published ++ [event] } := by
  rw [publish, if_pos (by simp [up.brainSinks, up.sinksRunning])]

theorem persist_eq (up : Publishing h) (event : PubEvent) :
    h.persist event = { h with
      published := h.published ++ [event], persisted := (h.write event).persisted } := by
  rw [persist, write]
  split
  · rw [publish, if_pos (by simp [up.brainSinks, up.sinksRunning])]
  · rw [up.publish_eq]

theorem of_setup (up : Publishing h) (same : h'.setup = h.setup) : Publishing h' := by
  simp only [GenericFeedHandler.setup, Prod.mk.injEq] at same
  exact ⟨same.1.trans up.running, same.2.1.trans up.brainSinks, same.2.2.1.trans up.sinksRunning⟩

theorem of_fixedPart (up : Publishing h) (same : h'.fixedPart = h.fixedPart) : Publishing h' := by
  simp only [fixedPart, Prod.mk.injEq] at same
  exact ⟨same.1.trans up.running, same.2.2.2.1.trans up.brainSinks, same.2.2.2.2.trans up.sinksRunning⟩

theorem applySnapshot_published (up : Publishing h) (snap : GenericSnapshotFormat)
    (kind : BaselineKind) (source : String) (session : Nat) :
    (h.applySnapshot cfg snap kind source session).1.published =
      h.published ++ [.snapshot snap source] := by
  rw [applySnapshot, up.persist_eq]

theorem applyIncrement_published (up : Publishing h) (inc : GenericIncrementalFormat)
    (session : Nat) :
    (h.applyIncrement cfg inc session).1.published =
      h.published ++ [.incremental inc "ws_incremental"] := by
  have hpersist : ∀ controller history,
      ({ h with controller := controller, history := history }.persist
        (.incremental inc "ws_incremental")).published = h.published ++ [.incremental inc "ws_incremental"] := by
    intro controller history
    have hup : Publishing { h with controller := controller, history := history } :=
      ⟨up.running, up.brainSinks, up.sinksRunning⟩
    rw [hup.persist_eq]
  exact hpersist _ _

/-- A status is published exactly if the state changes. -/
theorem setState_published (up : Publishing h) (next : FeedSyncState) (reason : String) :
    (h.setState next reason).published =
      if h.state = next then h.published else h.published ++ [.status next.feedState reason] := by
  rw [setState]
  split
  · rfl
  · rw [publish, if_pos (by simp [up.brainSinks, up.sinksRunning])]

/-- A restart publishes a status, unless the feed is connecting already. -/
theorem restartSync_published (up : Publishing h) :
    h.restartSync.published = if h.state = .connecting then h.published
      else h.published ++ [.status FeedSyncState.connecting.feedState "restart_sync"] := by
  let reset : GenericFeedHandler := { h.disarmWsWatchdog with
    buffer := [], controller := h.controller.resetBook
    history := { h.history with baseline := none } }
  have hreset : Publishing reset := ⟨up.running, up.brainSinks, up.sinksRunning⟩
  have hset := hreset.setState_published .connecting "restart_sync"
  rw [restartSync, if_neg (by simp [up.running])]
  dsimp only
  split
  · exact hset
  · exact hset

end Publishing

theorem Change.publishing {h h' : GenericFeedHandler} (change : Change cfg retried h h')
    (up : Publishing h) : Publishing h' := by
  cases change with
  | quiet _ setup controller published state => exact up.of_setup setup
  | state next reason idle => exact up.of_fixedPart (fixedPart_setState next reason)
  | request => exact up.of_setup rfl
  | restart => exact up.of_fixedPart fixedPart_restartSync

/-!
### What the controller makes of the data

The handler passes snapshots and increments on as they are, and only asks whether a resync is needed.
-/

section Data

variable {h : GenericFeedHandler}

/-- A snapshot that is not refused is loaded. -/
theorem applySnapshot_accepted {snap : GenericSnapshotFormat} {kind : BaselineKind} {source : String}
    {session : Nat} (accepted : (h.applySnapshot cfg snap kind source session).2 = false) :
    (h.applySnapshot cfg snap kind source session).1.controller =
      h.controller.loaded snap (baselineState kind) := by
  obtain ⟨published, persisted, hsame⟩ := applySnapshot_eq h cfg snap kind source session
  rw [hsame] at accepted ⊢
  rcases onSnapshot_cases cfg.controllerConfig h.controller snap kind with ⟨hrefused, -⟩ | hloaded
  · rw [hrefused] at accepted
    cases accepted
  · rw [hloaded]

/-- An increment that asks for no resync is skipped, or leaves the controller synced. -/
theorem applyIncrement_accepted {inc : GenericIncrementalFormat} {session : Nat}
    (accepted : (h.applyIncrement cfg inc session).2 = false) :
    (h.applyIncrement cfg inc session).1.controller = h.controller ∨
      (h.applyIncrement cfg inc session).1.controller.isSynced = true := by
  obtain ⟨published, persisted, history, hsame⟩ := applyIncrement_eq h cfg inc session
  rw [hsame] at accepted ⊢
  have haction : (h.controller.onIncrement cfg.controllerConfig inc).action = .none := by
    cases hpossible : (h.controller.onIncrement cfg.controllerConfig inc).action with
    | none => rfl
    | needResync => simp [hpossible] at accepted
  exact (onIncrement_accepted haction).imp_right fun hsynced => by simp [isSynced, hsynced]

end Data

/-!
### Every callback

Every callback but `stop` is a sequence of moves or of changes. The rule for invariants is stated once, so
that an invariant needs one lemma for each move and each change.
-/

theorem FeedEvent.stop_or_going (e : FeedEvent) :
    (∃ tlsUp, e = .stop tlsUp) ∨ ∀ tlsUp, e ≠ .stop tlsUp := by
  rcases Classical.em (∃ tlsUp, e = .stop tlsUp) with hstop | hgoing
  · exact Or.inl hstop
  · exact Or.inr fun tlsUp hsame => hgoing ⟨tlsUp, hsame⟩

variable (cfg) in
/-- What a callback does to a handler. -/
inductive StepCase (h : GenericFeedHandler) : FeedEvent → GenericFeedHandler → Prop where
  | stopped (tlsUp : Bool) : StepCase h (.stop tlsUp) (h.stop tlsUp)
  | changed (e : FeedEvent) (after : GenericFeedHandler)
      (changes : Changes cfg (h.reconnectTimer = some .retrySnapshot) h after) : StepCase h e after
  | frame (now : Int) (msg : String) (opened : h.ws.opened = true) :
      StepCase h (.wsMessage now msg) (h.onWSMessage cfg now msg)
  | response (now : Int) (outcome : HttpOutcome) (session : Nat)
      (asked : h.rest = some (.get session)) :
      StepCase h (.restDone now outcome) ({ h with rest := none }.onSnapshotDone cfg now session outcome)

namespace GenericFeedHandler

theorem step_cases (cfg : HandlerConfig) (h : GenericFeedHandler) (e : FeedEvent) :
    StepCase cfg h e (h.step cfg e) := by
  cases e with
  | wsOpen now => exact .changed _ _ wsOpened_changes
  | wsMessage now msg =>
      rw [step]
      split
      · rename_i hopened
        exact .frame now msg hopened
      · exact .changed _ _ .refl
  | wsClosed => exact .changed _ _ (notified_changes _)
  | wsFailed => exact .changed _ _ (notified_changes _)
  | wsConnectFailed => exact .changed _ _ (notified_changes _)
  | wsConnectTimeout => exact .changed _ _ (notified_changes _)
  | wsCloseDone => exact .changed _ _ (notified_changes _)
  | restDone now outcome =>
      rw [step, restDone]
      split
      · exact .changed _ _ .refl
      · have hdone : Changes cfg (h.reconnectTimer = some .retrySnapshot) h { h with rest := none } :=
          quiet_changes rfl rfl rfl rfl (fun _ h => by cases h) id
        exact .changed _ _ (hdone.trans (onBootstrapResponse_changes outcome))
      · rename_i session hasked
        exact .response now outcome session hasked
  | reconnectTimer => exact .changed _ _ onReconnectTimer_changes
  | watchdogTimer now => exact .changed _ _ onWatchdogTimer_changes
  | stop tlsUp => exact .stopped tlsUp

end GenericFeedHandler

/-- The rule for invariants: what every change and every move keeps, every callback but `stop` keeps. -/
theorem step_invariant {property : GenericFeedHandler → Prop}
    (changed : ∀ retried h h', Change cfg retried h h' → property h → property h')
    (moved : ∀ h h', Move cfg (fun _ _ => True) (fun _ _ => True) h h' → property h → property h')
    {h : GenericFeedHandler} (holds : property h) {e : FeedEvent} (going : ∀ tlsUp, e ≠ .stop tlsUp) :
    property (h.step cfg e) := by
  have hcase := step_cases cfg h e
  generalize h.step cfg e = after at hcase
  cases hcase with
  | stopped tlsUp => exact absurd rfl (going tlsUp)
  | changed _ _ changes => exact changes.invariant (changed _) holds
  | frame now msg opened => exact (onWSMessage_any cfg now msg h).invariant moved holds
  | response now outcome session asked =>
      have hanswered : property { h with rest := none } :=
        changed False h _ (.quiet _ _ rfl rfl rfl rfl (fun _ h => by cases h) id) holds
      exact (onSnapshotDone_any cfg now session outcome _).invariant moved hanswered

theorem Change.published_grows {h h' : GenericFeedHandler} (change : Change cfg retried h h') :
    h.published <+: h'.published := by
  cases change with
  | quiet _ setup controller published => exact published ▸ List.prefix_rfl
  | state next reason => exact setState_grows h next reason
  | request => exact List.prefix_rfl
  | restart => exact restartSync_grows h

/-- No callback takes back what was published. -/
theorem GenericFeedHandler.step_published (cfg : HandlerConfig) (h : GenericFeedHandler) (e : FeedEvent) :
    ∃ fresh, (h.step cfg e).published = h.published ++ fresh := by
  have hchanged : ∀ retried before after, Change cfg retried before after →
      h.published <+: before.published → h.published <+: after.published :=
    fun _ _ _ change hgrown => hgrown.trans change.published_grows
  have hmoved : ∀ before after, Move cfg (fun _ _ => True) (fun _ _ => True) before after →
      h.published <+: before.published → h.published <+: after.published :=
    fun _ _ move hgrown => hgrown.trans move.published_grows
  rcases e.stop_or_going with ⟨tlsUp, rfl⟩ | hgoing
  · obtain ⟨-, -, hpublished, -⟩ := stop_spec (h := h) tlsUp
    exact ⟨[], hpublished.trans (List.append_nil _).symm⟩
  · obtain ⟨fresh, hfresh⟩ := step_invariant hchanged hmoved List.prefix_rfl hgoing
    exact ⟨fresh, hfresh.symm⟩

/-- `start` on a fresh handler: the first status is not published, since the sinks do not run yet, and what
    follows are changes. -/
theorem started_changes (cfg : HandlerConfig) :
    Changes cfg False
      { init cfg with running := true, state := .connecting, sinksRunning := (init cfg).brainSinks }
      (started cfg) := by
  have hset : { init cfg with running := true }.setState .connecting "start" =
      { init cfg with running := true, state := .connecting } := by
    simp [setState, publish, init]
  rw [started, start, if_neg (by simp [init]), hset]
  dsimp only
  split
  · exact (Relation.ReflTransGen.single (.state _ .bootstrapping _ (by decide) fun h => by cases h)).trans
      bootstrapWS_changes
  · exact quiet_changes rfl rfl rfl rfl (fun _ => id) id

end ZidaBot.Feed
