/-
Module: ZidaBot.Proofs.FeedMoves
Purpose: What the data callbacks of the feed handler are made of.  A frame or a snapshot response runs
  through buffers, drains and re-baselines, yet each of these is a sequence of a few moves: a state is set,
  a book state is published, a baseline is loaded, an increment is applied, or the feed is restarted.  An
  invariant of the handler is checked against the moves once and then holds across the callbacks.
  Two parameters say what is known of the session a baseline (`Base`) or a frame (`Frame`) belongs to.
Trusted boundary: none
Main exports: SnapshotFrom, IncrementFrom, Move, Moves, Moves.invariant, onSnapshotDone_moves,
  onWSMessage_moves, Moves.fixedPart, Moves.state_cases
-/
import ZidaBot.Feed.GenericFeedHandler
import Mathlib.Logic.Relation

namespace ZidaBot.Feed

open GenericFeedHandler

/-!
### Moves

A move says which data it takes and in which state. Everything else that a data callback writes, such as
buffers, counters and timers, is left open by its moves.
-/

/-- A snapshot that one of the two snapshot parsers has accepted, stamped with its time of arrival. -/
def SnapshotFrom (cfg : HandlerConfig) (snap : GenericSnapshotFormat) : Prop :=
  ∃ text parsed now, snap = { parsed with tsRecvNs := now } ∧
    (cfg.adapter.parseSnapshot text = .accepted parsed ∨
      cfg.adapter.parseWsSnapshot text = .accepted parsed)

/-- An incremental that the parser has accepted, stamped with its time of arrival. -/
def IncrementFrom (cfg : HandlerConfig) (inc : GenericIncrementalFormat) : Prop :=
  ∃ text parsed now, inc = { parsed with tsRecvNs := now } ∧
    cfg.adapter.parseIncremental text = .accepted parsed

/-- The states in which a frame can reach the controller. -/
def Live (h : GenericFeedHandler) : Prop := h.state = .waitBridge ∨ h.state = .synced

variable (cfg : HandlerConfig) (Base Frame : GenericFeedHandler → Nat → Prop)

/-- One move of a data callback. -/
inductive Move : GenericFeedHandler → GenericFeedHandler → Prop where
  | quiet (h : GenericFeedHandler) (gen : Nat) (timer : Option Nat) (last : Int) (updates : Nat) :
      Move h { h with
        watchdogGen := gen, watchdogTimer := timer, lastWsMessageNs := last
        updatesSinceBookPersist := updates }
  | rebuffer (h : GenericFeedHandler) (buffer : List BufferedMsg)
      (kept : ∀ msg ∈ buffer, ∃ old ∈ h.buffer, msg.session = old.session) :
      Move h { h with buffer := buffer }
  | store (h : GenericFeedHandler) (now : Int) (msg : String) (frame : Frame h h.history.opened) :
      Move h { h with
        buffer := h.buffer ++ [{ payload := msg, recvTsNs := now, session := h.history.opened }] }
  | state (h : GenericFeedHandler) (next : FeedSyncState) (reason : String)
      (live : next = .waitBridge ∨ (next = .synced ∧ h.controller.isSynced = true)) :
      Move h (h.setState next reason)
  | bridge (h : GenericFeedHandler) (waiting : h.state = .waitWsSnapshot) :
      Move h { h with state := .waitBridge }
  | bookState (h : GenericFeedHandler) (source : String) (now : Int)
      (enabled : h.persistBookEveryUpdates ≠ 0) (synced : h.controller.isSynced = true) :
      Move h (h.persist
        (.bookState h.controller.book h.controller.getAppliedSeqID h.persistBookTop source now))
  | snapshot (h : GenericFeedHandler) (snap : GenericSnapshotFormat) (kind : BaselineKind)
      (source : String) (session : Nat) (origin : SnapshotFrom cfg snap) (base : Base h session)
      (accepted : (h.applySnapshot cfg snap kind source session).2 = false) :
      Move h (h.applySnapshot cfg snap kind source session).1
  | increment (h : GenericFeedHandler) (inc : GenericIncrementalFormat) (session : Nat)
      (origin : IncrementFrom cfg inc) (frame : Frame h session)
      (accepted : (h.applyIncrement cfg inc session).2 = false) :
      Move h (h.applyIncrement cfg inc session).1
  | restart (h : GenericFeedHandler) : Move h h.restartSync
  | rejectSnapshot (h : GenericFeedHandler) (snap : GenericSnapshotFormat) (kind : BaselineKind)
      (source : String) (session : Nat) (origin : SnapshotFrom cfg snap)
      (resync : (h.applySnapshot cfg snap kind source session).2 = true) :
      Move h (h.applySnapshot cfg snap kind source session).1.restartSync
  | rejectIncrement (h : GenericFeedHandler) (inc : GenericIncrementalFormat) (session : Nat)
      (origin : IncrementFrom cfg inc) (frame : Frame h session)
      (resync : (h.applyIncrement cfg inc session).2 = true) :
      Move h (h.applyIncrement cfg inc session).1.restartSync

/-- Any number of moves. -/
abbrev Moves : GenericFeedHandler → GenericFeedHandler → Prop :=
  Relation.ReflTransGen (Move cfg Base Frame)

variable {cfg Base Frame}

/-- What every move keeps, a callback keeps. -/
theorem Moves.invariant {property : GenericFeedHandler → Prop}
    (preserved : ∀ h h', Move cfg Base Frame h h' → property h → property h')
    {h h' : GenericFeedHandler} (moves : Moves cfg Base Frame h h') (holds : property h) :
    property h' := by
  induction moves with
  | refl => exact holds
  | tail _ move ih => exact preserved _ _ move ih

namespace GenericFeedHandler

variable {h : GenericFeedHandler} {now : Int}

/-!
### What each function touches

One equation for each function of the handler, with the members it writes and nothing about the others.
Later modules rewrite with these and do not unfold the functions.
-/

/-- Publishing touches `published` only. -/
theorem publish_eq (h : GenericFeedHandler) (event : PubEvent) :
    ∃ published, h.publish event = { h with published := published } := by
  rw [publish]
  split
  · exact ⟨_, rfl⟩
  · exact ⟨h.published, rfl⟩

/-- Giving an event to the sinks touches `published` and `persisted` only. -/
theorem persist_eq (h : GenericFeedHandler) (event : PubEvent) :
    ∃ published persisted, h.persist event = { h with published := published, persisted := persisted } := by
  rw [persist, write]
  split
  · obtain ⟨published, hsame⟩ := publish_eq { h with persisted := h.persisted ++ [event] } event
    exact ⟨published, _, hsame⟩
  · obtain ⟨published, hsame⟩ := publish_eq h event
    exact ⟨published, h.persisted, hsame⟩

@[simp] theorem persist_buffer (event : PubEvent) : (h.persist event).buffer = h.buffer := by
  obtain ⟨published, persisted, hsame⟩ := persist_eq h event
  rw [hsame]

theorem persist_state (event : PubEvent) : (h.persist event).state = h.state := by
  obtain ⟨published, persisted, hsame⟩ := persist_eq h event
  rw [hsame]

/-- What is published with a change of state. -/
def StatusOnly (next : FeedSyncState) (statuses : List PubEvent) : Prop :=
  ∀ event ∈ statuses, ∃ reason, event = .status next.feedState reason

/-- `set_state_` stores the state and publishes at most a status. -/
theorem setState_eq (h : GenericFeedHandler) (next : FeedSyncState) (reason : String) :
    ∃ delay statuses, StatusOnly next statuses ∧ h.setState next reason =
      { h with state := next, reconnectDelayMs := delay, published := h.published ++ statuses } := by
  rw [setState]
  split
  · rename_i hsame
    refine ⟨h.reconnectDelayMs, [], fun _ hnone => absurd hnone List.not_mem_nil, ?_⟩
    rw [List.append_nil, ← hsame]
  · rw [publish]
    dsimp only
    split
    · refine ⟨_, [.status next.feedState reason], fun event hevent => ?_, rfl⟩
      exact ⟨reason, List.mem_singleton.mp hevent⟩
    · refine ⟨if next = .synced then 1000 else h.reconnectDelayMs, [],
        fun _ hnone => absurd hnone List.not_mem_nil, ?_⟩
      rw [List.append_nil]

/-- `restartSync` of a running handler: no data, no baseline, a cancelled client and an armed timer. -/
theorem restartSync_eq (h : GenericFeedHandler) (running : h.running = true) :
    ∃ gen flag delay statuses, StatusOnly .connecting statuses ∧ h.restartSync =
      { h with
        watchdogGen := gen, watchdogTimer := none, buffer := [], controller := h.controller.resetBook
        history := { h.history with baseline := none }, state := .connecting
        closingForRestart := flag, ws := h.ws.cancel.1, reconnectDelayMs := delay
        reconnectGen := h.reconnectGen + 1, reconnectTimer := some (.reconnect (h.reconnectGen + 1))
        published := h.published ++ statuses } := by
  obtain ⟨delay, statuses, honly, hset⟩ := setState_eq
    { h.disarmWsWatchdog with
      buffer := [], controller := h.disarmWsWatchdog.controller.resetBook
      history := { h.disarmWsWatchdog.history with baseline := none } } .connecting "restart_sync"
  rw [restartSync, if_neg (by simp [running])]
  dsimp only at hset ⊢
  rw [hset]
  dsimp only
  split
  · exact ⟨_, _, _, statuses, honly, rfl⟩
  · exact ⟨_, _, _, statuses, honly, rfl⟩

theorem restartSync_buffer (running : h.running = true) : h.restartSync.buffer = [] := by
  obtain ⟨gen, flag, delay, statuses, -, hsame⟩ := restartSync_eq h running
  rw [hsame]

theorem restartSync_of_not_running (h : GenericFeedHandler) (stopped : h.running = false) :
    h.restartSync = h := by
  rw [restartSync, if_pos (by simp [stopped])]

@[simp] theorem applyIncrement_buffer (inc : GenericIncrementalFormat) (session : Nat) :
    (h.applyIncrement cfg inc session).1.buffer = h.buffer := by
  simp [applyIncrement]

/-- `onSnapshot` on the controller: what else the handler does is to give the snapshot to the sinks and to
    note the session. -/
theorem applySnapshot_eq (h : GenericFeedHandler) (cfg : HandlerConfig) (snap : GenericSnapshotFormat)
    (kind : BaselineKind) (source : String) (session : Nat) :
    ∃ published persisted, h.applySnapshot cfg snap kind source session =
      ({ h with
        published := published, persisted := persisted
        controller := (h.controller.onSnapshot cfg.controllerConfig snap kind).1
        history := { h.history with baseline := some session } },
        (h.controller.onSnapshot cfg.controllerConfig snap kind).action == .needResync) := by
  obtain ⟨published, persisted, hsame⟩ := persist_eq h (.snapshot snap source)
  exact ⟨published, persisted, by rw [applySnapshot, hsame]⟩

/-- `onIncrement` on the controller, likewise. -/
theorem applyIncrement_eq (h : GenericFeedHandler) (cfg : HandlerConfig) (inc : GenericIncrementalFormat)
    (session : Nat) :
    ∃ published persisted history, h.applyIncrement cfg inc session =
      ({ h with
        published := published, persisted := persisted
        controller := (h.controller.onIncrement cfg.controllerConfig inc).1, history := history },
        (h.controller.onIncrement cfg.controllerConfig inc).action == .needResync) := by
  have hpersist : ∀ history, ∃ published persisted,
      { h with controller := (h.controller.onIncrement cfg.controllerConfig inc).1, history := history }.persist
        (.incremental inc "ws_incremental") =
      { h with
        published := published, persisted := persisted
        controller := (h.controller.onIncrement cfg.controllerConfig inc).1, history := history } :=
    fun history => persist_eq _ _
  obtain ⟨published, persisted, hsame⟩ := hpersist _
  exact ⟨published, persisted, _, by rw [applyIncrement, hsame]⟩

@[simp] theorem applySnapshot_running (snap : GenericSnapshotFormat) (kind : BaselineKind)
    (source : String) (session : Nat) :
    (h.applySnapshot cfg snap kind source session).1.running = h.running := by
  obtain ⟨published, persisted, hsame⟩ := applySnapshot_eq h cfg snap kind source session
  rw [hsame]

@[simp] theorem applyIncrement_running (inc : GenericIncrementalFormat) (session : Nat) :
    (h.applyIncrement cfg inc session).1.running = h.running := by
  obtain ⟨published, persisted, history, hsame⟩ := applyIncrement_eq h cfg inc session
  rw [hsame]

@[simp] theorem applySnapshot_state (snap : GenericSnapshotFormat) (kind : BaselineKind)
    (source : String) (session : Nat) :
    (h.applySnapshot cfg snap kind source session).1.state = h.state := by
  obtain ⟨published, persisted, hsame⟩ := applySnapshot_eq h cfg snap kind source session
  rw [hsame]

@[simp] theorem applyIncrement_state (inc : GenericIncrementalFormat) (session : Nat) :
    (h.applyIncrement cfg inc session).1.state = h.state := by
  obtain ⟨published, persisted, history, hsame⟩ := applyIncrement_eq h cfg inc session
  rw [hsame]

@[simp] theorem applySnapshot_buffer (cfg : HandlerConfig) (snap : GenericSnapshotFormat)
    (kind : BaselineKind) (source : String) (session : Nat) :
    (h.applySnapshot cfg snap kind source session).1.buffer = h.buffer :=
  persist_buffer _

/-- What is published of the book: a checkpoint, if it is synced. -/
def CheckpointOnly (h : GenericFeedHandler) (now : Int) (source : String) (checkpoints : List PubEvent) :
    Prop :=
  ∀ event ∈ checkpoints, h.controller.isSynced = true ∧
    event = .bookState h.controller.book h.controller.getAppliedSeqID h.persistBookTop source now

/-- `maybe_persist_book_` counts the update and gives at most a checkpoint to the sinks. -/
theorem maybePersistBook_eq (h : GenericFeedHandler) (now : Int) (source : String) :
    ∃ updates checkpoints persisted, CheckpointOnly h now source checkpoints ∧
      h.maybePersistBook now source = { h with
        updatesSinceBookPersist := updates, published := h.published ++ checkpoints
        persisted := persisted } := by
  have hsilent : ∀ updates persisted, ∃ updates' checkpoints persisted',
      CheckpointOnly h now source checkpoints ∧
        { h with updatesSinceBookPersist := updates, persisted := persisted } = { h with
          updatesSinceBookPersist := updates', published := h.published ++ checkpoints
          persisted := persisted' } := by
    intro updates persisted
    refine ⟨updates, [], persisted, fun _ hnone => absurd hnone List.not_mem_nil, ?_⟩
    rw [List.append_nil]
  rw [maybePersistBook]
  split
  · exact hsilent h.updatesSinceBookPersist h.persisted
  · split
    · exact hsilent h.updatesSinceBookPersist h.persisted
    · split
      · exact hsilent h.updatesSinceBookPersist h.persisted
      · rename_i hsynced
        split
        · exact hsilent _ h.persisted
        · rw [persist, write]
          dsimp only
          have hcheckpoint : CheckpointOnly h now source
              [.bookState h.controller.book h.controller.getAppliedSeqID h.persistBookTop source now] :=
            fun event hevent => ⟨by simpa using hsynced, List.mem_singleton.mp hevent⟩
          split <;> rw [publish] <;> split
          · exact ⟨0, _, _, hcheckpoint, rfl⟩
          · exact hsilent 0 _
          · exact ⟨0, _, _, hcheckpoint, rfl⟩
          · exact hsilent 0 _

@[simp] theorem maybePersistBook_buffer (source : String) :
    (h.maybePersistBook now source).buffer = h.buffer := by
  obtain ⟨updates, checkpoints, persisted, -, hsame⟩ := maybePersistBook_eq h now source
  rw [hsame]

theorem maybePersistBook_state (source : String) : (h.maybePersistBook now source).state = h.state := by
  obtain ⟨updates, checkpoints, persisted, -, hsame⟩ := maybePersistBook_eq h now source
  rw [hsame]

/-- Arming the watchdog touches the watchdog only. -/
theorem armWsWatchdog_eq (cfg : HandlerConfig) (h : GenericFeedHandler) :
    ∃ gen timer, h.armWsWatchdog cfg = { h with watchdogGen := gen, watchdogTimer := timer } := by
  rw [armWsWatchdog]
  split
  · exact ⟨h.watchdogGen, h.watchdogTimer, rfl⟩
  · exact ⟨_, _, rfl⟩

/-- `onWSOpen` of a running handler: the client has queued the subscription, the watchdog is armed, and the
    baseline is asked for or waited for. -/
theorem onWSOpen_eq (cfg : HandlerConfig) (now : Int) (running : h.running = true) :
    ∃ gen timer outbox inFlight, ∀ opened : GenericFeedHandler,
      opened = { h with
        watchdogGen := gen, watchdogTimer := timer, lastWsMessageNs := now
        ws := { h.ws with outbox := outbox, inFlight := inFlight } } →
      h.onWSOpen cfg now = match cfg.adapter.caps.syncMode with
        | .restAnchored => (opened.setState .waitRestSnapshot "ws_open_rest_anchored").requestSnapshot cfg
        | .wsAuthoritative => opened.setState .waitWsSnapshot "ws_open_ws_authoritative" := by
  obtain ⟨gen, timer, harmed⟩ := armWsWatchdog_eq cfg { h with lastWsMessageNs := now }
  obtain ⟨outbox, inFlight, hsend⟩ := h.ws.send_same cfg.adapter.wsSubscribeFrame
  rw [onWSOpen, if_neg (by simp [running]), harmed]
  by_cases hframe : cfg.adapter.wsSubscribeFrame = ""
  · refine ⟨gen, timer, h.ws.outbox, h.ws.inFlight, ?_⟩
    rintro opened rfl
    cases cfg.adapter.caps.syncMode <;> simp [hframe]
  · refine ⟨gen, timer, outbox, inFlight, ?_⟩
    rintro opened rfl
    cases cfg.adapter.caps.syncMode <;> simp [hframe, hsend]

/-- A handshake that a closing client drops. -/
theorem wsOpened_dropped (cfg : HandlerConfig) (now : Int) (dropped : h.ws.handshakeDone.2 = false) :
    h.wsOpened cfg now = h := by
  have hsame : h.ws.handshakeDone.1 = h.ws := by
    rw [WsClient.handshakeDone] at dropped ⊢
    split
    · rfl
    · rename_i hlive
      simp [hlive] at dropped
  rw [wsOpened]
  dsimp only
  rw [dropped, hsame]
  rfl

/-- A session of a REST-anchored venue opens: the snapshot is requested at once. -/
theorem wsOpened_restAnchored (cfg : HandlerConfig) (now : Int)
    (anchored : cfg.adapter.caps.syncMode = .restAnchored) (running : h.running = true)
    (completed : h.ws.handshakeDone.2 = true) :
    ∃ opened gen timer outbox inFlight delay statuses, StatusOnly .waitRestSnapshot statuses ∧
      opened = { h with
        watchdogGen := gen, watchdogTimer := timer, lastWsMessageNs := now
        ws := { h.ws.handshakeDone.1 with outbox := outbox, inFlight := inFlight }
        history := { h.history with opened := h.history.opened + 1 }
        state := .waitRestSnapshot, reconnectDelayMs := delay, published := h.published ++ statuses } ∧
      h.wsOpened cfg now = opened.requestSnapshot cfg := by
  obtain ⟨gen, timer, outbox, inFlight, heq⟩ := onWSOpen_eq
    (h := { h with
      ws := h.ws.handshakeDone.1, history := { h.history with opened := h.history.opened + 1 } })
    cfg now running
  obtain ⟨delay, statuses, honly, hset⟩ := setState_eq
    { h with
      watchdogGen := gen, watchdogTimer := timer, lastWsMessageNs := now
      ws := { h.ws.handshakeDone.1 with outbox := outbox, inFlight := inFlight }
      history := { h.history with opened := h.history.opened + 1 } }
    .waitRestSnapshot "ws_open_rest_anchored"
  refine ⟨_, gen, timer, outbox, inFlight, delay, statuses, honly, rfl, ?_⟩
  rw [wsOpened]
  dsimp only at hset ⊢
  rw [if_pos completed, heq _ rfl, anchored]
  exact congrArg (requestSnapshot cfg) hset

/-- `onWSMessage` of a running handler on a frame: the watchdog is armed and the state decides. -/
theorem onWSMessage_eq (cfg : HandlerConfig) (now : Int) {msg : String} (running : h.running = true)
    (nonempty : msg ≠ "") :
    ∃ received gen timer,
      received = { h with watchdogGen := gen, watchdogTimer := timer, lastWsMessageNs := now } ∧
      h.onWSMessage cfg now msg = match h.state with
        | .waitRestSnapshot => received.onMessageWaitRest cfg now msg
        | .waitWsSnapshot => received.onMessageWaitWs cfg now msg
        | .waitBridge => received.onMessageLive cfg now msg
        | .synced => received.onMessageLive cfg now msg
        | .disconnected => received
        | .connecting => received
        | .bootstrapping => received := by
  obtain ⟨gen, timer, harmed⟩ := armWsWatchdog_eq cfg { h with lastWsMessageNs := now }
  refine ⟨_, gen, timer, rfl, ?_⟩
  rw [onWSMessage, harmed]
  exact if_neg (by simp [running, nonempty])

/-!
### Callbacks as moves

From the drain loop up to `onWSMessage` and the callback of the snapshot request, each function is seen to
be a sequence of moves. A drained message is one of the buffer, which is how `Frame` is known of it.
-/

/-- Arming the watchdog for a received frame. -/
theorem received_moves :
    Moves cfg Base Frame h ({ h with lastWsMessageNs := now }.armWsWatchdog cfg) := by
  obtain ⟨gen, timer, hsame⟩ := armWsWatchdog_eq cfg { h with lastWsMessageNs := now }
  rw [hsame]
  exact .single (.quiet h gen timer now h.updatesSinceBookPersist)

theorem maybePersistBook_moves (source : String) :
    Moves cfg Base Frame h (h.maybePersistBook now source) := by
  have hquiet : ∀ updates, Move cfg Base Frame h { h with updatesSinceBookPersist := updates } :=
    fun updates => .quiet h h.watchdogGen h.watchdogTimer h.lastWsMessageNs updates
  rw [maybePersistBook]
  split
  · exact .refl
  · split
    · exact .refl
    · rename_i henabled
      split
      · exact .refl
      · rename_i hsynced
        split
        · exact .single (hquiet _)
        · refine (Relation.ReflTransGen.single (hquiet 0)).tail ?_
          exact .bookState { h with updatesSinceBookPersist := 0 } source now
            (fun h => henabled (Or.inl h)) (by simpa using hsynced)

/-- The drain loop, for messages that are all in the buffer. -/
theorem drainLoop_moves (frames : ∀ h msg, msg ∈ h.buffer → Frame h msg.session)
    (msgs : List BufferedMsg) (buffered : ∀ msg ∈ msgs, msg ∈ h.buffer) :
    Moves cfg Base Frame h (drainLoop cfg now msgs h).1 := by
  induction msgs generalizing h with
  | nil => exact .single (.rebuffer h [] fun _ hmsg => absurd hmsg List.not_mem_nil)
  | cons msg rest ih =>
      have hrest : ∀ m ∈ rest, m ∈ h.buffer := fun m hm => buffered m (List.mem_cons_of_mem msg hm)
      have hmsg : msg ∈ h.buffer := buffered msg (List.mem_cons_self ..)
      rw [drainLoop]
      split
      · exact ih hrest
      · cases hparse : cfg.adapter.parseIncremental msg.payload with
        | threw =>
            -- the front entry stays, moved from; its session does not change
            refine .single (.rebuffer h _ ?_)
            intro m hm
            rcases List.mem_cons.mp hm with rfl | hm
            · exact ⟨msg, hmsg, rfl⟩
            · exact ⟨m, hrest m hm, rfl⟩
        | rejected => exact ih hrest
        | accepted inc =>
            have horigin : IncrementFrom cfg { inc with tsRecvNs := msg.recvTsNs } :=
              ⟨msg.payload, inc, msg.recvTsNs, rfl, hparse⟩
            dsimp only
            split
            · rename_i hresync
              exact .single (.rejectIncrement h _ msg.session horigin (frames h msg hmsg) hresync)
            · rename_i haccepted
              have hmove : Move cfg Base Frame h (h.applyIncrement cfg _ msg.session).1 :=
                .increment h { inc with tsRecvNs := msg.recvTsNs } msg.session horigin
                  (frames h msg hmsg) (by simpa using haccepted)
              refine ((Relation.ReflTransGen.single hmove).trans
                (maybePersistBook_moves "incremental_applied")).trans (ih ?_)
              simpa using hrest

theorem drainThenSync_moves (frames : ∀ h msg, msg ∈ h.buffer → Frame h msg.session)
    (reason : String) : Moves cfg Base Frame h (h.drainThenSync cfg now reason) := by
  have hdrain : Moves cfg Base Frame h (h.drainBufferedIncrementals cfg now).1 :=
    drainLoop_moves frames h.buffer fun _ hmsg => hmsg
  rw [drainThenSync]
  dsimp only
  split
  · exact hdrain
  · split
    · rename_i hsynced
      exact hdrain.tail (.state _ .synced reason (Or.inr ⟨rfl, hsynced⟩))
    · exact hdrain

/-- A baseline that is loaded or refused, with what follows the load. -/
theorem applySnapshot_moves {snap : GenericSnapshotFormat} (origin : SnapshotFrom cfg snap)
    {session : Nat} (base : Base h session) (kind : BaselineKind) (source : String)
    (next : GenericFeedHandler → GenericFeedHandler)
    (moves : Moves cfg Base Frame (h.applySnapshot cfg snap kind source session).1
      (next (h.applySnapshot cfg snap kind source session).1)) :
    Moves cfg Base Frame h
      (if (h.applySnapshot cfg snap kind source session).2 = true
        then (h.applySnapshot cfg snap kind source session).1.restartSync
        else next (h.applySnapshot cfg snap kind source session).1) := by
  split
  · rename_i hresync
    exact .single (.rejectSnapshot h snap kind source session origin hresync)
  · rename_i haccepted
    exact (Relation.ReflTransGen.single
      (.snapshot h snap kind source session origin base (by simpa using haccepted))).trans moves

end GenericFeedHandler

/-- The controller is given the snapshot of a response. -/
def GenericFeedHandler.responseLoaded (cfg : HandlerConfig) (now : Int) (session : Nat)
    (snap : GenericSnapshotFormat) (h : GenericFeedHandler) : GenericFeedHandler × Bool :=
  h.applySnapshot cfg { snap with tsRecvNs := now } cfg.adapter.caps.syncMode.baselineKind "rest_snapshot"
    session

/-- What follows a response whose snapshot was accepted. -/
def GenericFeedHandler.responseDrained (cfg : HandlerConfig) (now : Int) (h : GenericFeedHandler) :
    GenericFeedHandler :=
  ((h.maybePersistBook now "snapshot_applied").setState .waitBridge "snapshot_applied").drainThenSync cfg
    now "post_snapshot_bridge_complete"

variable (cfg) in
/-- How the callback of a snapshot request issued during `session` can end. -/
inductive ResponseCase (now : Int) (h : GenericFeedHandler) (session : Nat) (outcome : HttpOutcome) :
    GenericFeedHandler → Prop where
  | unchanged : ResponseCase now h session outcome h
  | restarted : ResponseCase now h session outcome h.restartSync
  | refused (snap : GenericSnapshotFormat) (ok : outcome.failed = false)
      (parsed : cfg.adapter.parseSnapshot outcome.body = .accepted snap)
      (resync : (h.responseLoaded cfg now session snap).2 = true) :
      ResponseCase now h session outcome (h.responseLoaded cfg now session snap).1.restartSync
  | loaded (snap : GenericSnapshotFormat) (ok : outcome.failed = false)
      (parsed : cfg.adapter.parseSnapshot outcome.body = .accepted snap)
      (accepted : (h.responseLoaded cfg now session snap).2 = false) :
      ResponseCase now h session outcome
        ((h.responseLoaded cfg now session snap).1.responseDrained cfg now)

theorem snapshotFrom_of_response {body : String} {snap : GenericSnapshotFormat}
    (parsed : cfg.adapter.parseSnapshot body = .accepted snap) (now : Int) :
    SnapshotFrom cfg { snap with tsRecvNs := now } :=
  ⟨body, snap, now, rfl, Or.inl parsed⟩

namespace GenericFeedHandler

variable {h : GenericFeedHandler} {now : Int}

/-- The response to the snapshot request; a rate-limited one is reported as a failure and never reaches the
    retry branch. -/
theorem onSnapshotDone_cases (cfg : HandlerConfig) (now : Int) (session : Nat) (outcome : HttpOutcome)
    (h : GenericFeedHandler) :
    ResponseCase cfg now h session outcome (h.onSnapshotDone cfg now session outcome) := by
  rw [onSnapshotDone]
  split
  · exact .unchanged
  · split
    · exact .restarted
    · rename_i hok
      split
      · rename_i hlimited
        refine absurd ?_ hok
        cases outcome with
        | transportError => rfl
        | response status keepAlive shutdownOk body =>
            simp only [HttpOutcome.status] at hlimited
            simp only [HttpOutcome.failed, Bool.or_eq_true, decide_eq_true_eq]
            omega
      · split
        · exact .restarted
        · rw [onSnapshotResponse]
          split
          · exact .unchanged
          · cases hparse : cfg.adapter.parseSnapshot outcome.body with
            | threw => exact .unchanged
            | rejected => exact .restarted
            | accepted snap =>
                dsimp only
                split
                · rename_i hresync
                  exact .refused snap (by simpa using hok) hparse hresync
                · rename_i haccepted
                  exact .loaded snap (by simpa using hok) hparse (Bool.not_eq_true _ ▸ haccepted)

/-- A successful response is parsed. -/
theorem onSnapshotDone_of_ok (running : h.running = true) {outcome : HttpOutcome}
    (ok : outcome.failed = false) (session : Nat) :
    h.onSnapshotDone cfg now session outcome = h.onSnapshotResponse cfg now session outcome.body := by
  cases outcome with
  | transportError => cases ok
  | response status keepAlive shutdownOk body =>
      simp only [HttpOutcome.failed, Bool.or_eq_false_iff, decide_eq_false_iff_not] at ok
      rw [onSnapshotDone, if_neg (by simp [running]), if_neg (by simp [HttpOutcome.failed, ok]),
        if_neg (by simp only [HttpOutcome.status]; omega), if_neg (by simp only [HttpOutcome.status]; omega)]

/-- What a successful response does whose snapshot is parsed. -/
theorem onSnapshotDone_of_parsed (running : h.running = true) {outcome : HttpOutcome}
    (ok : outcome.failed = false) {snap : GenericSnapshotFormat}
    (parsed : cfg.adapter.parseSnapshot outcome.body = .accepted snap) (session : Nat) :
    h.onSnapshotDone cfg now session outcome =
      if (h.responseLoaded cfg now session snap).2 = true
        then (h.responseLoaded cfg now session snap).1.restartSync
        else (h.responseLoaded cfg now session snap).1.responseDrained cfg now := by
  rw [onSnapshotDone_of_ok running ok, onSnapshotResponse, if_neg (by simp [running]), parsed]
  rfl

theorem responseDrained_moves (frames : ∀ h msg, msg ∈ h.buffer → Frame h msg.session) :
    Moves cfg Base Frame h (h.responseDrained cfg now) :=
  ((maybePersistBook_moves "snapshot_applied").tail
    (.state _ .waitBridge "snapshot_applied" (Or.inl rfl))).trans (drainThenSync_moves frames _)

/-- The same as moves. -/
theorem onSnapshotDone_moves (frames : ∀ h msg, msg ∈ h.buffer → Frame h msg.session)
    {session : Nat} (base : Base h session) (outcome : HttpOutcome) :
    Moves cfg Base Frame h (h.onSnapshotDone cfg now session outcome) := by
  have hcase := onSnapshotDone_cases cfg now session outcome h
  generalize h.onSnapshotDone cfg now session outcome = after at hcase
  cases hcase with
  | unchanged => exact .refl
  | restarted => exact .single (.restart h)
  | refused snap ok parsed resync =>
      exact .single (.rejectSnapshot h _ _ _ session (snapshotFrom_of_response parsed now) resync)
  | loaded snap ok parsed accepted =>
      exact .head (.snapshot h _ _ _ session (snapshotFrom_of_response parsed now) base accepted)
        (responseDrained_moves frames)

theorem bufferFrame_moves (frame : Frame h h.history.opened) (msg : String) :
    Moves cfg Base Frame h (h.bufferFrame cfg now msg).1 := by
  rw [bufferFrame]
  split
  · exact .single (.store h now msg frame)
  · exact .single (.restart h)

/-- The snapshot of a frame was accepted by the frame parser. -/
theorem snapshotFrom_of_ws {msg : String} {snap : GenericSnapshotFormat}
    (found : wsSnapshotOf cfg msg = .accepted snap) (now : Int) :
    SnapshotFrom cfg { snap with tsRecvNs := now } := by
  rw [wsSnapshotOf] at found
  split at found
  · exact ⟨msg, snap, now, rfl, Or.inr found⟩
  · cases found

theorem incrementFrom_of_frame {msg : String} {inc : GenericIncrementalFormat}
    (found : incrementalOf cfg msg = .accepted inc) (now : Int) :
    IncrementFrom cfg { inc with tsRecvNs := now } := by
  rw [incrementalOf] at found
  split at found
  · exact ⟨msg, inc, now, rfl, found⟩
  · cases found

section Frames

variable (frames : ∀ h msg, msg ∈ h.buffer → Frame h msg.session)

include frames

theorem onMessageWaitWs_moves (base : Base h h.history.opened) (frame : Frame h h.history.opened)
    (waiting : h.state = .waitWsSnapshot) (msg : String) :
    Moves cfg Base Frame h (h.onMessageWaitWs cfg now msg) := by
  rw [onMessageWaitWs]
  cases hsnap : wsSnapshotOf cfg msg with
  | threw => exact .refl
  | accepted snap =>
      dsimp only
      refine applySnapshot_moves (snapshotFrom_of_ws hsnap now) base _ _ (fun h =>
        { h.maybePersistBook now "snapshot_applied" with state := .waitBridge }.drainThenSync cfg now
          "ws_snapshot_baseline_ready") ?_
      refine ((maybePersistBook_moves "snapshot_applied").tail (.bridge _ ?_)).trans
        (drainThenSync_moves frames _)
      exact (maybePersistBook_state _).trans ((persist_state _).trans waiting)
  | rejected =>
      dsimp only
      split
      · exact bufferFrame_moves frame msg
      · exact .refl

omit frames in
theorem onInterruptingSnapshot_moves (base : Base h h.history.opened) {msg : String}
    {snap : GenericSnapshotFormat} (found : wsSnapshotOf cfg msg = .accepted snap) :
    Moves cfg Base Frame h (h.onInterruptingSnapshot cfg now snap) := by
  rw [onInterruptingSnapshot]
  dsimp only
  refine applySnapshot_moves (snapshotFrom_of_ws found now) base _ _ (fun h =>
    { h.maybePersistBook now "snapshot_applied" with buffer := [] }.setState
      (if (h.maybePersistBook now "snapshot_applied").controller.isSynced = true
        then .synced else .waitBridge)
      "interrupting_ws_snapshot") ?_
  refine ((maybePersistBook_moves "snapshot_applied").tail
    (.rebuffer _ [] fun _ hmsg => absurd hmsg List.not_mem_nil)).tail (.state _ _ _ ?_)
  split
  · rename_i hsynced
    exact Or.inr ⟨rfl, hsynced⟩
  · exact Or.inl rfl

theorem onMessageBridge_moves (frame : Frame h h.history.opened) (msg : String) :
    Moves cfg Base Frame h (h.onMessageBridge cfg now msg) := by
  rw [onMessageBridge]
  split
  · have hstored : Moves cfg Base Frame h (h.bufferFrame cfg now msg).1 :=
      bufferFrame_moves frame msg
    split
    · rename_i h' heq
      rwa [heq] at hstored
    · rename_i h' heq
      rw [heq] at hstored
      exact hstored.trans (drainThenSync_moves frames _)
  · exact .refl

omit frames in
theorem onMessageSteady_moves (frame : Frame h h.history.opened) (msg : String) :
    Moves cfg Base Frame h (h.onMessageSteady cfg now msg) := by
  rw [onMessageSteady]
  cases hinc : incrementalOf cfg msg with
  | threw => exact .refl
  | rejected => exact .refl
  | accepted inc =>
      have horigin := incrementFrom_of_frame hinc now
      dsimp only
      split
      · rename_i hresync
        exact .single (.rejectIncrement h _ _ horigin frame hresync)
      · rename_i haccepted
        have hmoves : Moves cfg Base Frame h
            ((h.applyIncrement cfg { inc with tsRecvNs := now } h.history.opened).1.maybePersistBook now
              "incremental_applied") :=
          (Relation.ReflTransGen.single (.increment h _ _ horigin frame (by simpa using haccepted))).trans
            (maybePersistBook_moves "incremental_applied")
        split
        · rename_i hbridged
          exact hmoves.tail (.state _ .synced _ (Or.inr ⟨rfl, hbridged.2⟩))
        · exact hmoves

theorem onMessageLive_moves (base : Base h h.history.opened) (frame : Frame h h.history.opened)
    (msg : String) : Moves cfg Base Frame h (h.onMessageLive cfg now msg) := by
  rw [onMessageLive]
  split
  · exact .refl
  · rename_i snap hsnap
    split at hsnap
    · exact onInterruptingSnapshot_moves base hsnap
    · cases hsnap
  · split
    · exact onMessageBridge_moves frames frame msg
    · exact onMessageSteady_moves frame msg

/-- A frame. -/
theorem onWSMessage_moves (base : ∀ h' : GenericFeedHandler, h'.ws = h.ws → h'.buffer = h.buffer →
      h'.history = h.history → h'.state = h.state → Base h' h'.history.opened)
    (frame : ∀ h' : GenericFeedHandler, h'.ws = h.ws → h'.history = h.history →
      Frame h' h'.history.opened) (msg : String) :
    Moves cfg Base Frame h (h.onWSMessage cfg now msg) := by
  rw [onWSMessage]
  split
  · exact .refl
  · have hreceived : Moves cfg Base Frame h ({ h with lastWsMessageNs := now }.armWsWatchdog cfg) :=
      received_moves
    refine hreceived.trans ?_
    obtain ⟨gen, timer, hsame⟩ := armWsWatchdog_eq cfg { h with lastWsMessageNs := now }
    rw [hsame]
    have hbase := base { h with lastWsMessageNs := now, watchdogGen := gen, watchdogTimer := timer }
      rfl rfl rfl rfl
    have hframe := frame { h with lastWsMessageNs := now, watchdogGen := gen, watchdogTimer := timer }
      rfl rfl
    dsimp only
    split
    · rw [onMessageWaitRest]
      split
      · exact bufferFrame_moves hframe msg
      · exact .refl
    · rename_i hwaiting
      exact onMessageWaitWs_moves frames hbase hframe hwaiting msg
    · exact onMessageLive_moves frames hbase hframe msg
    · exact onMessageLive_moves frames hbase hframe msg
    · exact .refl
    · exact .refl
    · exact .refl

end Frames

/-!
### What no move changes

Connection, request and sinks stay as they are in a data callback, and so does the flag that the handler
runs.
-/

/-- What no move changes: the handler runs as before, with the same request in flight, the same connection
    and the same sinks. -/
def fixedPart (h : GenericFeedHandler) : Bool × Option RestRequest × Bool × Bool × Bool :=
  (h.running, h.rest, h.ws.opened, h.brainSinks, h.sinksRunning)

@[simp] theorem fixedPart_persist (event : PubEvent) : (h.persist event).fixedPart = h.fixedPart := by
  obtain ⟨published, persisted, hsame⟩ := persist_eq h event
  rw [hsame]
  rfl

@[simp] theorem fixedPart_setState (next : FeedSyncState) (reason : String) :
    (h.setState next reason).fixedPart = h.fixedPart := by
  obtain ⟨delay, statuses, -, hsame⟩ := setState_eq h next reason
  rw [hsame]
  rfl

@[simp] theorem fixedPart_restartSync : h.restartSync.fixedPart = h.fixedPart := by
  cases hrunning : h.running with
  | false => rw [restartSync_of_not_running h hrunning]
  | true =>
      obtain ⟨gen, flag, delay, statuses, -, hsame⟩ := restartSync_eq h hrunning
      rw [hsame]
      simp [fixedPart]

theorem fixedPart_applySnapshot (cfg : HandlerConfig) (snap : GenericSnapshotFormat) (kind : BaselineKind)
    (source : String) (session : Nat) :
    (h.applySnapshot cfg snap kind source session).1.fixedPart = h.fixedPart :=
  fixedPart_persist _

theorem fixedPart_applyIncrement (cfg : HandlerConfig) (inc : GenericIncrementalFormat) (session : Nat) :
    (h.applyIncrement cfg inc session).1.fixedPart = h.fixedPart :=
  fixedPart_persist _

/-!
### A stopped handler

`stop` clears the flag first. Callbacks that still run find it cleared and touch clients and timers at most.
-/

/-- What `stop` leaves: nothing is published, and nothing is applied. -/
theorem stop_spec (tlsUp : Bool) :
    (h.stop tlsUp).running = false ∧ (h.stop tlsUp).state = .disconnected ∧
      (h.stop tlsUp).published = h.published ∧
      (h.stop tlsUp).history.applied = h.history.applied := by
  have hset : ∀ before : GenericFeedHandler, before.sinksRunning = false →
      (before.setState .disconnected "stop").running = before.running ∧
      (before.setState .disconnected "stop").state = .disconnected ∧
      (before.setState .disconnected "stop").published = before.published ∧
      (before.setState .disconnected "stop").history.applied = before.history.applied := by
    intro before hsinks
    rw [setState]
    split
    · rename_i hsame
      exact ⟨rfl, hsame, rfl, rfl⟩
    · rw [publish, if_neg (by simp [hsinks])]
      exact ⟨rfl, rfl, rfl, rfl⟩
  obtain ⟨hrunning, hstate, hpublished, happlied⟩ := hset
    { h with
      running := false, rest := if tlsUp then h.rest else none, ws := h.ws.close.1
      sinksRunning := false }.disarmWsWatchdog rfl
  exact ⟨hrunning, hstate, hpublished, happlied⟩

/-- Nothing is written by `stop`. -/
theorem stop_persisted (tlsUp : Bool) : (h.stop tlsUp).persisted = h.persisted := by
  obtain ⟨delay, statuses, -, hsame⟩ := setState_eq
    { h with
      running := false, rest := if tlsUp then h.rest else none, ws := h.ws.close.1
      sinksRunning := false }.disarmWsWatchdog .disconnected "stop"
  rw [stop]
  dsimp only at hsame ⊢
  rw [hsame]
  rfl

/-- What a stopped handler never changes. -/
def SameData (h h' : GenericFeedHandler) : Prop :=
  h'.running = h.running ∧ h'.state = h.state ∧ h'.published = h.published ∧
    h'.history.applied = h.history.applied

theorem notified_of_stopped (stopped : h.running = false) (outcome : WsClient String × Bool) :
    h.notified outcome = { h with ws := outcome.1 } := by
  rw [notified]
  split
  · rw [onWSClose, if_pos (by simp [stopped])]
  · rfl

/-- The second handler is the first with other clients, other timers and another count of sessions. -/
def OnlyLinks (h h' : GenericFeedHandler) : Prop :=
  ∃ ws rest timer watchdog opened, h' =
    { h with
      ws := ws, rest := rest, reconnectTimer := timer, watchdogTimer := watchdog
      history := { h.history with opened := opened } }

theorem OnlyLinks.refl (h : GenericFeedHandler) : OnlyLinks h h :=
  ⟨h.ws, h.rest, h.reconnectTimer, h.watchdogTimer, h.history.opened, rfl⟩

theorem wsOpened_of_halted (cfg : HandlerConfig) (now : Int) (stopped : h.running = false) :
    OnlyLinks h (h.wsOpened cfg now) := by
  rw [wsOpened]
  dsimp only
  split
  · rw [onWSOpen, if_pos (by simp [stopped])]
    exact ⟨_, h.rest, h.reconnectTimer, h.watchdogTimer, h.history.opened + 1, rfl⟩
  · exact ⟨_, h.rest, h.reconnectTimer, h.watchdogTimer, h.history.opened, rfl⟩

/-- A stopped handler ignores the answer of a GET, and an answer of the POST that is an error; otherwise it
    connects. -/
theorem restDone_of_halted (cfg : HandlerConfig) (now : Int) (outcome : HttpOutcome)
    (stopped : h.running = false) : OnlyLinks h (h.restDone cfg now outcome) := by
  have hanswered : ∀ ws, OnlyLinks h { h with rest := none, ws := ws } := fun ws =>
    ⟨ws, none, h.reconnectTimer, h.watchdogTimer, h.history.opened, rfl⟩
  rw [restDone]
  split
  · exact OnlyLinks.refl h
  · have hsame : { h with rest := none }.restartSync = { h with rest := none } :=
      restartSync_of_not_running _ stopped
    rw [onBootstrapResponse, hsame]
    split
    · exact hanswered h.ws
    · split
      · exact hanswered h.ws
      · exact hanswered h.ws.connect
  · rw [onSnapshotDone, if_pos (by simp [stopped])]
    exact hanswered h.ws

theorem onReconnectTimer_of_halted (cfg : HandlerConfig) (stopped : h.running = false) :
    OnlyLinks h (h.onReconnectTimer cfg) := by
  have hfired : OnlyLinks h { h with reconnectTimer := none } :=
    ⟨h.ws, h.rest, none, h.watchdogTimer, h.history.opened, rfl⟩
  rw [onReconnectTimer]
  split
  · exact OnlyLinks.refl h
  · dsimp only
    rw [if_neg (by simp [stopped])]
    exact hfired
  · dsimp only
    rw [if_pos (by simp [stopped])]
    exact hfired

theorem onWatchdogTimer_of_halted (cfg : HandlerConfig) (now : Int) (stopped : h.running = false) :
    OnlyLinks h (h.onWatchdogTimer cfg now) := by
  rw [onWatchdogTimer]
  split
  · exact OnlyLinks.refl h
  · dsimp only
    rw [if_pos (by simp [stopped])]
    exact ⟨h.ws, h.rest, h.reconnectTimer, none, h.history.opened, rfl⟩

/-- A callback that reaches a stopped handler changes its clients and timers, and the count of sessions. -/
theorem step_of_halted (cfg : HandlerConfig) (stopped : h.running = false) {e : FeedEvent}
    (going : ∀ tlsUp, e ≠ .stop tlsUp) : OnlyLinks h (h.step cfg e) := by
  have hloss : ∀ outcome, OnlyLinks h (h.notified outcome) := by
    intro outcome
    rw [notified_of_stopped stopped]
    exact ⟨outcome.1, h.rest, h.reconnectTimer, h.watchdogTimer, h.history.opened, rfl⟩
  cases e with
  | wsOpen now => exact wsOpened_of_halted cfg now stopped
  | wsMessage now msg =>
      have hsilent : h.onWSMessage cfg now msg = h := by
        rw [onWSMessage, if_pos (by simp [stopped])]
      rw [step, hsilent, ite_self]
      exact OnlyLinks.refl h
  | wsClosed => exact hloss _
  | wsFailed => exact hloss _
  | wsConnectFailed => exact hloss _
  | wsConnectTimeout => exact hloss _
  | wsCloseDone => exact hloss _
  | restDone now outcome => exact restDone_of_halted cfg now outcome stopped
  | reconnectTimer => exact onReconnectTimer_of_halted cfg stopped
  | watchdogTimer now => exact onWatchdogTimer_of_halted cfg now stopped
  | stop tlsUp => exact absurd rfl (going tlsUp)

/-- The data of a stopped handler stay as they are. -/
theorem step_of_stopped (stopped : h.running = false) (idle : h.state = .disconnected) (e : FeedEvent) :
    SameData h (h.step cfg e) := by
  by_cases hstop : ∃ tlsUp, e = .stop tlsUp
  · obtain ⟨tlsUp, rfl⟩ := hstop
    obtain ⟨hrunning, hstate, hpublished, happlied⟩ := stop_spec tlsUp
    exact ⟨hrunning.trans stopped.symm, hstate.trans idle.symm, hpublished, happlied⟩
  · obtain ⟨ws, rest, timer, watchdog, opened, hstep⟩ :=
      step_of_halted cfg stopped fun tlsUp hsame => hstop ⟨tlsUp, hsame⟩
    rw [hstep]
    exact ⟨rfl, rfl, rfl, rfl⟩

end GenericFeedHandler

/-!
### What every move keeps

Consequences that hold for any data callback: the fixed part, the published stream, which only grows, and
the states that can be reached.
-/

theorem Move.fixedPart {h h' : GenericFeedHandler} (move : Move cfg Base Frame h h') :
    h'.fixedPart = h.fixedPart := by
  cases move with
  | quiet => rfl
  | rebuffer => rfl
  | store => rfl
  | state => exact fixedPart_setState _ _
  | bridge => rfl
  | bookState => exact fixedPart_persist _
  | snapshot => exact fixedPart_applySnapshot cfg _ _ _ _
  | increment => exact fixedPart_applyIncrement cfg _ _
  | restart => exact fixedPart_restartSync
  | rejectSnapshot => exact fixedPart_restartSync.trans (fixedPart_applySnapshot cfg _ _ _ _)
  | rejectIncrement => exact fixedPart_restartSync.trans (fixedPart_applyIncrement cfg _ _)

theorem Moves.fixedPart {h h' : GenericFeedHandler} (moves : Moves cfg Base Frame h h') :
    h'.fixedPart = h.fixedPart := by
  induction moves with
  | refl => rfl
  | tail _ move ih => exact move.fixedPart.trans ih

theorem persist_grows (h : GenericFeedHandler) (event : PubEvent) :
    h.published <+: (h.persist event).published := by
  have hpublish : ∀ before : GenericFeedHandler, before.published <+: (before.publish event).published := by
    intro before
    rw [publish]
    split
    · exact List.prefix_append _ _
    · exact List.prefix_rfl
  rw [persist, write]
  split
  · exact hpublish { h with persisted := h.persisted ++ [event] }
  · exact hpublish h

theorem setState_grows (h : GenericFeedHandler) (next : FeedSyncState) (reason : String) :
    h.published <+: (h.setState next reason).published := by
  obtain ⟨delay, statuses, -, hsame⟩ := setState_eq h next reason
  rw [hsame]
  exact List.prefix_append _ _

theorem restartSync_grows (h : GenericFeedHandler) : h.published <+: h.restartSync.published := by
  cases hrunning : h.running with
  | false => exact (restartSync_of_not_running h hrunning).symm ▸ List.prefix_rfl
  | true =>
      obtain ⟨gen, flag, delay, statuses, -, hsame⟩ := restartSync_eq h hrunning
      rw [hsame]
      exact List.prefix_append _ _

theorem applySnapshot_grows (h : GenericFeedHandler) (cfg : HandlerConfig) (snap : GenericSnapshotFormat)
    (kind : BaselineKind) (source : String) (session : Nat) :
    h.published <+: (h.applySnapshot cfg snap kind source session).1.published :=
  persist_grows h _

theorem applyIncrement_grows (h : GenericFeedHandler) (cfg : HandlerConfig)
    (inc : GenericIncrementalFormat) (session : Nat) :
    h.published <+: (h.applyIncrement cfg inc session).1.published := by
  have hpersist : ∀ controller history, h.published <+:
      ({ h with controller := controller, history := history }.persist
        (.incremental inc "ws_incremental")).published :=
    fun controller history => persist_grows { h with controller := controller, history := history } _
  exact hpersist _ _

/-- What was published stays published. -/
theorem Move.published_grows {h h' : GenericFeedHandler} (move : Move cfg Base Frame h h') :
    h.published <+: h'.published := by
  cases move with
  | quiet => exact List.prefix_rfl
  | rebuffer => exact List.prefix_rfl
  | store => exact List.prefix_rfl
  | state next reason => exact setState_grows h next reason
  | bridge => exact List.prefix_rfl
  | bookState => exact persist_grows h _
  | snapshot => exact applySnapshot_grows h cfg _ _ _ _
  | increment => exact applyIncrement_grows h cfg _ _
  | restart => exact restartSync_grows h
  | rejectSnapshot => exact (applySnapshot_grows h cfg _ _ _ _).trans (restartSync_grows _)
  | rejectIncrement => exact (applyIncrement_grows h cfg _ _).trans (restartSync_grows _)

/-- A restart leads to `CONNECTING`, where the handler runs at all. -/
theorem restartSync_state (h : GenericFeedHandler) :
    h.restartSync.state = h.state ∨ h.restartSync.state = .connecting := by
  cases hrunning : h.running with
  | false =>
      rw [restartSync_of_not_running h hrunning]
      exact Or.inl rfl
  | true =>
      obtain ⟨gen, flag, delay, statuses, -, hsame⟩ := restartSync_eq h hrunning
      rw [hsame]
      exact Or.inr rfl

/-- The states a data callback can lead to. -/
theorem Move.state_cases {h h' : GenericFeedHandler} (move : Move cfg Base Frame h h') :
    h'.state = h.state ∨ Live h' ∨ h'.state = .connecting := by
  cases move with
  | quiet => exact Or.inl rfl
  | rebuffer => exact Or.inl rfl
  | store => exact Or.inl rfl
  | state next reason live =>
      obtain ⟨delay, statuses, -, hsame⟩ := setState_eq h next reason
      rw [hsame]
      exact Or.inr (Or.inl (live.imp_right And.left))
  | bridge => exact Or.inr (Or.inl (Or.inl rfl))
  | bookState => exact Or.inl (persist_state _)
  | snapshot => exact Or.inl (persist_state _)
  | increment => exact Or.inl (persist_state _)
  | restart => exact (restartSync_state h).imp_right Or.inr
  | rejectSnapshot =>
      exact (restartSync_state _).imp (fun hsame => hsame.trans (persist_state _)) Or.inr
  | rejectIncrement =>
      exact (restartSync_state _).imp (fun hsame => hsame.trans (persist_state _)) Or.inr

theorem Moves.state_cases {h h' : GenericFeedHandler} (moves : Moves cfg Base Frame h h') :
    h'.state = h.state ∨ Live h' ∨ h'.state = .connecting := by
  induction moves with
  | refl => exact Or.inl rfl
  | tail _ move ih =>
      rcases move.state_cases with hsame | hnew
      · rw [Live, hsame]
        exact ih
      · exact Or.inr hnew

/-- The moves of a frame, where nothing has to be known of sessions. -/
theorem onWSMessage_any (cfg : HandlerConfig) (now : Int) (msg : String) (h : GenericFeedHandler) :
    Moves cfg (fun _ _ => True) (fun _ _ => True) h (h.onWSMessage cfg now msg) :=
  onWSMessage_moves (fun _ _ _ => trivial) (fun _ _ _ _ _ => trivial) (fun _ _ _ => trivial) msg

/-- The moves of a snapshot response, where nothing has to be known of sessions. -/
theorem onSnapshotDone_any (cfg : HandlerConfig) (now : Int) (session : Nat) (outcome : HttpOutcome)
    (h : GenericFeedHandler) :
    Moves cfg (fun _ _ => True) (fun _ _ => True) h (h.onSnapshotDone cfg now session outcome) :=
  onSnapshotDone_moves (fun _ _ _ => trivial) trivial outcome

end ZidaBot.Feed
