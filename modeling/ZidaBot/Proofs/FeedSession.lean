/-
Module: ZidaBot.Proofs.FeedSession
Purpose: The baseline a frame meets was requested in the frame's own session or later.  `restartSync` does
  not cancel the snapshot request and its response is not tied to a session, so a response can land in any
  later state.  What saves a REST-anchored feed is the one request slot: a session that opens while an older
  request is in flight is refused its own and given up at once.  Hence an open session never has an older
  request beside it, and what was buffered is never newer than the request in flight.
Trusted boundary: none
Main exports: AppliedCovered, BaselineFresh, SessionInv, sessionsKept_step, baseline_belongs_to_session
-/
import ZidaBot.Library.Runs
import ZidaBot.Proofs.FeedMoves

namespace ZidaBot.Feed

open GenericFeedHandler Runs

/-- Every increment that met a baseline met one requested in its session or later. -/
def AppliedCovered (h : GenericFeedHandler) : Prop :=
  ∀ entry ∈ h.history.applied, ∃ session, entry.2 = some session ∧ entry.1 ≤ session

/-- The baseline covers what is buffered, and the session if one is open. -/
def BaselineFresh (h : GenericFeedHandler) : Prop :=
  h.controller.state ≠ .waitingSnapshot → ∃ session, h.history.baseline = some session ∧
    (∀ msg ∈ h.buffer, msg.session ≤ session) ∧
    (h.ws.sessionOpen = true → session = h.history.opened)

/-- What holds at every point of a running handler of a REST-anchored venue. -/
structure SessionInv (h : GenericFeedHandler) : Prop where
  running : h.running = true
  requested : h.ws.sessionOpen = true → ∀ session, h.rest = some (.get session) →
    session = h.history.opened
  issued : ∀ session, h.rest = some (.get session) → ∀ msg ∈ h.buffer, msg.session ≤ session
  stored : ∀ msg ∈ h.buffer, msg.session ≤ h.history.opened
  applied : AppliedCovered h
  anchored : h.state ≠ .waitWsSnapshot

/-- The invariant inside a data callback: the baseline is fresh whatever the state. -/
def Inside (h : GenericFeedHandler) : Prop := SessionInv h ∧ BaselineFresh h

/-- The invariant between callbacks: where a session is open and frames are applied, the baseline is
    fresh. -/
def Between (h : GenericFeedHandler) : Prop :=
  SessionInv h ∧ (Live h → h.ws.sessionOpen = true → BaselineFresh h)

theorem Inside.between {h : GenericFeedHandler} (inside : Inside h) : Between h :=
  ⟨inside.1, fun _ _ => inside.2⟩

/-!
### The end of a session

A session ends with the first error or close of its connection, and a cancelled client has none.
-/

@[simp] theorem notifyCloseOnce_sessionOpen (c : WsClient String) :
    c.notifyCloseOnce.1.sessionOpen = c.sessionOpen := by
  rw [WsClient.notifyCloseOnce]
  split <;> rfl

/-- A failure ends the session. -/
theorem fail_sessionOpen {c : WsClient String} (sessionOpen : c.fail.1.sessionOpen = true) :
    c.sessionOpen = true := by
  rw [WsClient.fail] at sessionOpen
  split at sessionOpen
  · rwa [notifyCloseOnce_sessionOpen] at sessionOpen
  · rw [notifyCloseOnce_sessionOpen] at sessionOpen
    simp [WsClient.sessionOpen] at sessionOpen

theorem readClosed_sessionOpen {c : WsClient String} (sessionOpen : c.readClosed.1.sessionOpen = true) :
    c.sessionOpen = true := by
  rw [WsClient.readClosed] at sessionOpen
  split at sessionOpen
  · rw [notifyCloseOnce_sessionOpen] at sessionOpen
    simp [WsClient.sessionOpen] at sessionOpen
  · exact sessionOpen

theorem ioFailed_sessionOpen {c : WsClient String} (sessionOpen : c.ioFailed.1.sessionOpen = true) :
    c.sessionOpen = true := by
  rw [WsClient.ioFailed] at sessionOpen
  split at sessionOpen
  · exact fail_sessionOpen sessionOpen
  · exact sessionOpen

theorem connectFailed_sessionOpen {c : WsClient String}
    (sessionOpen : c.connectFailed.1.sessionOpen = true) : c.sessionOpen = true := by
  rw [WsClient.connectFailed] at sessionOpen
  split at sessionOpen
  · exact sessionOpen
  · exact fail_sessionOpen sessionOpen

theorem closeDone_sessionOpen {c : WsClient String} (sessionOpen : c.closeDone.1.sessionOpen = true) :
    c.sessionOpen = true := by
  rw [WsClient.closeDone] at sessionOpen
  split at sessionOpen
  · rwa [notifyCloseOnce_sessionOpen] at sessionOpen
  · exact sessionOpen

theorem cancel_sessionOpen (c : WsClient String) : c.cancel.1.sessionOpen = false := by
  rw [WsClient.cancel]
  split
  · rename_i hclosing
    simp [WsClient.sessionOpen, hclosing]
  · rw [notifyCloseOnce_sessionOpen]
    simp [WsClient.sessionOpen]

/-- A restart leaves nothing that could be old: no session, no buffer, no baseline. -/
theorem restartSync_inside {h : GenericFeedHandler} (running : h.running = true)
    (applied : AppliedCovered h) : Inside h.restartSync := by
  obtain ⟨gen, flag, delay, statuses, -, hsame⟩ := restartSync_eq h running
  have hclosed := cancel_sessionOpen h.ws
  rw [hsame]
  refine ⟨⟨running, ?_, ?_, ?_, applied, ?_⟩, ?_⟩
  · intro hopen
    exact absurd hopen (by simp [hclosed])
  · exact fun _ _ _ hmsg => absurd hmsg List.not_mem_nil
  · exact fun _ hmsg => absurd hmsg List.not_mem_nil
  · exact fun hstate => by cases hstate
  · exact fun hstate => absurd rfl hstate

/-!
### The moves of a data callback

A baseline is as old as its request. What makes it fresh enough is different for a response, which covers
the buffer, and for a drained frame, which came from it; the two parameters of a move carry that.
-/

/-- What is known of the session a baseline was requested in. -/
def BaseKnown (h : GenericFeedHandler) (session : Nat) : Prop :=
  (∀ msg ∈ h.buffer, msg.session ≤ session) ∧ (h.ws.sessionOpen = true → session = h.history.opened)

/-- A frame is one of the buffer or comes from the open session. -/
def FrameKnown (h : GenericFeedHandler) (session : Nat) : Prop :=
  (∃ msg ∈ h.buffer, msg.session = session) ∨ (h.ws.sessionOpen = true ∧ session = h.history.opened)

section Moves

variable {cfg : HandlerConfig} {h h' : GenericFeedHandler}

theorem Inside.persist (inside : Inside h) (event : PubEvent) : Inside (h.persist event) := by
  obtain ⟨published, persisted, hsame⟩ := persist_eq h event
  rw [hsame]
  exact ⟨⟨inside.1.running, inside.1.requested, inside.1.issued, inside.1.stored, inside.1.applied,
    inside.1.anchored⟩, inside.2⟩

/-- A loaded baseline is fresh if it is known to be. -/
theorem applySnapshot_inside (inv : SessionInv h) {session : Nat} (base : BaseKnown h session)
    (snap : GenericSnapshotFormat) (kind : BaselineKind) (source : String) :
    Inside (h.applySnapshot cfg snap kind source session).1 := by
  obtain ⟨published, persisted, hsame⟩ := persist_eq h (.snapshot snap source)
  rw [applySnapshot, hsame]
  refine ⟨⟨inv.running, inv.requested, inv.issued, inv.stored, inv.applied, inv.anchored⟩, ?_⟩
  exact fun _ => ⟨session, rfl, base.1, base.2⟩

/-- A refused baseline is given up. -/
theorem applySnapshot_restartSync_inside (inv : SessionInv h) (snap : GenericSnapshotFormat)
    (kind : BaselineKind) (source : String) (session : Nat) :
    Inside (h.applySnapshot cfg snap kind source session).1.restartSync := by
  obtain ⟨published, persisted, hsame⟩ := persist_eq h (.snapshot snap source)
  rw [applySnapshot, hsame]
  exact restartSync_inside inv.running inv.applied

theorem onIncrement_waiting {ccfg : ControllerConfig} {c : OrderBookController}
    (waiting : c.state = .waitingSnapshot) (inc : GenericIncrementalFormat) :
    (c.onIncrement ccfg inc).1.state = .waitingSnapshot := by
  rw [OrderBookController.onIncrement, if_pos waiting]
  exact waiting

/-- An applied increment is covered by a fresh baseline, which it leaves in place. -/
theorem applyIncrement_inside (inside : Inside h) {session : Nat} (frame : FrameKnown h session)
    (inc : GenericIncrementalFormat) : Inside (h.applyIncrement cfg inc session).1 := by
  obtain ⟨inv, fresh⟩ := inside
  rw [applyIncrement]
  apply Inside.persist
  by_cases hwaiting : h.controller.state = .waitingSnapshot
  · rw [if_pos hwaiting]
    refine ⟨⟨inv.running, inv.requested, inv.issued, inv.stored, inv.applied, inv.anchored⟩, ?_⟩
    exact fun hstate => absurd (onIncrement_waiting hwaiting inc) hstate
  · obtain ⟨base, hbase, hbuffer, hopen⟩ := fresh hwaiting
    have hcovered : session ≤ base := by
      rcases frame with ⟨msg, hmsg, rfl⟩ | ⟨hsession, rfl⟩
      · exact hbuffer msg hmsg
      · exact (hopen hsession).ge
    rw [if_neg hwaiting]
    refine ⟨⟨inv.running, inv.requested, inv.issued, inv.stored, ?_, inv.anchored⟩, ?_⟩
    · intro entry hentry
      rcases List.mem_append.mp hentry with hold | hnew
      · exact inv.applied entry hold
      · rw [List.mem_singleton.mp hnew]
        exact ⟨base, hbase, hcovered⟩
    · exact fun _ => ⟨base, hbase, hbuffer, hopen⟩

/-- A change of state alone. -/
theorem Inside.setState (inside : Inside h) {next : FeedSyncState} (legal : next ≠ .waitWsSnapshot)
    (reason : String) : Inside (h.setState next reason) := by
  obtain ⟨delay, statuses, -, hsame⟩ := setState_eq h next reason
  rw [hsame]
  exact ⟨⟨inside.1.running, inside.1.requested, inside.1.issued, inside.1.stored, inside.1.applied,
    legal⟩, inside.2⟩

/-- Every move keeps the inner invariant. -/
theorem Move.inside (move : Move cfg BaseKnown FrameKnown h h') (inside : Inside h) : Inside h' := by
  obtain ⟨inv, fresh⟩ := inside
  cases move with
  | quiet gen timer last updates =>
      exact ⟨⟨inv.running, inv.requested, inv.issued, inv.stored, inv.applied, inv.anchored⟩, fresh⟩
  | rebuffer buffer kept =>
      -- a message that is left has the session of one that was there
      have hkept : ∀ {bound : Nat}, (∀ msg ∈ h.buffer, msg.session ≤ bound) →
          ∀ msg ∈ buffer, msg.session ≤ bound := by
        intro bound hall msg hmsg
        obtain ⟨old, hold, heq⟩ := kept msg hmsg
        rw [heq]
        exact hall old hold
      refine ⟨⟨inv.running, inv.requested, fun session hrest => hkept (inv.issued session hrest),
        hkept inv.stored, inv.applied, inv.anchored⟩, fun hstate => ?_⟩
      obtain ⟨base, hbase, hbuffer, hopen⟩ := fresh hstate
      exact ⟨base, hbase, hkept hbuffer, hopen⟩
  | store now msg frame =>
      -- the open session is not newer than a bound on what is known
      have hstored : ∀ {bound : Nat}, (∀ msg ∈ h.buffer, msg.session ≤ bound) →
          (h.ws.sessionOpen = true → bound = h.history.opened) →
          ∀ kept ∈ h.buffer ++ [({ payload := msg, recvTsNs := now, session := h.history.opened } :
            BufferedMsg)], kept.session ≤ bound := by
        intro bound hall hopen kept hkept
        rcases List.mem_append.mp hkept with hold | hnew
        · exact hall kept hold
        · rw [List.mem_singleton.mp hnew]
          rcases frame with ⟨old, hold, heq⟩ | ⟨hsession, -⟩
          · exact heq ▸ hall old hold
          · exact (hopen hsession).ge
      refine ⟨⟨inv.running, inv.requested, fun session hrest => ?_, ?_, inv.applied, inv.anchored⟩,
        fun hstate => ?_⟩
      · exact hstored (inv.issued session hrest) fun hopen => inv.requested hopen session hrest
      · exact hstored inv.stored fun _ => rfl
      · obtain ⟨base, hbase, hbuffer, hopen⟩ := fresh hstate
        exact ⟨base, hbase, hstored hbuffer hopen, hopen⟩
  | state next reason live =>
      apply Inside.setState ⟨inv, fresh⟩
      rcases live with rfl | ⟨rfl, -⟩ <;> exact fun hstate => by cases hstate
  | bridge =>
      exact ⟨⟨inv.running, inv.requested, inv.issued, inv.stored, inv.applied,
        fun hstate => by cases hstate⟩, fresh⟩
  | bookState source now enabled synced => exact Inside.persist ⟨inv, fresh⟩ _
  | snapshot snap kind source session origin base accepted => exact applySnapshot_inside inv base ..
  | increment inc session origin frame accepted => exact applyIncrement_inside ⟨inv, fresh⟩ frame inc
  | restart => exact restartSync_inside inv.running inv.applied
  | rejectSnapshot snap kind source session origin resync =>
      exact applySnapshot_restartSync_inside inv snap kind source session
  | rejectIncrement inc session origin frame resync =>
      have hafter : Inside (h.applyIncrement cfg inc session).1 :=
        applyIncrement_inside ⟨inv, fresh⟩ frame inc
      exact restartSync_inside hafter.1.running hafter.1.applied

end Moves

/-!
### The callbacks

The one request slot does the work here: a session that opens beside an older request is refused its own and
given up, so no frame is applied in it.
-/

section Callbacks

variable {cfg : HandlerConfig} {h : GenericFeedHandler}

/-- A client that has no more of a session than before. -/
theorem Between.ws (between : Between h) {c : WsClient String}
    (less : c.sessionOpen = true → h.ws.sessionOpen = true) : Between { h with ws := c } := by
  obtain ⟨inv, fresh⟩ := between
  refine ⟨⟨inv.running, fun hopen => inv.requested (less hopen), inv.issued, inv.stored, inv.applied,
    inv.anchored⟩, fun hlive hopen hstate => ?_⟩
  obtain ⟨base, hbase, hbuffer, hsession⟩ := fresh hlive (less hopen) hstate
  exact ⟨base, hbase, hbuffer, fun hopen => hsession (less hopen)⟩

/-- The close callback restarts the feed or only clears its flag. -/
theorem notified_between (between : Between h) {outcome : WsClient String × Bool}
    (less : outcome.1.sessionOpen = true → h.ws.sessionOpen = true) : Between (h.notified outcome) := by
  have hclient : Between { h with ws := outcome.1 } := between.ws less
  rw [notified]
  split
  · rw [onWSClose]
    split
    · exact hclient
    · split
      · exact ⟨⟨hclient.1.running, hclient.1.requested, hclient.1.issued, hclient.1.stored,
          hclient.1.applied, hclient.1.anchored⟩, hclient.2⟩
      · refine (restartSync_inside ?_ ?_).between
        · exact hclient.1.running
        · exact hclient.1.applied
  · exact hclient

/-- A request is issued for the current session, or the feed is restarted. -/
theorem requestSnapshot_between (running : h.running = true) (applied : AppliedCovered h)
    (stored : ∀ msg ∈ h.buffer, msg.session ≤ h.history.opened) : Between (h.requestSnapshot cfg) := by
  obtain ⟨delay, statuses, -, hsame⟩ := setState_eq h .waitRestSnapshot "request_snapshot"
  rw [requestSnapshot, hsame]
  split
  · refine (restartSync_inside ?_ ?_).between
    · exact running
    · exact applied
  · refine ⟨⟨running, ?_, ?_, stored, applied, fun hstate => by cases hstate⟩, ?_⟩
    · rintro _ session ⟨⟩
      rfl
    · rintro session ⟨⟩
      exact stored
    · rintro (hstate | hstate) <;> cases hstate

theorem connectWS_between (inv : SessionInv h) : Between h.connectWS := by
  refine ⟨⟨inv.running, fun hopen => ?_, inv.issued, inv.stored, inv.applied, inv.anchored⟩,
    fun _ hopen => ?_⟩ <;> cases hopen

theorem SessionInv.setState (inv : SessionInv h) {next : FeedSyncState} (legal : next ≠ .waitWsSnapshot)
    (reason : String) : SessionInv (h.setState next reason) := by
  obtain ⟨delay, statuses, -, hsame⟩ := setState_eq h next reason
  rw [hsame]
  exact ⟨inv.running, inv.requested, inv.issued, inv.stored, inv.applied, legal⟩

theorem setState_not_live {next : FeedSyncState} (bridge : next ≠ .waitBridge) (synced : next ≠ .synced)
    (reason : String) : ¬ Live (h.setState next reason) := by
  obtain ⟨delay, statuses, -, hsame⟩ := setState_eq h next reason
  rw [hsame]
  exact not_or.mpr ⟨bridge, synced⟩

theorem bootstrapWS_between (inv : SessionInv h) (idle : ¬ Live h) : Between (h.bootstrapWS cfg) := by
  have hrestart : Between h.restartSync := (restartSync_inside inv.running inv.applied).between
  rw [bootstrapWS]
  split
  · exact ⟨inv, fun hlive => absurd hlive idle⟩
  · split
    · exact hrestart
    · split
      · exact hrestart
      · refine ⟨⟨inv.running, ?_, ?_, inv.stored, inv.applied, inv.anchored⟩,
          fun hlive => absurd hlive idle⟩
        · rintro _ session ⟨⟩
        · rintro session ⟨⟩

/-- A session opens: it gets a request of its own or is given up. -/
theorem wsOpened_between (anchored : cfg.adapter.caps.syncMode = .restAnchored) (now : Int)
    (between : Between h) : Between (h.wsOpened cfg now) := by
  cases hcompleted : h.ws.handshakeDone.2 with
  | false => rwa [wsOpened_dropped cfg now hcompleted]
  | true =>
      obtain ⟨opened, gen, timer, outbox, inFlight, delay, statuses, -, hopened, heq⟩ :=
        wsOpened_restAnchored cfg now anchored between.1.running hcompleted
      rw [heq, hopened]
      apply requestSnapshot_between
      · exact between.1.running
      · exact between.1.applied
      · exact fun msg hmsg => (between.1.stored msg hmsg).trans (Nat.le_succ _)

/-- A frame of the open session, while the response to the request is awaited. -/
theorem bufferFrame_between (between : Between h) (sessionOpen : h.ws.sessionOpen = true)
    (waiting : h.state = .waitRestSnapshot) (now : Int) (msg : String) :
    Between (h.bufferFrame cfg now msg).1 := by
  obtain ⟨inv, -⟩ := between
  rw [bufferFrame]
  split
  · have hstored : ∀ kept ∈ h.buffer ++ [({ payload := msg, recvTsNs := now, session := h.history.opened } :
        BufferedMsg)], kept.session ≤ h.history.opened := by
      intro kept hkept
      rcases List.mem_append.mp hkept with hold | hnew
      · exact inv.stored kept hold
      · rw [List.mem_singleton.mp hnew]
    refine ⟨⟨inv.running, inv.requested, fun session hrest => ?_, hstored, inv.applied, inv.anchored⟩, ?_⟩
    · rw [inv.requested sessionOpen session hrest]
      exact hstored
    · -- nothing is applied in this state
      rintro (hlive | hlive) <;> rw [waiting] at hlive <;> cases hlive
  · exact (restartSync_inside inv.running inv.applied).between

theorem onMessageLive_between (between : Between h) (sessionOpen : h.ws.sessionOpen = true)
    (live : Live h) (now : Int) (msg : String) : Between (h.onMessageLive cfg now msg) := by
  have hmoves : Moves cfg BaseKnown FrameKnown h (h.onMessageLive cfg now msg) :=
    onMessageLive_moves (fun _ msg hmsg => Or.inl ⟨msg, hmsg, rfl⟩)
      ⟨between.1.stored, fun _ => rfl⟩ (Or.inr ⟨sessionOpen, rfl⟩) msg
  have hinside : Inside (h.onMessageLive cfg now msg) :=
    hmoves.invariant (fun _ _ move => move.inside) ⟨between.1, between.2 live sessionOpen⟩
  exact hinside.between

/-- A frame of the open session. -/
theorem onWSMessage_between (between : Between h) (sessionOpen : h.ws.sessionOpen = true) (now : Int)
    (msg : String) : Between (h.onWSMessage cfg now msg) := by
  rw [onWSMessage]
  split
  · exact between
  · obtain ⟨gen, timer, hsame⟩ := armWsWatchdog_eq cfg { h with lastWsMessageNs := now }
    rw [hsame]
    obtain ⟨inv, fresh⟩ := between
    have hreceived : Between
        { h with lastWsMessageNs := now, watchdogGen := gen, watchdogTimer := timer } :=
      ⟨⟨inv.running, inv.requested, inv.issued, inv.stored, inv.applied, inv.anchored⟩, fresh⟩
    dsimp only
    split
    · rename_i hstate
      rw [onMessageWaitRest]
      split
      · exact bufferFrame_between hreceived sessionOpen hstate now msg
      · exact hreceived
    · rename_i hstate
      exact absurd hstate inv.anchored
    · rename_i hstate
      exact onMessageLive_between hreceived sessionOpen (Or.inl hstate) now msg
    · rename_i hstate
      exact onMessageLive_between hreceived sessionOpen (Or.inr hstate) now msg
    · exact hreceived
    · exact hreceived
    · exact hreceived

/-- The response to a request: the baseline it loads covers the buffer, and the session if one is open. -/
theorem onSnapshotDone_between {session : Nat} (request : h.rest = some (.get session))
    (between : Between h) (now : Int) (outcome : HttpOutcome) :
    Between ({ h with rest := none }.onSnapshotDone cfg now session outcome) := by
  obtain ⟨inv, fresh⟩ := between
  have hinv : SessionInv { h with rest := none } := by
    refine ⟨inv.running, ?_, ?_, inv.stored, inv.applied, inv.anchored⟩
    · rintro _ session ⟨⟩
    · rintro session ⟨⟩
  have hbase : BaseKnown { h with rest := none } session :=
    ⟨inv.issued session request, fun hopen => inv.requested hopen session request⟩
  have hcase := onSnapshotDone_cases cfg now session outcome { h with rest := none }
  generalize { h with rest := none }.onSnapshotDone cfg now session outcome = after at hcase ⊢
  cases hcase with
  | unchanged => exact ⟨hinv, fresh⟩
  | restarted => exact (restartSync_inside hinv.running hinv.applied).between
  | refused snap ok parsed resync => exact (applySnapshot_restartSync_inside hinv _ _ _ session).between
  | loaded snap ok parsed accepted =>
      have hloaded : Inside ({ h with rest := none }.responseLoaded cfg now session snap).1 :=
        applySnapshot_inside hinv hbase _ _ _
      have hmoves : Moves cfg BaseKnown FrameKnown
          ({ h with rest := none }.responseLoaded cfg now session snap).1
          (({ h with rest := none }.responseLoaded cfg now session snap).1.responseDrained cfg now) :=
        responseDrained_moves fun _ msg hmsg => Or.inl ⟨msg, hmsg, rfl⟩
      exact Inside.between (hmoves.invariant (fun _ _ move => move.inside) hloaded)

theorem restDone_between (between : Between h) (now : Int) (outcome : HttpOutcome) :
    Between (h.restDone cfg now outcome) := by
  rw [restDone]
  cases hrest : h.rest with
  | none => exact between
  | some request =>
      cases request with
      | get session => exact onSnapshotDone_between hrest between now outcome
      | post =>
          obtain ⟨inv, -⟩ := between
          have hinv : SessionInv { h with rest := none } := by
            refine ⟨inv.running, ?_, ?_, inv.stored, inv.applied, inv.anchored⟩
            · rintro _ session ⟨⟩
            · rintro session ⟨⟩
          have hrestart := (restartSync_inside hinv.running hinv.applied).between
          dsimp only
          rw [onBootstrapResponse]
          split
          · exact hrestart
          · split
            · exact hrestart
            · exact connectWS_between hinv

theorem onReconnectTimer_between (between : Between h) : Between (h.onReconnectTimer cfg) := by
  obtain ⟨inv, fresh⟩ := between
  have hexpired : Between { h with reconnectTimer := none } :=
    ⟨⟨inv.running, inv.requested, inv.issued, inv.stored, inv.applied, inv.anchored⟩, fresh⟩
  rw [onReconnectTimer]
  split
  · exact ⟨inv, fresh⟩
  · dsimp only
    split
    · exact requestSnapshot_between inv.running inv.applied inv.stored
    · exact hexpired
  · dsimp only
    split
    · exact hexpired
    · split
      · apply bootstrapWS_between (hexpired.1.setState (fun hstate => by cases hstate) _)
        exact setState_not_live (fun hstate => by cases hstate) (fun hstate => by cases hstate) _
      · exact connectWS_between (hexpired.1.setState (fun hstate => by cases hstate) _)

theorem onWatchdogTimer_between (between : Between h) (now : Int) :
    Between (h.onWatchdogTimer cfg now) := by
  obtain ⟨inv, fresh⟩ := between
  rw [onWatchdogTimer]
  split
  · exact ⟨inv, fresh⟩
  · have hexpired : Between { h with watchdogTimer := none } :=
      ⟨⟨inv.running, inv.requested, inv.issued, inv.stored, inv.applied, inv.anchored⟩, fresh⟩
    dsimp only
    split
    · exact hexpired
    · split
      · exact hexpired
      · split
        · exact (restartSync_inside hexpired.1.running hexpired.1.applied).between
        · exact hexpired

end Callbacks

/-!
### Runs

Frames arrive in their own session only, which is the one assumption about delivery. The invariant of a run
also covers a handler that was stopped and applies nothing any more.
-/

/-- No frame is delivered once its session has closed. -/
def FrameInSession (h : GenericFeedHandler) : FeedEvent → Prop
  | .wsMessage _ _ => h.ws.sessionOpen = true
  | _ => True

/-- The invariant of a run: a stopped handler applies nothing any more. -/
def SessionsKept (h : GenericFeedHandler) : Prop :=
  Between h ∨ (AppliedCovered h ∧ h.running = false ∧ h.state = .disconnected)

/-- One callback of a running handler. -/
theorem between_step {cfg : HandlerConfig} (anchored : cfg.adapter.caps.syncMode = .restAnchored)
    {h : GenericFeedHandler} {e : FeedEvent} (between : Between h) (frame : FrameInSession h e) :
    SessionsKept (h.step cfg e) := by
  cases e with
  | wsOpen now => exact Or.inl (wsOpened_between anchored now between)
  | wsMessage now msg =>
      rw [step]
      split
      · exact Or.inl (onWSMessage_between between frame now msg)
      · exact Or.inl between
  | wsClosed => exact Or.inl (notified_between between readClosed_sessionOpen)
  | wsFailed => exact Or.inl (notified_between between ioFailed_sessionOpen)
  | wsConnectFailed => exact Or.inl (notified_between between connectFailed_sessionOpen)
  | wsConnectTimeout => exact Or.inl (notified_between between fail_sessionOpen)
  | wsCloseDone => exact Or.inl (notified_between between closeDone_sessionOpen)
  | restDone now outcome => exact Or.inl (restDone_between between now outcome)
  | reconnectTimer => exact Or.inl (onReconnectTimer_between between)
  | watchdogTimer now => exact Or.inl (onWatchdogTimer_between between now)
  | stop tlsUp =>
      obtain ⟨hrunning, hstate, -, happlied⟩ := stop_spec tlsUp
      refine Or.inr ⟨?_, hrunning, hstate⟩
      rw [AppliedCovered, step, happlied]
      exact between.1.applied

theorem sessionsKept_step {cfg : HandlerConfig} (anchored : cfg.adapter.caps.syncMode = .restAnchored)
    (h : GenericFeedHandler) (e : FeedEvent) (kept : SessionsKept h) (frame : FrameInSession h e) :
    SessionsKept (h.step cfg e) := by
  rcases kept with between | ⟨happlied, hstopped, hidle⟩
  · exact between_step anchored between frame
  · obtain ⟨hrunning, hstate, -, hsame⟩ := step_of_stopped hstopped hidle e
    refine Or.inr ⟨?_, hrunning.trans hstopped, hstate.trans hidle⟩
    rw [AppliedCovered, hsame]
    exact happlied

theorem started_between (cfg : HandlerConfig) : Between (started cfg) := by
  obtain ⟨delay, statuses, -, hsame⟩ := setState_eq { init cfg with running := true } .connecting "start"
  have hinv : SessionInv { { init cfg with running := true }.setState .connecting "start" with
      sinksRunning := ({ init cfg with running := true }.setState .connecting "start").brainSinks } := by
    rw [hsame]
    refine ⟨rfl, ?_, ?_, ?_, ?_, fun hstate => by cases hstate⟩
    · rintro _ session ⟨⟩
    · rintro session ⟨⟩
    · exact fun _ hmsg => absurd hmsg List.not_mem_nil
    · exact fun _ hentry => absurd hentry List.not_mem_nil
  rw [started, start, if_neg (by simp [init])]
  dsimp only
  split
  · apply bootstrapWS_between (hinv.setState (fun hstate => by cases hstate) _)
    exact setState_not_live (fun hstate => by cases hstate) (fun hstate => by cases hstate) _
  · exact connectWS_between hinv

/-- For every REST-anchored venue and every run in which frames only arrive in their own session: whenever
    an increment of session `k` reaches a controller with a baseline, that baseline came from a request
    issued when `k` or more sessions had been opened. -/
theorem baseline_belongs_to_session (v : VenueId) (anchored : v.caps.syncMode = .restAnchored)
    (cfg : HandlerConfig) (venue : cfg.adapter.caps = v.caps) (events : List FeedEvent)
    (delivered : Along (step cfg) FrameInSession (started cfg) events) :
    ∀ k baseline, (k, baseline) ∈ (run (step cfg) (started cfg) events).history.applied →
      ∃ session, baseline = some session ∧ k ≤ session := by
  have hmode : cfg.adapter.caps.syncMode = .restAnchored := by
    rw [venue]
    exact anchored
  have hkept : SessionsKept (run (step cfg) (started cfg) events) :=
    delivered.invariant (sessionsKept_step hmode) (Or.inl (started_between cfg))
  intro k baseline hentry
  rcases hkept with between | ⟨happlied, -⟩
  · exact between.1.applied (k, baseline) hentry
  · exact happlied (k, baseline) hentry

/-- A Binance feed of two levels. -/
def binanceFeed : HandlerConfig :=
  { adapter := .ofTraffic VenueId.binance.caps "/api/v3/depth?symbol=BTCUSDT&limit=400"
      [("snapshot", {
        lastUpdateId := 100, tsRecvNs := 0, checksum := 0
        bids := [⟨300, 1, "3.00", "0.001"⟩], asks := [⟨400, 1, "4.00", "0.001"⟩] })]
      [("depthUpdate 101", {
          firstSeq := 101, lastSeq := 101, prevLast := 100, tsRecvNs := 0, checksum := 0
          bids := [⟨301, 1, "3.01", "0.001"⟩], asks := [] }),
        ("depthUpdate 102", {
          firstSeq := 102, lastSeq := 102, prevLast := 101, tsRecvNs := 0, checksum := 0
          bids := [⟨302, 1, "3.02", "0.001"⟩], asks := [] })]
    depth := 400, depth_pos := by decide }

/-- Three sessions, the request of the first answered during neither of the first two. -/
def lateResponse : List FeedEvent :=
  [.wsOpen 1, .wsClosed, .reconnectTimer, .wsOpen 2, .restDone 3 (.response 200 true true "snapshot"),
    .reconnectTimer, .wsOpen 4, .wsMessage 5 "depthUpdate 101",
    .restDone 6 (.response 200 true true "snapshot"), .wsMessage 7 "depthUpdate 102"]

/-- The request of the first session is still in flight when the second opens and answered before the
    third: the second is given up, and what the third receives meets its own baseline. -/
theorem baseline_belongs_to_session_late_response :
    (run (step binanceFeed) (started binanceFeed) lateResponse).history.applied =
        [(3, some 3), (3, some 3)] ∧
      ∀ k baseline,
        (k, baseline) ∈ (run (step binanceFeed) (started binanceFeed) lateResponse).history.applied →
        ∃ session, baseline = some session ∧ k ≤ session := by
  constructor
  · decide
  · apply baseline_belongs_to_session .binance rfl binanceFeed rfl
    refine ⟨trivial, trivial, trivial, trivial, trivial, trivial, trivial, ?_, trivial, ?_, trivial⟩
    · show _ = true
      decide
    · show _ = true
      decide

end ZidaBot.Feed
