/-
Module: ZidaBot.Proofs.FeedBuffering
Purpose: Buffering is invisible.  In a session of a REST-anchored venue a frame takes one of three routes:
  it waits for the snapshot response, it is buffered and drained while the feed bridges, or it is applied on
  arrival.  Whenever the response arrives, the controller and the published increments are those of
  `onSnapshot` followed by `onIncrement` on every accepted frame in order of arrival, up to the first
  resync.
Trusted boundary: none
Main exports: incrementsOf, unbuffered, OpensSession, NoThrow, drainLoop_feeding, buffering_transparent
-/
import ZidaBot.Library.Runs
import ZidaBot.Proofs.FeedChanges
import ZidaBot.Proofs.OrderBookController

namespace ZidaBot.Feed

open GenericFeedHandler Runs

/-!
### The unbuffered feed

The abstract feed has no buffer and no states: a snapshot, and then all increments until one asks for a
resync.
-/

/-- `onIncrement`, with `true` for `NeedResync`. -/
def incrementStep (cfg : ControllerConfig) (c : OrderBookController) (inc : GenericIncrementalFormat) :
    OrderBookController × Bool :=
  ((c.onIncrement cfg inc).1, (c.onIncrement cfg inc).action == .needResync)

/-- The increment that the adapter reads out of a frame, stamped with the frame's time of arrival. -/
def frameIncrement (cfg : HandlerConfig) (frame : Int × String) : Option GenericIncrementalFormat :=
  match incrementalOf cfg frame.2 with
  | .accepted inc => some { inc with tsRecvNs := frame.1 }
  | _ => none

/-- The increments of frames in order of arrival. -/
def incrementsOf (cfg : HandlerConfig) (frames : List (Int × String)) : List GenericIncrementalFormat :=
  frames.filterMap (frameIncrement cfg)

/-- The snapshot, then every increment until one asks for a resync. -/
def unbuffered (cfg : HandlerConfig) (c : OrderBookController) (snap : GenericSnapshotFormat)
    (frames : List (Int × String)) : Stretch OrderBookController GenericIncrementalFormat :=
  let outcome := c.onSnapshot cfg.controllerConfig snap .restAnchored
  if outcome.action = .needResync then ⟨outcome.1, [], true⟩
  else runUntil (incrementStep cfg.controllerConfig) outcome.1 (incrementsOf cfg frames)

/-- The increments among published events. -/
def publishedIncrements (published : List PubEvent) : List GenericIncrementalFormat :=
  published.filterMap fun
    | .incremental inc _ => some inc
    | _ => none

/-- The parsers report by their return value. -/
structure NoThrow (cfg : HandlerConfig) : Prop where
  incremental : ∀ text, cfg.adapter.parseIncremental text ≠ .threw
  snapshot : ∀ text, cfg.adapter.parseSnapshot text ≠ .threw

/-- A feed whose frames may go through the buffer: the baseline comes from REST alone, no parser throws, an
    empty frame is no increment, and the buffer can hold a frame. -/
structure Bufferable (cfg : HandlerConfig) : Prop where
  anchored : cfg.adapter.caps.syncMode = .restAnchored
  noWsSnapshot : cfg.adapter.caps.wsSendsSnapshot = false
  noThrow : NoThrow cfg
  blank : cfg.adapter.isIncremental "" = false
  room : 0 < cfg.maxBuffer

/-!
### One increment

`Feeding` keeps beside the handler what it has published, since the claim is about both.
-/

/-- A running handler with its sinks: the controller it has and the increments it has published. -/
structure Feeding (h : GenericFeedHandler) (c : OrderBookController)
    (sent : List GenericIncrementalFormat) : Prop where
  running : h.running = true
  sinks : h.brainSinks = true ∧ h.sinksRunning = true
  controller : h.controller = c
  published : publishedIncrements h.published = sent

section Increment

variable {cfg : HandlerConfig} {h : GenericFeedHandler} {c : OrderBookController}
  {sent : List GenericIncrementalFormat} {now : Int}

@[simp] theorem publishedIncrements_append (first second : List PubEvent) :
    publishedIncrements (first ++ second) = publishedIncrements first ++ publishedIncrements second :=
  List.filterMap_append

/-- Statuses are not increments. -/
theorem publishedIncrements_statuses {next : FeedSyncState} {statuses : List PubEvent}
    (only : StatusOnly next statuses) : publishedIncrements statuses = [] := by
  rw [publishedIncrements, List.filterMap_eq_nil_iff]
  intro event hevent
  obtain ⟨reason, rfl⟩ := only event hevent
  rfl

/-- Checkpoints are not increments. -/
theorem publishedIncrements_checkpoints {source : String} {checkpoints : List PubEvent}
    (only : CheckpointOnly h now source checkpoints) : publishedIncrements checkpoints = [] := by
  rw [publishedIncrements, List.filterMap_eq_nil_iff]
  intro event hevent
  obtain ⟨-, rfl⟩ := only event hevent
  rfl

theorem Feeding.setState (feeding : Feeding h c sent) (next : FeedSyncState) (reason : String) :
    Feeding (h.setState next reason) c sent ∧ (h.setState next reason).state = next ∧
      (h.setState next reason).buffer = h.buffer := by
  obtain ⟨delay, statuses, honly, hsame⟩ := setState_eq h next reason
  rw [hsame]
  refine ⟨⟨feeding.running, feeding.sinks, feeding.controller, ?_⟩, rfl, rfl⟩
  rw [publishedIncrements_append, publishedIncrements_statuses honly, List.append_nil]
  exact feeding.published

/-- A restart where the controller has reset itself already. -/
theorem Feeding.restartSync (feeding : Feeding h c sent) (reset : c.resetBook = c) :
    Feeding h.restartSync c sent ∧ h.restartSync.state = .connecting := by
  obtain ⟨gen, flag, delay, statuses, honly, hsame⟩ := restartSync_eq h feeding.running
  rw [hsame]
  refine ⟨⟨feeding.running, feeding.sinks, ?_, ?_⟩, rfl⟩
  · rw [feeding.controller]
    exact reset
  · rw [publishedIncrements_append, publishedIncrements_statuses honly, List.append_nil]
    exact feeding.published

/-- Giving the sinks something else than an increment. -/
theorem Feeding.persist (feeding : Feeding h c sent) {event : PubEvent}
    (other : publishedIncrements [event] = []) : Feeding (h.persist event) c sent := by
  have up : Publishing h := ⟨feeding.running, feeding.sinks.1, feeding.sinks.2⟩
  rw [up.persist_eq]
  refine ⟨feeding.running, feeding.sinks, feeding.controller, ?_⟩
  rw [publishedIncrements_append, other, List.append_nil]
  exact feeding.published

theorem Feeding.maybePersistBook (feeding : Feeding h c sent) (now : Int) (source : String) :
    Feeding (h.maybePersistBook now source) c sent ∧
      (h.maybePersistBook now source).state = h.state := by
  obtain ⟨updates, checkpoints, persisted, honly, hsame⟩ := maybePersistBook_eq h now source
  rw [hsame]
  refine ⟨⟨feeding.running, feeding.sinks, feeding.controller, ?_⟩, rfl⟩
  rw [publishedIncrements_append, publishedIncrements_checkpoints honly, List.append_nil]
  exact feeding.published

/-- An increment goes to the controller and then to the sinks. -/
theorem Feeding.applyIncrement (feeding : Feeding h c sent) (cfg : HandlerConfig)
    (inc : GenericIncrementalFormat) (session : Nat) :
    Feeding (h.applyIncrement cfg inc session).1 (incrementStep cfg.controllerConfig c inc).1
        (sent ++ [inc]) ∧
      (h.applyIncrement cfg inc session).1.state = h.state ∧
      (h.applyIncrement cfg inc session).2 = (incrementStep cfg.controllerConfig c inc).2 := by
  have up : Publishing h := ⟨feeding.running, feeding.sinks.1, feeding.sinks.2⟩
  refine ⟨?_, ?_, ?_⟩
  · have hpublished : (h.applyIncrement cfg inc session).1.published = _ :=
      up.applyIncrement_published inc session
    obtain ⟨published, persisted, history, hsame⟩ := applyIncrement_eq h cfg inc session
    rw [hsame] at hpublished ⊢
    refine ⟨feeding.running, feeding.sinks, ?_, ?_⟩
    · rw [← feeding.controller]
      rfl
    · have hsent : published = h.published ++ [.incremental inc "ws_incremental"] := hpublished
      dsimp only
      rw [hsent, publishedIncrements_append]
      exact congrArg (· ++ [inc]) feeding.published
  · exact applyIncrement_state inc session
  · rw [← feeding.controller]
    rfl

/-- An increment that asks for a resync has reset the controller. -/
theorem incrementStep_reset {ccfg : ControllerConfig} {inc : GenericIncrementalFormat}
    (resync : (incrementStep ccfg c inc).2 = true) :
    (incrementStep ccfg c inc).1.resetBook = (incrementStep ccfg c inc).1 := by
  have haction : (c.call ccfg (.increment inc)).action = .needResync := by
    simpa [incrementStep, OrderBookController.call] using resync
  exact OrderBookController.resetBook_of_needResync haction

/-!
### The drain

The drain stops at the first resync, which resets controller and buffer; frames behind it are lost on both
sides.
-/

/-- A frame of the buffer as it was received. -/
def BufferedMsg.frame (msg : BufferedMsg) : Int × String := (msg.recvTsNs, msg.payload)

/-- The increments of frames, each handed on until one asks for a resync. -/
def handedOn (cfg : HandlerConfig) (c : OrderBookController) (frames : List (Int × String)) :
    Stretch OrderBookController GenericIncrementalFormat :=
  runUntil (incrementStep cfg.controllerConfig) c (incrementsOf cfg frames)

theorem handedOn_skip {frame : Int × String} (skipped : frameIncrement cfg frame = none)
    (frames : List (Int × String)) : handedOn cfg c (frame :: frames) = handedOn cfg c frames := by
  rw [handedOn, handedOn, incrementsOf, List.filterMap_cons_none skipped]
  rfl

theorem handedOn_cons {frame : Int × String} {inc : GenericIncrementalFormat}
    (accepted : frameIncrement cfg frame = some inc) (frames : List (Int × String)) :
    handedOn cfg c (frame :: frames) =
      if (incrementStep cfg.controllerConfig c inc).2 then
        ⟨(incrementStep cfg.controllerConfig c inc).1, [inc], true⟩
      else
        ⟨(handedOn cfg (incrementStep cfg.controllerConfig c inc).1 frames).state,
          inc :: (handedOn cfg (incrementStep cfg.controllerConfig c inc).1 frames).taken,
          (handedOn cfg (incrementStep cfg.controllerConfig c inc).1 frames).stopped⟩ := by
  rw [handedOn, incrementsOf, List.filterMap_cons_some accepted, runUntil]
  rfl

/-- What a handler in `state` that had published `sent` has come to by handing frames on. -/
structure Handed (h : GenericFeedHandler) (state : FeedSyncState) (sent : List GenericIncrementalFormat)
    (result : Stretch OrderBookController GenericIncrementalFormat) : Prop where
  feeding : Feeding h result.state (sent ++ result.taken)
  stopped : result.stopped = true → h.state = .connecting ∧ result.state.isSynced = false
  going : result.stopped = false → h.state = state

/-- A handler past its baseline: the increments handed on so far, and the state that goes with them. -/
structure Following (h : GenericFeedHandler) (sent : List GenericIncrementalFormat)
    (result : Stretch OrderBookController GenericIncrementalFormat) : Prop where
  feeding : Feeding h result.state (sent ++ result.taken)
  empty : h.buffer = []
  stopped : result.stopped = true → h.state = .connecting
  going : result.stopped = false → Live h

/-- An accepted frame: the controller, the sinks, then a restart if one is asked for. -/
theorem Feeding.handOn (feeding : Feeding h c sent) (cfg : HandlerConfig) (now : Int)
    (inc : GenericIncrementalFormat) (session : Nat) :
    ((h.applyIncrement cfg inc session).2 = true ∧ (incrementStep cfg.controllerConfig c inc).2 = true ∧
        (h.applyIncrement cfg inc session).1.restartSync.buffer = [] ∧
        Handed (h.applyIncrement cfg inc session).1.restartSync h.state sent
          ⟨(incrementStep cfg.controllerConfig c inc).1, [inc], true⟩) ∨
      ((h.applyIncrement cfg inc session).2 = false ∧ (incrementStep cfg.controllerConfig c inc).2 = false ∧
        Feeding ((h.applyIncrement cfg inc session).1.maybePersistBook now "incremental_applied")
          (incrementStep cfg.controllerConfig c inc).1 (sent ++ [inc]) ∧
        ((h.applyIncrement cfg inc session).1.maybePersistBook now "incremental_applied").state =
          h.state) := by
  obtain ⟨happlied, hstate, hresync⟩ := feeding.applyIncrement cfg inc session
  rw [hresync]
  cases hflag : (incrementStep cfg.controllerConfig c inc).2 with
  | true =>
      have hreset := incrementStep_reset hflag
      obtain ⟨hfeeding, hconnecting⟩ := happlied.restartSync hreset
      refine Or.inl ⟨rfl, rfl, restartSync_buffer happlied.running, hfeeding, fun _ => ?_, nofun⟩
      refine ⟨hconnecting, ?_⟩
      rw [← hreset]
      rfl
  | false =>
      obtain ⟨hpersisted, hkept⟩ := happlied.maybePersistBook now "incremental_applied"
      exact Or.inr ⟨rfl, rfl, hpersisted, hkept.trans hstate⟩

/-- The drain hands on the buffered frames and leaves the buffer empty. -/
theorem drainLoop_feeding (noThrow : NoThrow cfg) (msgs : List BufferedMsg) (feeding : Feeding h c sent) :
    (drainLoop cfg now msgs h).2 = false ∧ (drainLoop cfg now msgs h).1.buffer = [] ∧
      Handed (drainLoop cfg now msgs h).1 h.state sent (handedOn cfg c (msgs.map BufferedMsg.frame)) := by
  induction msgs generalizing h c sent with
  | nil =>
      refine ⟨rfl, rfl, ?_, nofun, fun _ => rfl⟩
      rw [show sent ++ (handedOn cfg c ([].map BufferedMsg.frame)).taken = sent from List.append_nil _]
      exact ⟨feeding.running, feeding.sinks, feeding.controller, feeding.published⟩
  | cons msg rest ih =>
      rw [drainLoop, List.map_cons]
      by_cases hkind : cfg.adapter.isIncremental msg.payload = true
      · rw [if_neg (by simp [hkind])]
        cases hparse : cfg.adapter.parseIncremental msg.payload with
        | threw => exact absurd hparse (noThrow.incremental msg.payload)
        | rejected =>
            rw [handedOn_skip (by simp [frameIncrement, incrementalOf, BufferedMsg.frame, hkind, hparse])]
            exact ih feeding
        | accepted inc =>
            have haccepted : frameIncrement cfg msg.frame = some { inc with tsRecvNs := msg.recvTsNs } := by
              simp [frameIncrement, incrementalOf, BufferedMsg.frame, hkind, hparse]
            rw [handedOn_cons haccepted]
            dsimp only
            rcases feeding.handOn cfg now { inc with tsRecvNs := msg.recvTsNs } msg.session with
                ⟨hresync, hstop, hempty, hhanded⟩ | ⟨hresync, hstop, hnext, hstate⟩
            · rw [if_pos hresync, if_pos hstop]
              exact ⟨rfl, hempty, hhanded⟩
            · rw [if_neg (by simp [hresync]), if_neg (by simp [hstop])]
              obtain ⟨hok, hempty, hrest, hstopped, hgoing⟩ := ih hnext
              refine ⟨hok, hempty, ?_, hstopped, fun hgo => (hgoing hgo).trans hstate⟩
              dsimp only
              rw [List.append_cons]
              exact hrest
      · rw [if_pos (by simp [hkind])]
        rw [handedOn_skip (by simp [frameIncrement, incrementalOf, BufferedMsg.frame, hkind])]
        exact ih feeding

/-- The drain of a bridging handler, and the move to `SYNCED` if it bridged. -/
theorem drainThenSync_following (noThrow : NoThrow cfg) (reason : String) (feeding : Feeding h c sent)
    (bridging : h.state = .waitBridge) :
    Following (h.drainThenSync cfg now reason) sent (handedOn cfg c (h.buffer.map BufferedMsg.frame)) := by
  have hdrain : (drainLoop cfg now h.buffer h).2 = false ∧ (drainLoop cfg now h.buffer h).1.buffer = [] ∧
      Handed (drainLoop cfg now h.buffer h).1 h.state sent (handedOn cfg c (h.buffer.map BufferedMsg.frame)) :=
    drainLoop_feeding noThrow h.buffer feeding
  obtain ⟨hok, hempty, hfeeding, hstopped, hgoing⟩ := hdrain
  rw [drainThenSync, drainBufferedIncrementals]
  dsimp only
  rw [if_neg (by simp [hok])]
  split
  · rename_i hsynced
    rw [hfeeding.controller] at hsynced
    obtain ⟨hset, hstate, hbuffer⟩ := hfeeding.setState .synced reason
    refine ⟨hset, hbuffer.trans hempty, fun hstop => ?_, fun _ => Or.inr hstate⟩
    -- a controller that was reset is not synced
    rw [(hstopped hstop).2] at hsynced
    cases hsynced
  · exact ⟨hfeeding, hempty, fun hstop => (hstopped hstop).1,
      fun hgo => Or.inl ((hgoing hgo).trans bridging)⟩

end Increment

/-!
### The three routes of a frame

Before the response a frame waits, between response and bridge it goes through the buffer, afterwards it is
applied on arrival. In each case the handler comes to where handing on one more frame leads.
-/

section Routes

variable {cfg : HandlerConfig} {h : GenericFeedHandler} {c : OrderBookController}
  {sent : List GenericIncrementalFormat} {now : Int} {msg : String}

/-- The event of a frame. -/
def frameEvent (frame : Int × String) : FeedEvent := .wsMessage frame.1 frame.2

/-- Receiving arms the watchdog. -/
theorem Feeding.received (feeding : Feeding h c sent) (gen : Nat) (timer : Option Nat) (last : Int) :
    Feeding { h with watchdogGen := gen, watchdogTimer := timer, lastWsMessageNs := last } c sent :=
  ⟨feeding.running, feeding.sinks, feeding.controller, feeding.published⟩

theorem frameIncrement_of_not_incremental {frame : Int × String}
    (other : cfg.adapter.isIncremental frame.2 = false) : frameIncrement cfg frame = none := by
  simp [frameIncrement, incrementalOf, other]

/-- Waiting for the snapshot response with `frames` received. -/
structure Awaiting (cfg : HandlerConfig) (h : GenericFeedHandler) (c : OrderBookController)
    (sent : List GenericIncrementalFormat) (frames : List (Int × String)) : Prop where
  feeding : Feeding h c sent
  opened : h.ws.opened = true
  state : h.state = .waitRestSnapshot
  request : ∃ session, h.rest = some (.get session)
  buffer : h.buffer.map BufferedMsg.frame = frames.filter fun frame => cfg.adapter.isIncremental frame.2

/-- The first route: a frame that waits. -/
theorem Awaiting.step {frames : List (Int × String)} (awaiting : Awaiting cfg h c sent frames)
    (blank : cfg.adapter.isIncremental "" = false) {frame : Int × String}
    (room : cfg.adapter.isIncremental frame.2 = true →
      (frames.filter fun frame => cfg.adapter.isIncremental frame.2).length < cfg.maxBuffer) :
    Awaiting cfg (h.step cfg (frameEvent frame)) c sent (frames ++ [frame]) := by
  obtain ⟨feeding, hopened, hstate, hrequest, hbuffer⟩ := awaiting
  have hlength : h.buffer.length = (frames.filter fun frame => cfg.adapter.isIncremental frame.2).length := by
    rw [← hbuffer, List.length_map]
  have hunchanged : cfg.adapter.isIncremental frame.2 = false → h.buffer.map BufferedMsg.frame =
      (frames ++ [frame]).filter fun frame => cfg.adapter.isIncremental frame.2 := by
    intro hother
    rw [List.filter_append, hbuffer]
    simp [hother]
  rw [frameEvent, GenericFeedHandler.step, if_pos hopened]
  by_cases htext : frame.2 = ""
  · rw [onWSMessage, if_pos (by simp [htext])]
    exact ⟨feeding, hopened, hstate, hrequest, hunchanged (by rw [htext]; exact blank)⟩
  · obtain ⟨received, gen, timer, hreceived, heq⟩ := onWSMessage_eq cfg frame.1 feeding.running htext
    have hfeeding : Feeding received c sent := hreceived ▸ feeding.received gen timer frame.1
    have hsame : received.ws = h.ws ∧ received.state = h.state ∧ received.rest = h.rest ∧
        received.buffer = h.buffer := by
      rw [hreceived]
      exact ⟨rfl, rfl, rfl, rfl⟩
    obtain ⟨hws', hstate', hrest', hbuffer'⟩ := hsame
    rw [heq, hstate]
    dsimp only
    rw [onMessageWaitRest]
    split
    · rename_i hkind
      rw [bufferFrame, if_pos (by rw [hbuffer', hlength]; exact room hkind)]
      refine ⟨⟨hfeeding.running, hfeeding.sinks, hfeeding.controller, hfeeding.published⟩,
        hws' ▸ hopened, hstate'.trans hstate, hrest' ▸ hrequest, ?_⟩
      rw [List.map_append, hbuffer', hbuffer, List.filter_append]
      simp [hkind, BufferedMsg.frame]
    · rename_i hother
      exact ⟨hfeeding, hws' ▸ hopened, hstate'.trans hstate, hrest' ▸ hrequest,
        hbuffer' ▸ hunchanged (by simpa using hother)⟩

/-- Any number of frames that wait. -/
theorem Awaiting.run {frames : List (Int × String)} (awaiting : Awaiting cfg h c sent frames)
    (blank : cfg.adapter.isIncremental "" = false) (more : List (Int × String))
    (room : ((frames ++ more).filter fun frame => cfg.adapter.isIncremental frame.2).length ≤ cfg.maxBuffer) :
    Awaiting cfg (run (GenericFeedHandler.step cfg) h (more.map frameEvent)) c sent (frames ++ more) := by
  induction more generalizing h frames with
  | nil => simpa using awaiting
  | cons frame more ih =>
      have hnext : Awaiting cfg (h.step cfg (frameEvent frame)) c sent (frames ++ [frame]) := by
        apply awaiting.step blank
        intro hkind
        simp only [List.filter_append, List.filter_cons, hkind, if_true, List.length_append,
          List.length_cons] at room
        omega
      have hrest := ih hnext (by simpa using room)
      rwa [← List.append_cons] at hrest

theorem handedOn_nil (cfg : HandlerConfig) (c : OrderBookController) :
    handedOn cfg c [] = ⟨c, [], false⟩ := rfl

/-- A frame that changes nothing. -/
theorem Feeding.following_skip (feeding : Feeding h c sent) (live : Live h) (empty : h.buffer = [])
    {frame : Int × String} (skipped : frameIncrement cfg frame = none) :
    Following h sent (handedOn cfg c [frame]) := by
  rw [handedOn_skip skipped, handedOn_nil]
  refine ⟨?_, empty, nofun, fun _ => live⟩
  rw [List.append_nil]
  exact feeding

/-- The second route: a frame that is buffered and drained while the feed bridges. -/
theorem onMessageBridge_following (noThrow : NoThrow cfg) (room : 0 < cfg.maxBuffer)
    (feeding : Feeding h c sent) (bridging : h.state = .waitBridge) (empty : h.buffer = [])
    (frame : Int × String) :
    Following (h.onMessageBridge cfg frame.1 frame.2) sent (handedOn cfg c [frame]) := by
  rw [onMessageBridge]
  split
  · rw [bufferFrame, if_pos (by simpa [empty] using room), empty]
    have hstored : Feeding { h with
        buffer := [] ++ [{ payload := frame.2, recvTsNs := frame.1, session := h.history.opened }] } c sent :=
      ⟨feeding.running, feeding.sinks, feeding.controller, feeding.published⟩
    exact drainThenSync_following noThrow _ hstored bridging
  · rename_i hother
    apply feeding.following_skip (Or.inl bridging) empty
    exact frameIncrement_of_not_incremental (by simpa using hother)

/-- The third route: a frame that is applied on arrival. -/
theorem onMessageSteady_following (noThrow : NoThrow cfg) (feeding : Feeding h c sent)
    (synced : h.state = .synced) (empty : h.buffer = []) (frame : Int × String) :
    Following (h.onMessageSteady cfg frame.1 frame.2) sent (handedOn cfg c [frame]) := by
  rw [onMessageSteady]
  cases hinc : incrementalOf cfg frame.2 with
  | threw =>
      rw [incrementalOf] at hinc
      split at hinc
      · exact absurd hinc (noThrow.incremental frame.2)
      · cases hinc
  | rejected => exact feeding.following_skip (Or.inr synced) empty (by simp [frameIncrement, hinc])
  | accepted inc =>
      have haccepted : frameIncrement cfg frame = some { inc with tsRecvNs := frame.1 } := by
        simp [frameIncrement, hinc]
      rw [handedOn_cons haccepted, handedOn_nil]
      dsimp only
      rcases feeding.handOn cfg frame.1 { inc with tsRecvNs := frame.1 } h.history.opened with
        ⟨hresync, hstop, hempty, hhanded⟩ | ⟨hresync, hstop, hnext, hstate⟩
      · rw [if_pos hresync, if_pos hstop]
        exact ⟨hhanded.feeding, hempty, fun hstopped => (hhanded.stopped hstopped).1, fun h => (by cases h)⟩
      · have hnot_bridging : ∀ bridged : Prop, ¬ (h.state = .waitBridge ∧ bridged) := by
          rintro bridged ⟨hbridge, -⟩
          rw [synced] at hbridge
          cases hbridge
        rw [if_neg (by simp [hresync]), if_neg (hnot_bridging _), if_neg (by simp [hstop])]
        refine ⟨hnext, ?_, fun h => (by cases h), fun _ => Or.inr (hstate.trans synced)⟩
        rw [maybePersistBook_buffer, applyIncrement_buffer]
        exact empty

/-- A frame past the baseline. -/
theorem Following.step (feed : Bufferable cfg) (opened : h.ws.opened = true)
    (feeding : Feeding h c sent) (live : Live h) (empty : h.buffer = [])
    (frame : Int × String) :
    Following (h.step cfg (frameEvent frame)) sent (handedOn cfg c [frame]) := by
  rw [frameEvent, GenericFeedHandler.step, if_pos opened]
  by_cases htext : frame.2 = ""
  · rw [onWSMessage, if_pos (by simp [htext])]
    apply feeding.following_skip live empty
    exact frameIncrement_of_not_incremental (by rw [htext]; exact feed.blank)
  · obtain ⟨received, gen, timer, hreceived, heq⟩ := onWSMessage_eq cfg frame.1 feeding.running htext
    have hfeeding : Feeding received c sent := hreceived ▸ feeding.received gen timer frame.1
    have hsame : received.state = h.state ∧ received.buffer = h.buffer := by
      rw [hreceived]
      exact ⟨rfl, rfl⟩
    obtain ⟨hstate', hbuffer'⟩ := hsame
    have hlive : Following (received.onMessageLive cfg frame.1 frame.2) sent (handedOn cfg c [frame]) := by
      rw [onMessageLive, if_neg (by simp [feed.noWsSnapshot])]
      dsimp only
      rcases live with hbridge | hsynced
      · rw [if_pos ⟨feed.anchored, hstate'.trans hbridge⟩]
        exact onMessageBridge_following feed.noThrow feed.room hfeeding (hstate'.trans hbridge)
          (hbuffer'.trans empty) frame
      · rw [if_neg (by simp [hstate', hsynced])]
        exact onMessageSteady_following feed.noThrow hfeeding (hstate'.trans hsynced)
          (hbuffer'.trans empty) frame
    rcases live with hbridge | hsynced
    · rw [heq, hbridge]
      exact hlive
    · rw [heq, hsynced]
      exact hlive

/-- Frames that arrive after the others are handed on after them. -/
theorem unbuffered_append (cfg : HandlerConfig) (c : OrderBookController) (snap : GenericSnapshotFormat)
    (frames more : List (Int × String)) :
    unbuffered cfg c snap (frames ++ more) =
      if (unbuffered cfg c snap frames).stopped then unbuffered cfg c snap frames
      else
        ⟨(handedOn cfg (unbuffered cfg c snap frames).state more).state,
          (unbuffered cfg c snap frames).taken ++ (handedOn cfg (unbuffered cfg c snap frames).state more).taken,
          (handedOn cfg (unbuffered cfg c snap frames).state more).stopped⟩ := by
  simp only [unbuffered, handedOn]
  split
  · rfl
  · rw [incrementsOf, List.filterMap_append, runUntil_append]
    rfl

theorem frame_opened (opened : h.ws.opened = true) (frame : Int × String) :
    (h.step cfg (frameEvent frame)).ws.opened = true := by
  rw [frameEvent, GenericFeedHandler.step, if_pos opened]
  have hfixed := (onWSMessage_any cfg frame.1 frame.2 h).fixedPart
  simp only [fixedPart, Prod.mk.injEq] at hfixed
  exact hfixed.2.2.1.trans opened

/-- A handler past its baseline takes one more frame. -/
theorem Following.next (feed : Bufferable cfg) (opened : h.ws.opened = true)
    {snap : GenericSnapshotFormat} {frames : List (Int × String)}
    (following : Following h sent (unbuffered cfg c snap frames)) (frame : Int × String) :
    Following (h.step cfg (frameEvent frame)) sent (unbuffered cfg c snap (frames ++ [frame])) := by
  rw [unbuffered_append]
  cases hstopped : (unbuffered cfg c snap frames).stopped with
  | true =>
      -- the feed is being restarted and ignores frames
      obtain ⟨feeding, hempty, hstate, -⟩ := following
      rw [if_pos rfl, frameEvent, GenericFeedHandler.step, if_pos opened]
      by_cases htext : frame.2 = ""
      · rw [onWSMessage, if_pos (by simp [htext])]
        exact ⟨feeding, hempty, hstate, fun hgo => by rw [hstopped] at hgo; cases hgo⟩
      · obtain ⟨received, gen, timer, hreceived, heq⟩ := onWSMessage_eq cfg frame.1 feeding.running htext
        rw [heq, hstate hstopped, hreceived]
        exact ⟨feeding.received gen timer frame.1, hempty, hstate,
          fun hgo => by rw [hstopped] at hgo; cases hgo⟩
  | false =>
      obtain ⟨hfeeding, hempty, hconnecting, hgoing⟩ := Following.step feed opened
        following.feeding (following.going hstopped) following.empty frame
      rw [if_neg (by simp)]
      refine ⟨?_, hempty, hconnecting, hgoing⟩
      rw [← List.append_assoc]
      exact hfeeding

theorem Following.run (feed : Bufferable cfg) (opened : h.ws.opened = true)
    {snap : GenericSnapshotFormat} {frames : List (Int × String)}
    (following : Following h sent (unbuffered cfg c snap frames)) (more : List (Int × String)) :
    Following (run (GenericFeedHandler.step cfg) h (more.map frameEvent)) sent
      (unbuffered cfg c snap (frames ++ more)) := by
  induction more generalizing h frames with
  | nil => simpa using following
  | cons frame more ih =>
      have hrest := ih (frame_opened opened frame)
        (following.next feed opened frame)
      rwa [← List.append_cons] at hrest

/-- Frames that are no increments can be left out. -/
theorem incrementsOf_filter (cfg : HandlerConfig) (frames : List (Int × String)) :
    incrementsOf cfg (frames.filter fun frame => cfg.adapter.isIncremental frame.2) =
      incrementsOf cfg frames := by
  rw [incrementsOf, incrementsOf, List.filterMap_filter]
  apply List.filterMap_congr
  intro frame _
  cases hkind : cfg.adapter.isIncremental frame.2 with
  | true => rfl
  | false => exact (frameIncrement_of_not_incremental hkind).symm

theorem unbuffered_filter (cfg : HandlerConfig) (c : OrderBookController) (snap : GenericSnapshotFormat)
    (frames : List (Int × String)) :
    unbuffered cfg c snap (frames.filter fun frame => cfg.adapter.isIncremental frame.2) =
      unbuffered cfg c snap frames := by
  rw [unbuffered, unbuffered, incrementsOf_filter]

theorem Feeding.applySnapshot (feeding : Feeding h c sent) (cfg : HandlerConfig)
    (snap : GenericSnapshotFormat) (kind : BaselineKind) (source : String) (session : Nat) :
    Feeding (h.applySnapshot cfg snap kind source session).1
        (c.onSnapshot cfg.controllerConfig snap kind).1 sent ∧
      (h.applySnapshot cfg snap kind source session).2 =
        ((c.onSnapshot cfg.controllerConfig snap kind).action == .needResync) := by
  have hpublished : Feeding (h.persist (.snapshot snap source)) c sent := feeding.persist rfl
  constructor
  · refine ⟨hpublished.running, hpublished.sinks, ?_, hpublished.published⟩
    rw [← hpublished.controller]
    rfl
  · rw [← hpublished.controller]
    rfl

/-- A parsed snapshot is loaded and the buffer drained onto it. -/
theorem onSnapshotResponse_following (anchored : cfg.adapter.caps.syncMode = .restAnchored)
    (noThrow : NoThrow cfg) (feeding : Feeding h c sent) {body : String} {snap : GenericSnapshotFormat}
    (parsed : cfg.adapter.parseSnapshot body = .accepted snap) (session : Nat) :
    Following (h.onSnapshotResponse cfg now session body) sent
      (unbuffered cfg c { snap with tsRecvNs := now } (h.buffer.map BufferedMsg.frame)) := by
  obtain ⟨hloaded, hresync⟩ := feeding.applySnapshot cfg { snap with tsRecvNs := now } .restAnchored
    "rest_snapshot" session
  rw [onSnapshotResponse, if_neg (by simp [feeding.running]), parsed, anchored, unbuffered]
  dsimp only [SyncMode.baselineKind]
  by_cases hrefused :
      (c.onSnapshot cfg.controllerConfig { snap with tsRecvNs := now } .restAnchored).action = .needResync
  · have hreset : (c.call cfg.controllerConfig
        (.snapshot { snap with tsRecvNs := now } .restAnchored)).action = .needResync := hrefused
    obtain ⟨hrestarted, hconnecting⟩ :=
      hloaded.restartSync (OrderBookController.resetBook_of_needResync hreset)
    rw [if_pos (by rw [hresync, hrefused]; rfl), if_pos hrefused]
    refine ⟨?_, restartSync_buffer hloaded.running, fun _ => hconnecting, fun h => (by cases h)⟩
    rw [List.append_nil]
    exact hrestarted
  · obtain ⟨hpersisted, -⟩ := hloaded.maybePersistBook now "snapshot_applied"
    obtain ⟨hbridging, hstate, hkept⟩ := hpersisted.setState .waitBridge "snapshot_applied"
    rw [maybePersistBook_buffer, applySnapshot_buffer] at hkept
    rw [if_neg (by rw [hresync]; simpa using hrefused), if_neg hrefused, ← hkept]
    exact drainThenSync_following noThrow "post_snapshot_bridge_complete" hbridging hstate

/-- The response to the request ends the waiting. -/
theorem Awaiting.response (anchored : cfg.adapter.caps.syncMode = .restAnchored) (noThrow : NoThrow cfg)
    {frames : List (Int × String)} (awaiting : Awaiting cfg h c sent frames) {outcome : HttpOutcome}
    (ok : outcome.failed = false) {snap : GenericSnapshotFormat}
    (parsed : cfg.adapter.parseSnapshot outcome.body = .accepted snap) (now : Int) :
    Following (h.step cfg (.restDone now outcome)) sent
      (unbuffered cfg c { snap with tsRecvNs := now } frames) := by
  obtain ⟨feeding, -, -, ⟨session, hrequest⟩, hbuffer⟩ := awaiting
  have hanswered : Feeding { h with rest := none } c sent :=
    ⟨feeding.running, feeding.sinks, feeding.controller, feeding.published⟩
  rw [GenericFeedHandler.step, restDone, hrequest]
  dsimp only
  rw [onSnapshotDone_of_ok hanswered.running ok]
  rw [← unbuffered_filter, ← hbuffer]
  exact onSnapshotResponse_following anchored noThrow hanswered parsed session

theorem Awaiting.response_opened {frames : List (Int × String)} (awaiting : Awaiting cfg h c sent frames)
    (now : Int) (outcome : HttpOutcome) : (h.step cfg (.restDone now outcome)).ws.opened = true := by
  obtain ⟨session, hrequest⟩ := awaiting.request
  have hfixed := (onSnapshotDone_any cfg now session outcome { h with rest := none }).fixedPart
  simp only [fixedPart, Prod.mk.injEq] at hfixed
  rw [GenericFeedHandler.step, restDone, hrequest]
  exact hfixed.2.2.1.trans awaiting.opened

end Routes

/-!
### Where a session starts

A session may open after anything. All that is needed of what came before is that no message of an earlier
session is left in the buffer.
-/

/-- What holds of a running handler between callbacks: it waits for a snapshot response, or its buffer is
    empty and it does not wait for one. -/
structure BufferInv (h : GenericFeedHandler) : Prop where
  running : h.running = true
  sinks : h.brainSinks = true ∧ h.sinksRunning = true
  anchored : h.state ≠ .waitWsSnapshot
  pending : (∃ session, h.rest = some (.get session)) ∨ (h.buffer = [] ∧ h.state ≠ .waitRestSnapshot)

section Start

variable {cfg : HandlerConfig} {h : GenericFeedHandler}

theorem BufferInv.feeding (inv : BufferInv h) : Feeding h h.controller (publishedIncrements h.published) :=
  ⟨inv.running, inv.sinks, rfl, rfl⟩

theorem restartSync_bufferInv (running : h.running = true)
    (sinks : h.brainSinks = true ∧ h.sinksRunning = true) : BufferInv h.restartSync := by
  obtain ⟨gen, flag, delay, statuses, -, hsame⟩ := restartSync_eq h running
  rw [hsame]
  exact ⟨running, sinks, nofun, Or.inr ⟨rfl, nofun⟩⟩

/-- A handler that has followed frames waits for nothing. -/
theorem Following.bufferInv {sent : List GenericIncrementalFormat}
    {result : Stretch OrderBookController GenericIncrementalFormat} (following : Following h sent result) :
    BufferInv h := by
  have hstate : h.state = .connecting ∨ Live h := by
    cases hstopped : result.stopped with
    | true => exact Or.inl (following.stopped hstopped)
    | false => exact Or.inr (following.going hstopped)
  refine ⟨following.feeding.running, following.feeding.sinks, ?_, Or.inr ⟨following.empty, ?_⟩⟩
  · rcases hstate with hstate | hstate | hstate <;> rw [hstate] <;> exact nofun
  · rcases hstate with hstate | hstate | hstate <;> rw [hstate] <;> exact nofun

/-- The callbacks of the client change neither buffer nor request unless they restart the feed. -/
theorem notified_bufferInv (inv : BufferInv h) (outcome : WsClient String × Bool) :
    BufferInv (h.notified outcome) := by
  have hclient : BufferInv { h with ws := outcome.1 } := ⟨inv.running, inv.sinks, inv.anchored, inv.pending⟩
  rw [notified]
  split
  · rw [onWSClose]
    split
    · exact hclient
    · split
      · exact ⟨inv.running, inv.sinks, inv.anchored, inv.pending⟩
      · apply restartSync_bufferInv
        · exact inv.running
        · exact inv.sinks
  · exact hclient

theorem requestSnapshot_bufferInv (running : h.running = true)
    (sinks : h.brainSinks = true ∧ h.sinksRunning = true) : BufferInv (h.requestSnapshot cfg) := by
  obtain ⟨delay, statuses, -, hsame⟩ := setState_eq h .waitRestSnapshot "request_snapshot"
  rw [requestSnapshot, hsame]
  split
  · apply restartSync_bufferInv
    · exact running
    · exact sinks
  · have hother : FeedSyncState.waitRestSnapshot ≠ .waitWsSnapshot := by decide
    exact ⟨running, sinks, hother, Or.inl ⟨_, rfl⟩⟩

/-- A change to a state in which nothing is waited for. -/
theorem BufferInv.setState (inv : BufferInv h) (next : FeedSyncState) (legal : next ≠ .waitWsSnapshot)
    (idle : next ≠ .waitRestSnapshot) (reason : String) : BufferInv (h.setState next reason) := by
  obtain ⟨delay, statuses, -, hsame⟩ := setState_eq h next reason
  rw [hsame]
  exact ⟨inv.running, inv.sinks, legal, inv.pending.imp_right fun hidle => ⟨hidle.1, idle⟩⟩

theorem bootstrapWS_bufferInv (inv : BufferInv h) : BufferInv (h.bootstrapWS cfg) := by
  rw [bootstrapWS]
  split
  · exact inv
  · split
    · exact restartSync_bufferInv inv.running inv.sinks
    · split
      · exact restartSync_bufferInv inv.running inv.sinks
      · rename_i hfree
        refine ⟨inv.running, inv.sinks, inv.anchored, Or.inr ?_⟩
        rcases inv.pending with ⟨session, hrequest⟩ | hidle
        · simp [hrequest] at hfree
        · exact hidle

theorem wsOpened_bufferInv (anchored : cfg.adapter.caps.syncMode = .restAnchored) (now : Int)
    (inv : BufferInv h) : BufferInv (h.wsOpened cfg now) := by
  cases hcompleted : h.ws.handshakeDone.2 with
  | false => rwa [wsOpened_dropped cfg now hcompleted]
  | true =>
      obtain ⟨opened, gen, timer, outbox, inFlight, delay, statuses, -, hopened, heq⟩ :=
        wsOpened_restAnchored cfg now anchored inv.running hcompleted
      rw [heq, hopened]
      apply requestSnapshot_bufferInv
      · exact inv.running
      · exact inv.sinks

theorem onWSMessage_bufferInv (feed : Bufferable cfg) (inv : BufferInv h)
    (opened : h.ws.opened = true) (now : Int) (msg : String) :
    BufferInv (h.onWSMessage cfg now msg) := by
  have hmoves := onWSMessage_any cfg now msg h
  have hfixed := hmoves.fixedPart
  simp only [fixedPart, Prod.mk.injEq] at hfixed
  obtain ⟨hrunning, hrest, -, hbrain, hsinks⟩ := hfixed
  rcases inv.pending with ⟨session, hrequest⟩ | ⟨hempty, hidle⟩
  · -- the response is still to come
    refine ⟨hrunning.trans inv.running, ⟨hbrain.trans inv.sinks.1, hsinks.trans inv.sinks.2⟩, ?_,
      Or.inl ⟨session, hrest.trans hrequest⟩⟩
    rcases hmoves.state_cases with hsame | hlive | hconnecting
    · rw [hsame]
      exact inv.anchored
    · rcases hlive with hstate | hstate <;> rw [hstate] <;> decide
    · rw [hconnecting]
      decide
  · by_cases hlive : Live h
    · have hfollowing := Following.step feed opened inv.feeding hlive hempty (now, msg)
      rw [frameEvent, GenericFeedHandler.step, if_pos opened] at hfollowing
      exact hfollowing.bufferInv
    · by_cases htext : msg = ""
      · rw [onWSMessage, if_pos (by simp [htext])]
        exact inv
      · obtain ⟨received, gen, timer, hreceived, heq⟩ := onWSMessage_eq cfg now inv.running htext
        have hinv : BufferInv received := by
          rw [hreceived]
          exact ⟨inv.running, inv.sinks, inv.anchored, inv.pending⟩
        rw [heq]
        split
        · rename_i hstate
          exact absurd hstate hidle
        · rename_i hstate
          exact absurd hstate inv.anchored
        · rename_i hstate
          exact absurd (Or.inl hstate) hlive
        · rename_i hstate
          exact absurd (Or.inr hstate) hlive
        · exact hinv
        · exact hinv
        · exact hinv

theorem restDone_bufferInv (anchored : cfg.adapter.caps.syncMode = .restAnchored) (noThrow : NoThrow cfg)
    (inv : BufferInv h) (now : Int) (outcome : HttpOutcome) : BufferInv (h.restDone cfg now outcome) := by
  rw [restDone]
  cases hrest : h.rest with
  | none => exact inv
  | some request =>
      have hrestart : BufferInv { h with rest := none }.restartSync :=
        restartSync_bufferInv inv.running inv.sinks
      cases request with
      | post =>
          dsimp only
          rw [onBootstrapResponse]
          split
          · exact hrestart
          · split
            · exact hrestart
            · refine ⟨inv.running, inv.sinks, inv.anchored, Or.inr ?_⟩
              rcases inv.pending with ⟨session, hrequest⟩ | hidle
              · rw [hrest] at hrequest
                cases hrequest
              · exact hidle
      | get session =>
          have hfeeding : Feeding { h with rest := none } h.controller (publishedIncrements h.published) :=
            ⟨inv.running, inv.sinks, rfl, rfl⟩
          dsimp only
          cases hfailed : outcome.failed with
          | true =>
              rw [onSnapshotDone, if_neg (by simp [inv.running]), if_pos hfailed]
              exact hrestart
          | false =>
              rw [onSnapshotDone_of_ok hfeeding.running hfailed]
              cases hparse : cfg.adapter.parseSnapshot outcome.body with
              | threw => exact absurd hparse (noThrow.snapshot outcome.body)
              | rejected =>
                  rw [onSnapshotResponse, if_neg (by simp [inv.running]), hparse]
                  exact hrestart
              | accepted snap =>
                  exact (onSnapshotResponse_following anchored noThrow hfeeding hparse session).bufferInv

theorem onReconnectTimer_bufferInv (inv : BufferInv h) : BufferInv (h.onReconnectTimer cfg) := by
  have hexpired : BufferInv { h with reconnectTimer := none } :=
    ⟨inv.running, inv.sinks, inv.anchored, inv.pending⟩
  rw [onReconnectTimer]
  split
  · exact inv
  · dsimp only
    split
    · exact requestSnapshot_bufferInv inv.running inv.sinks
    · exact hexpired
  · dsimp only
    split
    · exact hexpired
    · split
      · exact bootstrapWS_bufferInv (hexpired.setState .bootstrapping (by decide) (by decide) _)
      · have hconnecting := hexpired.setState .connecting (by decide) (by decide) "scheduled_reconnect"
        exact ⟨hconnecting.running, hconnecting.sinks, hconnecting.anchored, hconnecting.pending⟩

theorem onWatchdogTimer_bufferInv (inv : BufferInv h) (now : Int) :
    BufferInv (h.onWatchdogTimer cfg now) := by
  have hexpired : BufferInv { h with watchdogTimer := none } :=
    ⟨inv.running, inv.sinks, inv.anchored, inv.pending⟩
  rw [onWatchdogTimer]
  split
  · exact inv
  · dsimp only
    split
    · exact hexpired
    · split
      · exact hexpired
      · split
        · exact restartSync_bufferInv inv.running inv.sinks
        · exact hexpired

end Start

/-! ### Runs -/

/-- The handler of a run: running with the invariant, or stopped. -/
def BufferKept (h : GenericFeedHandler) : Prop :=
  BufferInv h ∨ (h.running = false ∧ h.state = .disconnected)

section Session

variable {cfg : HandlerConfig} (feed : Bufferable cfg)

include feed

theorem bufferKept_step (h : GenericFeedHandler) (e : FeedEvent) (kept : BufferKept h) :
    BufferKept (h.step cfg e) := by
  rcases kept with inv | ⟨hstopped, hidle⟩
  · cases e with
    | wsOpen now => exact Or.inl (wsOpened_bufferInv feed.anchored now inv)
    | wsMessage now msg =>
        rw [step]
        split
        · rename_i hopened
          exact Or.inl (onWSMessage_bufferInv feed inv hopened now msg)
        · exact Or.inl inv
    | wsClosed => exact Or.inl (notified_bufferInv inv _)
    | wsFailed => exact Or.inl (notified_bufferInv inv _)
    | wsConnectFailed => exact Or.inl (notified_bufferInv inv _)
    | wsConnectTimeout => exact Or.inl (notified_bufferInv inv _)
    | wsCloseDone => exact Or.inl (notified_bufferInv inv _)
    | restDone now outcome => exact Or.inl (restDone_bufferInv feed.anchored feed.noThrow inv now outcome)
    | reconnectTimer => exact Or.inl (onReconnectTimer_bufferInv inv)
    | watchdogTimer now => exact Or.inl (onWatchdogTimer_bufferInv inv now)
    | stop tlsUp =>
        obtain ⟨hrunning, hstate, -⟩ := stop_spec tlsUp
        exact Or.inr ⟨hrunning, hstate⟩
  · obtain ⟨hrunning, hstate, -⟩ := step_of_stopped hstopped hidle e
    exact Or.inr ⟨hrunning.trans hstopped, hstate.trans hidle⟩

omit feed in
theorem started_bufferInv (brain : cfg.brainConfigured = true) : BufferInv (started cfg) := by
  have hinv : ∀ next : GenericFeedHandler, next.running = true → next.brainSinks = true →
      next.state = .connecting → next.buffer = [] →
      BufferInv { next with sinksRunning := next.brainSinks } := by
    intro next hrunning hbrain hstate hempty
    refine ⟨hrunning, ⟨hbrain, hbrain⟩, ?_, Or.inr ⟨hempty, ?_⟩⟩ <;> rw [hstate] <;> decide
  obtain ⟨delay, statuses, -, hsame⟩ := setState_eq { init cfg with running := true } .connecting "start"
  have hstarted := hinv ({ init cfg with running := true }.setState .connecting "start")
    (by rw [hsame]) (by rw [hsame]; exact brain) (by rw [hsame]) (by rw [hsame]; rfl)
  rw [started, start, if_neg (by simp [init])]
  dsimp only
  split
  · exact bootstrapWS_bufferInv (hstarted.setState .bootstrapping (by decide) (by decide) _)
  · exact ⟨hstarted.running, hstarted.sinks, hstarted.anchored, hstarted.pending⟩

/-- The handshake of a running handler completes while no request is in flight: a session opens and gets
    its snapshot request. -/
structure OpensSession (cfg : HandlerConfig) (h : GenericFeedHandler) : Prop where
  running : h.running = true
  handshake : h.ws.handshakeDone.2 = true
  free : h.rest = none
  target : validTarget cfg.adapter.restSnapshotTarget = true

/-- A session starts with an empty buffer and its own request. -/
theorem Awaiting.of_open {h : GenericFeedHandler} (inv : BufferInv h) (opens : OpensSession cfg h)
    (now : Int) :
    Awaiting cfg (h.step cfg (.wsOpen now)) (h.step cfg (.wsOpen now)).controller
      (publishedIncrements (h.step cfg (.wsOpen now)).published) [] := by
  have hempty : h.buffer = [] := by
    rcases inv.pending with ⟨session, hrequest⟩ | ⟨hempty, -⟩
    · rw [opens.free] at hrequest
      cases hrequest
    · exact hempty
  have hclient := WsClient.handshakeDone_opened opens.handshake
  obtain ⟨opened, gen, timer, outbox, inFlight, delay, statuses, -, hopened, heq⟩ :=
    wsOpened_restAnchored cfg now feed.anchored opens.running opens.handshake
  have hrequested : h.step cfg (.wsOpen now) = { opened with rest := some (.get opened.history.opened) } := by
    have hstate : opened.setState .waitRestSnapshot "request_snapshot" = opened := by
      rw [GenericFeedHandler.setState, if_pos (by rw [hopened])]
    have hfree : opened.rest = none := by rw [hopened, opens.free]
    rw [GenericFeedHandler.step, heq, requestSnapshot, hstate, if_neg (by simp [hfree, opens.target])]
  rw [hrequested, hopened]
  exact ⟨⟨opens.running, inv.sinks, rfl, rfl⟩, hclient, rfl, ⟨_, rfl⟩, by rw [hempty]; rfl⟩

/-- A session from its opening: frames, the response, frames. -/
theorem session_following (brain : cfg.brainConfigured = true) (before : List FeedEvent)
    (opens : OpensSession cfg (run (step cfg) (started cfg) before)) (openedAt : Int)
    (early late : List (Int × String))
    (noOverflow : (early.filter fun frame => cfg.adapter.isIncremental frame.2).length ≤ cfg.maxBuffer)
    (now : Int) {outcome : HttpOutcome} (ok : outcome.failed = false) {snap : GenericSnapshotFormat}
    (parsed : cfg.adapter.parseSnapshot outcome.body = .accepted snap) {atOpen : GenericFeedHandler}
    (hatOpen : atOpen = run (step cfg) (started cfg) (before ++ [.wsOpen openedAt])) :
    Following (run (step cfg) atOpen (early.map frameEvent ++ .restDone now outcome :: late.map frameEvent))
      (publishedIncrements atOpen.published)
      (unbuffered cfg atOpen.controller { snap with tsRecvNs := now } (early ++ late)) := by
  have hkept : BufferKept (run (step cfg) (started cfg) before) :=
    invariant_run (bufferKept_step feed) (Or.inl (started_bufferInv brain)) before
  have hinv : BufferInv (run (step cfg) (started cfg) before) := by
    rcases hkept with hinv | ⟨hstopped, -⟩
    · exact hinv
    · exact absurd opens.running (by simp [hstopped])
  have hstart : Awaiting cfg atOpen atOpen.controller (publishedIncrements atOpen.published) [] := by
    rw [hatOpen, run_append]
    exact Awaiting.of_open feed hinv opens openedAt
  have hwaited := hstart.run feed.blank early (by simpa using noOverflow)
  have hloaded := hwaited.response feed.anchored feed.noThrow ok parsed now
  rw [run_append, run_cons]
  exact Following.run feed (hwaited.response_opened now outcome) hloaded late

end Session

/-- For every REST-anchored venue whose parsers do not throw: whatever happened before a session opens, and
    whenever the response arrives among its frames, the controller ends up as after `onSnapshot` and
    `onIncrement` on each accepted frame up to the first resync, and the sinks were given these
    increments. -/
theorem buffering_transparent (v : VenueId) (anchored : v.caps.syncMode = .restAnchored)
    (cfg : HandlerConfig) (venue : cfg.adapter.caps = v.caps) (brain : cfg.brainConfigured = true)
    (noThrow : NoThrow cfg) (blank : cfg.adapter.isIncremental "" = false) (before : List FeedEvent)
    (opens : OpensSession cfg (run (step cfg) (started cfg) before)) (openedAt : Int)
    (early late : List (Int × String)) (room : 0 < cfg.maxBuffer)
    (noOverflow : (early.filter fun frame => cfg.adapter.isIncremental frame.2).length ≤ cfg.maxBuffer)
    (now : Int) (outcome : HttpOutcome) (ok : outcome.failed = false) (snap : GenericSnapshotFormat)
    (parsed : cfg.adapter.parseSnapshot outcome.body = .accepted snap) :
    let atOpen := run (step cfg) (started cfg) (before ++ [.wsOpen openedAt])
    let after := run (step cfg) atOpen (early.map frameEvent ++ .restDone now outcome :: late.map frameEvent)
    let direct := unbuffered cfg atOpen.controller { snap with tsRecvNs := now } (early ++ late)
    after.controller = direct.state ∧
      publishedIncrements after.published = publishedIncrements atOpen.published ++ direct.taken := by
  have hmode : cfg.adapter.caps.syncMode = .restAnchored := by
    rw [venue]
    exact anchored
  have hnone : cfg.adapter.caps.wsSendsSnapshot = false := by
    rw [venue]
    cases v <;> first | rfl | cases anchored
  have hfollowing := session_following ⟨hmode, hnone, noThrow, blank, room⟩ brain before opens openedAt
    early late noOverflow now ok parsed rfl
  exact ⟨hfollowing.feeding.controller, hfollowing.feeding.published⟩

/-- A KuCoin feed of two levels. -/
def kucoinFeed : HandlerConfig :=
  { adapter := .ofTraffic VenueId.kucoin.caps "/api/v3/market/orderbook/level2?symbol=BTC-USDT"
      [("snapshot", {
        lastUpdateId := 100, tsRecvNs := 0, checksum := 0
        bids := [⟨300, 1, "3.00", "0.001"⟩], asks := [⟨400, 1, "4.00", "0.001"⟩] })]
      [("l2update 100", {
          firstSeq := 99, lastSeq := 100, prevLast := 98, tsRecvNs := 0, checksum := 0
          bids := [⟨299, 1, "2.99", "0.001"⟩], asks := [] }),
        ("l2update 101", {
          firstSeq := 101, lastSeq := 101, prevLast := 100, tsRecvNs := 0, checksum := 0
          bids := [⟨301, 1, "3.01", "0.001"⟩], asks := [] }),
        ("l2update 102", {
          firstSeq := 102, lastSeq := 102, prevLast := 101, tsRecvNs := 0, checksum := 0
          bids := [⟨300, 0, "3.00", "0"⟩], asks := [] })]
    depth := 400, depth_pos := defaultDepth_pos }

/-- After a bootstrap: an outdated frame and a bridging one wait for the response, a third comes after it
    between two that are not increments. -/
theorem buffering_transparent_kucoin :
    let atOpen := run (step kucoinFeed) (started kucoinFeed)
      ([.restDone 1 (.response 200 true true "token")] ++ [.wsOpen 2])
    let after := run (step kucoinFeed) atOpen
      ([(3, "l2update 100"), (4, "l2update 101")].map frameEvent ++
        .restDone 5 (.response 200 true true "snapshot") ::
          [(6, "pong"), (7, "l2update 102"), (8, "")].map frameEvent)
    let direct := unbuffered kucoinFeed atOpen.controller
      { lastUpdateId := 100, tsRecvNs := 5, checksum := 0
        bids := [⟨300, 1, "3.00", "0.001"⟩], asks := [⟨400, 1, "4.00", "0.001"⟩] }
      ([(3, "l2update 100"), (4, "l2update 101")] ++ [(6, "pong"), (7, "l2update 102"), (8, "")])
    after.controller = direct.state ∧
      publishedIncrements after.published = publishedIncrements atOpen.published ++ direct.taken := by
  have hnoThrow : NoThrow kucoinFeed := by
    constructor <;> intro text <;> simp only [kucoinFeed, Adapter.ofTraffic] <;> split <;> exact nofun
  have hopens : OpensSession kucoinFeed (run (step kucoinFeed) (started kucoinFeed)
      [.restDone 1 (.response 200 true true "token")]) :=
    ⟨by decide, by decide, by decide, by decide⟩
  exact buffering_transparent .kucoin rfl kucoinFeed rfl rfl hnoThrow (by decide)
    [.restDone 1 (.response 200 true true "token")] hopens 2
    [(3, "l2update 100"), (4, "l2update 101")] [(6, "pong"), (7, "l2update 102"), (8, "")] (by decide)
    (by decide) 5 (.response 200 true true "snapshot") (by decide)
    { lastUpdateId := 100, tsRecvNs := 0, checksum := 0
      bids := [⟨300, 1, "3.00", "0.001"⟩], asks := [⟨400, 1, "4.00", "0.001"⟩] } (by decide)

end ZidaBot.Feed
