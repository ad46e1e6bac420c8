/-
Module: ZidaBot.Proofs.FeedTrust
Purpose: What a feed has told the brain.  The brain takes a feed for healthy as long as the last thing it
  heard was market data, while the feed decides in its own state machine whether its book is synced.  Three
  callbacks leave data as the last word of a feed that is not synced: a drain that hands on outdated
  increments only, a response refused for its checksum while the feed is connecting, and `stop`.  Every
  other frame and response ends with a status, or with data from a synced controller.
Trusted boundary: none
Main exports: endsWithData, handed, onlyOutdated, misleads, RequestInv, Told, Bridging,
  onWSMessage_told, response_told
-/
import ZidaBot.Proofs.FeedStatus

namespace ZidaBot.Feed

open GenericFeedHandler OrderBookController

/-!
### Callbacks that mislead the brain

The brain goes by the kind of the last event. The conditions are on the state before the callback and on the
frame or response that it brings.
-/

/-- The last event is market data. -/
def endsWithData (published : List PubEvent) : Bool :=
  match published.getLast? with
  | none => false
  | some event => event.statusOf.isNone

/-- The increments a drain of the messages would hand to a controller that accepts them all. -/
def handed (cfg : HandlerConfig) : List BufferedMsg → List GenericIncrementalFormat
  | [] => []
  | msg :: rest =>
      match incrementalOf cfg msg.payload with
      | .threw => []
      | .rejected => handed cfg rest
      | .accepted inc => { inc with tsRecvNs := msg.recvTsNs } :: handed cfg rest

/-- Older than what a controller expects next. -/
def outdated (expected : UInt64) (inc : GenericIncrementalFormat) : Bool :=
  inc.lastSeq != 0 && decide (inc.lastSeq < expected)

/-- There are increments among the messages, and all of them are outdated. -/
def onlyOutdated (cfg : HandlerConfig) (expected : UInt64) (msgs : List BufferedMsg) : Bool :=
  !(handed cfg msgs).isEmpty && (handed cfg msgs).all (outdated expected)

/-- The frame is buffered and drained onto a controller that waits for its bridge. -/
def bridgingFrame (cfg : HandlerConfig) (h : GenericFeedHandler) (msg : String) : Bool :=
  h.ws.opened && msg != "" && h.state == .waitBridge && h.controller.state == .waitingBridge &&
    ((if cfg.adapter.caps.wsSendsSnapshot then wsSnapshotOf cfg msg else .rejected) matches .rejected) &&
    cfg.adapter.isIncremental msg && decide (h.buffer.length < cfg.maxBuffer)

/-- The callbacks after which data is the last word of a feed that is not synced. -/
def misleads (cfg : HandlerConfig) (h : GenericFeedHandler) : FeedEvent → Bool
  | .stop _ => endsWithData h.published
  | .wsMessage now msg =>
      bridgingFrame cfg h msg && onlyOutdated cfg h.controller.expectedSeq
        (h.buffer ++ [{ payload := msg, recvTsNs := now, session := h.history.opened }])
  | .restDone now outcome =>
      match h.rest, outcome.failed, cfg.adapter.parseSnapshot outcome.body with
      | some (.get _), false, .accepted snap =>
          if refusesSnapshot cfg.controllerConfig h.controller.book { snap with tsRecvNs := now } then
            h.state == .connecting
          else onlyOutdated cfg (snap.lastUpdateId + 1) h.buffer
      | _, _, _ => false
  | _ => false

@[simp] theorem endsWithData_status (published : List PubEvent) (feedState reason : String) :
    endsWithData (published ++ [.status feedState reason]) = false := by
  simp [endsWithData, PubEvent.statusOf]

variable {cfg : HandlerConfig} {retried : Prop} {Base Frame : GenericFeedHandler → Nat → Prop}
  {h h' : GenericFeedHandler} {now : Int}

/-!
### Requests for a snapshot

While a request is in flight a REST-anchored feed buffers or bridges. Without this a response could replace
the baseline under a feed that applies frames.
-/

/-- A snapshot is requested by a REST-anchored feed alone, and while the request is in flight no frame is
    applied; the retry of a rate-limited request is never armed. -/
structure RequestInv (cfg : HandlerConfig) (h : GenericFeedHandler) : Prop where
  timer : h.reconnectTimer ≠ some .retrySnapshot
  mode : h.state = .waitWsSnapshot → cfg.adapter.caps.syncMode = .wsAuthoritative
  asked : ∀ session, h.rest = some (.get session) →
    cfg.adapter.caps.syncMode = .restAnchored ∧ ¬ Live h

theorem RequestInv.restartSync (inv : RequestInv cfg h) : RequestInv cfg h.restartSync := by
  cases hrunning : h.running with
  | false => rwa [restartSync_of_not_running h hrunning]
  | true =>
      obtain ⟨gen, flag, delay, statuses, -, hsame⟩ := restartSync_eq h hrunning
      rw [hsame]
      refine ⟨nofun, nofun, fun session hrest => ⟨(inv.asked session hrest).1, ?_⟩⟩
      rintro (hstate | hstate) <;> cases hstate

theorem Change.requestInv (change : Change cfg retried h h') (fresh : ¬ retried)
    (inv : RequestInv cfg h) : RequestInv cfg h' := by
  cases change with
  | quiet _ setup controller published state rest timer =>
      refine ⟨fun harmed => inv.timer (timer harmed), fun hstate => inv.mode (state ▸ hstate), ?_⟩
      intro session hrest
      rw [Live, state]
      exact inv.asked session (rest session hrest)
  | state next reason idle legal =>
      obtain ⟨delay, statuses, -, hsame⟩ := setState_eq h next reason
      rw [hsame]
      refine ⟨inv.timer, legal, fun session hrest => ⟨(inv.asked session hrest).1, ?_⟩⟩
      exact not_or.mpr ⟨idle.2.1, idle.2.2⟩
  | request waiting asked =>
      refine ⟨inv.timer, inv.mode, fun _ _ => ⟨asked.resolve_right fresh, ?_⟩⟩
      rintro (hstate | hstate) <;> rw [waiting] at hstate <;> cases hstate
  | restart => exact inv.restartSync

/-- A move arms no retry. -/
theorem Move.timer (move : Move cfg Base Frame h h') (fresh : h.reconnectTimer ≠ some .retrySnapshot) :
    h'.reconnectTimer ≠ some .retrySnapshot := by
  have hrestart : ∀ before : GenericFeedHandler, before.reconnectTimer ≠ some .retrySnapshot →
      before.restartSync.reconnectTimer ≠ some .retrySnapshot := by
    intro before hfresh
    cases hrunning : before.running with
    | false => rwa [restartSync_of_not_running before hrunning]
    | true =>
        obtain ⟨gen, flag, delay, statuses, -, hsame⟩ := restartSync_eq before hrunning
        rw [hsame]
        nofun
  cases move with
  | quiet => exact fresh
  | rebuffer => exact fresh
  | store => exact fresh
  | state next reason live =>
      obtain ⟨delay, statuses, -, hsame⟩ := setState_eq h next reason
      rwa [hsame]
  | bridge => exact fresh
  | bookState source now enabled synced =>
      obtain ⟨published, persisted, hsame⟩ := persist_eq h
        (.bookState h.controller.book h.controller.getAppliedSeqID h.persistBookTop source now)
      rwa [hsame]
  | snapshot snap kind source session origin base accepted =>
      obtain ⟨published, persisted, hsame⟩ := applySnapshot_eq h cfg snap kind source session
      rwa [hsame]
  | increment inc session origin frame accepted =>
      obtain ⟨published, persisted, history, hsame⟩ := applyIncrement_eq h cfg inc session
      rwa [hsame]
  | restart => exact hrestart h fresh
  | rejectSnapshot snap kind source session origin resync =>
      apply hrestart
      obtain ⟨published, persisted, hsame⟩ := applySnapshot_eq h cfg snap kind source session
      rwa [hsame]
  | rejectIncrement inc session origin frame resync =>
      apply hrestart
      obtain ⟨published, persisted, history, hsame⟩ := applyIncrement_eq h cfg inc session
      rwa [hsame]

/-- Moves while no request is in flight. -/
theorem RequestInv.moves (inv : RequestInv cfg h) (moves : Moves cfg Base Frame h h')
    (idle : ∀ session, h.rest ≠ some (.get session)) : RequestInv cfg h' := by
  have hrest : h'.rest = h.rest := congrArg (fun fixed => fixed.2.1) moves.fixedPart
  refine ⟨moves.invariant (fun _ _ move => move.timer) inv.timer, ?_, ?_⟩
  · intro hwaiting
    rcases moves.state_cases with hsame | (hlive | hlive) | hconnecting
    · exact inv.mode (hsame ▸ hwaiting)
    · rw [hlive] at hwaiting
      cases hwaiting
    · rw [hlive] at hwaiting
      cases hwaiting
    · rw [hconnecting] at hwaiting
      cases hwaiting
  · intro session hasked
    exact absurd (hrest ▸ hasked) (idle session)

/-!
### What the brain has been told

`Told` is the invariant between callbacks, with one case for each kind of last word that can be trusted.
-/

variable (cfg h) in
/-- The controller is synced and frames are applied to it, or data is not the last word: a REST-anchored
    feed waits for its bridge, or no frame is applied. -/
inductive Told : Prop where
  | following (live : Live h) (synced : h.controller.isSynced = true)
  | bridging (anchored : cfg.adapter.caps.syncMode = .restAnchored) (state : h.state = .waitBridge)
      (waiting : h.controller.state = .waitingBridge) (silent : endsWithData h.published = false)
  | idle (idle : ¬ Live h) (silent : endsWithData h.published = false)

theorem not_live_of_idle (idle : Idle h.state) : ¬ Live h := not_or.mpr ⟨idle.2.1, idle.2.2⟩

namespace Told

theorem silent_of_not_live (told : Told cfg h) (idle : ¬ Live h) : endsWithData h.published = false := by
  cases told with
  | following live synced => exact absurd live idle
  | bridging anchored state waiting silent => exact silent
  | idle _ silent => exact silent

/-- A state in which no frame is applied is set, and told if it is new. -/
theorem of_setState {next : FeedSyncState} {reason : String} (told : Told cfg h) (up : Idle next)
    (state : h'.state = next)
    (published : h'.published =
      if h.state = next then h.published else h.published ++ [.status next.feedState reason]) :
    Told cfg h' := by
  refine .idle (not_live_of_idle (state ▸ up)) ?_
  rw [published]
  split
  · rename_i hsame
    exact told.silent_of_not_live (not_live_of_idle (hsame ▸ up))
  · exact endsWithData_status _ _ _

theorem restartSync (told : Told cfg h) (up : Publishing h) : Told cfg h.restartSync := by
  obtain ⟨gen, flag, delay, statuses, -, hsame⟩ := restartSync_eq h up.running
  have hstate : h.restartSync.state = .connecting := by rw [hsame]
  exact told.of_setState (by decide) hstate up.restartSync_published

/-- Clients, timers and the buffer alone differ. -/
theorem congr (told : Told cfg h) (state : h'.state = h.state) (controller : h'.controller = h.controller)
    (published : h'.published = h.published) : Told cfg h' := by
  cases told with
  | following live synced => exact .following (by rwa [Live, state]) (by rwa [controller])
  | bridging anchored bridge waiting silent =>
      exact .bridging anchored (state.trans bridge) (controller ▸ waiting) (published ▸ silent)
  | idle idle silent => exact .idle (by rwa [Live, state]) (published ▸ silent)

end Told

theorem Change.told (change : Change cfg retried h h') (up : Publishing h) (told : Told cfg h) :
    Told cfg h' := by
  cases change with
  | quiet _ setup controller published state => exact told.congr state controller published
  | state next reason idle =>
      exact told.of_setState idle (setState_state h next reason) (up.setState_published next reason)
  | request => exact told.congr rfl rfl rfl
  | restart => exact told.restartSync up

/-!
### Drains

In a drain every accepted increment is published, so data becomes the last word. It can be trusted if the
drain has bridged, for the move to `SYNCED` follows and the controller is synced; a drain that has skipped
everything is what misleads.
-/

/-- Frames are applied to a synced controller. -/
structure Applying (h : GenericFeedHandler) : Prop where
  up : Publishing h
  live : Live h
  synced : h.controller.isSynced = true

/-- A restart that was told. -/
structure Restarted (h : GenericFeedHandler) : Prop where
  idle : ¬ Live h
  silent : endsWithData h.published = false
  unsynced : h.controller.isSynced = false

/-- The controller waits for an increment that reaches `expected`. -/
structure Bridging (expected : UInt64) (h : GenericFeedHandler) : Prop where
  up : Publishing h
  state : h.state = .waitBridge
  waiting : h.controller.state = .waitingBridge
  next : h.controller.expectedSeq = expected

theorem restartSync_restarted (up : Publishing h) (busy : h.state ≠ .connecting) :
    Restarted h.restartSync := by
  have hpublished := up.restartSync_published
  rw [if_neg busy] at hpublished
  obtain ⟨gen, flag, delay, statuses, -, hsame⟩ := restartSync_eq h up.running
  refine ⟨?_, by rw [hpublished, endsWithData_status], by rw [hsame]; rfl⟩
  rw [hsame]
  rintro (hstate | hstate) <;> cases hstate

theorem Live.ne_connecting (live : Live h) : h.state ≠ .connecting := by
  rcases live with hstate | hstate <;> rw [hstate] <;> nofun

theorem Applying.persist (applying : Applying h) (now : Int) (source : String) :
    Applying (h.maybePersistBook now source) := by
  obtain ⟨updates, checkpoints, persisted, -, hsame⟩ := maybePersistBook_eq h now source
  rw [hsame]
  exact ⟨applying.up.of_setup rfl, applying.live, applying.synced⟩

/-- A feed that applies frames goes on with an accepted increment, and restarts at a refused one. -/
theorem Applying.increment (applying : Applying h) (cfg : HandlerConfig) (inc : GenericIncrementalFormat)
    (session : Nat) :
    if (h.applyIncrement cfg inc session).2 = true
      then Restarted (h.applyIncrement cfg inc session).1.restartSync
      else Applying (h.applyIncrement cfg inc session).1 := by
  have hup : Publishing (h.applyIncrement cfg inc session).1 :=
    applying.up.of_fixedPart (fixedPart_applyIncrement cfg inc session)
  have hlive : Live (h.applyIncrement cfg inc session).1 := by
    rw [Live, applyIncrement_state]
    exact applying.live
  split
  · exact restartSync_restarted hup hlive.ne_connecting
  · rename_i haccepted
    refine ⟨hup, hlive, ?_⟩
    rcases applyIncrement_accepted (by simpa using haccepted) with hskipped | hsynced
    · rw [hskipped]
      exact applying.synced
    · exact hsynced

/-- A drain onto a synced controller. -/
theorem Applying.drainLoop (applying : Applying h) (msgs : List BufferedMsg) :
    Applying (drainLoop cfg now msgs h).1 ∨ Restarted (drainLoop cfg now msgs h).1 := by
  have hbuffer : ∀ {h : GenericFeedHandler} buffer, Applying h → Applying { h with buffer := buffer } :=
    fun _ applying => ⟨applying.up.of_setup rfl, applying.live, applying.synced⟩
  induction msgs generalizing h with
  | nil => exact Or.inl (hbuffer [] applying)
  | cons msg rest ih =>
      rw [GenericFeedHandler.drainLoop]
      split
      · exact ih applying
      · cases cfg.adapter.parseIncremental msg.payload with
        | threw => exact Or.inl (hbuffer _ applying)
        | rejected => exact ih applying
        | accepted inc =>
            have hnext := applying.increment cfg { inc with tsRecvNs := msg.recvTsNs } msg.session
            dsimp only
            split
            · rename_i hresync
              rw [if_pos hresync] at hnext
              exact Or.inr hnext
            · rename_i haccepted
              rw [if_neg haccepted] at hnext
              exact ih (hnext.persist now "incremental_applied")

theorem Bridging.persist {expected : UInt64} (bridging : Bridging expected h) (now : Int)
    (source : String) : Bridging expected (h.maybePersistBook now source) := by
  obtain ⟨updates, checkpoints, persisted, -, hsame⟩ := maybePersistBook_eq h now source
  rw [hsame]
  exact ⟨bridging.up.of_setup rfl, bridging.state, bridging.waiting, bridging.next⟩

/-- An outdated increment leaves the controller waiting, any other one bridges it or is refused. -/
theorem Bridging.increment {expected : UInt64} (bridging : Bridging expected h) (cfg : HandlerConfig)
    (inc : GenericIncrementalFormat) (session : Nat) :
    if (h.applyIncrement cfg inc session).2 = true
      then outdated expected inc = false ∧ Restarted (h.applyIncrement cfg inc session).1.restartSync
      else if outdated expected inc
        then Bridging expected (h.applyIncrement cfg inc session).1
        else Applying (h.applyIncrement cfg inc session).1 := by
  have hup : Publishing (h.applyIncrement cfg inc session).1 :=
    bridging.up.of_fixedPart (fixedPart_applyIncrement cfg inc session)
  have hstate : (h.applyIncrement cfg inc session).1.state = .waitBridge := by
    rw [applyIncrement_state]
    exact bridging.state
  have hbusy : (h.applyIncrement cfg inc session).1.state ≠ .connecting := by
    rw [hstate]
    nofun
  obtain ⟨published, persisted, history, hsame⟩ := applyIncrement_eq h cfg inc session
  have hcase := onIncrement_cases cfg.controllerConfig h.controller inc
  have hold : outdated expected inc = true ↔ inc.lastSeq ≠ 0 ∧ inc.lastSeq < h.controller.expectedSeq := by
    simp [outdated, bridging.next]
  by_cases houtdated : outdated expected inc = true
  · rw [hsame, onIncrement_skipped (Or.inr (hold.mp houtdated))]
    simp only [houtdated, if_true]
    exact ⟨bridging.up.of_setup rfl, bridging.state, bridging.waiting, bridging.next⟩
  · have hrestarted := restartSync_restarted hup hbusy
    rw [hsame] at hup hrestarted ⊢
    generalize h.controller.onIncrement cfg.controllerConfig inc = result at hcase hup hrestarted ⊢
    cases hcase with
    | skipped reason =>
        rcases reason with hnone | hlate
        · rw [bridging.waiting] at hnone
          cases hnone
        · exact absurd (hold.mpr hlate) houtdated
    | resynced reason counter => exact ⟨by simpa using houtdated, hrestarted⟩
    | applied counter =>
        simp only [houtdated]
        exact ⟨hup, Or.inl bridging.state, rfl⟩

/-- A drain of messages that hold no increment changes the buffer only. -/
theorem drainLoop_unhanded (msgs : List BufferedMsg) (none : handed cfg msgs = []) :
    ∃ buffer, (drainLoop cfg now msgs h).1 = { h with buffer := buffer } := by
  induction msgs with
  | nil => exact ⟨[], rfl⟩
  | cons msg rest ih =>
      rw [handed, incrementalOf] at none
      rw [GenericFeedHandler.drainLoop]
      split
      · rename_i hother
        rw [if_neg (by simpa using hother)] at none
        exact ih none
      · rename_i hincremental
        rw [if_pos (by simpa using hincremental)] at none
        cases hparse : cfg.adapter.parseIncremental msg.payload with
        | threw => exact ⟨_, rfl⟩
        | rejected =>
            rw [hparse] at none
            exact ih none
        | accepted inc =>
            rw [hparse] at none
            cases none

/-- A drain onto a controller that waits for its bridge: one increment that is not outdated decides. -/
theorem Bridging.drainLoop {expected : UInt64} (bridging : Bridging expected h) (msgs : List BufferedMsg)
    (reached : ∃ inc ∈ handed cfg msgs, outdated expected inc = false) :
    Applying (drainLoop cfg now msgs h).1 ∨ Restarted (drainLoop cfg now msgs h).1 := by
  induction msgs generalizing h with
  | nil => simp [handed] at reached
  | cons msg rest ih =>
      rw [handed, incrementalOf] at reached
      rw [GenericFeedHandler.drainLoop]
      split
      · rename_i hother
        rw [if_neg (by simpa using hother)] at reached
        exact ih bridging reached
      · rename_i hincremental
        rw [if_pos (by simpa using hincremental)] at reached
        cases hparse : cfg.adapter.parseIncremental msg.payload with
        | threw =>
            rw [hparse] at reached
            simp at reached
        | rejected =>
            rw [hparse] at reached
            exact ih bridging reached
        | accepted inc =>
            rw [hparse] at reached
            have hnext := bridging.increment cfg { inc with tsRecvNs := msg.recvTsNs } msg.session
            dsimp only at reached ⊢
            split
            · rename_i hresync
              rw [if_pos hresync] at hnext
              exact Or.inr hnext.2
            · rename_i haccepted
              rw [if_neg haccepted] at hnext
              split at hnext
              · rename_i houtdated
                -- this one is skipped, so a later one is in time
                have hlater : ∃ inc ∈ handed cfg rest, outdated expected inc = false := by
                  simpa [houtdated] using reached
                exact ih (hnext.persist now "incremental_applied") hlater
              · exact (hnext.persist now "incremental_applied").drainLoop rest

theorem checkpoints_eq_nil {source : String} {checkpoints : List PubEvent}
    (only : CheckpointOnly h now source checkpoints) (unsynced : h.controller.isSynced = false) :
    checkpoints = [] := by
  rw [List.eq_nil_iff_forall_not_mem]
  intro event hevent
  have hsynced := (only event hevent).1
  rw [unsynced] at hsynced
  cases hsynced

/-- A drain of outdated increments leaves the controller waiting, and data as the last word if there were
    any. -/
theorem Bridging.drainLoop_outdated {expected : UInt64} (bridging : Bridging expected h)
    (msgs : List BufferedMsg) (only : ∀ inc ∈ handed cfg msgs, outdated expected inc = true) :
    Bridging expected (GenericFeedHandler.drainLoop cfg now msgs h).1 ∧
      endsWithData (GenericFeedHandler.drainLoop cfg now msgs h).1.published =
        (endsWithData h.published || !(handed cfg msgs).isEmpty) := by
  induction msgs generalizing h with
  | nil =>
      exact ⟨⟨bridging.up.of_setup rfl, bridging.state, bridging.waiting, bridging.next⟩,
        by simp [GenericFeedHandler.drainLoop, handed]⟩
  | cons msg rest ih =>
      rw [handed, incrementalOf] at only ⊢
      rw [GenericFeedHandler.drainLoop]
      split
      · rename_i hother
        rw [if_neg (by simpa using hother)] at only ⊢
        exact ih bridging only
      · rename_i hincremental
        rw [if_pos (by simpa using hincremental)] at only ⊢
        cases hparse : cfg.adapter.parseIncremental msg.payload with
        | threw =>
            exact ⟨⟨bridging.up.of_setup rfl, bridging.state, bridging.waiting, bridging.next⟩, by simp⟩
        | rejected =>
            rw [hparse] at only
            exact ih bridging only
        | accepted inc =>
            rw [hparse] at only
            have houtdated := only _ (List.mem_cons_self ..)
            have hnext := bridging.increment cfg { inc with tsRecvNs := msg.recvTsNs } msg.session
            have hpublished : (h.applyIncrement cfg { inc with tsRecvNs := msg.recvTsNs }
                msg.session).1.published = h.published ++ [_] :=
              bridging.up.applyIncrement_published { inc with tsRecvNs := msg.recvTsNs } msg.session
            dsimp only
            split
            · rename_i hresync
              rw [if_pos hresync, houtdated] at hnext
              cases hnext.1
            · rename_i haccepted
              rw [if_neg haccepted, if_pos houtdated] at hnext
              obtain ⟨hdrained, hends⟩ := ih (hnext.persist now "incremental_applied")
                fun inc' hinc' => only inc' (List.mem_cons_of_mem _ hinc')
              refine ⟨hdrained, hends.trans ?_⟩
              -- the persisted handler has published the increment and nothing after it
              have hunsynced : (h.applyIncrement cfg { inc with tsRecvNs := msg.recvTsNs }
                  msg.session).1.controller.isSynced = false := by
                simp [isSynced, hnext.waiting]
              obtain ⟨updates, checkpoints, persisted, honly, hpersisted⟩ := maybePersistBook_eq
                (h.applyIncrement cfg { inc with tsRecvNs := msg.recvTsNs } msg.session).1 now
                "incremental_applied"
              rw [hpersisted, checkpoints_eq_nil honly hunsynced]
              dsimp only
              rw [List.append_nil, hpublished]
              simp [endsWithData, PubEvent.statusOf]

/-- What follows a drain that has bridged or restarted. -/
theorem drainThenSync_told {reason : String}
    (drained : Applying (h.drainBufferedIncrementals cfg now).1 ∨
      Restarted (h.drainBufferedIncrementals cfg now).1) :
    Told cfg (h.drainThenSync cfg now reason) := by
  rw [drainThenSync]
  dsimp only
  generalize h.drainBufferedIncrementals cfg now = result at drained ⊢
  rcases drained with applying | restarted
  · split
    · exact .following applying.live applying.synced
    · rw [if_pos applying.synced]
      obtain ⟨delay, statuses, -, hsame⟩ := setState_eq result.1 .synced reason
      rw [hsame]
      exact .following (Or.inr rfl) applying.synced
  · split
    · exact .idle restarted.idle restarted.silent
    · rw [if_neg (by simp [restarted.unsynced])]
      exact .idle restarted.idle restarted.silent

theorem Applying.drainThenSync_told {reason : String} (applying : Applying h) :
    Told cfg (h.drainThenSync cfg now reason) :=
  Feed.drainThenSync_told (applying.drainLoop h.buffer)

/-- A feed that has told that it waits for its bridge, and does not drain outdated increments only. -/
theorem Bridging.drainThenSync_told {expected : UInt64} {reason : String} (bridging : Bridging expected h)
    (anchored : cfg.adapter.caps.syncMode = .restAnchored) (silent : endsWithData h.published = false)
    (honest : onlyOutdated cfg expected h.buffer = false) :
    Told cfg (h.drainThenSync cfg now reason) := by
  cases hhanded : handed cfg h.buffer with
  | nil =>
      obtain ⟨buffer, hsame⟩ : ∃ buffer, (GenericFeedHandler.drainLoop cfg now h.buffer h).1 =
          { h with buffer := buffer } :=
        drainLoop_unhanded h.buffer hhanded
      have hunsynced : h.controller.isSynced = false := by simp [isSynced, bridging.waiting]
      have htold : Told cfg { h with buffer := buffer } :=
        .bridging anchored bridging.state bridging.waiting silent
      rw [drainThenSync]
      dsimp only
      rw [drainBufferedIncrementals, hsame]
      split
      · exact htold
      · rw [if_neg (by simp [hunsynced])]
        exact htold
  | cons first later =>
      have hreached : ∃ inc ∈ handed cfg h.buffer, outdated expected inc = false := by
        have hall : (handed cfg h.buffer).all (outdated expected) = false := by
          simpa [onlyOutdated, hhanded] using honest
        obtain ⟨inc, hmember, hcurrent⟩ := List.all_eq_false.mp hall
        exact ⟨inc, hmember, by simpa using hcurrent⟩
      exact Feed.drainThenSync_told (bridging.drainLoop h.buffer hreached)

/-!
### Frames

One lemma for each branch of `onWSMessage`.
-/

theorem Restarted.told (restarted : Restarted h) : Told cfg h := .idle restarted.idle restarted.silent

theorem bufferFrame_told (told : Told cfg h) (up : Publishing h) (msg : String) :
    Told cfg (h.bufferFrame cfg now msg).1 := by
  rw [bufferFrame]
  split
  · exact told.congr rfl rfl rfl
  · exact told.restartSync up

theorem Publishing.applySnapshot (up : Publishing h) (snap : GenericSnapshotFormat) (kind : BaselineKind)
    (source : String) (session : Nat) : Publishing (h.applySnapshot cfg snap kind source session).1 :=
  up.of_fixedPart (fixedPart_applySnapshot cfg snap kind source session)

/-- A snapshot frame that is loaded syncs the controller. -/
theorem applySnapshot_synced {snap : GenericSnapshotFormat} {source : String} {session : Nat}
    (accepted : ¬ (h.applySnapshot cfg snap .wsAuthoritative source session).2 = true) :
    (h.applySnapshot cfg snap .wsAuthoritative source session).1.controller.isSynced = true := by
  rw [applySnapshot_accepted (by simpa using accepted)]
  rfl

theorem onMessageWaitWs_told (told : Told cfg h) (up : Publishing h)
    (waiting : h.state = .waitWsSnapshot) (msg : String) :
    Told cfg (h.onMessageWaitWs cfg now msg) := by
  rw [onMessageWaitWs]
  cases wsSnapshotOf cfg msg with
  | threw => exact told
  | accepted snap =>
      dsimp only
      split
      · refine (restartSync_restarted (up.applySnapshot ..) ?_).told
        rw [applySnapshot_state, waiting]
        decide
      · rename_i haccepted
        have hsynced := applySnapshot_synced haccepted
        have hup : Publishing (h.applySnapshot cfg { snap with tsRecvNs := now } .wsAuthoritative
            "ws_snapshot" h.history.opened).1 :=
          up.applySnapshot ..
        apply Applying.drainThenSync_told
        obtain ⟨updates, checkpoints, persisted, -, hpersisted⟩ := maybePersistBook_eq
          (h.applySnapshot cfg { snap with tsRecvNs := now } .wsAuthoritative "ws_snapshot"
            h.history.opened).1 now "snapshot_applied"
        rw [hpersisted]
        exact ⟨hup.of_setup rfl, Or.inl rfl, hsynced⟩
  | rejected =>
      dsimp only
      split
      · exact bufferFrame_told told up msg
      · exact told

theorem onInterruptingSnapshot_told (up : Publishing h) (live : Live h) (snap : GenericSnapshotFormat) :
    Told cfg (h.onInterruptingSnapshot cfg now snap) := by
  rw [onInterruptingSnapshot]
  dsimp only
  split
  · refine (restartSync_restarted (up.applySnapshot ..) ?_).told
    rw [applySnapshot_state]
    exact live.ne_connecting
  · rename_i haccepted
    have hsynced := applySnapshot_synced haccepted
    obtain ⟨updates, checkpoints, persisted, -, hpersisted⟩ := maybePersistBook_eq
      (h.applySnapshot cfg { snap with tsRecvNs := now } .wsAuthoritative "ws_snapshot"
        h.history.opened).1 now "snapshot_applied"
    rw [hpersisted]
    dsimp only
    rw [if_pos hsynced]
    have hset : ∀ before : GenericFeedHandler, before.controller.isSynced = true →
        Told cfg (before.setState .synced "interrupting_ws_snapshot") := by
      intro before hbefore
      obtain ⟨delay, statuses, -, hsame⟩ := setState_eq before .synced "interrupting_ws_snapshot"
      rw [hsame]
      exact .following (Or.inr rfl) hbefore
    exact hset _ hsynced

/-- A frame in `WAIT_BRIDGE` of a REST-anchored venue. -/
theorem onMessageBridge_told (told : Told cfg h) (up : Publishing h) (state : h.state = .waitBridge)
    {msg : String}
    (honest : h.controller.state = .waitingBridge → cfg.adapter.isIncremental msg = true →
      h.buffer.length < cfg.maxBuffer → onlyOutdated cfg h.controller.expectedSeq
        (h.buffer ++ [{ payload := msg, recvTsNs := now, session := h.history.opened }]) = false) :
    Told cfg (h.onMessageBridge cfg now msg) := by
  rw [onMessageBridge]
  split
  · rename_i hincremental
    by_cases hroom : h.buffer.length < cfg.maxBuffer
    · rw [bufferFrame, if_pos hroom]
      dsimp only
      have hup : Publishing { h with buffer := h.buffer ++
          [{ payload := msg, recvTsNs := now, session := h.history.opened }] } :=
        up.of_setup rfl
      cases told with
      | following live synced => exact Applying.drainThenSync_told ⟨hup, live, synced⟩
      | bridging anchored _ waiting silent =>
          exact Bridging.drainThenSync_told ⟨hup, state, waiting, rfl⟩ anchored silent
            (honest waiting hincremental hroom)
      | idle idle silent => exact absurd (Or.inl state) idle
    · rw [bufferFrame, if_neg hroom]
      exact told.restartSync up
  · exact told

/-- A frame that is applied directly, to a synced controller. -/
theorem Applying.onMessageSteady (applying : Applying h) (msg : String) :
    Told cfg (h.onMessageSteady cfg now msg) := by
  rw [GenericFeedHandler.onMessageSteady]
  cases incrementalOf cfg msg with
  | threw => exact .following applying.live applying.synced
  | rejected => exact .following applying.live applying.synced
  | accepted inc =>
      have hnext := applying.increment cfg { inc with tsRecvNs := now } h.history.opened
      dsimp only
      split
      · rename_i hresync
        rw [if_pos hresync] at hnext
        exact hnext.told
      · rename_i haccepted
        rw [if_neg haccepted] at hnext
        have hpersisted := hnext.persist now "incremental_applied"
        split
        · obtain ⟨delay, statuses, -, hsame⟩ := setState_eq _ .synced "steady_state_bridge_complete"
          rw [hsame]
          exact .following (Or.inr rfl) hpersisted.synced
        · exact .following hpersisted.live hpersisted.synced

theorem onMessageLive_told (told : Told cfg h) (up : Publishing h) (live : Live h)
    (opened : h.ws.opened = true) {msg : String} (nonempty : msg ≠ "")
    (honest : misleads cfg h (.wsMessage now msg) = false) :
    Told cfg (h.onMessageLive cfg now msg) := by
  rw [onMessageLive]
  split
  · exact told
  · exact onInterruptingSnapshot_told up live _
  · rename_i hhook
    split
    · rename_i hbridge
      apply onMessageBridge_told told up hbridge.2
      intro hwaiting hincremental hroom
      have hframe : bridgingFrame cfg h msg = true := by
        simp [bridgingFrame, opened, nonempty, hbridge.2, hwaiting, hhook, hincremental, hroom]
      rw [misleads, hframe] at honest
      exact honest
    · rename_i hsteady
      cases told with
      | following _ synced => exact Applying.onMessageSteady ⟨up, live, synced⟩ msg
      | bridging anchored state _ _ => exact absurd ⟨anchored, state⟩ hsteady
      | idle idle _ => exact absurd live idle

theorem onWSMessage_told (told : Told cfg h) (up : Publishing h) (opened : h.ws.opened = true)
    {msg : String} (honest : misleads cfg h (.wsMessage now msg) = false) :
    Told cfg (h.onWSMessage cfg now msg) := by
  by_cases hempty : msg = ""
  · rw [onWSMessage, if_pos (by simp [hempty])]
    exact told
  · obtain ⟨received, gen, timer, rfl, heq⟩ := onWSMessage_eq cfg now up.running hempty
    have htold : Told cfg { h with watchdogGen := gen, watchdogTimer := timer, lastWsMessageNs := now } :=
      told.congr rfl rfl rfl
    have hup : Publishing { h with watchdogGen := gen, watchdogTimer := timer, lastWsMessageNs := now } :=
      up.of_setup rfl
    rw [heq]
    split
    · rw [onMessageWaitRest]
      split
      · exact bufferFrame_told htold hup msg
      · exact htold
    · rename_i hstate
      exact onMessageWaitWs_told htold hup hstate msg
    · rename_i hstate
      exact onMessageLive_told htold hup (Or.inl hstate) opened hempty honest
    · rename_i hstate
      exact onMessageLive_told htold hup (Or.inr hstate) opened hempty honest
    · exact htold
    · exact htold
    · exact htold

/-!
### Responses

A response is loaded or refused for its checksum, which restarts the feed; a restart while connecting
publishes no status.
-/

/-- The snapshot of a response is refused exactly for its checksum. -/
theorem responseLoaded_resync (h : GenericFeedHandler) (cfg : HandlerConfig) (now : Int) (session : Nat)
    (snap : GenericSnapshotFormat) :
    (h.responseLoaded cfg now session snap).2 =
      refusesSnapshot cfg.controllerConfig h.controller.book { snap with tsRecvNs := now } := by
  obtain ⟨published, persisted, hsame⟩ := applySnapshot_eq h cfg { snap with tsRecvNs := now }
    cfg.adapter.caps.syncMode.baselineKind "rest_snapshot" session
  rw [responseLoaded, hsame, onSnapshot_eq]
  cases refusesSnapshot cfg.controllerConfig h.controller.book { snap with tsRecvNs := now } <;> rfl

/-- A loaded response leaves the controller waiting for its bridge; the move to `WAIT_BRIDGE` is told if it
    is one. -/
theorem bridging_of_response (up : Publishing h) (anchored : cfg.adapter.caps.syncMode = .restAnchored)
    {session : Nat} {snap : GenericSnapshotFormat}
    (accepted : (h.responseLoaded cfg now session snap).2 = false) :
    ∃ waiting, (h.responseLoaded cfg now session snap).1.responseDrained cfg now =
        waiting.drainThenSync cfg now "post_snapshot_bridge_complete" ∧
      Bridging (snap.lastUpdateId + 1) waiting ∧ waiting.buffer = h.buffer ∧
      (h.state ≠ .waitBridge → endsWithData waiting.published = false) := by
  have hup : Publishing (h.responseLoaded cfg now session snap).1 := up.applySnapshot ..
  have hcontroller : (h.responseLoaded cfg now session snap).1.controller =
      h.controller.loaded { snap with tsRecvNs := now } .waitingBridge := by
    rw [responseLoaded, applySnapshot_accepted accepted, anchored]
    rfl
  have hbuffer : (h.responseLoaded cfg now session snap).1.buffer = h.buffer :=
    applySnapshot_buffer cfg _ _ _ _
  have hstate : (h.responseLoaded cfg now session snap).1.state = h.state := applySnapshot_state _ _ _ _
  obtain ⟨updates, checkpoints, persisted, -, hpersisted⟩ :=
    maybePersistBook_eq (h.responseLoaded cfg now session snap).1 now "snapshot_applied"
  -- the checkpoint counter is all that may differ before the state is set
  obtain ⟨persisted, hpersisted, hpub, hctl, hbuf, hst⟩ : ∃ persisted,
      (h.responseLoaded cfg now session snap).1.maybePersistBook now "snapshot_applied" = persisted ∧
      Publishing persisted ∧ persisted.controller = (h.responseLoaded cfg now session snap).1.controller ∧
      persisted.buffer = (h.responseLoaded cfg now session snap).1.buffer ∧
      persisted.state = (h.responseLoaded cfg now session snap).1.state :=
    ⟨_, hpersisted, hup.of_setup rfl, rfl, rfl, rfl⟩
  have hpublished := hpub.setState_published .waitBridge "snapshot_applied"
  obtain ⟨delay, statuses, -, hset⟩ := setState_eq persisted .waitBridge "snapshot_applied"
  refine ⟨persisted.setState .waitBridge "snapshot_applied", by rw [responseDrained, hpersisted], ?_, ?_, ?_⟩
  · rw [hset]
    refine ⟨hpub.of_setup rfl, rfl, ?_, ?_⟩
    · exact congrArg OrderBookController.state (hctl.trans hcontroller)
    · exact congrArg OrderBookController.expectedSeq (hctl.trans hcontroller)
  · rw [hset]
    exact hbuf.trans hbuffer
  · intro hmoved
    rw [hpublished, if_neg (by rwa [hst, hstate]), endsWithData_status]

/-- A response that finds no frame being applied. -/
theorem response_told (told : Told cfg h) (up : Publishing h)
    (anchored : cfg.adapter.caps.syncMode = .restAnchored) (idle : ¬ Live h) (session : Nat)
    {outcome : HttpOutcome}
    (honest : ∀ snap, outcome.failed = false → cfg.adapter.parseSnapshot outcome.body = .accepted snap →
      if refusesSnapshot cfg.controllerConfig h.controller.book { snap with tsRecvNs := now }
        then h.state ≠ .connecting
        else onlyOutdated cfg (snap.lastUpdateId + 1) h.buffer = false) :
    Told cfg (h.onSnapshotDone cfg now session outcome) := by
  have hcase := onSnapshotDone_cases cfg now session outcome h
  generalize h.onSnapshotDone cfg now session outcome = after at hcase
  cases hcase with
  | unchanged => exact told
  | restarted => exact told.restartSync up
  | refused snap ok parsed resync =>
      -- a restart while connecting would not be told
      have hbusy := honest snap ok parsed
      rw [responseLoaded_resync] at resync
      rw [if_pos resync] at hbusy
      refine (restartSync_restarted (up.applySnapshot ..) ?_).told
      rw [applySnapshot_state]
      exact hbusy
  | loaded snap ok parsed accepted =>
      have hdrain := honest snap ok parsed
      have hresync := accepted
      rw [responseLoaded_resync] at hresync
      rw [if_neg (by simp [hresync])] at hdrain
      obtain ⟨waiting, hsame, hbridging, hbuffer, hsilent⟩ := bridging_of_response up anchored accepted
      rw [hsame]
      apply hbridging.drainThenSync_told anchored
      · exact hsilent fun hstate => idle (Or.inl hstate)
      · rwa [hbuffer]

/-- The completion of the request: no frame is applied while it is in flight. -/
theorem RequestInv.response_told (inv : RequestInv cfg h) (told : Told cfg h) (up : Publishing h)
    {session : Nat} (asked : h.rest = some (.get session)) {outcome : HttpOutcome}
    (honest : misleads cfg h (.restDone now outcome) = false) :
    Told cfg ({ h with rest := none }.onSnapshotDone cfg now session outcome) := by
  obtain ⟨hanchored, hidle⟩ := inv.asked session asked
  have htold : Told cfg { h with rest := none } := told.congr rfl rfl rfl
  have hup : Publishing { h with rest := none } := up.of_setup rfl
  apply Feed.response_told htold hup hanchored
  · exact hidle
  · intro snap hok hparsed
    rw [misleads, asked, hok, hparsed] at honest
    dsimp only at honest ⊢
    split at honest
    · rename_i hrefused
      rw [if_pos hrefused]
      simpa using honest
    · rename_i hloaded
      rw [if_neg hloaded]
      exact honest

end ZidaBot.Feed
