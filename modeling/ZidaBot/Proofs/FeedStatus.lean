/-
Module: ZidaBot.Proofs.FeedStatus
Purpose: The handler keeps a state of its own beside the controller's and tells the brain about it.  The
  two states are written by separate statements, and inside a callback they do disagree: a response that
  arrives late re-baselines a controller while the handler still says `SYNCED`.  Between callbacks a handler
  in `SYNCED` has a synced controller.  The statuses keep in step with the state up to `stop`, which sets the
  state after it has stopped the sinks.
Trusted boundary: none
Main exports: SyncedTogether, synced_handler_has_synced_controller, lastStatus, StatusFaithful,
  status_fidelity_iff
-/
import ZidaBot.Library.Runs
import ZidaBot.Proofs.FeedReplica

namespace ZidaBot.Feed

open GenericFeedHandler OrderBookController

variable {cfg : HandlerConfig} {retried : Prop} {Base Frame : GenericFeedHandler → Nat → Prop}
  {h h' : GenericFeedHandler} {now : Int}

/-!
### The controller of a synced handler

Each move keeps the two states together but one, the load of a baseline in `SYNCED`, and the callbacks in
which it occurs set the handler's state before they end.
-/

/-- A handler in `SYNCED` has a synced controller. -/
def SyncedTogether (h : GenericFeedHandler) : Prop := h.state = .synced → h.controller.isSynced = true

theorem restartSync_together (together : SyncedTogether h) : SyncedTogether h.restartSync := by
  cases hrunning : h.running with
  | false => rwa [restartSync_of_not_running h hrunning]
  | true =>
      obtain ⟨gen, flag, delay, statuses, -, hsame⟩ := restartSync_eq h hrunning
      rw [hsame]
      nofun

/-- A restart of a running handler leaves `SYNCED` whatever was done before it. -/
theorem restartSync_together_of_running (running : h.running = true) : SyncedTogether h.restartSync := by
  obtain ⟨gen, flag, delay, statuses, -, hsame⟩ := restartSync_eq h running
  rw [hsame]
  nofun

theorem Change.together (change : Change cfg retried h h') (together : SyncedTogether h) :
    SyncedTogether h' := by
  cases change with
  | quiet _ setup controller published state => rwa [SyncedTogether, controller, state]
  | state next reason idle =>
      intro hsynced
      rw [setState_state] at hsynced
      exact absurd hsynced idle.2.2
  | request => exact together
  | restart => exact restartSync_together together

/-- The moves that keep the two states together: no baseline is loaded in `SYNCED`. -/
theorem Move.together (move : Move cfg (fun h _ => h.state ≠ .synced) Frame h h')
    (running : h.running = true) (together : SyncedTogether h) : SyncedTogether h' := by
  cases move with
  | quiet => exact together
  | rebuffer => exact together
  | store => exact together
  | state next reason live =>
      obtain ⟨delay, statuses, -, hsame⟩ := setState_eq h next reason
      rw [hsame]
      rintro rfl
      exact (live.resolve_left nofun).2
  | bridge => nofun
  | bookState source now enabled synced =>
      obtain ⟨published, persisted, hsame⟩ := persist_eq h
        (.bookState h.controller.book h.controller.getAppliedSeqID h.persistBookTop source now)
      rw [hsame]
      exact together
  | snapshot snap kind source session origin base accepted =>
      intro hsynced
      rw [applySnapshot_state] at hsynced
      exact absurd hsynced base
  | increment inc session origin frame accepted =>
      intro hsynced
      rw [applyIncrement_state] at hsynced
      have hbefore := together hsynced
      rcases applyIncrement_accepted accepted with hskipped | hsynced
      · rwa [hskipped]
      · exact hsynced
  | restart => exact restartSync_together together
  | rejectSnapshot snap kind source session origin resync =>
      apply restartSync_together_of_running
      rwa [applySnapshot_running]
  | rejectIncrement inc session origin frame resync =>
      apply restartSync_together_of_running
      rwa [applyIncrement_running]

theorem Moves.together (moves : Moves cfg (fun h _ => h.state ≠ .synced) Frame h h')
    (running : h.running = true) (together : SyncedTogether h) : SyncedTogether h' := by
  have hmove : ∀ h h', Move cfg (fun h _ => h.state ≠ .synced) Frame h h' →
      h.running = true ∧ SyncedTogether h → h'.running = true ∧ SyncedTogether h' := by
    rintro h h' move ⟨hrunning, htogether⟩
    exact ⟨(congrArg Prod.fst move.fixedPart).trans hrunning, move.together hrunning htogether⟩
  exact (moves.invariant hmove ⟨running, together⟩).2

/-- A snapshot frame ends in the state the controller is in. -/
theorem onInterruptingSnapshot_together (running : h.running = true) (snap : GenericSnapshotFormat) :
    SyncedTogether (h.onInterruptingSnapshot cfg now snap) := by
  rw [onInterruptingSnapshot]
  dsimp only
  split
  · apply restartSync_together_of_running
    rwa [applySnapshot_running]
  · have hset : ∀ before : GenericFeedHandler, SyncedTogether (before.setState
        (if before.controller.isSynced then .synced else .waitBridge) "interrupting_ws_snapshot") := by
      intro before hsynced
      obtain ⟨delay, statuses, -, hsame⟩ := setState_eq before
        (if before.controller.isSynced then .synced else .waitBridge) "interrupting_ws_snapshot"
      rw [hsame] at hsynced ⊢
      dsimp only at hsynced ⊢
      split at hsynced
      · assumption
      · cases hsynced
    exact hset _

theorem onWSMessage_together (together : SyncedTogether h) (msg : String) :
    SyncedTogether (h.onWSMessage cfg now msg) := by
  by_cases hskip : h.running = true ∧ msg ≠ ""
  · obtain ⟨hrunning, hnonempty⟩ := hskip
    by_cases hsynced : h.state = .synced
    · -- a snapshot frame is the one that loads a baseline in `SYNCED`
      obtain ⟨received, gen, timer, rfl, heq⟩ := onWSMessage_eq cfg now hrunning hnonempty
      rw [heq]
      simp only [hsynced]
      rw [onMessageLive]
      split
      · exact fun _ => together hsynced
      · apply onInterruptingSnapshot_together
        exact hrunning
      · rw [if_neg (by simp)]
        have hmoves : ∀ received : GenericFeedHandler,
            Moves cfg (fun h _ => h.state ≠ .synced) (fun _ _ => True) received
              (received.onMessageSteady cfg now msg) :=
          fun _ => onMessageSteady_moves trivial msg
        exact (hmoves _).together hrunning fun _ => together hsynced
    · have hmoves : Moves cfg (fun h _ => h.state ≠ .synced) (fun _ _ => True) h
          (h.onWSMessage cfg now msg) :=
        onWSMessage_moves (fun _ _ _ => trivial) (fun _ _ _ _ hstate => hstate ▸ hsynced)
          (fun _ _ _ => trivial) msg
      exact hmoves.together hrunning together
  · rw [onWSMessage, if_pos (by simpa [imp_iff_not_or] using hskip)]
    exact together

/-- A response ends in `SYNCED` only after a drain in `WAIT_BRIDGE`, which every baseline leads to. -/
theorem onSnapshotDone_together (together : SyncedTogether h) (session : Nat) (outcome : HttpOutcome) :
    SyncedTogether (h.onSnapshotDone cfg now session outcome) := by
  cases hrunning : h.running with
  | false =>
      rw [onSnapshotDone, if_pos (by simp [hrunning])]
      exact together
  | true =>
      have hcase := onSnapshotDone_cases cfg now session outcome h
      generalize h.onSnapshotDone cfg now session outcome = after at hcase
      have hloaded : ∀ snap, (h.responseLoaded cfg now session snap).1.running = true := fun snap =>
        (applySnapshot_running _ _ _ _).trans hrunning
      cases hcase with
      | unchanged => exact together
      | restarted => exact restartSync_together together
      | refused snap ok parsed resync => exact restartSync_together_of_running (hloaded snap)
      | loaded snap ok parsed accepted =>
          obtain ⟨updates, checkpoints, persisted, -, hpersisted⟩ :=
            maybePersistBook_eq (h.responseLoaded cfg now session snap).1 now "snapshot_applied"
          rw [responseDrained, hpersisted]
          have hbridge : ∀ loaded : GenericFeedHandler, loaded.running = true →
              SyncedTogether ((loaded.setState .waitBridge "snapshot_applied").drainThenSync cfg now
                "post_snapshot_bridge_complete") := by
            intro loaded hrunning
            have hmoves : Moves cfg (fun h _ => h.state ≠ .synced) (fun _ _ => True)
                (loaded.setState .waitBridge "snapshot_applied")
                ((loaded.setState .waitBridge "snapshot_applied").drainThenSync cfg now
                  "post_snapshot_bridge_complete") :=
              drainThenSync_moves (fun _ _ _ => trivial) _
            apply hmoves.together
            · exact (congrArg Prod.fst (fixedPart_setState _ _)).trans hrunning
            · intro hsynced
              rw [setState_state] at hsynced
              cases hsynced
          exact hbridge _ (hloaded snap)

theorem step_together (cfg : HandlerConfig) (h : GenericFeedHandler) (e : FeedEvent)
    (together : SyncedTogether h) : SyncedTogether (h.step cfg e) := by
  have hcase := step_cases cfg h e
  generalize h.step cfg e = after at hcase
  cases hcase with
  | stopped tlsUp =>
      intro hsynced
      rw [(stop_spec tlsUp).2.1] at hsynced
      cases hsynced
  | changed _ _ changes => exact changes.invariant (fun _ _ change => change.together) together
  | frame now msg opened => exact onWSMessage_together together msg
  | response now outcome session asked =>
      have hanswered : SyncedTogether { h with rest := none } := together
      exact onSnapshotDone_together hanswered session outcome

/-- For every venue adapter and every order of callbacks: between callbacks, a handler in `SYNCED` has a
    synced controller. -/
theorem synced_handler_has_synced_controller (cfg : HandlerConfig) (events : List FeedEvent)
    (synced : (Runs.run (step cfg) (started cfg) events).state = .synced) :
    (Runs.run (step cfg) (started cfg) events).controller.isSynced = true := by
  have hstart : SyncedTogether (started cfg) :=
    (started_changes cfg).invariant (fun _ _ change => change.together) nofun
  exact Runs.invariant_run (step_together cfg) hstart events synced

theorem synced_handler_has_synced_controller_binance :
    (Runs.run (step (twoLevelFeed 1 2)) (started (twoLevelFeed 1 2)) checkpointedRun).state = .synced ∧
      (Runs.run (step (twoLevelFeed 1 2)) (started (twoLevelFeed 1 2))
        checkpointedRun).controller.isSynced = true := by
  have hsynced :
      (Runs.run (step (twoLevelFeed 1 2)) (started (twoLevelFeed 1 2)) checkpointedRun).state = .synced := by
    decide
  exact ⟨hsynced, synced_handler_has_synced_controller (twoLevelFeed 1 2) checkpointedRun hsynced⟩

/-!
### The statuses of a handler

A status is published exactly when the state changes. So the last status tells the state, as long as the
sinks run.
-/

/-- The text of a status. -/
def PubEvent.statusOf : PubEvent → Option String
  | .status feedState _ => some feedState
  | _ => none

/-- The last `feed_state` that was published. -/
def lastStatus (published : List PubEvent) : Option String :=
  (published.filterMap PubEvent.statusOf).getLast?

@[simp] theorem lastStatus_status (published : List PubEvent) (feedState reason : String) :
    lastStatus (published ++ [.status feedState reason]) = some feedState := by
  simp [lastStatus, PubEvent.statusOf]

theorem lastStatus_data (published : List PubEvent) {event : PubEvent} (data : event.statusOf = none) :
    lastStatus (published ++ [event]) = lastStatus published := by
  simp [lastStatus, data]

/-- The last status, if there is one, is that of the current state. -/
def StatusFaithful (h : GenericFeedHandler) : Prop :=
  ∀ feedState, lastStatus h.published = some feedState → feedState = h.state.feedState

/-- Status and state are set together, or neither is. -/
theorem StatusFaithful.of_setState {next : FeedSyncState} {reason : String} (faithful : StatusFaithful h)
    (state : h'.state = next)
    (published : h'.published =
      if h.state = next then h.published else h.published ++ [.status next.feedState reason]) :
    StatusFaithful h' := by
  intro feedState hlast
  rw [published] at hlast
  rw [state]
  split at hlast
  · rename_i hsame
    rw [← hsame]
    exact faithful feedState hlast
  · rw [lastStatus_status] at hlast
    exact (Option.some.inj hlast).symm

/-- Data is published in between. -/
theorem StatusFaithful.of_data (faithful : StatusFaithful h) (state : h'.state = h.state)
    {event : PubEvent} (data : event.statusOf = none) (published : h'.published = h.published ++ [event]) :
    StatusFaithful h' := by
  intro feedState hlast
  rw [published, lastStatus_data _ data] at hlast
  rw [state]
  exact faithful feedState hlast

theorem StatusFaithful.restartSync (faithful : StatusFaithful h) (up : Publishing h) :
    StatusFaithful h.restartSync := by
  obtain ⟨gen, flag, delay, statuses, -, hsame⟩ := restartSync_eq h up.running
  have hstate : h.restartSync.state = .connecting := by rw [hsame]
  exact faithful.of_setState hstate up.restartSync_published

theorem Change.faithful (change : Change cfg retried h h') (up : Publishing h)
    (faithful : StatusFaithful h) : StatusFaithful h' := by
  cases change with
  | quiet _ setup controller published state => rwa [StatusFaithful, published, state]
  | state next reason idle =>
      exact faithful.of_setState (setState_state h next reason) (up.setState_published next reason)
  | request => exact faithful
  | restart => exact faithful.restartSync up

theorem Move.faithful (move : Move cfg Base Frame h h') (up : Publishing h)
    (faithful : StatusFaithful h) : StatusFaithful h' := by
  cases move with
  | quiet => exact faithful
  | rebuffer => exact faithful
  | store => exact faithful
  | state next reason live =>
      exact faithful.of_setState (setState_state h next reason) (up.setState_published next reason)
  | bridge waiting =>
      -- the one store without a status: both states read the same
      intro feedState hlast
      have hbefore := faithful feedState hlast
      rwa [waiting] at hbefore
  | bookState source now enabled synced =>
      rw [up.persist_eq]
      exact faithful.of_data rfl rfl rfl
  | snapshot snap kind source session origin base accepted =>
      exact faithful.of_data (applySnapshot_state ..) rfl (up.applySnapshot_published ..)
  | increment inc session origin frame accepted =>
      exact faithful.of_data (applyIncrement_state ..) rfl (up.applyIncrement_published ..)
  | restart => exact faithful.restartSync up
  | rejectSnapshot snap kind source session origin resync =>
      have hloaded : StatusFaithful (h.applySnapshot cfg snap kind source session).1 :=
        faithful.of_data (applySnapshot_state ..) rfl (up.applySnapshot_published ..)
      exact hloaded.restartSync (up.of_fixedPart (fixedPart_applySnapshot ..))
  | rejectIncrement inc session origin frame resync =>
      have happlied : StatusFaithful (h.applyIncrement cfg inc session).1 :=
        faithful.of_data (applyIncrement_state ..) rfl (up.applyIncrement_published ..)
      exact happlied.restartSync (up.of_fixedPart (fixedPart_applyIncrement ..))

/-!
### A running handler

A feed starts by setting `CONNECTING` before its sinks run, and no callback of a running feed leads back to
`DISCONNECTED`.
-/

/-- A feed that publishes is not in `DISCONNECTED`. -/
structure Connected (h : GenericFeedHandler) : Prop where
  up : Publishing h
  state : h.state ≠ .disconnected

theorem Change.connected (change : Change cfg retried h h') (connected : Connected h) :
    Connected h' := by
  refine ⟨change.publishing connected.up, ?_⟩
  cases change with
  | quiet _ setup controller published state => exact state ▸ connected.state
  | state next reason idle =>
      rw [setState_state]
      exact idle.1
  | request => exact connected.state
  | restart =>
      obtain ⟨gen, flag, delay, statuses, -, hsame⟩ := restartSync_eq h connected.up.running
      rw [hsame]
      nofun

theorem Move.connected (move : Move cfg Base Frame h h') (connected : Connected h) : Connected h' := by
  refine ⟨connected.up.of_fixedPart move.fixedPart, ?_⟩
  rcases move.state_cases with hsame | (hlive | hlive) | hconnecting
  · rw [hsame]
    exact connected.state
  · rw [hlive]
    nofun
  · rw [hlive]
    nofun
  · rw [hconnecting]
    nofun

/-- A running handler that has told its state. -/
def Faithful (h : GenericFeedHandler) : Prop := Connected h ∧ StatusFaithful h

theorem Change.keeps_faithful (change : Change cfg retried h h') (faithful : Faithful h) : Faithful h' :=
  ⟨change.connected faithful.1, change.faithful faithful.1.up faithful.2⟩

theorem Faithful.step (faithful : Faithful h) {e : FeedEvent} (going : ∀ tlsUp, e ≠ .stop tlsUp) :
    Faithful (h.step cfg e) :=
  step_invariant (fun _ _ _ change faithful => change.keeps_faithful faithful)
    (fun _ _ move faithful => ⟨move.connected faithful.1, move.faithful faithful.1.up faithful.2⟩)
    faithful going

theorem faithful_started (brain : cfg.brainConfigured = true) : Faithful (started cfg) := by
  have hstart : Faithful
      { init cfg with running := true, state := .connecting, sinksRunning := (init cfg).brainSinks } :=
    ⟨⟨⟨rfl, brain, brain⟩, nofun⟩, nofun⟩
  exact (started_changes cfg).invariant (fun _ _ change => change.keeps_faithful) hstart

theorem feedState_ne_disconnected {state : FeedSyncState} (up : state ≠ .disconnected) :
    state.feedState ≠ "disconnected" := by
  cases state <;> first | exact absurd rfl up | simp [FeedSyncState.feedState]

/-!
### Whole runs

`stop` stops the sinks and then sets the state, so what was said last stays the last word.
-/

/-- A handler that runs, or has been stopped without a word. -/
def StatusInv (h : GenericFeedHandler) : Prop :=
  Connected h ∨
    (h.running = false ∧ h.state = .disconnected ∧ lastStatus h.published ≠ some "disconnected")

/-- `stop` is only called while no status has been published. -/
def StopsUnannounced (h : GenericFeedHandler) (e : FeedEvent) : Prop :=
  (∃ tlsUp, e = .stop tlsUp) → lastStatus h.published = none

/-- A faithful handler that runs has not said `disconnected`. -/
theorem Connected.lastStatus_ne (connected : Connected h) (faithful : StatusFaithful h) :
    lastStatus h.published ≠ some "disconnected" :=
  fun hlast => feedState_ne_disconnected connected.state (faithful _ hlast).symm

theorem statusInv_step (inv : StatusInv h) (faithful : StatusFaithful h) (e : FeedEvent) :
    StatusInv (h.step cfg e) := by
  rcases inv with hconnected | ⟨hstopped, hidle, hquiet⟩
  · rcases e.stop_or_going with ⟨tlsUp, rfl⟩ | hgoing
    · obtain ⟨hrunning, hstate, hpublished, -⟩ := stop_spec (h := h) tlsUp
      refine Or.inr ⟨hrunning, hstate, ?_⟩
      rw [GenericFeedHandler.step, hpublished]
      exact hconnected.lastStatus_ne faithful
    · exact Or.inl (Faithful.step ⟨hconnected, faithful⟩ hgoing).1
  · have hsame : SameData h (h.step cfg e) := step_of_stopped hstopped hidle e
    obtain ⟨hrunning, hstate, hpublished, -⟩ := hsame
    exact Or.inr ⟨hrunning.trans hstopped, hstate.trans hidle, by rwa [hpublished]⟩

/-- One callback keeps the status faithful, unless it is a `stop` after a status. -/
theorem faithful_step_iff (inv : StatusInv h) (faithful : StatusFaithful h) (e : FeedEvent) :
    StatusFaithful (h.step cfg e) ↔ StopsUnannounced h e := by
  rcases inv with hconnected | ⟨hstopped, hidle, hquiet⟩
  · rcases e.stop_or_going with ⟨tlsUp, rfl⟩ | hgoing
    · obtain ⟨-, hstate, hpublished, -⟩ := stop_spec (h := h) tlsUp
      have hafter : StatusFaithful (h.stop tlsUp) ↔
          ∀ feedState, lastStatus h.published = some feedState → feedState = "disconnected" := by
        rw [StatusFaithful, hpublished, hstate]
        rfl
      rw [GenericFeedHandler.step, hafter]
      constructor
      · intro hsays _
        cases hlast : lastStatus h.published with
        | none => rfl
        | some feedState =>
            have hsaid : lastStatus h.published = some "disconnected" := by
              rw [hlast, hsays feedState hlast]
            exact absurd hsaid (hconnected.lastStatus_ne faithful)
      · intro hunannounced feedState hlast
        rw [hunannounced ⟨tlsUp, rfl⟩] at hlast
        cases hlast
    · refine iff_of_true (Faithful.step ⟨hconnected, faithful⟩ hgoing).2 ?_
      rintro ⟨tlsUp, hstop⟩
      exact absurd hstop (hgoing tlsUp)
  · -- a stopped handler changes neither, and has said nothing
    have hsame : SameData h (h.step cfg e) := step_of_stopped hstopped hidle e
    obtain ⟨-, hstate, hpublished, -⟩ := hsame
    refine iff_of_true ?_ fun _ => ?_
    · rwa [StatusFaithful, hstate, hpublished]
    · cases hlast : lastStatus h.published with
      | none => rfl
      | some feedState =>
          have hsaid := faithful feedState hlast
          rw [hidle] at hsaid
          exact absurd (hlast.trans (congrArg some hsaid)) hquiet

/-- A handler with a brain sink.  At every callback boundary the last published status, if there is one,
    is the image of the handler's state, exactly for the runs in which `stop` is only called while no status
    has been published. -/
theorem status_fidelity_iff (cfg : HandlerConfig) (brain : cfg.brainConfigured = true)
    (events : List FeedEvent) :
    (∀ reached, reached <+: events → StatusFaithful (Runs.run (step cfg) (started cfg) reached)) ↔
      Runs.Along (step cfg) StopsUnannounced (started cfg) events := by
  obtain ⟨hconnected, hfaithful⟩ := faithful_started brain
  have hstep : ∀ h e, StatusInv h → StatusFaithful h → StatusInv (step cfg h e) :=
    fun _ e inv faithful => statusInv_step inv faithful e
  have hexact : ∀ h e, StatusInv h → StatusFaithful h →
      (StatusFaithful (step cfg h e) ↔ StopsUnannounced h e) :=
    fun _ e inv faithful => faithful_step_iff inv faithful e
  exact Runs.Along.iff_of_step hstep hexact (Or.inl hconnected) hfaithful events

/-- A run of a Binance feed that is not stopped. -/
theorem status_fidelity_binance :
    StatusFaithful (Runs.run (step (twoLevelFeed 1 2)) (started (twoLevelFeed 1 2)) checkpointedRun) ∧
      lastStatus (Runs.run (step (twoLevelFeed 1 2)) (started (twoLevelFeed 1 2))
        checkpointedRun).published = some "synced" := by
  have hnever : Runs.Along (step (twoLevelFeed 1 2)) StopsUnannounced (started (twoLevelFeed 1 2))
      checkpointedRun :=
    ⟨nofun, nofun, nofun, nofun, trivial⟩
  have hall := (status_fidelity_iff (twoLevelFeed 1 2) rfl checkpointedRun).mpr hnever
  exact ⟨hall checkpointedRun List.prefix_rfl, by decide⟩

/-- A feed that opens a session and is stopped: the brain has last heard that it is resyncing. -/
theorem status_unfaithful_after_stop :
    let h := Runs.run (step (twoLevelFeed 1 2)) (started (twoLevelFeed 1 2)) [.wsOpen 1, .stop false]
    lastStatus h.published = some "resyncing" ∧ h.state.feedState = "disconnected" ∧
      ¬ StatusFaithful h := by
  have hlast : lastStatus (Runs.run (step (twoLevelFeed 1 2)) (started (twoLevelFeed 1 2))
      [.wsOpen 1, .stop false]).published = some "resyncing" := by decide
  have hstate : (Runs.run (step (twoLevelFeed 1 2)) (started (twoLevelFeed 1 2))
      [.wsOpen 1, .stop false]).state.feedState = "disconnected" := by decide
  refine ⟨hlast, hstate, fun hfaithful => ?_⟩
  have hsame := (hfaithful _ hlast).trans hstate
  exact absurd hsame (by decide)

end ZidaBot.Feed
