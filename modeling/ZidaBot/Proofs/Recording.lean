/-
Module: ZidaBot.Proofs.Recording
Purpose: What a feed records.  Whichever sinks a feed has, it runs as the same feed with all of them: its file
  sink is called for everything that the brain sinks are given but the statuses, in the same order, and its
  brain sinks are given everything.  From what the file sink is called with, a replica can follow the book as
  from the published stream.
Trusted boundary: none
Main exports: persistable, heard, sinks_never_interfere, mirrors_persistable, Recorded, recorded_of_synced
-/
import ZidaBot.Proofs.FeedReplica
import ZidaBot.Proofs.FeedSinks

namespace ZidaBot.Feed

open GenericFeedHandler OrderBookController

/-- The calls that the file sink has, too. -/
def persistable (calls : List PubEvent) : List PubEvent := calls.filter fun call => !statusOnly call

theorem mem_persistable {call : PubEvent} {calls : List PubEvent} :
    call ∈ persistable calls ↔ call ∈ calls ∧ statusOnly call = false := by
  simp [persistable]

/-! ### What the sinks are given

A run makes one sequence of calls.  Until they are closed, running brain sinks are given all of it and a file
sink all of it but the statuses, so that each can be read off the other. -/

/-- What is given before the sinks are closed. -/
def heard : List SinkCall → List PubEvent
  | [] => []
  | .given event :: calls => event :: heard calls
  | .closed :: _ => []

theorem heard_append_left (calls more : List SinkCall) : heard calls <+: heard (calls ++ more) := by
  induction calls with
  | nil => exact List.nil_prefix
  | cons call calls ih =>
      cases call with
      | given event => exact (List.prefix_cons_inj event).mpr ih
      | closed => exact List.prefix_rfl

/-- Closed sinks are given nothing. -/
theorem record_closed (calls : List SinkCall) {k : Sinks} (noFile : k.file = false) (noBrain : k.brain = false) :
    (calls.foldl Sinks.record k).published = k.published ∧
      (calls.foldl Sinks.record k).persisted = k.persisted := by
  induction calls generalizing k with
  | nil => exact ⟨rfl, rfl⟩
  | cons call calls ih =>
      cases call with
      | given event =>
          have hnone : k.none = true := by simp [Sinks.none, noFile, noBrain]
          rw [List.foldl_cons, record_of_none hnone]
          exact ih noFile noBrain
      | closed => exact ih rfl rfl

theorem published_record (calls : List SinkCall) (k : Sinks) :
    (calls.foldl Sinks.record k).published =
      k.published ++ if k.brain && k.running then heard calls else [] := by
  induction calls generalizing k with
  | nil => simp [heard]
  | cons call calls ih =>
      rw [List.foldl_cons]
      cases call with
      | given event =>
          rw [ih, Sinks.record, heard]
          cases k.brain && k.running <;> simp
      | closed =>
          rw [(record_closed calls rfl rfl).1, heard]
          simp [Sinks.record]

theorem persisted_record (calls : List SinkCall) (k : Sinks) :
    (calls.foldl Sinks.record k).persisted =
      k.persisted ++ if k.file then persistable (heard calls) else [] := by
  induction calls generalizing k with
  | nil => simp [heard, persistable]
  | cons call calls ih =>
      rw [List.foldl_cons]
      cases call with
      | given event =>
          rw [ih, Sinks.record, heard, persistable, persistable, List.filter_cons]
          cases k.file <;> cases statusOnly event <;> simp
      | closed =>
          rw [(record_closed calls rfl rfl).2, heard]
          simp [Sinks.record, persistable]

/-! ### No interference

The feed with a file sink and brain sinks is the measure: every other choice of sinks gives the same feed, and
what its sinks are given is found in what the brain sinks of the measure are given. -/

/-- One sequence of calls and one feed for every choice of sinks. -/
theorem run_sinks (cfg : HandlerConfig) (events : List RuntimeEvent) :
    ∃ (bare : FeedRuntime) (calls : List PubEvent), ∀ file brain,
      let feed := Runs.run (FeedRuntime.step (cfg.withSinks file brain))
        (FeedRuntime.started (cfg.withSinks file brain)) events
      feed.handler.published = (if brain then calls else []) ∧
        feed.handler.persisted = (if file then persistable calls else []) ∧ feed.withSinks {} = bare := by
  obtain ⟨r, calls, hrun⟩ := FeedRuntime.run_eq cfg events
  refine ⟨r.withSinks {}, heard calls, fun file brain => ?_⟩
  rw [hrun]
  refine ⟨?_, ?_, rfl⟩
  · refine (published_record calls _).trans ?_
    cases brain <;> rfl
  · refine (persisted_record calls _).trans ?_
    cases file <;> rfl

/-- A feed that synchronises, checkpoints its book and is stopped: eight calls on its brain sinks, five of them
    with market data. -/
example :
    let cfg : HandlerConfig := (twoLevelFeed 1 2).withSinks true true
    let both := Runs.run (FeedRuntime.step cfg) (FeedRuntime.started cfg)
      (checkpointedRun.map RuntimeEvent.callback ++ [.callback (.stop true)])
    both.handler.published.length = 8 ∧ both.handler.persisted.length = 5 := by
  decide +kernel

/-- Starting a feed gives statuses only. -/
theorem persisted_started (cfg : HandlerConfig) : (FeedRuntime.started cfg).persisted = [] := by
  have hset : ∀ (h : GenericFeedHandler) next reason, (h.setState next reason).persisted = h.persisted := by
    intro h next reason
    obtain ⟨delay, statuses, -, hsame⟩ := setState_eq h next reason
    rw [hsame]
  have hrestart : ∀ h : GenericFeedHandler, h.restartSync.persisted = h.persisted := by
    intro h
    cases hrunning : h.running with
    | false => rw [restartSync_of_not_running h hrunning]
    | true =>
        obtain ⟨gen, flag, delay, statuses, -, hsame⟩ := restartSync_eq h hrunning
        rw [hsame]
  have hbootstrap : ∀ h : GenericFeedHandler, (h.bootstrapWS cfg).persisted = h.persisted := by
    intro h
    rw [bootstrapWS]
    split
    · rfl
    · split
      · exact hrestart h
      · split
        · exact hrestart h
        · rfl
  have hhandler : (FeedRuntime.started cfg).handler = GenericFeedHandler.started cfg := by
    simp [FeedRuntime.started, FeedRuntime.start, init, GenericFeedHandler.started]
  rw [FeedRuntime.persisted, hhandler, FeedRuntime.handlerStarted_eq, FeedRuntime.firstConnect]
  split
  · exact (hbootstrap _).trans (hset _ _ _)
  · rfl

/-- A file sink is called with market data only. -/
theorem persisted_market (cfg : HandlerConfig) (events : List RuntimeEvent) :
    ∀ call ∈ (Runs.run (FeedRuntime.step cfg) (FeedRuntime.started cfg) events).persisted,
      statusOnly call = false := by
  intro call hcall
  obtain ⟨bare, calls, hrun⟩ := run_sinks cfg events
  obtain ⟨-, hpersisted, -⟩ := hrun cfg.persistOpen cfg.brainConfigured
  have hsame : (Runs.run (FeedRuntime.step cfg) (FeedRuntime.started cfg) events).persisted =
      if cfg.persistOpen then persistable calls else [] := hpersisted
  rw [hsame] at hcall
  split at hcall
  · exact (mem_persistable.mp hcall).2
  · cases hcall

/-- What it was called with stays, whatever comes next. -/
theorem persisted_prefix (cfg : HandlerConfig) (events : List RuntimeEvent) (e : RuntimeEvent) :
    (Runs.run (FeedRuntime.step cfg) (FeedRuntime.started cfg) events).persisted <+:
      ((Runs.run (FeedRuntime.step cfg) (FeedRuntime.started cfg) events).step cfg e).persisted := by
  obtain ⟨r, calls, hrun⟩ := FeedRuntime.run_eq cfg events
  obtain ⟨after, more, hstep⟩ := FeedRuntime.step_emits cfg e r
  let k := FeedRuntime.firstSinks cfg.persistOpen cfg.brainConfigured
  have hfirst : Runs.run (FeedRuntime.step cfg) (FeedRuntime.started cfg) events =
      r.withSinks (calls.foldl Sinks.record k) := hrun cfg.persistOpen cfg.brainConfigured
  have hnext : (r.withSinks (calls.foldl Sinks.record k)).step cfg e =
      after.withSinks ((calls ++ more).foldl Sinks.record k) := by
    rw [List.foldl_append]
    exact hstep _
  rw [hfirst, hnext]
  change (calls.foldl Sinks.record k).persisted <+: ((calls ++ more).foldl Sinks.record k).persisted
  rw [persisted_record, persisted_record]
  refine (List.prefix_append_right_inj _).mpr ?_
  split
  · exact (heard_append_left calls more).filter _
  · exact List.prefix_rfl

/-! ### Late handlers

The published stream is enough for a replica through the callbacks of the handler; here the same is shown for
everything else that the I/O thread runs. -/

variable {cfg : HandlerConfig} {r : FeedRuntime}

namespace GenericFeedHandler

variable {h : GenericFeedHandler}

theorem reconnectHandler_changes (wait : TimerWait) : Changes cfg True h (h.reconnectHandler cfg wait) := by
  cases wait with
  | retrySnapshot =>
      rw [reconnectHandler]
      split
      · exact requestSnapshot_changes (Or.inr trivial)
      · exact .refl
  | reconnect gen =>
      rw [reconnectHandler]
      split
      · exact .refl
      · split
        · exact (Relation.ReflTransGen.single
            (.state _ .bootstrapping _ (by decide) fun h => by cases h)).trans bootstrapWS_changes
        · have hset : Changes cfg True h (h.setState .connecting "scheduled_reconnect") :=
            .single (.state _ _ _ (by decide) fun h => by cases h)
          exact hset.trans (quiet_changes rfl rfl rfl rfl (fun _ => id) id)

theorem watchdogHandler_changes (now : Int) (gen : Nat) :
    Changes cfg True h (h.watchdogHandler cfg now gen) := by
  rw [watchdogHandler]
  split
  · exact .refl
  · split
    · exact .refl
    · split
      · exact .single (.restart _)
      · exact .refl

end GenericFeedHandler

/-- Whatever the I/O thread runs keeps a feed with brain sinks replicated until it is stopped. -/
theorem ReplicatedOrStopped.step (inv : ReplicatedOrStopped cfg r.handler) (e : RuntimeEvent) :
    ReplicatedOrStopped cfg (r.step cfg e).handler := by
  have hlate : ∀ {h'}, Changes cfg True r.handler h' → (r.handler.running = false → h' = r.handler) →
      ReplicatedOrStopped cfg h' := by
    intro h' changes ignored
    rcases inv with hreplicated | ⟨hstopped, hidle⟩
    · exact Or.inl (changes.invariant (fun _ _ change rep => rep.dataless change.dataless) hreplicated)
    · rw [ignored hstopped]
      exact Or.inr ⟨hstopped, hidle⟩
  cases e with
  | callback event =>
      have hhandler : (r.step cfg (.callback event)).handler = r.handler.step cfg event := by
        cases event <;> rfl
      rw [hhandler]
      exact replicated_step inv event
  | lateReconnect wait =>
      exact hlate (reconnectHandler_changes wait) fun hstopped => reconnectHandler_of_halted hstopped wait
  | lateWatchdog now gen =>
      exact hlate (watchdogHandler_changes now gen) fun hstopped => watchdogHandler_of_halted hstopped now gen
  | heartbeat ec =>
      rw [FeedRuntime.step]
      split <;> exact inv

/-- A replica that has taken up the stream and is given what the file is given. -/
theorem Mirrors.persistable {depth : Nat} {calls : List PubEvent} {replica : OrderBookController}
    (mirrors : Mirrors depth calls replica) {more : List PubEvent} (complete : ∀ e ∈ more, e.Complete) :
    Mirrors depth (calls ++ more) ((persistable more).foldl absorb replica) := by
  induction more generalizing calls replica with
  | nil =>
      rw [List.append_nil]
      exact mirrors
  | cons e more ih =>
      have hmore : ∀ e' ∈ more, e'.Complete := fun e' he' => complete e' (List.mem_cons_of_mem e he')
      rw [List.append_cons, Feed.persistable, List.filter_cons]
      cases hstatus : statusOnly e with
      | true =>
          have hstill : ¬ e.ChangesBook := by
            cases e with
            | status feedState reason => exact id
            | _ => cases hstatus
          exact ih (mirrors.missed hstill) hmore
      | false => exact ih (mirrors.received (complete e (List.mem_cons_self ..))) hmore

end ZidaBot.Feed
