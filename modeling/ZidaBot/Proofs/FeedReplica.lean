/-
Module: ZidaBot.Proofs.FeedReplica
Purpose: The brain's copy of a feed's book.  Callbacks that carry no market data only publish statuses and
  at most reset the controller; the data callbacks are moves.  Both keep the invariant that every replica
  which mirrors the published stream follows the controller, and from it, when the link loses nothing, the
  venue book of a synced feed is the feed's book.
Trusted boundary: none
Main exports: Dataless, LevelsPass, Publication, Replicated, replicated_run,
  brain_replica_equals_pop
-/
import ZidaBot.Proofs.FeedChanges
import ZidaBot.Proofs.Replica

namespace ZidaBot.Feed

open GenericFeedHandler OrderBookController

/-!
### Callbacks without market data

`Dataless` is what these callbacks have in common as seen from the brain. A change to `SYNCED` is left out,
since it comes after data.
-/

/-- A status that does not say `disconnected`. -/
def PubEvent.LiveStatus (e : PubEvent) : Prop :=
  ∃ feedState reason, e = .status feedState reason ∧ feedState ≠ "disconnected"

/-- The change made without market data: statuses are published, the controller is at most reset, and a
    feed that is synced afterwards was synced before, with the same controller. -/
structure Dataless (h h' : GenericFeedHandler) : Prop where
  setup : h'.setup = h.setup
  controller : h'.controller = h.controller ∨ h'.controller = h.controller.resetBook
  published : ∃ statuses, (∀ e ∈ statuses, PubEvent.LiveStatus e) ∧ h'.published = h.published ++ statuses
  synced : h'.state = .synced → h.state = .synced ∧ h'.controller = h.controller

/-- Everything the relation looks at is the same. -/
theorem Dataless.of_same {h h' : GenericFeedHandler} (setup : h'.setup = h.setup)
    (controller : h'.controller = h.controller) (published : h'.published = h.published)
    (state : h'.state = h.state) : Dataless h h' :=
  ⟨setup, Or.inl controller, ⟨[], fun _ hnone => absurd hnone List.not_mem_nil, by simpa using published⟩,
    fun hsynced => ⟨state ▸ hsynced, controller⟩⟩

theorem Dataless.refl (h : GenericFeedHandler) : Dataless h h := .of_same rfl rfl rfl rfl

theorem liveStatus_of_statusOnly {next : FeedSyncState} (up : next ≠ .disconnected)
    {statuses : List PubEvent} (only : StatusOnly next statuses) :
    ∀ e ∈ statuses, PubEvent.LiveStatus e := by
  intro e he
  obtain ⟨reason, rfl⟩ := only e he
  refine ⟨next.feedState, reason, rfl, ?_⟩
  cases next <;> first | exact absurd rfl up | simp [FeedSyncState.feedState]

namespace GenericFeedHandler

variable {cfg : HandlerConfig} {h : GenericFeedHandler} {now : Int}

theorem setState_dataless {next : FeedSyncState} (up : next ≠ .disconnected) (unsynced : next ≠ .synced)
    (reason : String) : Dataless h (h.setState next reason) := by
  obtain ⟨delay, statuses, honly, hsame⟩ := setState_eq h next reason
  rw [hsame]
  exact ⟨rfl, Or.inl rfl, ⟨statuses, liveStatus_of_statusOnly up honly, rfl⟩,
    fun hsynced => absurd hsynced unsynced⟩

theorem restartSync_dataless : Dataless h h.restartSync := by
  cases hrunning : h.running with
  | false =>
      rw [restartSync_of_not_running h hrunning]
      exact .refl h
  | true =>
      obtain ⟨gen, flag, delay, statuses, honly, hsame⟩ := restartSync_eq h hrunning
      rw [hsame]
      exact ⟨rfl, Or.inr rfl, ⟨statuses, liveStatus_of_statusOnly (by decide) honly, rfl⟩, nofun⟩

end GenericFeedHandler

theorem Change.dataless {cfg : HandlerConfig} {retried : Prop} {h h' : GenericFeedHandler}
    (change : Change cfg retried h h') : Dataless h h' := by
  cases change with
  | quiet _ setup controller published state => exact .of_same setup controller published state
  | state next reason idle => exact setState_dataless idle.1 idle.2.2 reason
  | request => exact .of_same rfl rfl rfl rfl
  | restart => exact restartSync_dataless

/-!
### The invariant

The invariant of `Publication` is about a controller and a stream, and each way of publishing keeps it.
`Replicated` adds the handler that does the publishing.
-/

variable {cfg : HandlerConfig} {h h' : GenericFeedHandler}

/-- Every level of the published snapshots and incrementals passes the checks of `parse_level`. -/
def LevelsPass (published : List PubEvent) : Prop := ∀ e ∈ published, e.ChangesBook → e.Acceptable

instance : DecidablePred LevelsPass :=
  fun published => inferInstanceAs (Decidable (∀ e ∈ published, e.ChangesBook → e.Acceptable))

theorem LevelsPass.init {published : List PubEvent} {e : PubEvent} (pass : LevelsPass (published ++ [e])) :
    LevelsPass published :=
  fun e' he' => pass e' (List.mem_append_left _ he')

theorem LevelsPass.last {published : List PubEvent} {e : PubEvent} (pass : LevelsPass (published ++ [e]))
    (changes : e.ChangesBook) : e.Acceptable :=
  pass e (List.mem_append_right _ (List.mem_singleton_self e)) changes

/-- Checkpoints are off, or show the whole depth. -/
def FullCheckpoints (cfg : HandlerConfig) : Prop :=
  cfg.persistBookEveryUpdates = 0 ∨ cfg.depth ≤ cfg.bookTop

instance (cfg : HandlerConfig) : Decidable (FullCheckpoints cfg) := inferInstanceAs (Decidable (_ ∨ _))

/-- A controller and what was published of it: the brain can read it all if it can read the snapshots and
    the incrementals, and every replica that mirrors it follows the controller. -/
structure Publication (cfg : HandlerConfig) (c : OrderBookController) (published : List PubEvent) :
    Prop where
  depth : c.book.depth = cfg.depth
  inv : c.Inv
  levels : LevelsPass published → c.book.Acceptable
  acceptable : LevelsPass published → ∀ e ∈ published, e.Acceptable
  complete : FullCheckpoints cfg → ∀ e ∈ published, e.Complete
  tracks : Tracks cfg.controllerConfig cfg.depth c published
  begun : c.state ≠ .waitingSnapshot → ∃ e ∈ published, e.Baseline

namespace Publication

variable {c : OrderBookController} {published : List PubEvent}

theorem new (cfg : HandlerConfig) :
    Publication cfg (OrderBookController.new cfg.depth cfg.depth_pos) [] :=
  ⟨rfl, inv_new cfg.depth cfg.depth_pos,
    fun _ => OrderBook.acceptable_clear (OrderBook.empty cfg.depth cfg.depth_pos),
    fun _ _ hnone => absurd hnone List.not_mem_nil, fun _ _ hnone => absurd hnone List.not_mem_nil,
    Tracks.reset (OrderBookController.new cfg.depth cfg.depth_pos) [], fun baseline => absurd rfl baseline⟩

theorem reset (pub : Publication cfg c published) : Publication cfg c.resetBook published :=
  ⟨pub.depth, inv_resetBook c, fun _ => OrderBook.acceptable_clear c.book, pub.acceptable, pub.complete,
    Tracks.reset c published, fun baseline => absurd rfl baseline⟩

/-- A property of all events, and one more event. -/
theorem all_append {property : PubEvent → Prop} (holds : ∀ e ∈ published, property e) {e : PubEvent}
    (last : property e) : ∀ e' ∈ published ++ [e], property e' := by
  intro e' he'
  rcases List.mem_append.mp he' with hold | hnew
  · exact holds e' hold
  · exact List.mem_singleton.mp hnew ▸ last

theorem begun_append (pub : Publication cfg c published) (baseline : c.state ≠ .waitingSnapshot)
    (e : PubEvent) : ∃ e' ∈ published ++ [e], e'.Baseline := by
  obtain ⟨base, hmember, hbase⟩ := pub.begun baseline
  exact ⟨base, List.mem_append_left _ hmember, hbase⟩

theorem status (pub : Publication cfg c published) {e : PubEvent} (live : e.LiveStatus) :
    Publication cfg c (published ++ [e]) := by
  obtain ⟨feedState, reason, rfl, hup⟩ := live
  exact ⟨pub.depth, pub.inv, fun pass => pub.levels pass.init,
    fun pass => all_append (pub.acceptable pass.init) trivial,
    fun hfull => all_append (pub.complete hfull) trivial, pub.tracks.status hup reason,
    fun baseline => pub.begun_append baseline _⟩

theorem statuses (pub : Publication cfg c published) {statuses : List PubEvent}
    (live : ∀ e ∈ statuses, PubEvent.LiveStatus e) : Publication cfg c (published ++ statuses) := by
  induction statuses generalizing published with
  | nil =>
      rw [List.append_nil]
      exact pub
  | cons e statuses ih =>
      rw [List.append_cons]
      apply ih (pub.status (live e (List.mem_cons_self ..)))
      exact fun e' he' => live e' (List.mem_cons_of_mem _ he')

/-- A snapshot is published and handed to the controller. -/
theorem snapshot (pub : Publication cfg c published) (snap : GenericSnapshotFormat) (kind : BaselineKind)
    (source : String) :
    Publication cfg (c.onSnapshot cfg.controllerConfig snap kind).1
      (published ++ [.snapshot snap source]) := by
  refine ⟨(depth_onSnapshot _ c snap kind).trans pub.depth, pub.inv.onSnapshot snap kind, fun pass => ?_,
    fun pass => all_append (pub.acceptable pass.init) (pass.last trivial),
    fun hfull => all_append (pub.complete hfull) trivial,
    Tracks.snapshot pub.depth snap kind source,
    fun _ => ⟨.snapshot snap source, List.mem_append_right _ (List.mem_singleton_self _), trivial⟩⟩
  rcases onSnapshot_cases cfg.controllerConfig c snap kind with ⟨hrefused, -⟩ | hloaded
  · rw [hrefused]
    exact OrderBook.acceptable_clear c.book
  · have hsnap : AllAcceptable snap.bids snap.asks := pass.last trivial
    rw [hloaded]
    exact acceptable_loadSnapshot c.book hsnap

/-- An increment is handed to the controller and published. -/
theorem increment (pub : Publication cfg c published) (inc : GenericIncrementalFormat) (source : String) :
    Publication cfg (c.onIncrement cfg.controllerConfig inc).1
      (published ++ [.incremental inc source]) := by
  refine ⟨(depth_onIncrement _ c inc).trans pub.depth, pub.inv.onIncrement inc, fun pass => ?_,
    fun pass => all_append (pub.acceptable pass.init) (pass.last trivial),
    fun hfull => all_append (pub.complete hfull) trivial,
    pub.tracks.increment inc source, fun baseline => pub.begun_append ?_ _⟩
  · have hinc : AllAcceptable inc.bids inc.asks := pass.last trivial
    have hcase := onIncrement_cases cfg.controllerConfig c inc
    generalize c.onIncrement cfg.controllerConfig inc = outcome at hcase
    cases hcase with
    | skipped reason => exact pub.levels pass.init
    | resynced reason counter => exact OrderBook.acceptable_clear c.book
    | applied counter => exact acceptable_applyIncrementUpdate (pub.levels pass.init) hinc
  · intro hwaiting
    rw [onIncrement_skipped (Or.inl hwaiting)] at baseline
    exact baseline hwaiting

/-- The book is published as a checkpoint, which shows only levels that were published before. -/
theorem bookState (pub : Publication cfg c published) (enabled : cfg.persistBookEveryUpdates ≠ 0)
    (source : String) (tsBookNs : Int) :
    Publication cfg c
      (published ++ [.bookState c.book c.getAppliedSeqID cfg.bookTop source tsBookNs]) := by
  have hlevels : LevelsPass published → ∀ s, ∀ level ∈ bookStateLevels c.book cfg.bookTop s,
      level.Acceptable := by
    intro pass s level hlevel
    rw [bookStateLevels, pointedLevels_eq pub.inv.valid] at hlevel
    exact pub.levels pass s level (List.mem_of_mem_drop (List.mem_of_mem_take hlevel))
  refine ⟨pub.depth, pub.inv, fun pass => pub.levels pass.init,
    fun pass => all_append (pub.acceptable pass.init) ⟨hlevels pass.init .bid, hlevels pass.init .ask⟩,
    fun hfull => all_append (pub.complete hfull) fun s => ?_,
    pub.tracks.bookState pub.inv pub.depth cfg.bookTop source tsBookNs,
    fun baseline => pub.begun_append baseline _⟩
  calc (c.book.side s).length ≤ c.book.depth := (pub.inv.valid s).length_le
    _ = cfg.depth := pub.depth
    _ ≤ cfg.bookTop := hfull.resolve_left enabled

end Publication

/-- A running feed with its brain sinks; a synced one has a baseline. -/
structure Replicated (cfg : HandlerConfig) (h : GenericFeedHandler) : Prop where
  setup : h.setup = (true, true, true, cfg.bookTop, cfg.persistBookEveryUpdates)
  publication : Publication cfg h.controller h.published
  synced : h.state = .synced → h.controller.state ≠ .waitingSnapshot

namespace Replicated

theorem up (rep : Replicated cfg h) : Publishing h := by
  have hsetup := rep.setup
  simp only [GenericFeedHandler.setup, Prod.mk.injEq] at hsetup
  exact ⟨hsetup.1, hsetup.2.1, hsetup.2.2.1⟩

theorem dataless (rep : Replicated cfg h) (change : Dataless h h') : Replicated cfg h' := by
  obtain ⟨statuses, hlive, hpublished⟩ := change.published
  refine ⟨change.setup.trans rep.setup, ?_, ?_⟩
  · rw [hpublished]
    rcases change.controller with hsame | hreset
    · rw [hsame]
      exact rep.publication.statuses hlive
    · rw [hreset]
      exact rep.publication.reset.statuses hlive
  · intro hstate
    obtain ⟨hbefore, hsame⟩ := change.synced hstate
    rw [hsame]
    exact rep.synced hbefore

/-- A restart needs the publication only. -/
theorem restart (setup : h.setup = (true, true, true, cfg.bookTop, cfg.persistBookEveryUpdates))
    (publication : Publication cfg h.controller h.published) : Replicated cfg h.restartSync := by
  have hrunning : h.running = true := congrArg Prod.fst setup
  obtain ⟨gen, flag, delay, statuses, honly, hsame⟩ := restartSync_eq h hrunning
  rw [hsame]
  exact ⟨setup, publication.reset.statuses (liveStatus_of_statusOnly (by decide) honly), nofun⟩

theorem applySnapshot_eq (rep : Replicated cfg h) (snap : GenericSnapshotFormat) (kind : BaselineKind)
    (source : String) (session : Nat) :
    (h.applySnapshot cfg snap kind source session).1 = { h with
      published := h.published ++ [.snapshot snap source]
      persisted := (h.write (.snapshot snap source)).persisted
      controller := (h.controller.onSnapshot cfg.controllerConfig snap kind).1
      history := { h.history with baseline := some session } } := by
  rw [applySnapshot, rep.up.persist_eq]

theorem applyIncrement_eq (rep : Replicated cfg h) (inc : GenericIncrementalFormat) (session : Nat) :
    ∃ persisted history, (h.applyIncrement cfg inc session).1 = { h with
      published := h.published ++ [.incremental inc "ws_incremental"], persisted := persisted
      controller := (h.controller.onIncrement cfg.controllerConfig inc).1, history := history } := by
  have hpublished : (h.applyIncrement cfg inc session).1.published = _ :=
    rep.up.applyIncrement_published inc session
  obtain ⟨published, persisted, history, hsame⟩ := GenericFeedHandler.applyIncrement_eq h cfg inc session
  rw [hsame] at hpublished
  have hsent : published = h.published ++ [.incremental inc "ws_incremental"] := hpublished
  exact ⟨persisted, history, by rw [hsame, hsent]⟩

/-- A controller that has accepted a snapshot has a baseline. -/
theorem baseline_of_snapshot {snap : GenericSnapshotFormat} {kind : BaselineKind} {source : String}
    {session : Nat} (accepted : (h.applySnapshot cfg snap kind source session).2 = false) :
    (h.applySnapshot cfg snap kind source session).1.controller.state ≠ .waitingSnapshot := by
  rw [applySnapshot_accepted accepted]
  cases kind <;> nofun

/-- A controller that had a baseline and has accepted an increment has one. -/
theorem baseline_of_increment {inc : GenericIncrementalFormat} {session : Nat}
    (accepted : (h.applyIncrement cfg inc session).2 = false)
    (before : h.controller.state ≠ .waitingSnapshot) :
    (h.applyIncrement cfg inc session).1.controller.state ≠ .waitingSnapshot := by
  rcases applyIncrement_accepted accepted with hskipped | hsynced
  · rwa [hskipped]
  · intro hwaiting
    simp [isSynced, hwaiting] at hsynced

theorem move (rep : Replicated cfg h) {Base Frame : GenericFeedHandler → Nat → Prop}
    (step : Move cfg Base Frame h h') : Replicated cfg h' := by
  have hsetup := rep.setup
  simp only [GenericFeedHandler.setup, Prod.mk.injEq] at hsetup
  obtain ⟨-, -, -, htop, hevery⟩ := hsetup
  cases step with
  | quiet => exact ⟨rep.setup, rep.publication, rep.synced⟩
  | rebuffer => exact ⟨rep.setup, rep.publication, rep.synced⟩
  | store => exact ⟨rep.setup, rep.publication, rep.synced⟩
  | state next reason live =>
      obtain ⟨delay, statuses, honly, hsame⟩ := setState_eq h next reason
      have hup : next ≠ .disconnected := by
        rintro rfl
        simp at live
      rw [hsame]
      refine ⟨rep.setup, rep.publication.statuses (liveStatus_of_statusOnly hup honly), ?_⟩
      intro hstate hwaiting
      rcases live with rfl | ⟨-, hsynced⟩
      · cases hstate
      · simp [isSynced, show h.controller.state = .waitingSnapshot from hwaiting] at hsynced
  | bridge => exact ⟨rep.setup, rep.publication, fun h => (by cases h)⟩
  | bookState source now enabled synced =>
      rw [rep.up.persist_eq, htop]
      exact ⟨htop ▸ rep.setup, rep.publication.bookState (hevery ▸ enabled) source now, rep.synced⟩
  | snapshot snap kind source session origin base accepted =>
      have hbaseline := baseline_of_snapshot accepted
      rw [rep.applySnapshot_eq] at hbaseline ⊢
      exact ⟨rep.setup, rep.publication.snapshot snap kind source, fun _ => hbaseline⟩
  | increment inc session origin frame accepted =>
      have hbaseline := baseline_of_increment accepted
      obtain ⟨persisted, history, hsame⟩ := rep.applyIncrement_eq inc session
      rw [hsame] at hbaseline ⊢
      exact ⟨rep.setup, rep.publication.increment inc _, fun hstate => hbaseline (rep.synced hstate)⟩
  | restart => exact restart rep.setup rep.publication
  | rejectSnapshot snap kind source session origin resync =>
      apply restart
      · rw [rep.applySnapshot_eq]
        exact rep.setup
      · rw [rep.applySnapshot_eq]
        exact rep.publication.snapshot snap kind source
  | rejectIncrement inc session origin frame resync =>
      obtain ⟨persisted, history, hsame⟩ := rep.applyIncrement_eq inc session
      apply restart
      · rw [hsame]
        exact rep.setup
      · rw [hsame]
        exact rep.publication.increment inc _

end Replicated

/-!
### Whole runs

A run publishes a stream and moves a controller. The invariant holds up to `stop`, after which nothing is
published.
-/

/-- Replicated until it is stopped. -/
def ReplicatedOrStopped (cfg : HandlerConfig) (h : GenericFeedHandler) : Prop :=
  Replicated cfg h ∨ (h.running = false ∧ h.state = .disconnected)

theorem replicated_step (inv : ReplicatedOrStopped cfg h) (e : FeedEvent) :
    ReplicatedOrStopped cfg (h.step cfg e) := by
  rcases inv with rep | ⟨hstopped, hidle⟩
  · rcases e.stop_or_going with ⟨tlsUp, rfl⟩ | hgoing
    · obtain ⟨hrunning, hstate, -⟩ := stop_spec tlsUp
      exact Or.inr ⟨hrunning, hstate⟩
    · exact Or.inl (step_invariant (fun _ _ _ change rep => rep.dataless change.dataless)
        (fun _ _ move rep => rep.move move) rep hgoing)
  · obtain ⟨hrunning, hstate, -⟩ := step_of_stopped hstopped hidle e
    exact Or.inr ⟨hrunning.trans hstopped, hstate.trans hidle⟩

/-- A feed that is started with a brain to publish to. -/
theorem replicated_started (brain : cfg.brainConfigured = true) : Replicated cfg (started cfg) := by
  have hstart : Replicated cfg
      { init cfg with running := true, state := .connecting, sinksRunning := (init cfg).brainSinks } :=
    ⟨by simp [init, GenericFeedHandler.setup, brain], Publication.new cfg, nofun⟩
  exact (started_changes cfg).invariant (fun _ _ change rep => rep.dataless change.dataless) hstart

theorem replicated_run (brain : cfg.brainConfigured = true) (events : List FeedEvent) :
    ReplicatedOrStopped cfg (Runs.run (step cfg) (started cfg) events) := by
  have hstarted : ReplicatedOrStopped cfg (started cfg) := Or.inl (replicated_started brain)
  have hstep : ∀ h e, ReplicatedOrStopped cfg h → ReplicatedOrStopped cfg (step cfg h e) :=
    fun _ e inv => replicated_step inv e
  exact Runs.invariant_run hstep hstarted events

/-- A feed in `SYNCED` is replicated. -/
theorem replicated_of_synced (brain : cfg.brainConfigured = true) {events : List FeedEvent}
    (synced : (Runs.run (step cfg) (started cfg) events).state = .synced) :
    Replicated cfg (Runs.run (step cfg) (started cfg) events) := by
  rcases replicated_run brain events with hrep | ⟨-, hidle⟩
  · exact hrep
  · rw [hidle] at synced
    cases synced

/-- A lossless link.  Whenever a feed without checksum function is in `SYNCED` and the brain has processed
    every event published so far, in between anything that other feeds sent, the feed has a venue book, and
    its bids, asks and sequence number are those of the feed's controller. -/
theorem brain_replica_equals_pop (cfg : HandlerConfig) (venue : VenueId) (symbol : String)
    (brain : cfg.brainConfigured = true)
    (noChecksum : cfg.adapter.caps.checksumFn = none) (checkpoints : FullCheckpoints cfg)
    (events : List FeedEvent) (input : List (Int × Json))
    (delivered : Carries venue symbol (Runs.run (step cfg) (started cfg) events).published input)
    (pass : LevelsPass (Runs.run (step cfg) (started cfg) events).published)
    (synced : (Runs.run (step cfg) (started cfg) events).state = .synced) :
    let h := Runs.run (step cfg) (started cfg) events
    let books := Runs.run Brain.UnifiedBook.step (Brain.UnifiedBook.new cfg.depth cfg.depth_pos) input
    (∃ vb ∈ books.venues, vb.key = (venue.name, symbol)) ∧
      ∀ vb ∈ books.venues, vb.key = (venue.name, symbol) →
        vb.book.bids = h.controller.book.bids ∧ vb.book.asks = h.controller.book.asks ∧
          vb.controller.getAppliedSeqID = h.controller.getAppliedSeqID := by
  intro h books
  have hrep : Replicated cfg h := replicated_of_synced brain synced
  have pub := hrep.publication
  have hbaseline := hrep.synced synced
  have hbegun := pub.begun hbaseline
  refine ⟨?_, fun vb hmember hkey => ?_⟩
  · obtain ⟨e, hpublished, -⟩ := hbegun
    have hkeys : (venue.name, symbol) ∈ books.keys :=
      delivered.mem_keys _ (Or.inl (List.ne_nil_of_mem hpublished))
    exact List.mem_map.mp hkeys
  · have hcontroller := venueBook_controller delivered (pub.acceptable pass) cfg.depth_pos hmember hkey
    have hmirrors : Mirrors cfg.depth h.published vb.controller := by
      rw [hcontroller]
      exact mirrors_foldl rfl (pub.complete checkpoints) hbegun
    have hfollows := pub.tracks hbaseline vb.controller hmirrors
    have hagree := hfollows.agree (hfollows.synced noChecksum)
    rw [Brain.VenueBook.book, hagree.book]
    exact ⟨rfl, rfl, hagree.lastSeq⟩

/-- A Binance feed of two levels, with checkpoints of `top` levels after every `every` updates. -/
def twoLevelFeed (every top : Nat) : HandlerConfig :=
  { adapter := .ofTraffic VenueId.binance.caps "/api/v3/depth?symbol=BTCUSDT&limit=2"
      [("snapshot", {
        lastUpdateId := 100, tsRecvNs := 0, checksum := 0
        bids := [⟨300, 1, "3.00", "0.001"⟩], asks := [⟨400, 1, "4.00", "0.001"⟩] })]
      [("depthUpdate 101", {
          firstSeq := 99, lastSeq := 101, prevLast := 0, tsRecvNs := 0, checksum := 0
          bids := [⟨301, 1, "3.01", "0.001"⟩], asks := [] }),
        ("depthUpdate 102", {
          firstSeq := 102, lastSeq := 102, prevLast := 0, tsRecvNs := 0, checksum := 0
          bids := [], asks := [⟨399, 1, "3.99", "0.001"⟩] }),
        ("depthUpdate 103", {
          firstSeq := 103, lastSeq := 103, prevLast := 0, tsRecvNs := 0, checksum := 0
          bids := [⟨302, 1, "3.02", "0.001"⟩], asks := [] })]
    depth := 2, depth_pos := by decide
    persistBookEveryUpdates := every, persistBookTop := top }

/-- A frame that waits for the snapshot and overlaps it, the snapshot, and a frame after the bridge; every
    update is followed by a checkpoint. -/
def checkpointedRun : List FeedEvent :=
  [.wsOpen 1, .wsMessage 2 "depthUpdate 101", .restDone 3 (.response 200 true true "snapshot"),
    .wsMessage 4 "depthUpdate 102"]

theorem brain_replica_equals_pop_binance :
    let h := Runs.run (step (twoLevelFeed 1 2)) (started (twoLevelFeed 1 2)) checkpointedRun
    let books := Runs.run Brain.UnifiedBook.step (Brain.UnifiedBook.new 2 (by decide))
      (h.published.map fun e =>
        (5, e.toJson ⟨"binance", "btcusdt@depth@100ms", 1, 5⟩))
    h.state = .synced ∧ h.controller.getAppliedSeqID = 102 ∧
      ∀ vb ∈ books.venues, vb.key = ("binance", "btcusdt@depth@100ms") →
        vb.book.bids = h.controller.book.bids ∧ vb.book.asks = h.controller.book.asks ∧
          vb.controller.getAppliedSeqID = 102 := by
  intro h books
  have hsynced : h.state = .synced := by decide
  have hseq : h.controller.getAppliedSeqID = 102 := by decide
  have hequal := brain_replica_equals_pop (twoLevelFeed 1 2) .binance "btcusdt@depth@100ms" rfl rfl
    (by decide) checkpointedRun _ (carries_frames _ _ h.published 1 5 5) (by decide) hsynced
  exact ⟨hsynced, hseq, hseq ▸ hequal.2⟩

end ZidaBot.Feed
