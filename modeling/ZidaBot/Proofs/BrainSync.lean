/-
Module: ZidaBot.Proofs.BrainSync
Purpose: When the brain may trust a feed.  In every run without a callback that misleads the brain, a venue
  book that the brain counts as synced belongs to a synced controller; and after a state that can be
  trusted each such callback does mislead it.
Trusted boundary: none
Main exports: Trusted, Trusted.step, Trusted.misled_step, trusted_step, brain_synced_implies_pop_synced
-/
import ZidaBot.Proofs.FeedTrust

namespace ZidaBot.Feed

open GenericFeedHandler OrderBookController

variable {cfg : HandlerConfig} {retried : Prop} {h h' : GenericFeedHandler} {now : Int}

/-!
### Whole runs

The invariants of the statuses, of the request and of the trust are carried together. That the condition
cannot be made weaker is shown step by step: each callback it excludes, after a trusted state, ends with
data of a feed that is not synced.
-/

/-- A running feed whose last word can be trusted. -/
structure Trusted (cfg : HandlerConfig) (h : GenericFeedHandler) : Prop where
  up : Publishing h
  requests : RequestInv cfg h
  told : Told cfg h

theorem Change.trusted (change : Change cfg retried h h') (fresh : ¬ retried) (trusted : Trusted cfg h) :
    Trusted cfg h' :=
  ⟨change.publishing trusted.up, change.requestInv fresh trusted.requests,
    change.told trusted.up trusted.told⟩

/-- A frame that arrives while a snapshot request is in flight is at most buffered. -/
theorem RequestInv.onWSMessage (inv : RequestInv cfg h) (msg : String) :
    RequestInv cfg (h.onWSMessage cfg now msg) := by
  by_cases hasked : ∃ session, h.rest = some (.get session)
  · obtain ⟨session, hasked⟩ := hasked
    obtain ⟨hanchored, hidle⟩ := inv.asked session hasked
    by_cases hskip : h.running = true ∧ msg ≠ ""
    · obtain ⟨received, gen, timer, rfl, heq⟩ := onWSMessage_eq cfg now hskip.1 hskip.2
      have hreceived : RequestInv cfg
          { h with watchdogGen := gen, watchdogTimer := timer, lastWsMessageNs := now } :=
        ⟨inv.timer, inv.mode, inv.asked⟩
      rw [heq]
      split
      · rw [onMessageWaitRest]
        split
        · rw [bufferFrame]
          split
          · exact ⟨inv.timer, inv.mode, inv.asked⟩
          · exact hreceived.restartSync
        · exact hreceived
      · rename_i hstate
        rw [inv.mode hstate] at hanchored
        cases hanchored
      · rename_i hstate
        exact absurd (Or.inl hstate) hidle
      · rename_i hstate
        exact absurd (Or.inr hstate) hidle
      · exact hreceived
      · exact hreceived
      · exact hreceived
    · rw [GenericFeedHandler.onWSMessage, if_pos (by simpa [imp_iff_not_or] using hskip)]
      exact inv
  · exact inv.moves (onWSMessage_any cfg now msg h) fun session hrest => hasked ⟨session, hrest⟩

/-- A callback that does not mislead. -/
theorem Trusted.step (trusted : Trusted cfg h) {e : FeedEvent} (going : ∀ tlsUp, e ≠ .stop tlsUp)
    (honest : misleads cfg h e = false) : Trusted cfg (h.step cfg e) := by
  obtain ⟨up, requests, told⟩ := trusted
  have hcase := step_cases cfg h e
  generalize h.step cfg e = after at hcase
  cases hcase with
  | stopped tlsUp => exact absurd rfl (going tlsUp)
  | changed _ _ changes =>
      exact changes.invariant (fun _ _ change => change.trusted requests.timer) ⟨up, requests, told⟩
  | frame now msg opened =>
      exact ⟨up.of_fixedPart (onWSMessage_any cfg now msg h).fixedPart, requests.onWSMessage msg,
        onWSMessage_told told up opened honest⟩
  | response now outcome session asked =>
      have hmoves := onSnapshotDone_any cfg now session outcome { h with rest := none }
      have hup : Publishing { h with rest := none } := up.of_setup rfl
      have hrequests : RequestInv cfg { h with rest := none } := ⟨requests.timer, requests.mode, nofun⟩
      exact ⟨hup.of_fixedPart hmoves.fixedPart, hrequests.moves hmoves nofun,
        requests.response_told told up asked honest⟩

/-- Data is the last word of a feed that is not synced. -/
def Misled (h : GenericFeedHandler) : Prop :=
  endsWithData h.published = true ∧ h.controller.isSynced = false

theorem onlyOutdated_iff {expected : UInt64} {msgs : List BufferedMsg} :
    onlyOutdated cfg expected msgs = true ↔
      (handed cfg msgs).isEmpty = false ∧ ∀ inc ∈ handed cfg msgs, outdated expected inc = true := by
  simp [onlyOutdated]

/-- A drain that hands on outdated increments only. -/
theorem Bridging.drainThenSync_misled {expected : UInt64} {reason : String} (bridging : Bridging expected h)
    (outdated : onlyOutdated cfg expected h.buffer = true) :
    Misled (h.drainThenSync cfg now reason) := by
  obtain ⟨hsome, honly⟩ := onlyOutdated_iff.mp outdated
  obtain ⟨hdrained, hends⟩ : Bridging expected (h.drainBufferedIncrementals cfg now).1 ∧
      endsWithData (h.drainBufferedIncrementals cfg now).1.published =
        (endsWithData h.published || !(handed cfg h.buffer).isEmpty) :=
    bridging.drainLoop_outdated h.buffer honly
  have hunsynced : (h.drainBufferedIncrementals cfg now).1.controller.isSynced = false := by
    simp [isSynced, hdrained.waiting]
  have hmisled : Misled (h.drainBufferedIncrementals cfg now).1 := ⟨by simp [hends, hsome], hunsynced⟩
  rw [drainThenSync]
  dsimp only
  split
  · exact hmisled
  · rw [if_neg (by simp [hunsynced])]
    exact hmisled

/-- A restart while connecting is not told. -/
theorem restartSync_misled (up : Publishing h) (connecting : h.state = .connecting)
    (data : endsWithData h.published = true) : Misled h.restartSync := by
  have hpublished := up.restartSync_published
  rw [if_pos connecting] at hpublished
  obtain ⟨gen, flag, delay, statuses, -, hsame⟩ := restartSync_eq h up.running
  exact ⟨by rw [hpublished, data], by rw [hsame]; rfl⟩

/-- A frame in `WAIT_BRIDGE` that is buffered and drained. -/
theorem onMessageBridge_misled (up : Publishing h) (state : h.state = .waitBridge)
    (waiting : h.controller.state = .waitingBridge) {msg : String}
    (incremental : cfg.adapter.isIncremental msg = true) (room : h.buffer.length < cfg.maxBuffer)
    (outdated : onlyOutdated cfg h.controller.expectedSeq
      (h.buffer ++ [{ payload := msg, recvTsNs := now, session := h.history.opened }]) = true) :
    Misled (h.onMessageBridge cfg now msg) := by
  rw [onMessageBridge, if_pos incremental, bufferFrame, if_pos room]
  dsimp only
  have hbridging : Bridging h.controller.expectedSeq { h with buffer := h.buffer ++
      [{ payload := msg, recvTsNs := now, session := h.history.opened }] } :=
    ⟨up.of_setup rfl, state, waiting, rfl⟩
  exact hbridging.drainThenSync_misled outdated

theorem onMessageLive_misled (told : Told cfg h) (up : Publishing h) {msg : String}
    (bridges : bridgingFrame cfg h msg = true)
    (outdated : onlyOutdated cfg h.controller.expectedSeq
      (h.buffer ++ [{ payload := msg, recvTsNs := now, session := h.history.opened }]) = true) :
    Misled (h.onMessageLive cfg now msg) := by
  simp only [bridgingFrame, Bool.and_eq_true, beq_iff_eq, decide_eq_true_eq] at bridges
  obtain ⟨⟨⟨⟨⟨-, hstate⟩, hwaiting⟩, hhook⟩, hincremental⟩, hroom⟩ := bridges
  have hanchored : cfg.adapter.caps.syncMode = .restAnchored := by
    cases told with
    | following live synced => simp [isSynced, hwaiting] at synced
    | bridging anchored => exact anchored
    | idle idle => exact absurd (Or.inl hstate) idle
  rw [onMessageLive]
  cases hsnapshot : (if cfg.adapter.caps.wsSendsSnapshot then wsSnapshotOf cfg msg else .rejected) with
  | threw => simp [hsnapshot] at hhook
  | accepted snap => simp [hsnapshot] at hhook
  | rejected =>
      dsimp only
      rw [if_pos ⟨hanchored, hstate⟩]
      exact onMessageBridge_misled up hstate hwaiting hincremental hroom outdated

/-- The condition is not too strong: after a trusted state, each of the callbacks it leaves out does end
    with data as the last word of a feed that is not synced. -/
theorem Trusted.misled_step (trusted : Trusted cfg h) {e : FeedEvent} (misled : misleads cfg h e = true) :
    Misled (h.step cfg e) := by
  obtain ⟨up, requests, told⟩ := trusted
  cases e with
  | stop tlsUp =>
      obtain ⟨-, -, hpublished, -⟩ := stop_spec (h := h) tlsUp
      refine ⟨?_, rfl⟩
      rw [GenericFeedHandler.step, hpublished]
      exact misled
  | wsMessage now msg =>
      rw [misleads, Bool.and_eq_true] at misled
      obtain ⟨hbridges, houtdated⟩ := misled
      have hframe := hbridges
      simp only [bridgingFrame, Bool.and_eq_true, bne_iff_ne, beq_iff_eq] at hframe
      obtain ⟨⟨⟨⟨⟨⟨hopened, hnonempty⟩, hstate⟩, -⟩, -⟩, -⟩, -⟩ := hframe
      obtain ⟨received, gen, timer, hreceived, heq⟩ := onWSMessage_eq cfg now up.running hnonempty
      have htold : Told cfg { h with
          watchdogGen := gen, watchdogTimer := timer, lastWsMessageNs := now } :=
        told.congr rfl rfl rfl
      have hup : Publishing { h with
          watchdogGen := gen, watchdogTimer := timer, lastWsMessageNs := now } := up.of_setup rfl
      have hmisled : Misled (received.onMessageLive cfg now msg) := by
        rw [hreceived]
        exact onMessageLive_misled htold hup hbridges houtdated
      rw [GenericFeedHandler.step, if_pos hopened, heq, hstate]
      exact hmisled
  | restDone now outcome =>
      rw [misleads] at misled
      split at misled
      · rename_i session snap hasked hok hparsed
        obtain ⟨hanchored, hidle⟩ := requests.asked session hasked
        have hup : Publishing { h with rest := none } := up.of_setup rfl
        rw [GenericFeedHandler.step, restDone, hasked]
        dsimp only
        rw [onSnapshotDone_of_parsed hup.running hok hparsed, responseLoaded_resync]
        split at misled
        · rename_i hrefused
          rw [if_pos hrefused]
          apply restartSync_misled (hup.applySnapshot ..)
          · rw [applySnapshot_state]
            simpa using misled
          · rw [hup.applySnapshot_published]
            simp [endsWithData, PubEvent.statusOf]
        · rename_i hloaded
          rw [if_neg hloaded]
          have haccepted : ({ h with rest := none }.responseLoaded cfg now session snap).2 = false := by
            rw [responseLoaded_resync]
            simpa using hloaded
          obtain ⟨waiting, hsame, hbridging, hbuffer, -⟩ := bridging_of_response hup hanchored haccepted
          rw [hsame]
          apply hbridging.drainThenSync_misled
          rwa [hbuffer]
      · cases misled
  | _ => cases misled

/-- Trusted, or stopped without data as the last word. -/
def TrustedOrStopped (cfg : HandlerConfig) (h : GenericFeedHandler) : Prop :=
  Trusted cfg h ∨
    (h.running = false ∧ h.state = .disconnected ∧ endsWithData h.published = false)

theorem trusted_step (h : GenericFeedHandler) (e : FeedEvent) (inv : TrustedOrStopped cfg h)
    (honest : misleads cfg h e = false) : TrustedOrStopped cfg (h.step cfg e) := by
  rcases inv with trusted | ⟨hstopped, hidle, hsilent⟩
  · rcases e.stop_or_going with ⟨tlsUp, rfl⟩ | hgoing
    · obtain ⟨hrunning, hstate, hpublished, -⟩ := stop_spec (h := h) tlsUp
      refine Or.inr ⟨hrunning, hstate, ?_⟩
      rw [GenericFeedHandler.step, hpublished]
      exact honest
    · exact Or.inl (trusted.step hgoing honest)
  · obtain ⟨hrunning, hstate, hpublished, -⟩ :=
      step_of_stopped (h := h) hstopped hidle e
    exact Or.inr ⟨hrunning.trans hstopped, hstate.trans hidle, by rwa [hpublished]⟩

theorem trusted_started (brain : cfg.brainConfigured = true) : Trusted cfg (started cfg) := by
  have hstart : Trusted cfg
      { init cfg with running := true, state := .connecting, sinksRunning := (init cfg).brainSinks } := by
    refine ⟨⟨rfl, brain, brain⟩, ⟨nofun, nofun, nofun⟩, .idle ?_ rfl⟩
    rintro (hstate | hstate) <;> cases hstate
  exact (started_changes cfg).invariant (fun _ _ change => change.trusted id) hstart

/-- Where data was the last word, the controller is synced. -/
theorem TrustedOrStopped.synced (inv : TrustedOrStopped cfg h) (data : endsWithData h.published = true) :
    h.controller.isSynced = true := by
  rcases inv with trusted | ⟨-, -, hsilent⟩
  · cases trusted.told with
    | following live synced => exact synced
    | bridging anchored state waiting silent => simp [silent] at data
    | idle idle silent => simp [silent] at data
  · simp [hsilent] at data

/-!
### The brain

A book is in use if its own controller is synced and the last event of its feed was data. The frames of
other feeds do not reach it.
-/

open Brain

variable {venue : VenueId} {symbol : String} {published : List PubEvent} {input : List (Int × Json)}

theorem endsWithData_cons (e : PubEvent) (data : endsWithData published = true) :
    endsWithData (e :: published) = true := by
  cases published with
  | nil => cases data
  | cons first later => exact data

/-- A frame of a status leaves the feed unhealthy. -/
theorem feedHealthy_status (feedState reason : String) (stamp : Stamp) (now : Int) (vb : VenueBook)
    {hdr : EventHeader} (header : parseHeader ((PubEvent.status feedState reason).toJson stamp) = .ok hdr) :
    (vb.onEvent now hdr ((PubEvent.status feedState reason).toJson stamp)).1.feedHealthy = false := by
  rw [parseHeader_toJson] at header
  cases header
  exact VenueBook.feedHealthy_of_status rfl rfl rfl

/-- A feed that turned healthy has sent data last. -/
theorem Carries.data_of_healthy (carries : Carries venue symbol published input) (ub : UnifiedBook)
    (healthy : ((Runs.run UnifiedBook.step ub input).bookAt (venue.name, symbol)).feedHealthy = true) :
    endsWithData published = true ∨
      (published = [] ∧ (ub.bookAt (venue.name, symbol)).feedHealthy = true) := by
  induction carries generalizing ub with
  | nil => exact Or.inr ⟨rfl, healthy⟩
  | own e now stamp sameVenue sameSymbol rest ih =>
      rcases ih _ healthy with hdata | ⟨rfl, hlast⟩
      · exact Or.inl (endsWithData_cons e hdata)
      · obtain ⟨hdr, routed, hkey⟩ := routed_toJson e sameVenue sameSymbol
        have hself : (ub.step (now, e.toJson stamp)).bookAt (venue.name, symbol) =
            ((ub.bookAt (venue.name, symbol)).onEvent now hdr (e.toJson stamp)).1 :=
          hkey ▸ UnifiedBook.bookAt_onEvent_self routed
        rw [hself] at hlast
        left
        cases e with
        | status feedState reason =>
            rw [feedHealthy_status feedState reason stamp now _ routed.header] at hlast
            cases hlast
        | snapshot snap source => rfl
        | incremental inc source => rfl
        | bookState book appliedSeq topN source tsBookNs => rfl
  | other event foreign rest ih =>
      have hother : (ub.step event).bookAt (venue.name, symbol) = ub.bookAt (venue.name, symbol) :=
        UnifiedBook.bookAt_onEvent_other foreign
      rw [← hother]
      exact ih _ healthy

/-- A lossless link, and a run in which no callback misleads: a drain that hands on increments hands on one
    that is not outdated, no response is refused for its checksum while the feed is connecting, and `stop` is
    not called right after data.  At every callback boundary, when the brain has processed what was published
    so far, in between anything that other feeds sent, a venue book of the feed that counts as synced belongs
    to a synced controller. -/
theorem brain_synced_implies_pop_synced (cfg : HandlerConfig) (venue : VenueId) (symbol : String)
    (brain : cfg.brainConfigured = true) (events : List FeedEvent)
    (honest : Runs.Along (step cfg) (fun h e => misleads cfg h e = false) (started cfg) events) :
    ∀ reached, reached <+: events → ∀ input,
      Carries venue symbol (Runs.run (step cfg) (started cfg) reached).published input →
      ∀ depth depth_pos, ∀ vb ∈ (Runs.run UnifiedBook.step (UnifiedBook.new depth depth_pos) input).venues,
        vb.key = (venue.name, symbol) → vb.synced = true →
          (Runs.run (step cfg) (started cfg) reached).controller.isSynced = true := by
  rintro reached ⟨later, rfl⟩ input delivered depth depth_pos vb hmember hkey hsynced
  have hprefix := (Runs.Along.append_iff.mp honest).1
  have hstart : TrustedOrStopped cfg (started cfg) := Or.inl (trusted_started brain)
  have hinv : TrustedOrStopped cfg (Runs.run (step cfg) (started cfg) reached) :=
    Runs.Along.invariant trusted_step hstart hprefix
  apply hinv.synced
  have hkeys : UnifiedBook.KeysFrom (fun _ => True)
      (Runs.run UnifiedBook.step (UnifiedBook.new depth depth_pos) input) :=
    UnifiedBook.keysFrom_run depth depth_pos fun _ _ _ _ => trivial
  rw [VenueBook.synced, Bool.and_eq_true] at hsynced
  have hhealthy := hsynced.1
  rw [UnifiedBook.eq_bookAt hkeys.nodup hmember, hkey] at hhealthy
  rcases delivered.data_of_healthy _ hhealthy with hdata | ⟨-, hfresh⟩
  · exact hdata
  · cases hfresh

/-- The frames of a feed, as one brain receives them. -/
def framesOf (h : GenericFeedHandler) : List (Int × Json) :=
  h.published.map fun e => (5, e.toJson ⟨"binance", "btcusdt@depth@100ms", 1, 5⟩)

/-- The buffered frame of the run reaches the snapshot, so nothing misleads. -/
theorem brain_synced_implies_pop_synced_binance :
    let h := Runs.run (step (twoLevelFeed 1 2)) (started (twoLevelFeed 1 2)) checkpointedRun
    let books := Runs.run UnifiedBook.step (UnifiedBook.new 2 (by decide)) (framesOf h)
    (∃ vb ∈ books.venues, vb.key = ("binance", "btcusdt@depth@100ms") ∧ vb.synced = true) ∧
      h.controller.isSynced = true := by
  intro h books
  have honest : Runs.Along (step (twoLevelFeed 1 2)) (fun h e => misleads (twoLevelFeed 1 2) h e = false)
      (started (twoLevelFeed 1 2)) checkpointedRun :=
    ⟨by decide, by decide, by decide, by decide, trivial⟩
  have hsynced : ∃ vb ∈ books.venues, vb.key = ("binance", "btcusdt@depth@100ms") ∧ vb.synced = true := by
    decide
  obtain ⟨vb, hmember, hkey, htrusted⟩ := hsynced
  refine ⟨⟨vb, hmember, hkey, htrusted⟩, ?_⟩
  exact brain_synced_implies_pop_synced (twoLevelFeed 1 2) .binance "btcusdt@depth@100ms" rfl
    checkpointedRun honest checkpointedRun List.prefix_rfl _ (carries_frames _ _ h.published 1 5 5) 2
    (by decide) vb hmember hkey htrusted

/-- A Binance feed whose first frame ends where its snapshot does. -/
def outdatedFeed : HandlerConfig :=
  { adapter := .ofTraffic VenueId.binance.caps "/api/v3/depth?symbol=BTCUSDT&limit=2"
      [("snapshot", {
        lastUpdateId := 100, tsRecvNs := 0, checksum := 0
        bids := [⟨300, 1, "3.00", "0.001"⟩], asks := [⟨400, 1, "4.00", "0.001"⟩] })]
      [("depthUpdate 100", {
        firstSeq := 99, lastSeq := 100, prevLast := 0, tsRecvNs := 0, checksum := 0
        bids := [⟨300, 1, "3.00", "0.001"⟩], asks := [] })]
    depth := 2, depth_pos := Nat.two_pos }

/-- The outdated frame is skipped and published after the status, so that the brain takes a book for synced
    whose controller still waits for its bridge. -/
theorem brain_synced_while_bridging :
    let h := Runs.run (step outdatedFeed) (started outdatedFeed)
      [.wsOpen 1, .wsMessage 2 "depthUpdate 100", .restDone 3 (.response 200 true true "snapshot")]
    let books := Runs.run UnifiedBook.step (UnifiedBook.new 2 (by decide)) (framesOf h)
    Carries .binance "btcusdt@depth@100ms" h.published (framesOf h) ∧
      (∃ vb ∈ books.venues, vb.key = ("binance", "btcusdt@depth@100ms") ∧ vb.synced = true) ∧
      h.controller.state = .waitingBridge ∧ ¬ h.controller.isSynced = true := by
  intro h books
  exact ⟨carries_frames .binance _ h.published 1 5 5, by decide, by decide, by decide⟩

end ZidaBot.Feed
