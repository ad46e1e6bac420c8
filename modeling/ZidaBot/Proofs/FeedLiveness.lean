/-
Module: ZidaBot.Proofs.FeedLiveness
Purpose: When a running feed handler keeps something that can bring its feed back: a live client, a
  bootstrap POST or the armed reconnect timer.  Every callback but one kind keeps it.  `restartSync` sets
  `closing_for_restart_` for the close that its `cancel` is going to notify; a client that is closing
  already notifies nothing, so the flag stays set and `onWSClose_` takes the next lost connection for its
  own.  A run never gets stuck exactly if each such loss finds another recovery pending.
Trusted boundary: none
Main exports: NotStuck, LosesLink, Recovers, step_notStuck_iff, no_stuck_feed_iff, feed_stuck_after_reconnect
-/
import ZidaBot.Library.Runs
import ZidaBot.Proofs.FeedMoves

namespace ZidaBot.Feed

open GenericFeedHandler Runs

/-- The reconnect timer is armed with the current generation. -/
def ReconnectArmed (h : GenericFeedHandler) : Prop :=
  h.reconnectTimer = some (.reconnect h.reconnectGen)

/-- A bootstrap POST is in flight or the reconnect timer is armed. -/
def RecoveryPending (h : GenericFeedHandler) : Prop :=
  h.rest = some .post ∨ ReconnectArmed h

/-- A running handler has something that can bring the feed back. -/
def NotStuck (h : GenericFeedHandler) : Prop :=
  h.running = true → h.ws.Active ∨ RecoveryPending h

instance (h : GenericFeedHandler) : Decidable (ReconnectArmed h) :=
  inferInstanceAs (Decidable (_ = _))

instance (h : GenericFeedHandler) : Decidable (RecoveryPending h) :=
  inferInstanceAs (Decidable (_ ∨ _))

instance (h : GenericFeedHandler) : Decidable (NotStuck h) :=
  inferInstanceAs (Decidable (_ → _))

/-- The callback ends a connection whose end was not notified yet. -/
def LosesLink (c : WsClient String) : FeedEvent → Prop
  | .wsClosed => c.opened = true ∧ c.closeNotified = false
  | .wsFailed => c.opened = true ∧ c.closeNotified = false
  | .wsConnectFailed => (c.closing = false ∧ c.connecting = true) ∧ c.closeNotified = false
  | .wsConnectTimeout => c.closeNotified = false
  | _ => False

/-- A running handler that loses its connection either takes the loss for one it did not cause, or has a
    recovery pending. -/
def Recovers (h : GenericFeedHandler) (e : FeedEvent) : Prop :=
  h.running = true → LosesLink h.ws e → h.closingForRestart = false ∨ RecoveryPending h

/-!
### What the client does

The end of a connection is notified once, by whichever callback comes first. What matters to the handler is
whether this callback was it.
-/

/-- The client of a running handler: an end that was notified is an end, and no graceful close is under
    way. -/
structure LinkInv (c : WsClient String) : Prop where
  closing_of_notified : c.closeNotified = true → c.closing = true
  no_close : c.closeInFlight = false

/-- A callback of the client has lost a connection and says so, or it has changed nothing that matters. -/
inductive LossCase (c : WsClient String) (lost : Prop) (outcome : WsClient String × Bool) : Prop where
  | lost (loses : lost) (told : outcome.2 = true) (dead : ¬ outcome.1.Active) (inv : LinkInv outcome.1)
  | kept (keeps : ¬ lost) (silent : outcome.2 = false) (same : outcome.1.Active ↔ c.Active)
      (inv : LinkInv outcome.1)

section Client

variable {c : WsClient String}

theorem not_active_of_closing (closing : c.closing = true) : ¬ c.Active := by
  rintro ⟨hopen, -⟩
  rw [closing] at hopen
  cases hopen

theorem LossCase.linkInv {lost : Prop} {outcome : WsClient String × Bool}
    (outcomeCase : LossCase c lost outcome) : LinkInv outcome.1 := by
  cases outcomeCase with
  | lost _ _ _ inv => exact inv
  | kept _ _ _ inv => exact inv

/-- A closing client that may still have to notify, reached from `c`. -/
theorem notifyCloseOnce_case (inv : LinkInv c) {ended : WsClient String} (closing : ended.closing = true)
    (flag : ended.closeNotified = c.closeNotified) (close : ended.closeInFlight = c.closeInFlight) :
    LossCase c (c.closeNotified = false) ended.notifyCloseOnce := by
  have hclose : ended.closeInFlight = false := close.trans inv.no_close
  rw [WsClient.notifyCloseOnce, flag]
  split
  · rename_i hnotified
    have hboth : ended.Active ↔ c.Active :=
      iff_of_false (not_active_of_closing closing)
        (not_active_of_closing (inv.closing_of_notified hnotified))
    exact .kept (by simp [hnotified]) rfl hboth ⟨fun _ => closing, hclose⟩
  · rename_i hnotified
    exact .lost (by simpa using hnotified) rfl (not_active_of_closing closing)
      ⟨fun _ => closing, hclose⟩

theorem fail_case (inv : LinkInv c) : LossCase c (c.closeNotified = false) c.fail := by
  rw [WsClient.fail]
  split
  · rename_i hclosing
    exact notifyCloseOnce_case inv hclosing rfl rfl
  · exact notifyCloseOnce_case inv rfl rfl rfl

/-- A callback that is dropped unless a condition holds. -/
theorem LossCase.guarded (inv : LinkInv c) (guard : Prop) [Decidable guard] {lost : Prop}
    {outcome : WsClient String × Bool} (outcomeCase : LossCase c lost outcome) :
    LossCase c (guard ∧ lost) (if guard then outcome else (c, false)) := by
  split
  · rename_i hguard
    cases outcomeCase with
    | lost loses told dead inv' => exact .lost ⟨hguard, loses⟩ told dead inv'
    | kept keeps silent same inv' => exact .kept (fun h => keeps h.2) silent same inv'
  · rename_i hguard
    exact .kept (fun h => hguard h.1) rfl Iff.rfl inv

theorem readClosed_case (inv : LinkInv c) :
    LossCase c (c.opened = true ∧ c.closeNotified = false) c.readClosed := by
  have hcase : LossCase c (c.closeNotified = false) { c with closing := true }.notifyCloseOnce :=
    notifyCloseOnce_case inv rfl rfl rfl
  exact hcase.guarded inv (c.opened = true)

theorem ioFailed_case (inv : LinkInv c) :
    LossCase c (c.opened = true ∧ c.closeNotified = false) c.ioFailed :=
  (fail_case inv).guarded inv (c.opened = true)

theorem connectFailed_case (inv : LinkInv c) :
    LossCase c ((c.closing = false ∧ c.connecting = true) ∧ c.closeNotified = false)
      c.connectFailed := by
  have hcase := (fail_case inv).guarded inv (c.closing = false ∧ c.connecting = true)
  rw [WsClient.connectFailed]
  cases hclosing : c.closing <;> cases hconnecting : c.connecting <;>
    simpa [hclosing, hconnecting] using hcase

theorem closeDone_case (inv : LinkInv c) : LossCase c False c.closeDone := by
  rw [WsClient.closeDone, inv.no_close]
  exact .kept not_false rfl Iff.rfl inv

theorem cancel_linkInv (inv : LinkInv c) : LinkInv c.cancel.1 := by
  rw [WsClient.cancel]
  split
  · exact inv
  · have hcase : LossCase c (c.closeNotified = false)
        { c with closing := true, connecting := false }.notifyCloseOnce :=
      notifyCloseOnce_case inv rfl rfl rfl
    exact hcase.linkInv

end Client

/-!
### What the handler does

Liveness is about four members of the handler. A data callback leaves them alone or restarts the feed, which
arms the timer.
-/

/-- The part of the handler that its liveness is about. -/
def link (h : GenericFeedHandler) :
    Bool × WsClient String × Option RestRequest × Option TimerWait × Nat :=
  (h.running, h.ws, h.rest, h.reconnectTimer, h.reconnectGen)

/-- The invariant behind the liveness: a running handler has a sound client. -/
def LinkSound (h : GenericFeedHandler) : Prop := h.running = true → LinkInv h.ws

section Handler

variable {h h' : GenericFeedHandler}

theorem NotStuck.congr (same : link h' = link h) (ok : NotStuck h) : NotStuck h' := by
  simp only [link, Prod.mk.injEq] at same
  obtain ⟨hrunning, hws, hrest, htimer, hgen⟩ := same
  simpa only [NotStuck, RecoveryPending, ReconnectArmed, hrunning, hws, hrest, htimer, hgen] using ok

theorem LinkSound.congr (same : link h' = link h) (ok : LinkSound h) : LinkSound h' := by
  simp only [link, Prod.mk.injEq] at same
  obtain ⟨hrunning, hws, -⟩ := same
  simpa only [LinkSound, hrunning, hws] using ok

@[simp] theorem link_publish (event : PubEvent) : link (h.publish event) = link h := by
  rw [publish]
  split <;> rfl

@[simp] theorem link_setState (next : FeedSyncState) (reason : String) :
    link (h.setState next reason) = link h := by
  rw [setState]
  split
  · rfl
  · exact link_publish _

@[simp] theorem link_persist (event : PubEvent) : link (h.persist event) = link h := by
  obtain ⟨published, persisted, hsame⟩ := persist_eq h event
  rw [hsame]
  rfl

@[simp] theorem link_applySnapshot (cfg : HandlerConfig) (snap : GenericSnapshotFormat)
    (kind : BaselineKind) (source : String) (session : Nat) :
    link (h.applySnapshot cfg snap kind source session).1 = link h :=
  link_persist _

@[simp] theorem link_applyIncrement (cfg : HandlerConfig) (inc : GenericIncrementalFormat)
    (session : Nat) : link (h.applyIncrement cfg inc session).1 = link h :=
  link_persist _

/-- After `restartSync` the timer is armed. -/
theorem restartSync_notStuck (h : GenericFeedHandler) : NotStuck h.restartSync := by
  intro hrunning
  cases hstopped : h.running with
  | false =>
      rw [restartSync_of_not_running h hstopped, hstopped] at hrunning
      cases hrunning
  | true =>
      obtain ⟨gen, flag, delay, statuses, -, hsame⟩ := restartSync_eq h hstopped
      rw [hsame]
      exact Or.inr (Or.inr rfl)

theorem restartSync_linkSound (sound : LinkSound h) : LinkSound h.restartSync := by
  cases hrunning : h.running with
  | false => rwa [restartSync_of_not_running h hrunning]
  | true =>
      obtain ⟨gen, flag, delay, statuses, -, hsame⟩ := restartSync_eq h hrunning
      rw [hsame]
      exact fun _ => cancel_linkInv (sound hrunning)

/-- A move leaves the link alone or restarts. -/
theorem Move.link_cases {cfg : HandlerConfig} {Base Frame : GenericFeedHandler → Nat → Prop}
    (move : Move cfg Base Frame h h') :
    link h' = link h ∨ ∃ before, link before = link h ∧ h' = before.restartSync := by
  cases move with
  | quiet => exact Or.inl rfl
  | rebuffer => exact Or.inl rfl
  | store => exact Or.inl rfl
  | state => exact Or.inl (link_setState _ _)
  | bridge => exact Or.inl rfl
  | bookState => exact Or.inl (link_persist _)
  | snapshot => exact Or.inl (link_applySnapshot cfg _ _ _ _)
  | increment => exact Or.inl (link_applyIncrement cfg _ _)
  | restart => exact Or.inr ⟨h, rfl, rfl⟩
  | rejectSnapshot => exact Or.inr ⟨_, link_applySnapshot cfg _ _ _ _, rfl⟩
  | rejectIncrement => exact Or.inr ⟨_, link_applyIncrement cfg _ _, rfl⟩

/-- Data callbacks keep both. -/
theorem moves_keep {cfg : HandlerConfig} {Base Frame : GenericFeedHandler → Nat → Prop}
    (moves : Moves cfg Base Frame h h') (ok : NotStuck h ∧ LinkSound h) :
    NotStuck h' ∧ LinkSound h' := by
  apply moves.invariant _ ok
  intro h h' move ok
  rcases move.link_cases with hsame | ⟨before, hsame, rfl⟩
  · exact ⟨ok.1.congr hsame, ok.2.congr hsame⟩
  · exact ⟨restartSync_notStuck before, restartSync_linkSound (ok.2.congr hsame)⟩

theorem notStuck_of_stopped (stopped : h.running = false) : NotStuck h := by
  intro hrunning
  rw [stopped] at hrunning
  cases hrunning

/-- What a callback of the client does to the liveness: only a loss that `onWSClose_` suppresses costs
    something. -/
theorem notified_notStuck_iff (ok : NotStuck h) {lost : Prop} {outcome : WsClient String × Bool}
    (outcomeCase : h.running = true → LossCase h.ws lost outcome) :
    NotStuck (h.notified outcome) ↔
      (h.running = true → lost → h.closingForRestart = false ∨ RecoveryPending h) := by
  cases hrunning : h.running with
  | false =>
      refine iff_of_true ?_ (fun hrun => by cases hrun)
      rw [notified]
      split
      · rw [onWSClose, if_pos (by simp [hrunning])]
        exact notStuck_of_stopped hrunning
      · exact notStuck_of_stopped hrunning
  | true =>
      cases outcomeCase hrunning with
      | kept keeps silent same _ =>
          refine iff_of_true ?_ (fun _ hlost => absurd hlost keeps)
          rw [notified, silent]
          intro _
          exact (ok hrunning).imp_left same.mpr
      | lost loses told dead _ =>
          rw [notified, told, if_pos rfl, onWSClose, if_neg (by simp [hrunning])]
          cases hflag : h.closingForRestart with
          | false =>
              -- the loss is taken for what it is
              rw [if_neg (by simp)]
              exact iff_of_true (restartSync_notStuck _) fun _ _ => Or.inl rfl
          | true =>
              rw [if_pos rfl]
              constructor
              · intro halive _ _
                exact Or.inr ((halive hrunning).resolve_left dead)
              · intro hpending _
                exact Or.inr ((hpending rfl loses).resolve_left (by simp))

theorem notified_linkSound {lost : Prop} {outcome : WsClient String × Bool}
    (outcomeCase : h.running = true → LossCase h.ws lost outcome) : LinkSound (h.notified outcome) := by
  have hsound : LinkSound { h with ws := outcome.1 } := fun hrunning => (outcomeCase hrunning).linkInv
  rw [notified]
  split
  · rw [onWSClose]
    split
    · exact hsound
    · split
      · exact hsound
      · exact restartSync_linkSound hsound
  · exact hsound

/-!
### The other callbacks

One lemma for each; only a loss that is notified can cost the handler what it was waiting for.
-/

/-- A connect attempt is live. -/
theorem connectWS_keeps (sound : LinkSound h) : NotStuck h.connectWS ∧ LinkSound h.connectWS := by
  constructor
  · exact fun _ => Or.inl ⟨rfl, Or.inl rfl⟩
  · exact fun hrunning => ⟨fun hnotified => (by cases hnotified), (sound hrunning).no_close⟩

theorem restartSync_keeps (sound : LinkSound h) : NotStuck h.restartSync ∧ LinkSound h.restartSync :=
  ⟨restartSync_notStuck h, restartSync_linkSound sound⟩

theorem bootstrapWS_keeps (cfg : HandlerConfig) (sound : LinkSound h) :
    NotStuck (h.bootstrapWS cfg) ∧ LinkSound (h.bootstrapWS cfg) := by
  rw [bootstrapWS]
  split
  · rename_i hstopped
    exact ⟨notStuck_of_stopped (by simpa using hstopped), sound⟩
  · split
    · exact restartSync_keeps sound
    · split
      · exact restartSync_keeps sound
      · exact ⟨fun _ => Or.inr (Or.inl rfl), sound⟩

/-- A snapshot request never takes the place of a POST: it is refused, and that restarts the feed. -/
theorem requestSnapshot_keeps (cfg : HandlerConfig)
    (ok : h.running = true → h.ws.Active ∨ RecoveryPending h) (sound : LinkSound h) :
    NotStuck (h.requestSnapshot cfg) ∧ LinkSound (h.requestSnapshot cfg) := by
  have hsame : link (h.setState .waitRestSnapshot "request_snapshot") = link h := link_setState _ _
  rw [requestSnapshot]
  split
  · exact restartSync_keeps (sound.congr hsame)
  · rename_i hfree
    have hok := NotStuck.congr hsame ok
    have hsound := sound.congr hsame
    refine ⟨fun hrunning => ?_, hsound⟩
    rcases hok hrunning with hactive | hpost | harmed
    · exact Or.inl hactive
    · simp [hpost] at hfree
    · exact Or.inr (Or.inr harmed)

theorem onWSOpen_keeps (cfg : HandlerConfig) (now : Int) (active : h.ws.Active) (sound : LinkSound h) :
    NotStuck (h.onWSOpen cfg now) ∧ LinkSound (h.onWSOpen cfg now) := by
  cases hrunning : h.running with
  | false =>
      rw [onWSOpen, if_pos (by simp [hrunning])]
      exact ⟨notStuck_of_stopped hrunning, sound⟩
  | true =>
      obtain ⟨gen, timer, outbox, inFlight, heq⟩ := onWSOpen_eq cfg now hrunning
      rw [heq _ rfl]
      have hok : NotStuck { h with
          watchdogGen := gen, watchdogTimer := timer, lastWsMessageNs := now
          ws := { h.ws with outbox := outbox, inFlight := inFlight } } := fun _ => Or.inl active
      have hsound : LinkSound { h with
          watchdogGen := gen, watchdogTimer := timer, lastWsMessageNs := now
          ws := { h.ws with outbox := outbox, inFlight := inFlight } } :=
        fun _ => ⟨(sound hrunning).closing_of_notified, (sound hrunning).no_close⟩
      split
      · apply requestSnapshot_keeps
        · exact hok.congr (link_setState _ _)
        · exact hsound.congr (link_setState _ _)
      · exact ⟨hok.congr (link_setState _ _), hsound.congr (link_setState _ _)⟩

/-- The handshake completes a live attempt or is dropped. -/
theorem wsOpened_keeps (cfg : HandlerConfig) (now : Int) (ok : NotStuck h) (sound : LinkSound h) :
    NotStuck (h.wsOpened cfg now) ∧ LinkSound (h.wsOpened cfg now) := by
  rw [wsOpened, WsClient.handshakeDone]
  by_cases hdropped : (h.ws.closing || !h.ws.connecting) = true
  · rw [if_pos hdropped]
    exact ⟨ok, sound⟩
  · obtain ⟨inFlight, hwrite⟩ := WsClient.startWrite_same { h.ws with opened := true, connecting := false }
    rw [if_neg hdropped, hwrite]
    dsimp only
    rw [if_pos rfl]
    apply onWSOpen_keeps cfg now
    · simp only [Bool.or_eq_true, not_or, Bool.not_eq_true] at hdropped
      exact ⟨hdropped.1, Or.inr rfl⟩
    · intro hrunning
      exact ⟨(sound hrunning).closing_of_notified, (sound hrunning).no_close⟩

theorem restDone_keeps (cfg : HandlerConfig) (now : Int) (outcome : HttpOutcome) (ok : NotStuck h)
    (sound : LinkSound h) :
    NotStuck (h.restDone cfg now outcome) ∧ LinkSound (h.restDone cfg now outcome) := by
  rw [restDone]
  cases hrest : h.rest with
  | none => exact ⟨ok, sound⟩
  | some request =>
      cases request with
      | post =>
          dsimp only
          rw [onBootstrapResponse]
          split
          · exact restartSync_keeps sound
          · split
            · exact restartSync_keeps sound
            · exact connectWS_keeps sound
      | get session =>
          have hok : NotStuck { h with rest := none } := by
            intro hrunning
            rcases ok hrunning with hactive | hpost | harmed
            · exact Or.inl hactive
            · rw [hrest] at hpost
              cases hpost
            · exact Or.inr (Or.inr harmed)
          exact moves_keep (onSnapshotDone_any cfg now session outcome _) ⟨hok, sound⟩

theorem onReconnectTimer_keeps (cfg : HandlerConfig) (ok : NotStuck h) (sound : LinkSound h) :
    NotStuck (h.onReconnectTimer cfg) ∧ LinkSound (h.onReconnectTimer cfg) := by
  rw [onReconnectTimer]
  cases htimer : h.reconnectTimer with
  | none => exact ⟨ok, sound⟩
  | some wait =>
      cases wait with
      | retrySnapshot =>
          have hok : NotStuck { h with reconnectTimer := none } := by
            intro hrunning
            rcases ok hrunning with hactive | hpost | harmed
            · exact Or.inl hactive
            · exact Or.inr (Or.inl hpost)
            · rw [ReconnectArmed, htimer] at harmed
              cases harmed
          dsimp only
          split
          · exact requestSnapshot_keeps cfg hok sound
          · exact ⟨hok, sound⟩
      | reconnect gen =>
          dsimp only
          split
          · rename_i hstale
            refine ⟨fun hrunning => ?_, sound⟩
            rcases ok hrunning with hactive | hpost | harmed
            · exact Or.inl hactive
            · exact Or.inr (Or.inl hpost)
            · -- the current generation is not a stale one
              rw [ReconnectArmed, htimer] at harmed
              simp only [Option.some.injEq, TimerWait.reconnect.injEq] at harmed
              simp only [harmed, bne_self_eq_false, Bool.or_false, Bool.not_eq_true'] at hstale
              exact absurd hrunning (by simp [hstale])
          · split
            · exact bootstrapWS_keeps cfg (sound.congr (link_setState _ _))
            · exact connectWS_keeps (sound.congr (link_setState _ _))

theorem onWatchdogTimer_keeps (cfg : HandlerConfig) (now : Int) (ok : NotStuck h) (sound : LinkSound h) :
    NotStuck (h.onWatchdogTimer cfg now) ∧ LinkSound (h.onWatchdogTimer cfg now) := by
  rw [onWatchdogTimer]
  split
  · exact ⟨ok, sound⟩
  · dsimp only
    split
    · exact ⟨ok, sound⟩
    · split
      · exact ⟨ok, sound⟩
      · split
        · exact restartSync_keeps sound
        · exact ⟨ok, sound⟩

/-- One callback keeps the handler from being stuck exactly if it recovers. -/
theorem step_notStuck_iff (cfg : HandlerConfig) (e : FeedEvent) (sound : LinkSound h) (ok : NotStuck h) :
    (NotStuck (h.step cfg e) ↔ Recovers h e) ∧ LinkSound (h.step cfg e) := by
  -- the callbacks without a loss meet the condition trivially
  have hno_loss : ∀ {next : GenericFeedHandler}, ¬ LosesLink h.ws e → NotStuck next ∧ LinkSound next →
      (NotStuck next ↔ Recovers h e) ∧ LinkSound next :=
    fun hnone hnext => ⟨iff_of_true hnext.1 fun _ hloss => absurd hloss hnone, hnext.2⟩
  have hloss : ∀ {outcome : WsClient String × Bool},
      (h.running = true → LossCase h.ws (LosesLink h.ws e) outcome) →
      (NotStuck (h.notified outcome) ↔ Recovers h e) ∧ LinkSound (h.notified outcome) :=
    fun hcase => ⟨notified_notStuck_iff ok hcase, notified_linkSound hcase⟩
  cases e with
  | wsOpen now => exact hno_loss not_false (wsOpened_keeps cfg now ok sound)
  | wsMessage now msg =>
      apply hno_loss not_false
      rw [step]
      split
      · exact moves_keep (onWSMessage_any cfg now msg h) ⟨ok, sound⟩
      · exact ⟨ok, sound⟩
  | wsClosed => exact hloss fun hrunning => readClosed_case (sound hrunning)
  | wsFailed => exact hloss fun hrunning => ioFailed_case (sound hrunning)
  | wsConnectFailed => exact hloss fun hrunning => connectFailed_case (sound hrunning)
  | wsConnectTimeout => exact hloss fun hrunning => fail_case (sound hrunning)
  | wsCloseDone => exact hloss fun hrunning => closeDone_case (sound hrunning)
  | restDone now outcome => exact hno_loss not_false (restDone_keeps cfg now outcome ok sound)
  | reconnectTimer => exact hno_loss not_false (onReconnectTimer_keeps cfg ok sound)
  | watchdogTimer now => exact hno_loss not_false (onWatchdogTimer_keeps cfg now ok sound)
  | stop tlsUp =>
      have hstopped : (h.stop tlsUp).running = false := (stop_spec tlsUp).1
      apply hno_loss not_false
      exact ⟨notStuck_of_stopped hstopped, fun hrunning => absurd hrunning (by simp [step, hstopped])⟩

end Handler

theorem started_keeps (cfg : HandlerConfig) : NotStuck (started cfg) ∧ LinkSound (started cfg) := by
  have hclient : LinkInv ({} : WsClient String) := ⟨fun hnotified => (by cases hnotified), rfl⟩
  have hsound : LinkSound ({ init cfg with running := true }.setState .connecting "start") :=
    LinkSound.congr (link_setState _ _) fun _ => hclient
  rw [started, start, if_neg (by simp [init])]
  dsimp only
  split
  · exact bootstrapWS_keeps cfg (LinkSound.congr (link_setState _ _) hsound)
  · exact connectWS_keeps hsound

/-- Between callbacks a running handler always has something that can bring the feed back, exactly if along
    the run each lost connection finds `closing_for_restart_` clear or another recovery pending. -/
theorem no_stuck_feed_iff (cfg : HandlerConfig) (events : List FeedEvent) :
    (∀ reached, reached <+: events → NotStuck (run (step cfg) (started cfg) reached)) ↔
      Along (step cfg) Recovers (started cfg) events := by
  apply Along.iff_of_step
  · exact fun h e sound ok => (step_notStuck_iff cfg e sound ok).2
  · exact fun h e sound ok => (step_notStuck_iff cfg e sound ok).1
  · exact (started_keeps cfg).2
  · exact (started_keeps cfg).1

/-- A Binance feed that is closed by the venue once and whose reconnect attempt fails: the second loss is
    taken for the close of the first restart, and nothing is left that could reconnect. -/
theorem feed_stuck_after_reconnect :
    ¬ NotStuck (run
      (step { adapter := .ofTraffic VenueId.binance.caps "/api/v3/depth?symbol=BTCUSDT&limit=400" [] []
              depth := 400, depth_pos := by decide })
      (started { adapter := .ofTraffic VenueId.binance.caps "/api/v3/depth?symbol=BTCUSDT&limit=400" [] []
                 depth := 400, depth_pos := by decide })
      [.wsOpen 1, .wsClosed, .reconnectTimer, .wsConnectFailed]) := by
  decide

end ZidaBot.Feed
