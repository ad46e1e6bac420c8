/-
Module: ZidaBot.Proofs.RestClient
Purpose: Requests of the HTTP client.  Every function of the client is a sequence of turns on behalf of one
  request, so callbacks are invoked at most once and refused calls are answered at once, in every run.  The
  handlers carry no mark of their request: one that is still outstanding when the next request is accepted
  acts on that request instead.
Trusted boundary: none
Main exports: RestClient.view, turns_fail, turns_finish, turns_runHandler, Settled, Isolated,
  request_isolation_iff, late_shutdown_fails_next_request
-/
import ZidaBot.Feed.RestClient
import ZidaBot.Library.Runs
import ZidaBot.Library.SingleFlight

namespace ZidaBot.Feed

open Runs SingleFlight

/-!
### The board of the client

The library knows requests, answers and the owners of what is outstanding. `view` reads these off the
client; the idle waits are left out, as a call cancels them before it starts anything.
-/

/-- The owner of a handler, unless it is that of a cancelled wait. -/
def RestHandler.liveOwner (h : RestHandler) : Option Nat :=
  if h.op = .deadline .aborted ∨ h.op = .shutdownDeadline .aborted then none else some h.owner

/-- A wait that has not expired.  It is cancelled when the next request is accepted, if not before. -/
def RestHandler.idle (h : RestHandler) : Bool :=
  match h.op with
  | .deadline wait => wait != .expired
  | .shutdownDeadline wait => wait != .expired
  | _ => false

namespace RestClient

/-- The client as requests and handlers see it. -/
def view (s : RestClient) : Board Answer :=
  { inFlight := s.inFlight, held := s.cb, current := s.current, next := s.nextRequest
    live := s.outstanding.filterMap RestHandler.liveOwner
    refused := s.refused, answers := s.answers, effects := s.effects }

/-- The answer to a refused call. -/
def refusal : Answer := { ec := some .operationInProgress, body := "" }

variable {s : RestClient} {actor : Nat}

theorem liveOwner_disarm (h : RestHandler) :
    h.disarm.liveOwner = h.liveOwner ∨ h.disarm.liveOwner = none := by
  obtain ⟨op, owner⟩ := h
  cases op with
  | deadline wait => cases wait <;> simp [RestHandler.disarm, RestHandler.liveOwner, WaitStatus.cancel]
  | _ => exact Or.inl rfl

theorem liveOwner_disarmShutdown (h : RestHandler) :
    h.disarmShutdown.liveOwner = h.liveOwner ∨ h.disarmShutdown.liveOwner = none := by
  obtain ⟨op, owner⟩ := h
  cases op with
  | shutdownDeadline wait =>
      cases wait <;> simp [RestHandler.disarmShutdown, RestHandler.liveOwner, WaitStatus.cancel]
  | _ => exact Or.inl rfl

/-!
### The functions of the client as turns

Each function ends an operation, starts one, answers, or fails the request in flight, on behalf of the
request it was called for. A chain of turns composes, so no function has to be unfolded in another.
-/

theorem turns_disarmDeadline (actor : Nat) (s : RestClient) : Turns actor s.view s.disarmDeadline.view :=
  .single (.shrink s.view (live_map_sublist liveOwner_disarm s.outstanding))

theorem turns_cancelShutdownDeadline (actor : Nat) (s : RestClient) :
    Turns actor s.view s.cancelShutdownDeadline.view :=
  .single (.shrink s.view (live_map_sublist liveOwner_disarmShutdown s.outstanding))

theorem view_start {op : Operation} (deadline : op ≠ .deadline .aborted)
    (shutdown : op ≠ .shutdownDeadline .aborted) (owner : Nat) (s : RestClient) :
    (s.start owner op).view = { s.view with live := s.view.live ++ [owner] } := by
  simp [view, start, RestHandler.liveOwner, deadline, shutdown]

theorem turns_start {op : Operation} (deadline : op ≠ .deadline .aborted)
    (shutdown : op ≠ .shutdownDeadline .aborted) (actor : Nat) (s : RestClient) :
    Turns actor s.view (s.start actor op).view := by
  rw [view_start deadline shutdown]
  exact .single (.start s.view)

theorem turns_then_start {op : Operation} (deadline : op ≠ .deadline .aborted)
    (shutdown : op ≠ .shutdownDeadline .aborted) {b : Board Answer} (turns : Turns actor b s.view) :
    Turns actor b (s.start actor op).view :=
  turns.trans (turns_start deadline shutdown actor s)

theorem turns_touch (busy : s.inFlight = true) : Turns actor s.view (s.touch actor).view :=
  .single (.touch s.view busy)

/-- The client with both timers cancelled. -/
def disarmed (s : RestClient) : RestClient := s.disarmDeadline.cancelShutdownDeadline

theorem turns_disarmed (actor : Nat) (s : RestClient) : Turns actor s.view s.disarmed.view :=
  (turns_disarmDeadline actor s).trans (turns_cancelShutdownDeadline actor s.disarmDeadline)

theorem view_finish (busy : s.inFlight = true) :
    (s.finish actor).view =
      s.disarmed.view.finish actor { ec := s.finalEc, body := s.responseBody } := by
  rw [finish, if_pos busy]
  dsimp only
  split <;> rfl

theorem turns_finish (actor : Nat) (s : RestClient) : Turns actor s.view (s.finish actor).view := by
  by_cases hbusy : s.inFlight = true
  · rw [view_finish hbusy]
    exact (turns_disarmed actor s).tail (.finish s.disarmed.view hbusy _)
  · rw [finish, if_neg hbusy]
    exact .refl

/-- The same after other turns, to a client with the same board. -/
theorem turns_then_finish {b : Board Answer} (turns : Turns actor b s.view) :
    Turns actor b (s.finish actor).view :=
  turns.trans (turns_finish actor s)

theorem turns_doTlsShutdown (actor : Nat) (s : RestClient) :
    Turns actor s.view (s.doTlsShutdown actor).view := by
  rw [doTlsShutdown]
  split
  · exact .refl
  · have harmed : Turns actor s.view ({ s with shuttingDown := true }.armShutdownDeadline actor).view :=
      (turns_cancelShutdownDeadline actor { s with shuttingDown := true }).trans
        (turns_start (by decide) (by decide) actor _)
    exact harmed.trans (turns_start (by decide) (by decide) actor _)

theorem turns_then_doTlsShutdown {b : Board Answer} (turns : Turns actor b s.view) :
    Turns actor b (s.doTlsShutdown actor).view :=
  turns.trans (turns_doTlsShutdown actor s)

theorem turns_closeOrShutdown (actor : Nat) (s : RestClient) :
    Turns actor s.view (s.closeOrShutdown actor).view := by
  rw [closeOrShutdown]
  split
  · exact turns_finish actor s.closeSocketHard
  · exact turns_doTlsShutdown actor s

theorem turns_fail (actor : Nat) (ec : RestError) (s : RestClient) :
    Turns actor s.view (s.fail actor ec).view := by
  rw [fail]
  split
  · exact .refl
  · rename_i hguard
    have hbusy : s.inFlight = true := by
      by_contra hidle
      exact hguard (by simp [hidle])
    exact (turns_touch hbusy).trans (turns_closeOrShutdown actor { s.touch actor with finalEc := some ec })

theorem turns_cancelOperations (actor : Nat) (s : RestClient) :
    Turns actor s.view (s.cancelOperations actor).view := by
  rw [cancelOperations]
  split
  · exact turns_touch ‹_›
  · exact .refl

theorem turns_responseRead (actor : Nat) (c : Completion) (s : RestClient) :
    Turns actor s.view (s.responseRead actor c).view := by
  have hread : Turns actor s.view
      (if s.inFlight then s.disarmDeadline.touch actor else s.disarmDeadline).view := by
    refine (turns_disarmDeadline actor s).trans ?_
    split
    · rename_i hbusy
      exact turns_touch hbusy
    · exact .refl
  rw [responseRead]
  generalize (if s.inFlight then s.disarmDeadline.touch actor else s.disarmDeadline) = read at hread ⊢
  generalize (if c.status < 200 ∨ 300 ≤ c.status then some RestError.non2xx else none) = finalEc
  dsimp only
  split
  · exact turns_then_finish hread
  · exact turns_then_doTlsShutdown hread

/-- Whatever a handler completes with, it takes turns on behalf of its request. -/
theorem turns_runHandler (h : RestHandler) (c : Completion) (s : RestClient) :
    Turns h.owner s.view (s.runHandler h c).view := by
  obtain ⟨op, owner⟩ := h
  cases op with
  | resolve =>
      rw [runHandler]
      cases hec : c.ec with
      | some ec => exact turns_fail owner ec s
      | none => exact turns_start (by decide) (by decide) owner s
  | connect =>
      rw [runHandler]
      cases hec : c.ec with
      | some ec => exact turns_fail owner ec s
      | none =>
          cases hsni : c.sniEc with
          | some ec => exact turns_fail owner ec s
          | none => exact turns_start (by decide) (by decide) owner { s with tcpConnected := true }
  | handshake =>
      rw [runHandler]
      cases hec : c.ec with
      | some ec => exact turns_fail owner ec s
      | none =>
          exact turns_start (by decide) (by decide) owner
            { s with tlsHandshook := true, connectedHost := s.host, connectedPort := s.port }
  | write =>
      rw [runHandler]
      cases hec : c.ec with
      | some ec => exact turns_fail owner ec s
      | none => exact turns_start (by decide) (by decide) owner s
  | read =>
      rw [runHandler]
      cases hec : c.ec with
      | some ec => exact turns_fail owner ec s
      | none => exact turns_responseRead owner c s
  | shutdown =>
      rw [runHandler]
      exact turns_then_finish (turns_cancelShutdownDeadline owner s)
  | deadline wait =>
      rw [runHandler]
      dsimp only
      split
      · exact .refl
      · exact (turns_cancelOperations owner s).trans (turns_fail owner .timedOut _)
  | shutdownDeadline wait =>
      rw [runHandler]
      dsimp only
      split
      · exact .refl
      · exact turns_finish owner { s with finalEc := s.finalEc.or (some .timedOut) }

theorem turns_cancel (s : RestClient) : Turns s.current s.view s.cancel.view := by
  rw [cancel]
  split
  · have hdisarmed := turns_disarmed s.current { s with finalEc := s.finalEc.or (some .operationCanceled) }
    exact (hdisarmed.trans (turns_cancelOperations s.current _)).trans (turns_closeOrShutdown s.current _)
  · exact .refl

/-!
### Callbacks

A handler that runs takes turns for its owner. A call is a refusal, which is answered at once, or is
accepted, and the new request then takes its turns.
-/

/-- A handler that runs was outstanding; its wait, if it is a timer's, is over. -/
theorem handler_cases (i : Nat) (c : Completion) (s : RestClient) :
    s.handler i c = s ∨ ∃ h, s.outstanding[i]? = some h ∧
      s.handler i c = { s with outstanding := s.outstanding.eraseIdx i }.runHandler h c := by
  rw [handler]
  split
  · exact Or.inl rfl
  · rename_i h hfound
    split
    · exact Or.inl rfl
    · exact Or.inr ⟨h, hfound, rfl⟩

theorem live_erase_sublist (i : Nat) (s : RestClient) :
    ({ s with outstanding := s.outstanding.eraseIdx i } : RestClient).view.live.Sublist s.view.live :=
  (List.eraseIdx_sublist _ i).filterMap _

theorem turns_erase (actor i : Nat) (s : RestClient) :
    Turns actor s.view ({ s with outstanding := s.outstanding.eraseIdx i } : RestClient).view :=
  .single (.shrink s.view (live_erase_sublist i s))

theorem liveOwner_expire (h : RestHandler) : h.expire.liveOwner = h.liveOwner := by
  obtain ⟨op, owner⟩ := h
  cases op with
  | deadline wait => simp [RestHandler.expire, RestHandler.liveOwner]
  | shutdownDeadline wait => simp [RestHandler.expire, RestHandler.liveOwner]
  | _ => rfl

/-- A deadline that passes is not seen on the board. -/
theorem view_expire (i : Nat) (s : RestClient) : (s.step (.expire i)).view = s.view := by
  have hlive : (s.outstanding.modify i RestHandler.expire).filterMap RestHandler.liveOwner =
      s.outstanding.filterMap RestHandler.liveOwner := live_modify liveOwner_expire i s.outstanding
  simp only [step, view, hlive]

/-- The reset clears the error of the request before and keeps the handlers. -/
theorem resetPerRequestState_fields (sockOpen : Bool) (s : RestClient) :
    (s.resetPerRequestState sockOpen).inFlight = s.inFlight ∧
      (s.resetPerRequestState sockOpen).finalEc = none ∧
      (s.resetPerRequestState sockOpen).current = s.current ∧
      (s.resetPerRequestState sockOpen).outstanding = s.disarmed.outstanding := by
  rw [resetPerRequestState]
  dsimp only
  split <;> exact ⟨rfl, rfl, rfl, rfl⟩

theorem view_resetPerRequestState (sockOpen : Bool) (s : RestClient) :
    (s.resetPerRequestState sockOpen).view = s.disarmed.view := by
  rw [resetPerRequestState]
  dsimp only
  split <;> rfl

/-- The first operation of a request is no cancelled wait. -/
theorem firstOperation_ne (reuse : Bool) :
    (if reuse then Operation.write else .resolve) ≠ .deadline .aborted ∧
      (if reuse then Operation.write else .resolve) ≠ .shutdownDeadline .aborted := by
  cases reuse <;> decide

theorem turns_startRequest (verb : HttpVerb) (sockOpen : Bool) (s : RestClient) :
    Turns s.current s.disarmed.view (s.startRequest verb sockOpen).view := by
  have harmed : Turns s.current s.disarmed.view
      ((s.resetPerRequestState sockOpen).armDeadline s.current).view := by
    rw [← view_resetPerRequestState sockOpen s]
    exact (turns_disarmDeadline s.current _).trans (turns_start (by decide) (by decide) _ _)
  have hcurrent : ((s.resetPerRequestState sockOpen).armDeadline s.current).current = s.current :=
    (resetPerRequestState_fields sockOpen s).2.2.1
  rw [startRequest]
  generalize (s.resetPerRequestState sockOpen).armDeadline s.current = armed at harmed hcurrent ⊢
  rw [← hcurrent] at harmed ⊢
  exact turns_then_start (firstOperation_ne _).1 (firstOperation_ne _).2 harmed

/-- A call that is accepted takes turns on behalf of its own request, with the waits of earlier requests
    cancelled. -/
theorem turns_accepted (verb : HttpVerb) (host port target body : String) (sockOpen : Bool)
    (idle : s.inFlight = false) (path : validTarget target = true) :
    Turns s.nextRequest s.disarmed.view.accept
      (s.asyncRequest verb host port target body sockOpen).view := by
  rw [asyncRequest, if_neg (by simp [idle]), if_pos path]
  exact turns_startRequest verb sockOpen (s.accept host port target body)

/-- A call without a path is answered at once. -/
theorem view_invalid (verb : HttpVerb) (host port target body : String) (sockOpen : Bool)
    (idle : s.inFlight = false) (path : validTarget target = false) :
    (s.asyncRequest verb host port target body sockOpen).view =
      s.disarmed.view.accept.finish s.nextRequest
        { ec := some .invalidArgument, body := s.responseBody } := by
  rw [asyncRequest, if_neg (by simp [idle]), if_neg (by simp [path]), view_finish rfl]
  rfl

theorem view_refused (verb : HttpVerb) (host port target body : String) (sockOpen : Bool)
    (busy : s.inFlight = true) :
    (s.asyncRequest verb host port target body sockOpen).view = s.view.refuse refusal := by
  rw [asyncRequest, if_pos busy]
  rfl

/-!
### One event

That answers are in order holds for every event. That a handler acts on the request of its own needs more:
nothing but idle waits may be left when a request is accepted.
-/

theorem live_of_not_idle {h : RestHandler} (acts : h.idle = false) : h.liveOwner = some h.owner := by
  obtain ⟨op, owner⟩ := h
  cases op with
  | deadline wait => cases wait <;> simp_all [RestHandler.idle, RestHandler.liveOwner]
  | shutdownDeadline wait => cases wait <;> simp_all [RestHandler.idle, RestHandler.liveOwner]
  | _ => simp [RestHandler.liveOwner]

theorem disarm_of_not_idle {h : RestHandler} (acts : h.idle = false) :
    h.disarm = h ∧ h.disarmShutdown = h := by
  obtain ⟨op, owner⟩ := h
  cases op with
  | deadline wait =>
      cases wait <;> simp_all [RestHandler.idle, RestHandler.disarm, RestHandler.disarmShutdown,
        WaitStatus.cancel]
  | shutdownDeadline wait =>
      cases wait <;> simp_all [RestHandler.idle, RestHandler.disarm, RestHandler.disarmShutdown,
        WaitStatus.cancel]
  | _ => exact ⟨rfl, rfl⟩

theorem liveOwner_disarmed_of_idle {h : RestHandler} (idle : h.idle = true) :
    h.disarm.disarmShutdown.liveOwner = none := by
  obtain ⟨op, owner⟩ := h
  cases op with
  | deadline wait =>
      cases wait <;> simp_all [RestHandler.idle, RestHandler.disarm, RestHandler.disarmShutdown,
        RestHandler.liveOwner, WaitStatus.cancel]
  | shutdownDeadline wait =>
      cases wait <;> simp_all [RestHandler.idle, RestHandler.disarm, RestHandler.disarmShutdown,
        RestHandler.liveOwner, WaitStatus.cancel]
  | _ => cases idle

theorem live_disarmed_of_idle (idle : ∀ h ∈ s.outstanding, h.idle = true) : s.disarmed.view.live = [] := by
  rw [view, disarmed, disarmDeadline, cancelShutdownDeadline]
  dsimp only
  rw [List.filterMap_eq_nil_iff]
  intro changed hchanged
  rw [List.map_map] at hchanged
  obtain ⟨h, hh, rfl⟩ := List.mem_map.mp hchanged
  exact liveOwner_disarmed_of_idle (idle h hh)

/-- No request with a path is accepted while a handler of an earlier one is outstanding, but for waits that
    have not expired. -/
def Settled (s : RestClient) : RestEvent → Prop
  | .asyncGet _ _ target _ =>
      s.inFlight = false → validTarget target = true → ∀ h ∈ s.outstanding, h.idle = true
  | .asyncPost _ _ target _ _ =>
      s.inFlight = false → validTarget target = true → ∀ h ∈ s.outstanding, h.idle = true
  | _ => True

theorem served_asyncRequest (verb : HttpVerb) (host port target body : String) (sockOpen : Bool)
    (s : RestClient) :
    Served refusal s.view (s.asyncRequest verb host port target body sockOpen).view := by
  cases hbusy : s.inFlight with
  | true =>
      rw [view_refused verb host port target body sockOpen hbusy]
      exact .refused
  | false =>
      refine .accepted (turns_disarmed 0 s) (?_ : Turns s.nextRequest _ _)
      cases hpath : validTarget target with
      | false =>
          rw [view_invalid verb host port target body sockOpen hbusy hpath]
          exact .single (.finish _ rfl _)
      | true => exact turns_accepted verb host port target body sockOpen hbusy hpath

theorem served_handler (i : Nat) (c : Completion) (s : RestClient) :
    Served refusal s.view (s.handler i c).view := by
  rcases handler_cases i c s with hsame | ⟨h, -, hrun⟩
  · rw [hsame]
    exact .handler (.refl : Turns 0 s.view s.view)
  · rw [hrun]
    exact .handler ((turns_erase h.owner i s).trans (turns_runHandler h c _))

/-- What an event does to the board.  Whether handlers act on their own request is not said here. -/
theorem served_step (s : RestClient) (e : RestEvent) : Served refusal s.view (s.step e).view := by
  cases e with
  | asyncGet host port target sockOpen => exact served_asyncRequest .get host port target "" sockOpen s
  | asyncPost host port target body sockOpen => exact served_asyncRequest .post host port target body sockOpen s
  | cancel => exact .handler (turns_cancel s)
  | expire i =>
      rw [view_expire]
      exact .handler (.refl : Turns 0 s.view s.view)
  | handler i c => exact served_handler i c s

theorem answered_step (inv : Answered refusal s.view) (e : RestEvent) :
    Answered refusal (s.step e).view :=
  inv.served (served_step s e)

theorem answered_events (inv : Answered refusal s.view) (events : List RestEvent) :
    Answered refusal (run step s events).view := by
  have hstep : ∀ (s : RestClient) (e : RestEvent), Answered refusal s.view →
      Answered refusal (s.step e).view := fun s e inv => answered_step inv e
  exact invariant_run hstep inv events

theorem owned_asyncRequest (inv : Owned s.view) {verb : HttpVerb} {host port target body : String}
    {sockOpen : Bool}
    (settled : s.inFlight = false → validTarget target = true → ∀ h ∈ s.outstanding, h.idle = true) :
    Owned (s.asyncRequest verb host port target body sockOpen).view := by
  have hdisarmed : Owned s.disarmed.view :=
    inv.shrink ((live_map_sublist liveOwner_disarmShutdown _).trans
      (live_map_sublist liveOwner_disarm s.outstanding))
  cases hbusy : s.inFlight with
  | true => exact view_refused verb host port target body sockOpen hbusy ▸ inv.refuse refusal
  | false =>
      cases hpath : validTarget target with
      | false =>
          exact view_invalid verb host port target body sockOpen hbusy hpath ▸ hdisarmed.accept_finish _
      | true =>
          have haccept := hdisarmed.accept (live_disarmed_of_idle (settled hbusy hpath))
          exact haccept.1.turns haccept.2 (turns_accepted verb host port target body sockOpen hbusy hpath)

/-- A handler that runs in a settled client acts on its own request. -/
theorem owned_handler (inv : Owned s.view) (i : Nat) (c : Completion) : Owned (s.handler i c).view := by
  rcases handler_cases i c s with hsame | ⟨h, hfound, hrun⟩
  · rw [hsame]
    exact inv
  · rw [hrun]
    have herased := inv.shrink (live_erase_sublist i s)
    by_cases hdead : h.op = .deadline .aborted ∨ h.op = .shutdownDeadline .aborted
    · -- a cancelled wait does nothing
      have hnothing : ({ s with outstanding := s.outstanding.eraseIdx i } : RestClient).runHandler h c =
          { s with outstanding := s.outstanding.eraseIdx i } := by
        rcases hdead with hop | hop <;> simp [runHandler, hop]
      rw [hnothing]
      exact herased
    · have hlive : h.owner ∈ s.view.live :=
        List.mem_filterMap.mpr ⟨h, List.mem_of_getElem? hfound, if_neg hdead⟩
      have hacts := inv.acts hlive
      exact herased.turns ⟨hacts.known, hacts.current⟩
        (turns_runHandler h c { s with outstanding := s.outstanding.eraseIdx i })

theorem owned_cancel (inv : Owned s.view) : Owned s.cancel.view := by
  by_cases hbusy : s.inFlight = true
  · exact inv.turns ⟨inv.current_known hbusy, fun _ => rfl⟩ (turns_cancel s)
  · rw [cancel, if_neg hbusy]
    exact inv

/-- Callbacks are in order, and effects are on the own request. -/
structure Inv (s : RestClient) : Prop where
  answered : Answered refusal s.view
  owned : Owned s.view

theorem Inv.step (inv : s.Inv) {e : RestEvent} (settled : s.Settled e) : (s.step e).Inv := by
  refine ⟨answered_step inv.answered e, ?_⟩
  cases e with
  | asyncGet host port target sockOpen => exact owned_asyncRequest inv.owned settled
  | asyncPost host port target body sockOpen => exact owned_asyncRequest inv.owned settled
  | cancel => exact owned_cancel inv.owned
  | expire i => exact view_expire i s ▸ inv.owned
  | handler i c => exact owned_handler inv.owned i c

/-!
### A handler that was overlooked

Nothing marks a handler with its request. So one that is left over fails or completes whatever request is in
flight, and an error is enough to make it do so.
-/

/-- Whoever fails a client that has no error yet acts on the request in flight. -/
theorem effect_of_fail (busy : s.inFlight = true) (clean : s.finalEc = none) (actor : Nat) (ec : RestError) :
    (actor, s.current) ∈ (s.fail actor ec).effects := by
  have htouched : (actor, s.current) ∈ (s.touch actor).view.effects := by
    simp [view, touch]
  rw [fail, if_neg (by simp [busy, clean])]
  exact (turns_closeOrShutdown actor { s.touch actor with finalEc := some ec }).effects_subset htouched

/-- Whoever completes the request in flight acts on it. -/
theorem effect_of_finish {request : Nat} (busy : s.inFlight = true) (current : s.current = request)
    (actor : Nat) : (actor, request) ∈ (s.finish actor).effects := by
  have hfinished : (s.finish actor).view.effects = _ := congrArg Board.effects (view_finish busy)
  have hmem : (actor, s.current) ∈ (s.finish actor).view.effects := by
    rw [hfinished]
    exact List.mem_append_right _ (List.mem_singleton_self _)
  exact current ▸ hmem

/-- An error reported to a handler that is not a cancelled wait acts on the request in flight, whoever has
    started the handler. -/
theorem effect_of_error {h : RestHandler} (acts : h.idle = false) (busy : s.inFlight = true)
    (clean : s.finalEc = none) (ec : RestError) :
    (h.owner, s.current) ∈ (s.runHandler h { ec := some ec }).effects := by
  cases hop : h.op with
  | shutdown =>
      simp only [runHandler, hop]
      apply effect_of_finish
      · exact busy
      · rfl
  | deadline wait =>
      have hexpired : wait = .expired := by simpa [RestHandler.idle, hop] using acts
      have htouched : (h.owner, s.current) ∈ (s.touch h.owner).view.effects := by
        simp [view, touch]
      simp only [runHandler, hop, hexpired, reduceCtorEq, if_false, cancelOperations, busy, if_true]
      exact (turns_fail h.owner .timedOut (s.touch h.owner)).effects_subset htouched
  | shutdownDeadline wait =>
      have hexpired : wait = .expired := by simpa [RestHandler.idle, hop] using acts
      simp only [runHandler, hop, hexpired, reduceCtorEq, decide_false, busy, Bool.not_true, Bool.or_self,
        Bool.false_eq_true, if_false]
      apply effect_of_finish <;> rfl
  | _ =>
      simp only [runHandler, hop]
      exact effect_of_fail busy clean h.owner ec

theorem mem_disarmed {h : RestHandler} (acts : h.idle = false) (outstanding : h ∈ s.outstanding) :
    h ∈ s.disarmed.disarmDeadline.outstanding := by
  obtain ⟨hdisarm, hshutdown⟩ := disarm_of_not_idle acts
  have hfirst : h ∈ s.outstanding.map RestHandler.disarm :=
    List.mem_map.mpr ⟨h, outstanding, hdisarm⟩
  have hsecond : h ∈ (s.outstanding.map RestHandler.disarm).map RestHandler.disarmShutdown :=
    List.mem_map.mpr ⟨h, hfirst, hshutdown⟩
  exact List.mem_map.mpr ⟨h, hsecond, hdisarm⟩

/-- What a call that is accepted leaves: its request in flight without an error, and every handler that was
    outstanding, but for the waits that were cancelled. -/
theorem asyncRequest_accepted (verb : HttpVerb) (host port target body : String) (sockOpen : Bool)
    (idle : s.inFlight = false) (path : validTarget target = true) :
    (s.asyncRequest verb host port target body sockOpen).inFlight = true ∧
      (s.asyncRequest verb host port target body sockOpen).finalEc = none ∧
      (s.asyncRequest verb host port target body sockOpen).current = s.nextRequest ∧
      ∀ h ∈ s.outstanding, h.idle = false →
        h ∈ (s.asyncRequest verb host port target body sockOpen).outstanding := by
  obtain ⟨hbusy, hclean, hcurrent, houtstanding⟩ :=
    resetPerRequestState_fields sockOpen (s.accept host port target body)
  have hkept : ∀ h ∈ s.outstanding, h.idle = false →
      h ∈ ((s.accept host port target body).resetPerRequestState sockOpen).disarmDeadline.outstanding := by
    intro h hh hacts
    have hdisarmed : h ∈ (s.accept host port target body).disarmed.outstanding.map RestHandler.disarm :=
      mem_disarmed hacts hh
    rw [← houtstanding] at hdisarmed
    exact hdisarmed
  rw [asyncRequest, if_neg (by simp [idle]), if_pos path, startRequest]
  generalize (s.accept host port target body).resetPerRequestState sockOpen = reset at *
  exact ⟨hbusy, hclean, hcurrent, fun h hh hacts =>
    List.mem_append_left _ (List.mem_append_left _ (hkept h hh hacts))⟩

/-! ### Result -/

/-- Every callback was invoked at most once, the callback of every refused call once and with the refusal,
    and no handler has completed, failed or aborted another request than its own. -/
structure Isolated (s : RestClient) : Prop where
  once : (s.answers.map Prod.fst).Nodup
  refusedOnce : ∀ request ∈ s.refused,
    s.answers.filter (fun answer => answer.1 == request) = [(request, refusal)]
  own : ∀ effect ∈ s.effects, effect.1 = effect.2

theorem Inv.isolated (inv : s.Inv) : s.Isolated :=
  ⟨inv.answered.once, fun _ hrefused => inv.answered.refused_once hrefused, inv.owned.isolated⟩

/-- Handlers that run, and nothing else. -/
def OnlyHandlers (later : List RestEvent) : Prop := ∀ e ∈ later, ∃ i c, e = .handler i c

/-- Isolation, also after any further handlers have run. -/
def StaysIsolated (s : RestClient) : Prop := ∀ later, OnlyHandlers later → (run step s later).Isolated

theorem Inv.staysIsolated (inv : s.Inv) : s.StaysIsolated := by
  intro later hlater
  have hsettled : Along RestClient.step Settled s later := by
    apply Along.of_always
    intro e he t
    obtain ⟨i, c, rfl⟩ := hlater e he
    trivial
  have hstep : ∀ (t : RestClient) (e : RestEvent), t.Inv → t.Settled e → (t.step e).Inv :=
    fun t e inv hsettled => inv.step hsettled
  have hinv : (run RestClient.step s later).Inv := hsettled.invariant hstep inv
  exact hinv.isolated

/-- A request that is accepted while a handler of an earlier one can act is failed or completed by it. -/
theorem not_staysIsolated_of_outstanding (inv : s.Inv) {verb : HttpVerb} {host port target body : String}
    {sockOpen : Bool} (idle : s.inFlight = false) (path : validTarget target = true) {h : RestHandler}
    (outstanding : h ∈ s.outstanding) (acts : h.idle = false) :
    ¬ (s.asyncRequest verb host port target body sockOpen).StaysIsolated := by
  intro hstays
  obtain ⟨hbusy, hclean, hcurrent, hkept⟩ :=
    asyncRequest_accepted verb host port target body sockOpen idle path
  generalize s.asyncRequest verb host port target body sockOpen = t at hstays hbusy hclean hcurrent hkept
  obtain ⟨i, hfound⟩ := List.mem_iff_getElem?.mp (hkept h outstanding acts)
  have hover : ¬ (h.op = .deadline .waiting ∨ h.op = .shutdownDeadline .waiting) := by
    rintro (hop | hop) <;> simp [RestHandler.idle, hop] at acts
  have hrun : t.handler i { ec := some .eof } =
      { t with outstanding := t.outstanding.eraseIdx i }.runHandler h { ec := some .eof } := by
    rw [handler, hfound]
    exact if_neg hover
  have heffect : (h.owner, t.current) ∈ (t.handler i { ec := some .eof }).effects := by
    rw [hrun]
    exact effect_of_error (s := { t with outstanding := t.outstanding.eraseIdx i }) acts hbusy hclean .eof
  have hone : OnlyHandlers [.handler i { ec := some .eof }] := by
    intro e he
    exact ⟨i, _, List.mem_singleton.mp he⟩
  have hsame : h.owner = t.current := (hstays _ hone).own _ heffect
  -- the handler is older than the request
  have hlive : h.owner ∈ s.view.live :=
    List.mem_filterMap.mpr ⟨h, outstanding, live_of_not_idle acts⟩
  have hold : h.owner < s.nextRequest := inv.owned.known _ hlive
  rw [hsame, hcurrent] at hold
  exact Nat.lt_irrefl _ hold

theorem settled_of_staysIsolated (inv : s.Inv) {e : RestEvent} (stays : (s.step e).StaysIsolated) :
    s.Settled e := by
  cases e with
  | asyncGet host port target sockOpen =>
      intro hidle hpath h hh
      by_contra hacts
      exact not_staysIsolated_of_outstanding inv hidle hpath hh (by simpa using hacts) stays
  | asyncPost host port target body sockOpen =>
      intro hidle hpath h hh
      by_contra hacts
      exact not_staysIsolated_of_outstanding inv hidle hpath hh (by simpa using hacts) stays
  | cancel => trivial
  | expire i => trivial
  | handler i c => trivial

theorem inv_start (keepAlive : Bool) : ({ keepAlive := keepAlive } : RestClient).Inv :=
  ⟨⟨by simp [view], by simp [view], by simp [view], by simp [view], by simp [view]⟩,
    ⟨by simp [view], by simp [view], by simp [view], by simp [view]⟩⟩

/-- Callbacks are in order in every run, settled or not: it is only their requests that handlers mix up. -/
theorem answered_run (keepAlive : Bool) (events : List RestEvent) :
    Answered refusal (run step { keepAlive := keepAlive } events).view :=
  answered_events (inv_start keepAlive).answered events

/-- Request isolation.  For every sequence of calls, cancels, passing deadlines and handlers: in every state
    it passes, and whichever handlers run from there, callbacks are invoked at most once, refused calls are
    answered by the refusal, and handlers act on their own request only, exactly if no request with a path
    is accepted while a handler of an earlier one is outstanding, other than a wait that has not expired. -/
theorem request_isolation_iff (keepAlive : Bool) (events : List RestEvent) :
    (∀ reached later, reached <+: events → OnlyHandlers later →
        (run step { keepAlive := keepAlive } (reached ++ later)).Isolated) ↔
      Along step Settled { keepAlive := keepAlive } events := by
  have hstep : ∀ (s : RestClient) (e : RestEvent), s.Inv → s.Settled e → (s.step e).Inv :=
    fun s e inv hsettled => inv.step hsettled
  have hneeded : ∀ (s : RestClient) (e : RestEvent), s.Inv → (s.step e).StaysIsolated → s.Settled e :=
    fun s e inv hstays => settled_of_staysIsolated inv hstays
  have hexact := Along.iff_of_invariant Inv StaysIsolated (fun s inv => inv.staysIsolated) hstep hneeded
    (inv_start keepAlive) events
  rw [← hexact]
  constructor
  · intro hall reached hprefix later hlater
    rw [← run_append]
    exact hall reached later hprefix hlater
  · intro hall reached later hprefix hlater
    rw [run_append]
    exact hall reached hprefix later hlater

/-- A TLS shutdown hangs, its deadline completes the request, and the callback issues the next one.  The
    handler of the aborted shutdown then completes that one as well, with its own error. -/
theorem late_shutdown_fails_next_request :
    ∃ events : List RestEvent, ¬ (run step {} events).Isolated ∧
      (run step {} events).answers =
        [(0, { ec := some .timedOut, body := "first" }), (1, { ec := some (.other 125), body := "" })] := by
  refine ⟨[.asyncGet "host" "443" "/depth" false, .handler 1 {}, .handler 1 {}, .handler 1 {},
    .handler 1 {}, .handler 1 { body := "first" }, .expire 1, .handler 1 {},
    .asyncGet "host" "443" "/depth" false, .handler 1 { ec := some (.other 125) }], ?_, ?_⟩
  · intro hisolated
    exact absurd (hisolated.own (0, 1) (by decide)) (by decide)
  · decide

end RestClient

end ZidaBot.Feed
