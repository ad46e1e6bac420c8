/-
Module: ZidaBot.Proofs.RateLimitedSnapshot
Purpose: A snapshot request that is answered with status 429 or 418.  The client reports every status outside
  2xx as an error, and the error stays whatever the shutdown, the deadlines and later calls do.  The handler
  looks at the error before it looks at the status, so the branch that would retry the request is never
  taken and the session is given up.
Trusted boundary: none
Main exports: Operation.isClosing, RestClient.Rejected, RestClient.rejected_run,
  RestClient.answer_of_rejected, RetriedInPlace, rateLimited_restarts
-/
import ZidaBot.Proofs.RestClient
import ZidaBot.Proofs.FeedSession

namespace ZidaBot.Feed

open Runs SingleFlight GenericFeedHandler

/-!
### The answer of the client

Between the response and the callback there may be an orderly shutdown with its own deadline. Whatever
happens in it, the first error is the one that is reported.
-/

/-- What may still be outstanding once a response was read: the shutdown and the two timers. -/
def Operation.isClosing : Operation → Bool
  | .shutdown => true
  | .deadline _ => true
  | .shutdownDeadline _ => true
  | _ => false

/-- The answer to a request whose response has a status outside 2xx. -/
def rejection (body : String) : Answer := { ec := some .non2xx, body := body }

namespace RestClient

/-- Such a response was read and its request is still in flight. -/
structure Rejected (request : Nat) (body : String) (s : RestClient) : Prop where
  inFlight : s.inFlight = true
  held : s.cb = some request
  ec : s.finalEc = some .non2xx
  read : s.responseBody = body
  closing : ∀ h ∈ s.outstanding, h.op.isClosing = true

variable {request : Nat} {body : String} {s : RestClient}

theorem isClosing_disarm (h : RestHandler) : h.disarm.op.isClosing = h.op.isClosing := by
  obtain ⟨op, owner⟩ := h
  cases op <;> rfl

theorem isClosing_disarmShutdown (h : RestHandler) : h.disarmShutdown.op.isClosing = h.op.isClosing := by
  obtain ⟨op, owner⟩ := h
  cases op <;> rfl

theorem isClosing_expire (h : RestHandler) : h.expire.op.isClosing = h.op.isClosing := by
  obtain ⟨op, owner⟩ := h
  cases op <;> rfl

/-- The outcome of every operation on such a client: it stays so, or the request is answered. -/
def RejectedOrAnswered (request : Nat) (body : String) (s : RestClient) : Prop :=
  s.Rejected request body ∨ (request, rejection body) ∈ s.answers

namespace Rejected

theorem disarmDeadline (rejected : s.Rejected request body) : s.disarmDeadline.Rejected request body := by
  refine ⟨rejected.inFlight, rejected.held, rejected.ec, rejected.read, ?_⟩
  intro h hh
  obtain ⟨before, hbefore, rfl⟩ := List.mem_map.mp hh
  exact (isClosing_disarm before).trans (rejected.closing before hbefore)

theorem cancelShutdownDeadline (rejected : s.Rejected request body) :
    s.cancelShutdownDeadline.Rejected request body := by
  refine ⟨rejected.inFlight, rejected.held, rejected.ec, rejected.read, ?_⟩
  intro h hh
  obtain ⟨before, hbefore, rfl⟩ := List.mem_map.mp hh
  exact (isClosing_disarmShutdown before).trans (rejected.closing before hbefore)

theorem cancelOperations (rejected : s.Rejected request body) (actor : Nat) :
    (s.cancelOperations actor).Rejected request body := by
  rw [RestClient.cancelOperations, if_pos rejected.inFlight]
  exact ⟨rejected.inFlight, rejected.held, rejected.ec, rejected.read, rejected.closing⟩

/-- A later error does not replace the first one. -/
theorem laterError (rejected : s.Rejected request body) (later : Option RestError) :
    { s with finalEc := s.finalEc.or later }.Rejected request body := by
  refine ⟨rejected.inFlight, rejected.held, ?_, rejected.read, rejected.closing⟩
  rw [rejected.ec]
  rfl

theorem start (rejected : s.Rejected request body) {op : Operation} (closing : op.isClosing = true)
    (owner : Nat) : (s.start owner op).Rejected request body := by
  refine ⟨rejected.inFlight, rejected.held, rejected.ec, rejected.read, ?_⟩
  intro h hh
  rcases List.mem_append.mp hh with hold | hnew
  · exact rejected.closing h hold
  · rw [List.mem_singleton.mp hnew]
    exact closing

/-- The callback gets the error and the body. -/
theorem finish (rejected : s.Rejected request body) (actor : Nat) :
    (request, rejection body) ∈ (s.finish actor).answers := by
  have hanswers : (s.finish actor).answers =
      s.answers ++ (s.cb.map fun r => (r, ({ ec := s.finalEc, body := s.responseBody } : Answer))).toList :=
    congrArg Board.answers (view_finish rejected.inFlight)
  rw [hanswers, rejected.held, rejected.ec, rejected.read]
  exact List.mem_append_right _ (List.mem_singleton_self _)

theorem doTlsShutdown (rejected : s.Rejected request body) (actor : Nat) :
    (s.doTlsShutdown actor).Rejected request body := by
  rw [RestClient.doTlsShutdown]
  split
  · exact rejected
  · have hdown : { s with shuttingDown := true }.Rejected request body :=
      ⟨rejected.inFlight, rejected.held, rejected.ec, rejected.read, rejected.closing⟩
    exact (hdown.cancelShutdownDeadline.start rfl actor).start rfl actor

theorem closeOrShutdown (rejected : s.Rejected request body) (actor : Nat) :
    RejectedOrAnswered request body (s.closeOrShutdown actor) := by
  rw [RestClient.closeOrShutdown]
  split
  · have hclosed : s.closeSocketHard.Rejected request body :=
      ⟨rejected.inFlight, rejected.held, rejected.ec, rejected.read, rejected.closing⟩
    exact Or.inr (hclosed.finish actor)
  · exact Or.inl (rejected.doTlsShutdown actor)

/-- A handler that is left over cannot change the error. -/
theorem runHandler (rejected : s.Rejected request body) {h : RestHandler} (closing : h.op.isClosing = true)
    (c : Completion) : RejectedOrAnswered request body (s.runHandler h c) := by
  obtain ⟨op, owner⟩ := h
  cases op with
  | resolve => exact absurd closing Bool.false_ne_true
  | connect => exact absurd closing Bool.false_ne_true
  | handshake => exact absurd closing Bool.false_ne_true
  | write => exact absurd closing Bool.false_ne_true
  | read => exact absurd closing Bool.false_ne_true
  | shutdown =>
      have hcancelled := rejected.cancelShutdownDeadline
      simp only [RestClient.runHandler]
      split
      · exact Or.inr (hcancelled.finish owner)
      · exact Or.inr ((hcancelled.laterError c.ec).finish owner)
  | deadline wait =>
      simp only [RestClient.runHandler]
      split
      · exact Or.inl rejected
      · have htouched := rejected.cancelOperations owner
        rw [fail, if_pos (by simp [htouched.ec])]
        exact Or.inl htouched
  | shutdownDeadline wait =>
      simp only [RestClient.runHandler]
      split
      · exact Or.inl rejected
      · exact Or.inr ((rejected.laterError (some .timedOut)).finish owner)

theorem cancel (rejected : s.Rejected request body) : RejectedOrAnswered request body s.cancel := by
  have hended := rejected.laterError (some .operationCanceled)
  rw [RestClient.cancel, if_pos rejected.inFlight]
  exact (hended.disarmDeadline.cancelShutdownDeadline.cancelOperations _).closeOrShutdown _

/-- A call meanwhile is refused. -/
theorem asyncRequest (rejected : s.Rejected request body) (verb : HttpVerb) (host port target text : String)
    (sockOpen : Bool) : (s.asyncRequest verb host port target text sockOpen).Rejected request body := by
  rw [RestClient.asyncRequest, if_pos rejected.inFlight]
  exact ⟨rejected.inFlight, rejected.held, rejected.ec, rejected.read, rejected.closing⟩

/-- One event. -/
theorem step (rejected : s.Rejected request body) (e : RestEvent) :
    RejectedOrAnswered request body (s.step e) := by
  cases e with
  | asyncGet host port target sockOpen => exact Or.inl (rejected.asyncRequest .get host port target "" sockOpen)
  | asyncPost host port target text sockOpen =>
      exact Or.inl (rejected.asyncRequest .post host port target text sockOpen)
  | cancel => exact rejected.cancel
  | expire i =>
      refine Or.inl ⟨rejected.inFlight, rejected.held, rejected.ec, rejected.read, ?_⟩
      intro h hh
      obtain ⟨j, hj⟩ := List.mem_iff_getElem?.mp hh
      rw [RestClient.step, List.getElem?_modify] at hj
      obtain ⟨before, hbefore, hchange⟩ := Option.map_eq_some_iff.mp hj
      have hclosing := rejected.closing before (List.mem_of_getElem? hbefore)
      rw [← hchange]
      split
      · exact (isClosing_expire before).trans hclosing
      · exact hclosing
  | handler i c =>
      rcases handler_cases i c s with hsame | ⟨h, hmem, hrun⟩
      · rw [RestClient.step, hsame]
        exact Or.inl rejected
      · have herased : { s with outstanding := s.outstanding.eraseIdx i }.Rejected request body :=
          ⟨rejected.inFlight, rejected.held, rejected.ec, rejected.read,
            fun other hother => rejected.closing other (List.mem_of_mem_eraseIdx hother)⟩
        rw [RestClient.step, hrun]
        exact herased.runHandler (rejected.closing h (List.mem_of_getElem? hmem)) c

end Rejected

/-- Any number of events. -/
theorem rejected_run (start : RejectedOrAnswered request body s) (events : List RestEvent) :
    RejectedOrAnswered request body (run step s events) := by
  have hstep : ∀ (s : RestClient) (e : RestEvent), RejectedOrAnswered request body s →
      RejectedOrAnswered request body (s.step e) := by
    intro s e hs
    rcases hs with rejected | answered
    · exact rejected.step e
    · exact Or.inr ((served_step s e).answers_subset answered)
  exact invariant_run hstep start events

/-- The read of the request in flight is outstanding, and beside it at most timers and a shutdown. -/
structure Reading (i request : Nat) (s : RestClient) : Prop where
  answered : Answered refusal s.view
  inFlight : s.inFlight = true
  held : s.cb = some request
  reading : ∃ owner, s.outstanding[i]? = some { op := .read, owner := owner }
  others : ∀ h ∈ s.outstanding.eraseIdx i, h.op.isClosing = true

/-- A response with a status outside 2xx. -/
theorem rejected_of_read {i : Nat} (reading : s.Reading i request) {c : Completion} (received : c.ec = none)
    (status : c.status < 200 ∨ 300 ≤ c.status) : (s.step (.handler i c)).Rejected request c.body := by
  obtain ⟨owner, hread⟩ := reading.reading
  have hrun : s.step (.handler i c) =
      { s with outstanding := s.outstanding.eraseIdx i }.responseRead owner c := by
    simp [step, handler, hread, runHandler, received]
  rw [hrun, responseRead]
  simp only [reading.inFlight, if_true, if_pos status, Option.isNone_some, Bool.and_false,
    Bool.false_eq_true, if_false]
  apply Rejected.doTlsShutdown
  refine ⟨rfl, reading.held, rfl, rfl, ?_⟩
  intro h hh
  obtain ⟨before, hbefore, rfl⟩ := List.mem_map.mp hh
  exact (isClosing_disarm before).trans (reading.others before hbefore)

/-- The error reaches the callback, whatever the shutdown ends with and whatever else happens meanwhile. -/
theorem answer_of_rejected {i : Nat} (reading : s.Reading i request) {c : Completion}
    (received : c.ec = none) (status : c.status < 200 ∨ 300 ≤ c.status) (later : List RestEvent)
    {answer : Answer} (given : (request, answer) ∈ (run step (s.step (.handler i c)) later).answers) :
    answer = rejection c.body := by
  have hanswered := answered_events (answered_step reading.answered (.handler i c)) later
  rcases rejected_run (Or.inl (rejected_of_read reading received status)) later with rejected | hanswer
  · exact absurd (List.mem_map_of_mem given) (hanswered.held_open request rejected.held)
  · exact hanswered.unique given hanswer

end RestClient

/-!
### The handler

The handler's callback tests `ec` first and returns through `restartSync`. The branch on the status comes
after it.
-/

/-- The session is kept as it is and the request is to be repeated: nothing is cancelled, no restart was
    begun, and the timer is armed for the retry. -/
def RetriedInPlace (h after : GenericFeedHandler) : Prop :=
  after.state = h.state ∧ after.buffer = h.buffer ∧ after.controller = h.controller ∧ after.ws = h.ws ∧
    after.reconnectGen = h.reconnectGen ∧ after.reconnectTimer = some .retrySnapshot

namespace GenericFeedHandler

theorem state_restartSync {h : GenericFeedHandler} (running : h.running = true) :
    h.restartSync.state = .connecting := by
  obtain ⟨gen, flag, delay, statuses, -, hsame⟩ := restartSync_eq h running
  rw [hsame]

/-- An error is answered by a restart, whatever the status. -/
theorem restDone_of_failed {cfg : HandlerConfig} {h : GenericFeedHandler} {session : Nat}
    {outcome : HttpOutcome} (running : h.running = true) (requested : h.rest = some (.get session))
    (failed : outcome.failed = true) (now : Int) :
    h.step cfg (.restDone now outcome) = { h with rest := none }.restartSync := by
  simp [step, restDone, requested, onSnapshotDone, running, failed]

end GenericFeedHandler

theorem failed_of_rateLimited {status : Nat} (limited : status = 429 ∨ status = 418)
    (keepAlive shutdownOk : Bool) (body : String) :
    (HttpOutcome.response status keepAlive shutdownOk body).failed = true := by
  rcases limited with rfl | rfl <;> rfl

/-!
### Result
-/

/-- No rate-limited snapshot request is retried in place: the client hands its callback an error, and the
    handler gives up the session. -/
theorem rateLimited_restarts (cfg : HandlerConfig) (now : Int) (h : GenericFeedHandler) (session status : Nat)
    (keepAlive shutdownOk : Bool) (body : String) (running : h.running = true)
    (waiting : h.state = .waitRestSnapshot) (requested : h.rest = some (.get session))
    (limited : status = 429 ∨ status = 418) :
    let after := h.step cfg (.restDone now (.response status keepAlive shutdownOk body))
    (∀ (client : RestClient) (i request : Nat) (c : Completion) (later : List RestEvent) (answer : Answer),
        client.Reading i request → c.ec = none → c.status = status →
        (request, answer) ∈ (run RestClient.step (client.step (.handler i c)) later).answers →
        answer.ec = some .non2xx) ∧
      after = { h with rest := none }.restartSync ∧ after.state ≠ h.state ∧ ¬ RetriedInPlace h after := by
  intro after
  have hafter : after = { h with rest := none }.restartSync :=
    restDone_of_failed running requested (failed_of_rateLimited limited keepAlive shutdownOk body) now
  have hmoved : after.state ≠ h.state := by
    have hconnecting : { h with rest := none }.restartSync.state = .connecting := state_restartSync running
    rw [hafter, hconnecting, waiting]
    nofun
  refine ⟨?_, hafter, hmoved, fun retried => hmoved retried.1⟩
  · intro client i request c later answer reading received hstatus given
    have houtside : c.status < 200 ∨ 300 ≤ c.status := by omega
    rw [RestClient.answer_of_rejected reading received houtside later given]
    rfl

/-- A Binance feed that has buffered an update while it waits for its snapshot. -/
def waitingForSnapshot : List FeedEvent := [.wsOpen 1, .wsMessage 2 "depthUpdate 101"]

/-- There the session is given up when the venue answers 429. -/
theorem rateLimited_restarts_binance :
    let h := run (step binanceFeed) (started binanceFeed) waitingForSnapshot
    h.buffer.length = 1 ∧
      ¬ RetriedInPlace h (h.step binanceFeed (.restDone 3 (.response 429 true true "slow down"))) :=
  ⟨by decide, (rateLimited_restarts binanceFeed 3 _ 1 429 true true "slow down" (by decide) (by decide)
    (by decide) (Or.inl rfl)).2.2.2⟩

/-- And when it answers 418 and closes the connection: the buffer is dropped and a reconnect scheduled. -/
theorem banned_feed_restarts :
    let h := run (step binanceFeed) (started binanceFeed) waitingForSnapshot
    let after := h.step binanceFeed (.restDone 3 (.response 418 false true "banned"))
    h.running = true ∧ h.state = .waitRestSnapshot ∧ h.buffer.length = 1 ∧ after.buffer = [] ∧
      after.state = .connecting ∧ after.reconnectTimer = some (.reconnect 1) ∧ ¬ RetriedInPlace h after := by
  refine ⟨by decide, by decide, by decide, by decide, by decide, by decide, ?_⟩
  intro retried
  exact absurd retried.1 (by decide)

end ZidaBot.Feed
