/-
Module: ZidaBot.Exec.DeadlineOrderTracker
Purpose: The order tracker of `exec/src/exec/DeadlineOrderTracker.cpp`: every pending order has a deadline
  timer, and its fill, its deadline or the shutdown ends the wait.  Everything runs on the exec strand, so
  an event is one call or one handler.  `outcomes` is written and never read: it records what the tracker
  has told the outside, with `timedOut` standing for the invocation of `on_timeout_`.
Trusted boundary: human-reviewed model
Main exports: DeadlineWait, OrderOutcome, DeadlineOrderTracker, registerPending, onFill, cancelAll,
  timerHandler, TrackerEvent, DeadlineOrderTracker.step
-/
import ZidaBot.Common.AsioTimer
import ZidaBot.Exec.ExecEngine

namespace ZidaBot.Exec

/-- A wait on a deadline timer, with the order id its handler has captured. -/
structure DeadlineWait where
  oid : String
  status : WaitStatus
deriving DecidableEq, Repr

/-- How the tracker is done with an order. -/
inductive OrderOutcome where
  | confirmed
  | timedOut
  | cancelled
deriving DecidableEq, Repr

/-- `pending_` holds each order under its own id, together with its timer.  A wait that is still waiting
    belongs to the timer of the pending order of its id: a timer that is not kept is destroyed. -/
structure DeadlineOrderTracker where
  pending : List Order := []
  waits : List DeadlineWait := []
  outcomes : List (String × OrderOutcome) := []
deriving DecidableEq

namespace DeadlineOrderTracker

/-- The keys of `pending_`. -/
def pendingIds (t : DeadlineOrderTracker) : List String := t.pending.map Order.clientOrderId

/-- Cancel or destroy the timers of some orders. -/
def cancelTimers (t : DeadlineOrderTracker) (oids : List String) : DeadlineOrderTracker :=
  { t with
    waits := t.waits.map fun w => if w.oid ∈ oids then { w with status := w.status.cancel } else w }

/-- `pending_.erase(oid)`. -/
def erase (t : DeadlineOrderTracker) (oid : String) : DeadlineOrderTracker :=
  { t.cancelTimers [oid] with pending := t.pending.filter fun order => order.clientOrderId ≠ oid }

/-- Note an outcome. -/
def record (t : DeadlineOrderTracker) (oid : String) (outcome : OrderOutcome) : DeadlineOrderTracker :=
  { t with outcomes := t.outcomes ++ [(oid, outcome)] }

/-- `register_pending`.  `emplace` does not replace an entry: the timer of a second order with the same id
    is destroyed at once. -/
def registerPending (t : DeadlineOrderTracker) (order : Order) : DeadlineOrderTracker :=
  if order.clientOrderId ∈ t.pendingIds then
    { t with waits := t.waits ++ [{ oid := order.clientOrderId, status := .aborted }] }
  else
    { t with
      pending := t.pending ++ [order]
      waits := t.waits ++ [{ oid := order.clientOrderId, status := .waiting }] }

/-- `on_fill`; an unknown id is only logged. -/
def onFill (t : DeadlineOrderTracker) (fill : Fill) : DeadlineOrderTracker :=
  if fill.clientOrderId ∈ t.pendingIds then
    (t.erase fill.clientOrderId).record fill.clientOrderId .confirmed
  else t

/-- `cancel_all`. -/
def cancelAll (t : DeadlineOrderTracker) : DeadlineOrderTracker :=
  { t.cancelTimers t.pendingIds with
    pending := []
    outcomes := t.outcomes ++ t.pendingIds.map fun oid => (oid, .cancelled) }

/-- The handler of the wait at position `i` runs.  It does not look whether the order is still pending. -/
def timerHandler (t : DeadlineOrderTracker) (i : Nat) : DeadlineOrderTracker :=
  match t.waits[i]? with
  | none => t
  | some wait =>
      match wait.status with
      | .waiting => t
      | .aborted => { t with waits := t.waits.eraseIdx i }
      | .expired => ({ t with waits := t.waits.eraseIdx i }.erase wait.oid).record wait.oid .timedOut

/-- The deadline of the wait at position `i` is reached, which queues its handler. -/
def timerExpires (t : DeadlineOrderTracker) (i : Nat) : DeadlineOrderTracker :=
  { t with waits := t.waits.modify i fun w => { w with status := w.status.expire } }

end DeadlineOrderTracker

/-- What happens on the exec strand, and the passing of deadlines. -/
inductive TrackerEvent where
  | registerPending (order : Order)
  | expire (i : Nat)
  | handler (i : Nat)
  | onFill (fill : Fill)
  | cancelAll
deriving DecidableEq

/-- One event. -/
def DeadlineOrderTracker.step (t : DeadlineOrderTracker) : TrackerEvent → DeadlineOrderTracker
  | .registerPending order => t.registerPending order
  | .expire i => t.timerExpires i
  | .handler i => t.timerHandler i
  | .onFill fill => t.onFill fill
  | .cancelAll => t.cancelAll

end ZidaBot.Exec
