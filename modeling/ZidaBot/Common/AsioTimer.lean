/-
Module: ZidaBot.Common.AsioTimer
Purpose: What the code relies on of `boost::asio::steady_timer`: the wait started by one `async_wait`, from
  its start until its handler runs.  The deadline and the execution of the handler are two steps, and
  cancelling the timer in between does not reach a handler that is already queued.
Trusted boundary: documented behaviour of the library
Main exports: WaitStatus, WaitStatus.cancel, WaitStatus.expire, live_map_sublist, live_modify
-/

namespace ZidaBot

/-- A wait whose handler has not run yet: the deadline lies ahead, or the handler is queued with a success
    code, or it is queued with `operation_aborted`. -/
inductive WaitStatus where
  | waiting
  | expired
  | aborted
deriving DecidableEq, Repr

namespace WaitStatus

/-- `cancel()`, a new `expires_after()`, or the destruction of the timer. -/
def cancel : WaitStatus → WaitStatus
  | .waiting => .aborted
  | queued => queued

/-- The deadline is reached. -/
def expire : WaitStatus → WaitStatus
  | .waiting => .expired
  | queued => queued

/-- A queued handler keeps its code. -/
@[simp] theorem cancel_eq_expired {status : WaitStatus} : status.cancel = .expired ↔ status = .expired := by
  cases status <;> simp [cancel]

/-- After a cancel the handler is queued, with a success code only if it was before. -/
theorem cancel_eq_aborted {status : WaitStatus} : status.cancel = .aborted ↔ status ≠ .expired := by
  cases status <;> simp [cancel]

@[simp] theorem expire_eq_aborted {status : WaitStatus} : status.expire = .aborted ↔ status = .aborted := by
  cases status <;> simp [expire]

end WaitStatus

/-!
### Lists of waits

A wait may still count for something, which `live` says.  Cancelling takes waits out of those that count,
and a deadline that passes takes none.
-/

section Live

variable {α β : Type} {live : α → Option β} {change : α → α}

theorem live_map_sublist (same : ∀ wait, live (change wait) = live wait ∨ live (change wait) = none)
    (waits : List α) : ((waits.map change).filterMap live).Sublist (waits.filterMap live) := by
  induction waits with
  | nil => exact List.Sublist.refl _
  | cons wait waits ih =>
      rw [List.map_cons]
      rcases same wait with hsame | hnone
      · simp only [List.filterMap_cons, hsame]
        cases live wait with
        | none => exact ih
        | some counted => exact ih.cons_cons counted
      · rw [List.filterMap_cons_none hnone]
        exact ih.trans ((List.sublist_cons_self ..).filterMap _)

theorem live_modify (same : ∀ wait, live (change wait) = live wait) (i : Nat) (waits : List α) :
    (waits.modify i change).filterMap live = waits.filterMap live := by
  induction waits generalizing i with
  | nil => simp
  | cons wait waits ih =>
      cases i with
      | zero => simp [List.filterMap_cons, same]
      | succ i => simp [List.filterMap_cons, ih]

end Live

end ZidaBot
