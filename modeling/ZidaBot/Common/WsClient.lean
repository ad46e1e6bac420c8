/-
Module: ZidaBot.Common.WsClient
Purpose: The WebSocket client of `common/src/connection_handler/WsClient.cpp` as its owners see it: the
  flags that decide what a late completion may still do, the bounded outbox, and the close notification
  that is handed out once per connection.  Everything runs on one strand, so an operation is a function on
  the state; where it would call `on_close_` it returns `true` beside the state and the owner runs its
  callback.  Resolver, TCP, TLS and the WebSocket handshake are one connect attempt.
Trusted boundary: human-reviewed model
Main exports: WsClient, connect, handshakeDone, send, writeDone, cancel, close, closeDone, fail, readClosed,
  WsClient.Active, WsClient.sessionOpen
-/

namespace ZidaBot

/-- State of a client whose outgoing frames are of type `α`.  `connecting` stands for the pending
    operations of a connect attempt, `closeInFlight` for a pending `async_close`, and `inFlight` for
    `write_in_flight_` with the entry that was handed to `async_write`. -/
structure WsClient (α : Type) where
  closing : Bool := false
  opened : Bool := false
  closeNotified : Bool := false
  connecting : Bool := false
  closeInFlight : Bool := false
  outbox : List α := []
  inFlight : Option α := none
  maxOutbox : Nat := 10000
deriving DecidableEq, Repr

namespace WsClient

variable {α : Type}

/-- `connect`: always a fresh start. -/
def connect (c : WsClient α) : WsClient α :=
  { c with
    closing := false, opened := false, closeNotified := false, connecting := true
    outbox := [], inFlight := none }

/-- `start_write_` and `do_write_`.  On a closed socket the write fails at once and nothing leaves, so none
    is started. -/
def startWrite (c : WsClient α) : WsClient α :=
  match c.closing, c.inFlight, c.outbox with
  | false, none, front :: _ => { c with inFlight := some front }
  | _, _, _ => c

/-- Completion of the last handshake.  A client that is closing drops it; otherwise the owner's `on_open_`
    runs next, which the flag tells. -/
def handshakeDone (c : WsClient α) : WsClient α × Bool :=
  if c.closing || !c.connecting then (c, false)
  else (startWrite { c with opened := true, connecting := false }, true)

/-- `send_text` and `send_binary`: nothing while closing; the oldest entries make room. -/
def send (c : WsClient α) (frame : α) : WsClient α :=
  if c.closing || c.maxOutbox == 0 then c
  else
    let kept := c.outbox.drop (c.outbox.length + 1 - c.maxOutbox)
    let c := { c with outbox := kept ++ [frame] }
    if c.opened then c.startWrite else c

/-- Successful completion of a write: the frame that was written, if a write was in flight. -/
def writeDone (c : WsClient α) : WsClient α × Option α :=
  match c.inFlight with
  | none => (c, none)
  | some frame => (startWrite { c with inFlight := none, outbox := c.outbox.tail }, some frame)

/-- `notify_close_once_`. -/
def notifyCloseOnce (c : WsClient α) : WsClient α × Bool :=
  if c.closeNotified then (c, false) else ({ c with closeNotified := true }, true)

/-- `cancel`. -/
def cancel (c : WsClient α) : WsClient α × Bool :=
  if c.closing then (c, false)
  else notifyCloseOnce { c with closing := true, connecting := false }

/-- `close`: an open connection is closed gracefully and notifies only when that has completed. -/
def close (c : WsClient α) : WsClient α × Bool :=
  if c.closing then (c, false)
  else if !c.opened then notifyCloseOnce { c with closing := true, connecting := false }
  else ({ c with closing := true, closeInFlight := true }, false)

/-- Completion of `async_close`. -/
def closeDone (c : WsClient α) : WsClient α × Bool :=
  if c.closeInFlight then notifyCloseOnce { c with closeInFlight := false } else (c, false)

/-- `fail_`: the error path of a connect attempt, its deadline, a read, a write or a ping. -/
def fail (c : WsClient α) : WsClient α × Bool :=
  if c.closing then notifyCloseOnce c
  else notifyCloseOnce { c with closing := true, connecting := false }

/-- An error inside the connect attempt; a closing client drops it before `fail_`. -/
def connectFailed (c : WsClient α) : WsClient α × Bool :=
  if c.closing || !c.connecting then (c, false) else c.fail

/-- `do_read_` completed because the peer closed the connection. -/
def readClosed (c : WsClient α) : WsClient α × Bool :=
  if c.opened then notifyCloseOnce { c with closing := true } else (c, false)

/-- An error of an operation on an open connection. -/
def ioFailed (c : WsClient α) : WsClient α × Bool :=
  if c.opened then c.fail else (c, false)

/-- A connect attempt or an open session is in progress. -/
def Active (c : WsClient α) : Prop := c.closing = false ∧ (c.connecting = true ∨ c.opened = true)

instance (c : WsClient α) : Decidable c.Active := inferInstanceAs (Decidable (_ ∧ _))

/-- An open session. -/
def sessionOpen (c : WsClient α) : Bool := c.opened && !c.closing

/-- Cancelling does not undo that the connection was opened. -/
@[simp] theorem cancel_opened (c : WsClient α) : c.cancel.1.opened = c.opened := by
  rw [cancel]
  split
  · rfl
  · rw [notifyCloseOnce]
    split <;> rfl

/-- Notifying does not reopen a client. -/
theorem notifyCloseOnce_closing {c : WsClient α} (closed : c.closing = true) :
    c.notifyCloseOnce.1.closing = true := by
  rw [notifyCloseOnce]
  split
  · exact closed
  · exact closed

/-- A client that fails is closed. -/
theorem fail_closing (c : WsClient α) : c.fail.1.closing = true := by
  rw [fail]
  split
  · rename_i hclosed
    exact notifyCloseOnce_closing hclosed
  · exact notifyCloseOnce_closing rfl

/-- Starting a write touches `inFlight` only. -/
theorem startWrite_same (c : WsClient α) : ∃ inFlight, c.startWrite = { c with inFlight := inFlight } := by
  rw [startWrite]
  split
  · exact ⟨_, rfl⟩
  · exact ⟨c.inFlight, rfl⟩

/-- A completed handshake leaves an open connection. -/
theorem handshakeDone_opened {c : WsClient α} (completed : c.handshakeDone.2 = true) :
    c.handshakeDone.1.opened = true := by
  rw [handshakeDone] at completed ⊢
  split
  · rename_i hdropped
    rw [if_pos hdropped] at completed
    cases completed
  · obtain ⟨inFlight, hsame⟩ := startWrite_same { c with opened := true, connecting := false }
    rw [hsame]

/-- Sending touches the outbox and `inFlight` only. -/
theorem send_same (c : WsClient α) (frame : α) :
    ∃ outbox inFlight, c.send frame = { c with outbox := outbox, inFlight := inFlight } := by
  rw [send]
  split
  · exact ⟨c.outbox, c.inFlight, rfl⟩
  · dsimp only
    split
    · obtain ⟨inFlight, hsame⟩ := startWrite_same
        { c with outbox := c.outbox.drop (c.outbox.length + 1 - c.maxOutbox) ++ [frame] }
      exact ⟨_, inFlight, hsame⟩
    · exact ⟨_, c.inFlight, rfl⟩

end WsClient

end ZidaBot
