/-
Module: ZidaBot.Brain.SignalServer
Purpose: The outgoing side of the brain, `brain/src/brain/SignalServer.cpp`.  `SignalSession` is the outbox of
  one exec connection with its write loop.  `SignalServer` is the session list of the server with its
  counter, as the handlers on the server's strand change it; sessions are numbered in the order of their
  creation, and a weak pointer is the number of a session.  `SignalHub` is the server with its sessions, from
  the accepted socket to the read loop: what was posted to the strand of a session runs in order, and an
  asynchronous operation completes at any time, with or without an error.
Trusted boundary: human-reviewed model
Main exports: kMaxOutbox, SignalSession, SignalSession.send, SignalSession.onWrite, kMaxSessions, SignalServer,
  SignalServer.onAccept, SignalServer.broadcast, SignalServer.stop, ServerEvent, SignalServer.step,
  LiveSession, LiveSession.send, LiveSession.runPosted, LiveSession.completed, SignalHub, HubEvent,
  SignalHub.step
-/

namespace ZidaBot.Brain

/-- `kMaxOutbox`. -/
def kMaxOutbox : Nat := 64

/-- A session whose frames are of type `α`.  `inFlight` stands for `writing_`, with the entry that was
    handed to `async_write`. -/
structure SignalSession (α : Type) where
  outbox : List α := []
  inFlight : Option α := none
deriving DecidableEq, Repr

namespace SignalSession

variable {α : Type}

/-- `do_write_`; it is called with a non-empty outbox only. -/
def doWrite (s : SignalSession α) : SignalSession α := { s with inFlight := s.outbox.head? }

/-- `send`, as it runs on the strand: the oldest entry makes room. -/
def send (s : SignalSession α) (msg : α) : SignalSession α :=
  let kept := if kMaxOutbox ≤ s.outbox.length then s.outbox.tail else s.outbox
  let s := { s with outbox := kept ++ [msg] }
  if s.inFlight.isNone then s.doWrite else s

/-- `on_write_`: an error leaves the entry in the queue and the next `send` tries again. -/
def onWrite (s : SignalSession α) (ok : Bool) : SignalSession α :=
  if !ok then { s with inFlight := none }
  else
    let s := { s with outbox := s.outbox.tail }
    if s.outbox.isEmpty then { s with inFlight := none } else s.doWrite

end SignalSession

/-!
### The server
-/

/-- `kMaxSessions`. -/
def kMaxSessions : Nat := 10

/-- The server.  `destroyed` are the sessions whose last shared pointer is gone, and `fetchSubs` the calls of
    `live_count_.fetch_sub` so far: the counter before the call, and the argument. -/
structure SignalServer where
  sessions : List Nat := []
  liveCount : UInt64 := 0
  stopped : Bool := false
  accepting : Bool := false
  created : Nat := 0
  destroyed : List Nat := []
  fetchSubs : List (UInt64 × UInt64) := []
deriving DecidableEq, Repr

namespace SignalServer

/-- `weak_ptr::expired`. -/
def expired (s : SignalServer) (session : Nat) : Bool := s.destroyed.contains session

/-- The session list without its expired entries. -/
def unexpired (s : SignalServer) : List Nat := s.sessions.filter fun session => !s.expired session

/-- `do_accept_`, which is all that `start` does. -/
def doAccept (s : SignalServer) : SignalServer := if s.stopped then s else { s with accepting := true }

/-- `on_accept_`, with the session it has created, if any. -/
def onAccept (s : SignalServer) (ok : Bool) : SignalServer × Option Nat :=
  let s := { s with accepting := false }
  if !ok then (s, none)
  else
    -- the entries that are removed here are not subtracted from the counter
    let s := { s with sessions := s.unexpired }
    if kMaxSessions ≤ s.sessions.length then (s.doAccept, none)
    else
      let session := s.created
      let s := { s with
        sessions := s.sessions ++ [session], liveCount := s.liveCount + 1, created := s.created + 1 }
      (s.doAccept, some session)

/-- `live_count_.fetch_sub`. -/
def fetchSub (s : SignalServer) (n : UInt64) : SignalServer :=
  { s with liveCount := s.liveCount - n, fetchSubs := s.fetchSubs ++ [(s.liveCount, n)] }

/-- `broadcast`, as it runs on the strand; the message goes to the sessions that are left in the list. -/
def broadcast (s : SignalServer) : SignalServer :=
  let before := s.sessions.length
  let s := { s with sessions := s.unexpired }
  let pruned := before - s.sessions.length
  if 0 < pruned then s.fetchSub (UInt64.ofNat pruned) else s

/-- The part of `stop` that runs in the caller. -/
def stopCalled (s : SignalServer) : SignalServer := { s with stopped := true }

/-- The part of `stop` that runs on the strand; the unexpired sessions are closed. -/
def stop (s : SignalServer) : SignalServer := { s with sessions := [], liveCount := 0 }

/-- The last shared pointer of a session goes. -/
def expire (s : SignalServer) (session : Nat) : SignalServer :=
  { s with destroyed := session :: s.destroyed }

end SignalServer

/-- What happens to the server: its calls, the handlers of its strand, and sessions that expire. -/
inductive ServerEvent where
  | start
  | stopCalled
  | onAccept (ok : Bool)
  | broadcast
  | stop
  | expire (session : Nat)
deriving DecidableEq, Repr

/-- One of them. -/
def SignalServer.step (s : SignalServer) : ServerEvent → SignalServer
  | .start => s.doAccept
  | .stopCalled => s.stopCalled
  | .onAccept ok => (s.onAccept ok).1
  | .broadcast => s.broadcast
  | .stop => s.stop
  | .expire session => s.expire session

/-!
### Sessions with their connection
-/

/-- What is posted to the strand of a session: the lambdas of `run`, `send` and `close`. -/
inductive Posted where
  | run
  | send (msg : String)
  | close
deriving DecidableEq, Repr

/-- Asynchronous operations of a session. -/
inductive SessionOp where
  | tlsHandshake
  | wsAccept
  | read
  | write
deriving DecidableEq, Repr

/-- A call of `async_write`: whether the WebSocket accept had completed, how many writes were in flight, and
    the outbox. -/
structure WriteStart where
  accepted : Bool
  inFlight : Nat
  outbox : List String
deriving DecidableEq, Repr

/-- A `SignalSession` with its strand and its outstanding operations.  `accepted` says that the WebSocket
    accept has completed successfully, and `started` are the writes so far.  `async_write` reads the string at
    the front of the outbox where it stands, and `dangling` says that the string of the last write has been
    popped since. -/
structure LiveSession where
  strand : List Posted := [.run]
  ops : List SessionOp := []
  outbox : List String := []
  writing : Bool := false
  dangling : Bool := false
  accepted : Bool := false
  started : List WriteStart := []
deriving DecidableEq, Repr

namespace LiveSession

/-- `do_tls_handshake_`. -/
def doTlsHandshake (c : LiveSession) : LiveSession := { c with ops := c.ops ++ [.tlsHandshake] }

/-- `do_ws_accept_`. -/
def doWsAccept (c : LiveSession) : LiveSession := { c with ops := c.ops ++ [.wsAccept] }

/-- `do_read_`. -/
def doRead (c : LiveSession) : LiveSession := { c with ops := c.ops ++ [.read] }

/-- `do_write_`. -/
def doWrite (c : LiveSession) : LiveSession :=
  { c with
    writing := true
    dangling := false
    ops := c.ops ++ [.write]
    started := c.started ++
      [{ accepted := c.accepted, inFlight := c.ops.count .write, outbox := c.outbox }] }

/-- `outbox_.size() >= kMaxOutbox`: the next `send` evicts. -/
def full (c : LiveSession) : Bool := decide (kMaxOutbox ≤ c.outbox.length)

/-- The lambda of `send`.  What it evicts is the string that a write in flight reads. -/
def send (c : LiveSession) (msg : String) : LiveSession :=
  let kept := if c.full then c.outbox.tail else c.outbox
  let c := { c with outbox := kept ++ [msg], dangling := c.dangling || (c.full && c.writing) }
  if !c.writing then c.doWrite else c

/-- `on_write_`. -/
def onWrite (c : LiveSession) (ok : Bool) : LiveSession :=
  if !ok then { c with writing := false }
  else
    let c := { c with outbox := c.outbox.tail }
    if !c.outbox.isEmpty then c.doWrite else { c with writing := false }

/-- The oldest lambda on the strand runs.  That of `close` closes the socket, which makes operations
    complete with an error. -/
def runPosted (c : LiveSession) : LiveSession :=
  match c.strand with
  | [] => c
  | .run :: strand => { c with strand := strand }.doTlsHandshake
  | .send msg :: strand => { c with strand := strand }.send msg
  | .close :: strand => { c with strand := strand }

/-- An outstanding operation completes and its handler runs. -/
def completed (c : LiveSession) (i : Nat) (ok : Bool) : LiveSession :=
  match c.ops[i]? with
  | none => c
  | some op =>
      let c := { c with ops := c.ops.eraseIdx i }
      match op with
      | .tlsHandshake => if ok then c.doWsAccept else c
      | .wsAccept => if ok then { c with accepted := true }.doRead else c
      | .read => if ok then c.doRead else c
      | .write => c.onWrite ok

/-- Something is posted. -/
def post (c : LiveSession) (posted : Posted) : LiveSession := { c with strand := c.strand ++ [posted] }

/-- Shared pointers are held by what is posted and by the handlers of outstanding operations. -/
def unreferenced (c : LiveSession) : Bool := c.strand.isEmpty && c.ops.isEmpty

end LiveSession

/-- The server and all sessions that it has created. -/
structure SignalHub where
  server : SignalServer := {}
  table : List LiveSession := []
deriving DecidableEq, Repr

/-- The handlers of the strands, in any order. -/
inductive HubEvent where
  | start
  | stopCalled
  | onAccept (ok : Bool)
  | broadcast (text : String)
  | stop
  | posted (session : Nat)
  | completed (session : Nat) (op : Nat) (ok : Bool)
deriving DecidableEq, Repr

namespace SignalHub

/-- Post the same to a number of sessions. -/
def postAll (targets : List Nat) (posted : Posted) (table : List LiveSession) : List LiveSession :=
  targets.foldl (fun table session => table.modify session fun c => c.post posted) table

/-- A handler runs on the strand of a session, which expires if it was the last reference. -/
def onStrand (h : SignalHub) (session : Nat) (handler : LiveSession → LiveSession) : SignalHub :=
  match h.table[session]? with
  | none => h
  | some c =>
      let c := handler c
      { server := if c.unreferenced then h.server.expire session else h.server
        table := h.table.set session c }

/-- One handler. -/
def step (h : SignalHub) : HubEvent → SignalHub
  | .start => { h with server := h.server.doAccept }
  | .stopCalled => { h with server := h.server.stopCalled }
  | .onAccept ok =>
      match h.server.onAccept ok with
      | (server, none) => { h with server := server }
      | (server, some _) => { server := server, table := h.table ++ [{}] }
  | .broadcast text =>
      let server := h.server.broadcast
      { server := server, table := postAll server.sessions (.send text) h.table }
  | .stop =>
      { server := h.server.stop, table := postAll h.server.unexpired .close h.table }
  | .posted session => h.onStrand session LiveSession.runPosted
  | .completed session op ok => h.onStrand session fun c => c.completed op ok

end SignalHub

end ZidaBot.Brain
