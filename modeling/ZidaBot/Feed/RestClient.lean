/-
Module: ZidaBot.Feed.RestClient
Purpose: The HTTP client of `feed/src/connection_handler/RestClient.cpp`.  Everything runs on one strand, so
  an event is one call, one deadline that passes, or one handler that runs; a callback is the last thing
  its caller does, so what it calls in turn is the next event.  An operation may complete with any result,
  also after its socket was cancelled or closed: its handler may have been queued before.  Whether the
  socket is open is the answer of the operating system.  The requests are numbered; the owners of the
  handlers and the last five fields are written and never read: they record on whose behalf a handler was
  started, which callbacks were invoked with what, and whose handler has completed, failed or aborted
  which request.  An empty callback is one that does nothing.
Trusted boundary: human-reviewed model
Main exports: RestError, Operation, RestHandler, RestClient, finish, fail, asyncGet, asyncPost, runHandler,
  cancel, RestEvent, RestClient.step
-/
import ZidaBot.Common.AsioTimer
import ZidaBot.Feed.VenueAdapter

namespace ZidaBot.Feed

/-- The error codes that the client makes or compares; the operations may report others. -/
inductive RestError where
  | operationInProgress
  | invalidArgument
  | timedOut
  | operationCanceled
  | non2xx
  | eof
  | streamTruncated
  | other (code : Nat)
deriving DecidableEq, Repr

/-- The two methods in use. -/
inductive HttpVerb where
  | get
  | post
deriving DecidableEq, Repr

/-- `req_`. -/
structure HttpRequest where
  verb : HttpVerb := .get
  target : String := ""
  headers : List (String × String) := []
  body : String := ""
deriving DecidableEq, Repr

/-- What a handler waits for; the two timers with the status of the wait. -/
inductive Operation where
  | resolve
  | connect
  | handshake
  | write
  | read
  | shutdown
  | deadline (wait : WaitStatus)
  | shutdownDeadline (wait : WaitStatus)
deriving DecidableEq, Repr

/-- A handler that has not run yet, with the request on whose behalf it was started. -/
structure RestHandler where
  op : Operation
  owner : Nat
deriving DecidableEq, Repr

/-- The invocation of a callback. -/
structure Answer where
  ec : Option RestError
  body : String
deriving DecidableEq, Repr

/-- The client. -/
structure RestClient where
  keepAlive : Bool := false
  host : String := ""
  port : String := ""
  target : String := ""
  postBody : String := ""
  req : HttpRequest := {}
  inFlight : Bool := false
  shuttingDown : Bool := false
  finalEc : Option RestError := none
  responseBody : String := ""
  lastHttpStatus : Nat := 0
  tcpConnected : Bool := false
  tlsHandshook : Bool := false
  serverKeepAlive : Bool := false
  connectedHost : String := ""
  connectedPort : String := ""
  /-- `cb_`: the request it belongs to. -/
  cb : Option Nat := none
  outstanding : List RestHandler := []
  nextRequest : Nat := 0
  current : Nat := 0
  refused : List Nat := []
  answers : List (Nat × Answer) := []
  effects : List (Nat × Nat) := []
deriving DecidableEq

/-- `deadline_.cancel()`, for one handler. -/
def RestHandler.disarm (h : RestHandler) : RestHandler :=
  match h.op with
  | .deadline wait => { h with op := .deadline wait.cancel }
  | _ => h

/-- `shutdown_deadline_.cancel()`, for one handler. -/
def RestHandler.disarmShutdown (h : RestHandler) : RestHandler :=
  match h.op with
  | .shutdownDeadline wait => { h with op := .shutdownDeadline wait.cancel }
  | _ => h

/-- The deadline of a wait passes. -/
def RestHandler.expire (h : RestHandler) : RestHandler :=
  match h.op with
  | .deadline wait => { h with op := .deadline wait.expire }
  | .shutdownDeadline wait => { h with op := .shutdownDeadline wait.expire }
  | _ => h

/-- What an operation completes with.  `sniEc` is the error of setting the server name, asked for by the
    handler of the connect only, and the rest is the response. -/
structure Completion where
  ec : Option RestError := none
  sniEc : Option RestError := none
  status : Nat := 200
  keepAlive : Bool := false
  body : String := ""
deriving DecidableEq

namespace RestClient

/-- Start an operation. -/
def start (owner : Nat) (op : Operation) (s : RestClient) : RestClient :=
  { s with outstanding := s.outstanding ++ [{ op := op, owner := owner }] }

/-- Note that the actor completes, fails or aborts the request in flight. -/
def touch (actor : Nat) (s : RestClient) : RestClient :=
  { s with effects := s.effects ++ [(actor, s.current)] }

/-- `disarm_deadline_`. -/
def disarmDeadline (s : RestClient) : RestClient :=
  { s with outstanding := s.outstanding.map RestHandler.disarm }

/-- `cancel_shutdown_deadline_`. -/
def cancelShutdownDeadline (s : RestClient) : RestClient :=
  { s with outstanding := s.outstanding.map RestHandler.disarmShutdown }

/-- `arm_deadline_`; a new expiry cancels the wait before. -/
def armDeadline (owner : Nat) (s : RestClient) : RestClient :=
  s.disarmDeadline.start owner (.deadline .waiting)

/-- `arm_shutdown_deadline_`. -/
def armShutdownDeadline (owner : Nat) (s : RestClient) : RestClient :=
  s.cancelShutdownDeadline.start owner (.shutdownDeadline .waiting)

/-- `close_socket_hard_`. -/
def closeSocketHard (s : RestClient) : RestClient :=
  { s with tcpConnected := false, tlsHandshook := false, connectedHost := "", connectedPort := "" }

/-- `can_reuse_connection_`. -/
def canReuseConnection (sockOpen : Bool) (s : RestClient) : Bool :=
  s.keepAlive && s.tcpConnected && s.tlsHandshook && s.host == s.connectedHost &&
    s.port == s.connectedPort && sockOpen

/-- `reset_per_request_state_(true)`. -/
def resetPerRequestState (sockOpen : Bool) (s : RestClient) : RestClient :=
  let s := { s.disarmDeadline.cancelShutdownDeadline with
    shuttingDown := false, finalEc := none, responseBody := "", lastHttpStatus := 0
    serverKeepAlive := false, req := {} }
  if s.canReuseConnection sockOpen then s else s.closeSocketHard

/-- `finish_`. -/
def finish (actor : Nat) (s : RestClient) : RestClient :=
  if s.inFlight then
    let answer : Answer := { ec := s.finalEc, body := s.responseBody }
    let answered := (s.cb.map fun request => (request, answer)).toList
    let s := { (s.touch actor).disarmDeadline.cancelShutdownDeadline with
      inFlight := false, cb := none, responseBody := "" }
    let s := if s.keepAlive && s.serverKeepAlive && s.finalEc.isNone then s else s.closeSocketHard
    { s with answers := s.answers ++ answered }
  else s

/-- `do_tls_shutdown_`. -/
def doTlsShutdown (actor : Nat) (s : RestClient) : RestClient :=
  if !s.inFlight || s.shuttingDown then s
  else ({ s with shuttingDown := true }.armShutdownDeadline actor).start actor .shutdown

/-- The hard close of a connection that is not up, or else the orderly shutdown. -/
def closeOrShutdown (actor : Nat) (s : RestClient) : RestClient :=
  if !s.tcpConnected || !s.tlsHandshook then s.closeSocketHard.finish actor else s.doTlsShutdown actor

/-- `fail_`. -/
def fail (actor : Nat) (ec : RestError) (s : RestClient) : RestClient :=
  if !s.inFlight || s.finalEc.isSome then s
  else { s.touch actor with finalEc := some ec }.closeOrShutdown actor

/-- The request as it is sent; the library puts its version into the agent of a GET. -/
def buildRequest (verb : HttpVerb) (s : RestClient) : HttpRequest :=
  let hostHdr := if s.port ≠ "443" ∧ s.port ≠ "80" then s.host ++ ":" ++ s.port else s.host
  let connection := ("Connection", if s.keepAlive then "keep-alive" else "close")
  match verb with
  | .get =>
      { verb := .get, target := s.target
        headers := [("Host", hostHdr), ("Accept-Encoding", "identity"),
          ("User-Agent", "Boost.Beast pop-restclient"), connection] }
  | .post =>
      { verb := .post, target := s.target
        headers := [("Host", hostHdr), ("User-Agent", "pop-restclient"),
          ("Content-Type", "application/json"), ("Accept-Encoding", "identity"), connection,
          ("Content-Length", toString s.postBody.utf8ByteSize)]
        body := s.postBody }

/-- What a call writes before it looks at its target. -/
def accept (host port target body : String) (s : RestClient) : RestClient :=
  { s with
    nextRequest := s.nextRequest + 1, inFlight := true, current := s.nextRequest, cb := some s.nextRequest
    host := host, port := port, target := target, postBody := body }

/-- The rest of the call, for a target that is a path. -/
def startRequest (verb : HttpVerb) (sockOpen : Bool) (s : RestClient) : RestClient :=
  let s := (s.resetPerRequestState sockOpen).armDeadline s.current
  let s := { s with req := s.buildRequest verb, postBody := "" }
  s.start s.current (if s.canReuseConnection sockOpen then .write else .resolve)

/-- The common body of `async_get` and `async_post`: refused while a request is in flight. -/
def asyncRequest (verb : HttpVerb) (host port target body : String) (sockOpen : Bool) (s : RestClient) :
    RestClient :=
  if s.inFlight then
    { s with
      nextRequest := s.nextRequest + 1, refused := s.refused ++ [s.nextRequest]
      answers := s.answers ++ [(s.nextRequest, { ec := some .operationInProgress, body := "" })] }
  else if validTarget target then (s.accept host port target body).startRequest verb sockOpen
  else { s.accept host port target body with finalEc := some .invalidArgument }.finish s.nextRequest

/-- `async_get`. -/
def asyncGet (host port target : String) (sockOpen : Bool) (s : RestClient) : RestClient :=
  s.asyncRequest .get host port target "" sockOpen

/-- `async_post`. -/
def asyncPost (host port target body : String) (sockOpen : Bool) (s : RestClient) : RestClient :=
  s.asyncRequest .post host port target body sockOpen

/-- The handler of the read, on success: the response is that of the request in flight. -/
def responseRead (actor : Nat) (c : Completion) (s : RestClient) : RestClient :=
  let s := if s.inFlight then s.disarmDeadline.touch actor else s.disarmDeadline
  let s := { s with
    lastHttpStatus := c.status, serverKeepAlive := c.keepAlive, responseBody := c.body
    finalEc := if c.status < 200 ∨ 300 ≤ c.status then some .non2xx else none }
  if s.keepAlive && s.serverKeepAlive && s.finalEc.isNone then s.finish actor else s.doTlsShutdown actor

/-- Cancel the resolver and the operations of the socket. -/
def cancelOperations (actor : Nat) (s : RestClient) : RestClient :=
  if s.inFlight then s.touch actor else s

/-- The body of a handler that was taken from the queue. -/
def runHandler (h : RestHandler) (c : Completion) (s : RestClient) : RestClient :=
  match h.op with
  | .resolve =>
      match c.ec with
      | some ec => s.fail h.owner ec
      | none => s.start h.owner .connect
  | .connect =>
      match c.ec with
      | some ec => s.fail h.owner ec
      | none =>
          match c.sniEc with
          | some ec => s.fail h.owner ec
          | none => { s with tcpConnected := true }.start h.owner .handshake
  | .handshake =>
      match c.ec with
      | some ec => s.fail h.owner ec
      | none =>
          { s with tlsHandshook := true, connectedHost := s.host, connectedPort := s.port }.start
            h.owner .write
  | .write =>
      match c.ec with
      | some ec => s.fail h.owner ec
      | none => s.start h.owner .read
  | .read =>
      match c.ec with
      | some ec => s.fail h.owner ec
      | none => s.responseRead h.owner c
  | .shutdown =>
      let s := s.cancelShutdownDeadline
      -- an end of the stream is no error, and the primary error stays
      let finalEc := if c.ec = some .eof ∨ c.ec = some .streamTruncated then s.finalEc
        else s.finalEc.or c.ec
      { s with finalEc := finalEc }.finish h.owner
  | .deadline wait =>
      if wait = .aborted then s
      else (s.cancelOperations h.owner).fail h.owner .timedOut
  | .shutdownDeadline wait =>
      if wait = .aborted || !s.inFlight then s
      else { s with finalEc := s.finalEc.or (some .timedOut) }.finish h.owner

/-- The handler at position `i` runs; that of a wait that goes on cannot. -/
def handler (i : Nat) (c : Completion) (s : RestClient) : RestClient :=
  match s.outstanding[i]? with
  | none => s
  | some h =>
      if h.op = .deadline .waiting ∨ h.op = .shutdownDeadline .waiting then s
      else { s with outstanding := s.outstanding.eraseIdx i }.runHandler h c

/-- `cancel`, on behalf of the request it cancels. -/
def cancel (s : RestClient) : RestClient :=
  if s.inFlight then
    let s := { s with finalEc := s.finalEc.or (some .operationCanceled) }
    (s.disarmDeadline.cancelShutdownDeadline.cancelOperations s.current).closeOrShutdown s.current
  else s

end RestClient

/-- What happens on the strand, and the passing of deadlines. -/
inductive RestEvent where
  | asyncGet (host port target : String) (sockOpen : Bool)
  | asyncPost (host port target body : String) (sockOpen : Bool)
  | cancel
  | expire (i : Nat)
  | handler (i : Nat) (c : Completion)
deriving DecidableEq

/-- One event. -/
def RestClient.step (s : RestClient) : RestEvent → RestClient
  | .asyncGet host port target sockOpen => s.asyncGet host port target sockOpen
  | .asyncPost host port target body sockOpen => s.asyncPost host port target body sockOpen
  | .cancel => s.cancel
  | .expire i => { s with outstanding := s.outstanding.modify i RestHandler.expire }
  | .handler i c => s.handler i c

end ZidaBot.Feed
