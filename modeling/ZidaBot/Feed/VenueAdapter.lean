/-
Module: ZidaBot.Feed.VenueAdapter
Purpose: What the feed handler knows of a venue: the capabilities of the five adapters
  (`feed/src/md/adapters/*.cpp`) and the hooks it calls on frames and response bodies.  The handler is the
  same for every venue, so the hooks are functions of an `Adapter`; a parser accepts, rejects, or throws.
  Also the part of `feed/src/connection_handler/RestClient.cpp` that the handler sees: one request in
  flight, and how a finished request is reported.
Trusted boundary: human-reviewed model
Main exports: SyncMode, VenueCaps, VenueId.caps, Parsed, Adapter, Adapter.ofTraffic, HttpOutcome,
  HttpOutcome.failed, RestRequest, validTarget
-/
import ZidaBot.Common.OrderBookController
import ZidaBot.Feed.Venue

namespace ZidaBot.Feed

/-- Where the baseline of a venue comes from. -/
inductive SyncMode where
  | restAnchored
  | wsAuthoritative
deriving DecidableEq, Repr

/-- The kind of baseline that a snapshot response is loaded as. -/
def SyncMode.baselineKind : SyncMode → BaselineKind
  | .restAnchored => .restAnchored
  | .wsAuthoritative => .wsAuthoritative

/-- `VenueCaps`; `can_backfill` is read by nothing. -/
structure VenueCaps where
  syncMode : SyncMode := .restAnchored
  wsSendsSnapshot : Bool := false
  hasChecksum : Bool := false
  requiresWsBootstrap : Bool := false
  allowSeqGap : Bool := false
  checksumFn : Option ChecksumFn := none
  checksumTopN : Nat := 25

/-- `caps()` of the adapter of each venue. -/
def VenueId.caps : VenueId → VenueCaps
  | .binance => {}
  | .okx => { syncMode := .wsAuthoritative, wsSendsSnapshot := true, hasChecksum := true }
  | .bybit => { syncMode := .wsAuthoritative, wsSendsSnapshot := true }
  | .bitget => { syncMode := .wsAuthoritative, wsSendsSnapshot := true, allowSeqGap := true }
  | .kucoin => { requiresWsBootstrap := true, allowSeqGap := true }

/-- Result of a parse hook: `true` with its output, `false`, or an exception. -/
inductive Parsed (α : Type) where
  | accepted (value : α)
  | rejected
  | threw
deriving DecidableEq, Repr

/-- The hooks of an adapter, with the targets resolved by `init`.  The bootstrap parser reports by its
    return value only. -/
structure Adapter where
  caps : VenueCaps
  isIncremental : String → Bool
  parseIncremental : String → Parsed GenericIncrementalFormat
  isSnapshot : String → Bool
  parseWsSnapshot : String → Parsed GenericSnapshotFormat
  parseSnapshot : String → Parsed GenericSnapshotFormat
  parseWsBootstrap : String → Bool
  wsSubscribeFrame : String
  restSnapshotTarget : String
  wsBootstrapTarget : String

/-- An adapter for known traffic: each frame or body with what it parses to, everything else is
    rejected. -/
def Adapter.ofTraffic (caps : VenueCaps) (restSnapshotTarget : String)
    (snapshots : List (String × GenericSnapshotFormat))
    (increments : List (String × GenericIncrementalFormat)) : Adapter :=
  let parse {α : Type} (known : List (String × α)) (text : String) : Parsed α :=
    match known.lookup text with
    | none => .rejected
    | some value => .accepted value
  { caps := caps
    isIncremental := fun text => (increments.lookup text).isSome
    parseIncremental := parse increments
    isSnapshot := fun text => (snapshots.lookup text).isSome
    parseWsSnapshot := parse snapshots
    parseSnapshot := parse snapshots
    parseWsBootstrap := fun _ => true
    wsSubscribeFrame := ""
    restSnapshotTarget := restSnapshotTarget
    wsBootstrapTarget := "/api/v1/bullet-public" }

/-- How the exchange over the network ends: an error at any stage, or a response; after a response without
    keep-alive the TLS shutdown may still fail. -/
inductive HttpOutcome where
  | transportError
  | response (status : Nat) (serverKeepAlive shutdownOk : Bool) (body : String)
deriving DecidableEq, Repr

namespace HttpOutcome

/-- The error code handed to the callback is set: no response, a status outside 2xx, or a failed TLS
    shutdown where the connection is not kept. -/
def failed : HttpOutcome → Bool
  | .transportError => true
  | .response status serverKeepAlive shutdownOk _ =>
      decide (status < 200) || decide (300 ≤ status) || (!serverKeepAlive && !shutdownOk)

/-- `last_http_status`. -/
def status : HttpOutcome → Nat
  | .transportError => 0
  | .response status _ _ _ => status

/-- The body handed to the callback. -/
def body : HttpOutcome → String
  | .transportError => ""
  | .response _ _ _ body => body

end HttpOutcome

/-- The request in flight: the snapshot GET, with the session during which it was issued, or the bootstrap
    POST. -/
inductive RestRequest where
  | get (session : Nat)
  | post
deriving DecidableEq, Repr

/-- A target that is not a path is refused before anything is sent. -/
def validTarget (target : String) : Bool := target.toList.head? == some '/'

end ZidaBot.Feed
