/-
Module: ZidaBot.Feed.BrainLink
Purpose: A feed handler with one of its brain sinks, the connection the sink keeps, and what has reached the
  brain over it.  The sink lives on the I/O thread of the handler, so whatever a callback publishes is
  handed to the sink before anything else runs.  A frame is an event beside its position among all
  published events.  The network may lose the end of what was written, at any time; what it delivers
  arrives in order.  The brain's answers are ignored by the sink and left out.
Trusted boundary: human-reviewed model
Main exports: BrainLink, BrainLink.started, LinkEvent, BrainLink.step
-/
import ZidaBot.Feed.GenericFeedHandler

namespace ZidaBot.Feed

/-- A handler, its sink, the frames written to the connection that have not arrived, and those the brain has
    processed. -/
structure BrainLink where
  handler : GenericFeedHandler
  sink : WsPublishSink (PubEvent × Nat)
  wire : List (PubEvent × Nat)
  arrived : List (PubEvent × Nat)
deriving DecidableEq

/-- What can happen.  Events of the sink's client are those of `WsClient`; `failed` is an error of a read, a
    write or a ping, and `written` the completion of a write, which may come after the connection failed. -/
inductive LinkEvent where
  | feed (e : FeedEvent)
  | opened
  | written
  | closed
  | failed
  | connectFailed
  | connectTimeout
  | closeDone
  | reconnectTimer
  | arrive
  | lose (kept : Nat)
deriving DecidableEq, Repr

namespace BrainLink

/-- Hand a list of frames to the sink, in order. -/
def handOver (sink : WsPublishSink (PubEvent × Nat)) (frames : List (PubEvent × Nat)) :
    WsPublishSink (PubEvent × Nat) :=
  frames.foldl WsPublishSink.publish sink

/-- The published events as frames. -/
def frames (h : GenericFeedHandler) : List (PubEvent × Nat) := h.published.zipIdx

/-- A started handler.  Its first status is set before the sinks are started. -/
def started (cfg : HandlerConfig) (certLoaded : Bool) : BrainLink :=
  let h := GenericFeedHandler.started cfg
  { handler := h, sink := handOver (WsPublishSink.start certLoaded {}) (frames h)
    wire := [], arrived := [] }

/-- A callback of the handler with what it publishes; `stop` stops the sink. -/
def onFeed (cfg : HandlerConfig) (e : FeedEvent) (link : BrainLink) : BrainLink :=
  let h := link.handler.step cfg e
  let sink := handOver link.sink ((frames h).drop link.handler.published.length)
  match e with
  | .stop _ => { link with handler := h, sink := sink.stop }
  | _ => { link with handler := h, sink := sink }

/-- Completion of a write. -/
def onWritten (link : BrainLink) : BrainLink :=
  let (ws, frame) := link.sink.ws.writeDone
  { link with sink := { link.sink with ws := ws }, wire := link.wire ++ frame.toList }

/-- The brain processes the next frame. -/
def onArrive (link : BrainLink) : BrainLink :=
  match link.wire with
  | [] => link
  | frame :: rest => { link with wire := rest, arrived := link.arrived ++ [frame] }

/-- One step of the system. -/
def step (cfg : HandlerConfig) (link : BrainLink) : LinkEvent → BrainLink
  | .feed e => link.onFeed cfg e
  | .opened => { link with sink := link.sink.opened }
  | .written => link.onWritten
  | .closed => { link with sink := link.sink.notified link.sink.ws.readClosed }
  | .failed => { link with sink := link.sink.notified link.sink.ws.ioFailed }
  | .connectFailed => { link with sink := link.sink.notified link.sink.ws.connectFailed }
  | .connectTimeout => { link with sink := link.sink.notified link.sink.ws.fail }
  | .closeDone => { link with sink := link.sink.notified link.sink.ws.closeDone }
  | .reconnectTimer => { link with sink := link.sink.timerFired }
  | .arrive => link.onArrive
  | .lose kept => { link with wire := link.wire.take kept }

end BrainLink

end ZidaBot.Feed
