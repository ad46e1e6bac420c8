/-
Module: ZidaBot.Proofs.BrainLink
Purpose: A link to the brain that may break anywhere.  Whatever is discarded, cleared or dropped, the frames
  that have arrived, are on the wire or still queued are a subsequence of the published ones: in order and
  without duplicates.  So a brain that has received a complete baseline and every change of the book
  published after it mirrors the stream, and its venue book, as far as it is synced, is the feed's book.
  Neither condition can be dropped.
Trusted boundary: none
Main exports: WsClient.queue, LinkInv, linkInv_run, CaughtUp, mirrors_of_caughtUp,
  caught_up_brain_equals_pop, lossy_link_leaves_wrong_book
-/
import ZidaBot.Feed.BrainLink
import ZidaBot.Proofs.FeedReplica
import Mathlib.Data.List.Induction

namespace ZidaBot

/-!
### The queue of a client

A client may drop frames for newer ones and clears its outbox at a reconnect. It never changes the order of
those it keeps.
-/

namespace WsClient

variable {α : Type} {c : WsClient α}

/-- The frames a client may still write: the one in flight, which a full outbox may have dropped already,
    and what will be left of the outbox once its front is removed. -/
def queue (c : WsClient α) : List α :=
  match c.inFlight with
  | none => c.outbox
  | some frame => frame :: c.outbox.tail

theorem queue_startWrite (c : WsClient α) : c.startWrite.queue = c.queue := by
  rw [startWrite]
  split
  · rename_i hclosing hidle hfront
    rw [queue, queue, hidle, hfront]
    rfl
  · rfl

theorem queue_handshakeDone (c : WsClient α) : c.handshakeDone.1.queue = c.queue := by
  rw [handshakeDone]
  split
  · rfl
  · exact queue_startWrite _

/-- A sent frame is queued last, if at all; older frames may be dropped for it. -/
theorem queue_send (c : WsClient α) (frame : α) : (c.send frame).queue.Sublist (c.queue ++ [frame]) := by
  have hqueued : ∀ dropped,
      ({ c with outbox := c.outbox.drop dropped ++ [frame] } : WsClient α).queue.Sublist
        (c.queue ++ [frame]) := by
    intro dropped
    have hkept : (c.outbox.drop dropped).Sublist c.outbox := List.drop_sublist dropped c.outbox
    rw [queue, queue]
    cases c.inFlight with
    | none => exact hkept.append_right [frame]
    | some front =>
        apply List.Sublist.cons_cons
        cases hrest : c.outbox.drop dropped with
        | nil => exact List.nil_sublist _
        | cons first rest =>
            rw [hrest] at hkept
            exact hkept.tail.append_right [frame]
  rw [send]
  split
  · exact List.sublist_append_left _ _
  · dsimp only
    split
    · rw [queue_startWrite]
      exact hqueued _
    · exact hqueued _

/-- A completed write takes the first frame of the queue. -/
theorem queue_writeDone (c : WsClient α) :
    c.writeDone.2.toList ++ c.writeDone.1.queue = c.queue := by
  rw [writeDone]
  cases hfront : c.inFlight with
  | none => rfl
  | some frame =>
      dsimp only
      rw [queue_startWrite, queue, queue, hfront]
      rfl

theorem queue_notifyCloseOnce (c : WsClient α) : c.notifyCloseOnce.1.queue = c.queue := by
  rw [notifyCloseOnce]
  split <;> rfl

theorem queue_fail (c : WsClient α) : c.fail.1.queue = c.queue := by
  rw [fail]
  split
  · exact queue_notifyCloseOnce _
  · exact queue_notifyCloseOnce _

theorem queue_connectFailed (c : WsClient α) : c.connectFailed.1.queue = c.queue := by
  rw [connectFailed]
  split
  · rfl
  · exact queue_fail c

theorem queue_readClosed (c : WsClient α) : c.readClosed.1.queue = c.queue := by
  rw [readClosed]
  split
  · exact queue_notifyCloseOnce _
  · rfl

theorem queue_ioFailed (c : WsClient α) : c.ioFailed.1.queue = c.queue := by
  rw [ioFailed]
  split
  · exact queue_fail c
  · rfl

theorem queue_closeDone (c : WsClient α) : c.closeDone.1.queue = c.queue := by
  rw [closeDone]
  split
  · exact queue_notifyCloseOnce _
  · rfl

theorem queue_close (c : WsClient α) : c.close.1.queue = c.queue := by
  rw [close]
  split
  · rfl
  · split
    · exact queue_notifyCloseOnce _
    · rfl

end WsClient

namespace Feed

/-!
### The queue of the sink

The same seen from the sink, whose callbacks connect, close and forget.
-/

namespace WsPublishSink

variable {α : Type}

theorem queue_publish (s : WsPublishSink α) (frame : α) :
    (s.publish frame).ws.queue.Sublist (s.ws.queue ++ [frame]) := by
  rw [publish]
  split
  · exact s.ws.queue_send frame
  · exact List.sublist_append_left _ _

/-- A fresh connection forgets what was queued. -/
theorem queue_connect (s : WsPublishSink α) : s.connect.ws.queue.Sublist s.ws.queue := by
  rw [connect]
  split
  · exact List.nil_sublist _
  · exact List.Sublist.refl _

theorem queue_start (certLoaded : Bool) (s : WsPublishSink α) :
    (s.start certLoaded).ws.queue.Sublist s.ws.queue := by
  rw [start]
  split
  · exact List.Sublist.refl _
  · dsimp only
    split
    · exact queue_connect _
    · exact List.Sublist.refl _

theorem ws_notified (s : WsPublishSink α) (outcome : WsClient α × Bool) :
    (s.notified outcome).ws = outcome.1 := by
  rw [notified]
  dsimp only
  split
  · rw [scheduleReconnect]
    split <;> rfl
  · rfl

theorem queue_opened (s : WsPublishSink α) : s.opened.ws.queue = s.ws.queue := by
  rw [opened]
  dsimp only
  split <;> exact s.ws.queue_handshakeDone

theorem queue_timerFired (s : WsPublishSink α) : s.timerFired.ws.queue.Sublist s.ws.queue := by
  rw [timerFired]
  split
  · exact List.Sublist.refl _
  · dsimp only
    split
    · exact queue_connect _
    · exact List.Sublist.refl _

theorem queue_stop (s : WsPublishSink α) : s.stop.ws.queue = s.ws.queue := by
  rw [stop, ws_notified]
  exact s.ws.queue_close

end WsPublishSink

namespace BrainLink

theorem queue_handOver (sink : WsPublishSink (PubEvent × Nat)) (frames : List (PubEvent × Nat)) :
    (handOver sink frames).ws.queue.Sublist (sink.ws.queue ++ frames) := by
  induction frames generalizing sink with
  | nil =>
      rw [List.append_nil]
      exact List.Sublist.refl _
  | cons frame frames ih =>
      have hfirst := (sink.queue_publish frame).append_right frames
      rw [← List.append_cons] at hfirst
      exact (ih (sink.publish frame)).trans hfirst

/-!
### In order and at most once

Frames are numbered as they are published, so order and uniqueness are a statement about sublists of one
list.
-/

/-- What has arrived, what is on the wire and what is queued are in the order of publication. -/
def LinkInv (link : BrainLink) : Prop :=
  (link.arrived ++ link.wire ++ link.sink.ws.queue).Sublist (frames link.handler)

variable {cfg : HandlerConfig} {link : BrainLink}

theorem linkInv_started (cfg : HandlerConfig) (certLoaded : Bool) : LinkInv (started cfg certLoaded) := by
  have hstart : (WsPublishSink.start certLoaded ({} : WsPublishSink (PubEvent × Nat))).ws.queue = [] :=
    List.sublist_nil.mp (WsPublishSink.queue_start certLoaded {})
  have hqueue := queue_handOver (WsPublishSink.start certLoaded {}) (frames (GenericFeedHandler.started cfg))
  rw [hstart] at hqueue
  exact hqueue

/-- The frames of a step are those of before and the fresh ones. -/
theorem frames_step (cfg : HandlerConfig) (h : GenericFeedHandler) (e : FeedEvent) :
    frames (h.step cfg e) = frames h ++ (frames (h.step cfg e)).drop h.published.length := by
  obtain ⟨fresh, hpublished⟩ := GenericFeedHandler.step_published cfg h e
  rw [frames, frames, hpublished, List.zipIdx_append, List.drop_left' (by simp)]

/-- A sink that keeps its queue or forgets some of it. -/
theorem LinkInv.sink (inv : LinkInv link) {sink : WsPublishSink (PubEvent × Nat)}
    (forgets : sink.ws.queue.Sublist link.sink.ws.queue) : LinkInv { link with sink := sink } :=
  (forgets.append_left _).trans inv

theorem linkInv_onFeed (inv : LinkInv link) (e : FeedEvent) : LinkInv (link.onFeed cfg e) := by
  have hfed : ∀ sink : WsPublishSink (PubEvent × Nat),
      sink.ws.queue.Sublist
        (link.sink.ws.queue ++ (frames (link.handler.step cfg e)).drop link.handler.published.length) →
      LinkInv { link with handler := link.handler.step cfg e, sink := sink } := by
    intro sink hqueue
    rw [LinkInv, frames_step]
    refine (hqueue.append_left _).trans ?_
    rw [← List.append_assoc]
    exact inv.append_right _
  have hhanded := queue_handOver link.sink
    ((frames (link.handler.step cfg e)).drop link.handler.published.length)
  unfold onFeed
  dsimp only
  split
  · apply hfed
    rw [WsPublishSink.queue_stop]
    exact hhanded
  · exact hfed _ hhanded

theorem linkInv_step (inv : LinkInv link) (e : LinkEvent) : LinkInv (link.step cfg e) := by
  have hnotified : ∀ outcome : WsClient (PubEvent × Nat) × Bool, outcome.1.queue = link.sink.ws.queue →
      LinkInv { link with sink := link.sink.notified outcome } := by
    intro outcome hqueue
    apply inv.sink
    rw [WsPublishSink.ws_notified, hqueue]
  cases e with
  | feed e => exact linkInv_onFeed inv e
  | opened =>
      apply inv.sink
      rw [WsPublishSink.queue_opened]
  | written =>
      have hqueue := link.sink.ws.queue_writeDone
      rw [LinkInv, ← hqueue] at inv
      rw [step, onWritten, LinkInv]
      simpa using inv
  | closed => exact hnotified _ link.sink.ws.queue_readClosed
  | failed => exact hnotified _ link.sink.ws.queue_ioFailed
  | connectFailed => exact hnotified _ link.sink.ws.queue_connectFailed
  | connectTimeout => exact hnotified _ link.sink.ws.queue_fail
  | closeDone => exact hnotified _ link.sink.ws.queue_closeDone
  | reconnectTimer => exact inv.sink link.sink.queue_timerFired
  | arrive =>
      rw [step, onArrive]
      split
      · exact inv
      · rename_i frame rest hwire
        rw [LinkInv, hwire] at inv
        rw [LinkInv]
        simpa using inv
  | lose kept =>
      have hkept : (link.wire.take kept).Sublist link.wire := List.take_sublist kept link.wire
      exact ((hkept.append_left _).append_right _).trans inv

theorem linkInv_run (cfg : HandlerConfig) (certLoaded : Bool) (events : List LinkEvent) :
    LinkInv (Runs.run (step cfg) (started cfg certLoaded) events) := by
  have hstep : ∀ link e, LinkInv link → LinkInv (step cfg link e) := fun _ e inv => linkInv_step inv e
  exact Runs.invariant_run hstep (linkInv_started cfg certLoaded) events

/-- The handler goes through a run of its own callbacks. -/
theorem handler_run (cfg : HandlerConfig) (link : BrainLink) (events : List LinkEvent) :
    ∃ callbacks, (Runs.run (step cfg) link events).handler =
      Runs.run (GenericFeedHandler.step cfg) link.handler callbacks := by
  induction events generalizing link with
  | nil => exact ⟨[], rfl⟩
  | cons e events ih =>
      obtain ⟨callbacks, hrun⟩ := ih (link.step cfg e)
      have hstep : (∃ callback, (link.step cfg e).handler = link.handler.step cfg callback) ∨
          (link.step cfg e).handler = link.handler := by
        cases e with
        | feed callback =>
            refine Or.inl ⟨callback, ?_⟩
            cases callback <;> rfl
        | arrive =>
            right
            rw [step, onArrive]
            split <;> rfl
        | _ => exact Or.inr rfl
      rcases hstep with ⟨callback, hcallback⟩ | hidle
      · exact ⟨callback :: callbacks, by rw [Runs.run_cons, hrun, hcallback, Runs.run_cons]⟩
      · exact ⟨callbacks, by rw [Runs.run_cons, hrun, hidle]⟩

/-!
### A brain that has missed nothing since a baseline

Frames may be missing anywhere before the baseline, and statuses and complete checkpoints also after it.
What remains is a stream that the brain mirrors.
-/

/-- A complete baseline has arrived and, after it, every published snapshot and incremental and no book
    state that is cut. -/
def CaughtUp (published : List PubEvent) (arrived : List (PubEvent × Nat)) : Prop :=
  ∃ base ∈ arrived, base.1.Baseline ∧ base.1.Complete ∧
    (∀ frame ∈ published.zipIdx, base.2 < frame.2 → frame.1.ChangesBook → frame ∈ arrived) ∧
    ∀ frame ∈ arrived, base.2 < frame.2 → frame.1.Complete

instance (published : List PubEvent) (arrived : List (PubEvent × Nat)) :
    Decidable (CaughtUp published arrived) :=
  inferInstanceAs (Decidable (∃ base ∈ arrived, _))

/-- A brain that has caught up mirrors the stream, whatever its book was before. -/
theorem mirrors_of_caughtUp {published : List PubEvent} {arrived : List (PubEvent × Nat)}
    (ordered : arrived.Sublist published.zipIdx) (caught : CaughtUp published arrived)
    (replica : OrderBookController) :
    Mirrors replica.book.depth published ((arrived.map Prod.fst).foldl absorb replica) := by
  induction published using List.reverseRecOn generalizing arrived with
  | nil =>
      obtain ⟨base, hmember, -⟩ := caught
      exact absurd (ordered.subset hmember) List.not_mem_nil
  | append_singleton published e ih =>
      obtain ⟨base, hmember, hbase, hcomplete, hneeded, hcut⟩ := caught
      have hframes : (published ++ [e]).zipIdx = published.zipIdx ++ [(e, published.length)] := by
        simp [List.zipIdx_append]
      have hlast : (e, published.length) ∈ published.zipIdx ++ [(e, published.length)] :=
        List.mem_append_right _ (List.mem_singleton_self _)
      rw [hframes] at ordered hneeded
      obtain ⟨front, back, rfl, hfront, hback⟩ := List.sublist_append_iff.mp ordered
      have hbound : ∀ frame ∈ front, frame.2 < published.length :=
        fun frame hframe => List.snd_lt_of_mem_zipIdx (hfront.subset hframe)
      -- the last event is missing, or it is the last one that has arrived
      rcases List.sublist_singleton.mp hback with rfl | rfl
      · rw [List.append_nil] at *
        have hcaught : CaughtUp published front :=
          ⟨base, hmember, hbase, hcomplete,
            fun frame hpublished => hneeded frame (List.mem_append_left _ hpublished), hcut⟩
        refine (ih hfront hcaught).missed fun hchanges => ?_
        have harrived := hneeded _ hlast (hbound base hmember) hchanges
        exact absurd (hbound _ harrived) (Nat.lt_irrefl _)
      · rw [List.map_append, List.foldl_append]
        rcases List.mem_append.mp hmember with hearlier | hnew
        · have hcaught : CaughtUp published front := by
            refine ⟨base, hearlier, hbase, hcomplete, fun frame hpublished hlater hchanges => ?_,
              fun frame harrived => hcut frame (List.mem_append_left _ harrived)⟩
            have harrived := hneeded frame (List.mem_append_left _ hpublished) hlater hchanges
            refine (List.mem_append.mp harrived).resolve_right fun hnew => ?_
            have hposition := List.snd_lt_of_mem_zipIdx hpublished
            rw [List.mem_singleton.mp hnew] at hposition
            exact absurd hposition (Nat.lt_irrefl _)
          apply (ih hfront hcaught).received
          exact hcut _ (List.mem_append_right _ (List.mem_singleton_self _)) (hbound base hearlier)
        · rw [List.mem_singleton.mp hnew] at hbase hcomplete
          exact .baseline hbase hcomplete (depth_foldl_absorb replica (front.map Prod.fst))

/-- A lossy link.  Wherever connections broke and whatever was lost: whenever the feed is in `SYNCED`, the
    brain has processed what arrived, and it has caught up, a venue book of the feed that counts as synced
    is the feed's book. -/
theorem caught_up_brain_equals_pop (cfg : HandlerConfig) (venue : VenueId) (symbol : String)
    (brain : cfg.brainConfigured = true) (certLoaded : Bool) (events : List LinkEvent)
    (input : List (Int × Json))
    (processed : Carries venue symbol
      ((Runs.run (step cfg) (started cfg certLoaded) events).arrived.map Prod.fst) input)
    (pass : LevelsPass (Runs.run (step cfg) (started cfg certLoaded) events).handler.published)
    (synced : (Runs.run (step cfg) (started cfg certLoaded) events).handler.state = .synced)
    (caught : CaughtUp (Runs.run (step cfg) (started cfg certLoaded) events).handler.published
      (Runs.run (step cfg) (started cfg certLoaded) events).arrived) :
    let link := Runs.run (step cfg) (started cfg certLoaded) events
    let books := Runs.run Brain.UnifiedBook.step (Brain.UnifiedBook.new cfg.depth cfg.depth_pos) input
    ∀ vb ∈ books.venues, vb.key = (venue.name, symbol) → vb.synced = true →
      vb.book.bids = link.handler.controller.book.bids ∧
        vb.book.asks = link.handler.controller.book.asks ∧
        vb.controller.getAppliedSeqID = link.handler.controller.getAppliedSeqID := by
  intro link books vb hmember hkey hvb
  obtain ⟨callbacks, hhandler⟩ := handler_run cfg (started cfg certLoaded) events
  have hrep : Replicated cfg link.handler := by
    rw [hhandler] at synced ⊢
    exact replicated_of_synced brain synced
  have hall : (link.arrived ++ (link.wire ++ link.sink.ws.queue)).Sublist link.handler.published.zipIdx := by
    rw [← List.append_assoc]
    exact linkInv_run cfg certLoaded events
  have hordered : link.arrived.Sublist link.handler.published.zipIdx :=
    (List.sublist_append_left _ _).trans hall
  have hacceptable : ∀ e ∈ link.arrived.map Prod.fst, e.Acceptable := by
    intro e he
    obtain ⟨frame, hframe, rfl⟩ := List.mem_map.mp he
    exact hrep.publication.acceptable pass _ (List.fst_mem_of_mem_zipIdx (hordered.subset hframe))
  have hmirrors : Mirrors cfg.depth link.handler.published vb.controller := by
    rw [venueBook_controller processed hacceptable cfg.depth_pos hmember hkey]
    exact mirrors_of_caughtUp hordered caught (OrderBookController.new cfg.depth cfg.depth_pos)
  have hfollows := hrep.publication.tracks (hrep.synced synced) vb.controller hmirrors
  have hreplica : vb.controller.state = .synced := by
    rw [Brain.VenueBook.synced, Bool.and_eq_true] at hvb
    exact eq_of_beq hvb.2
  have hagree := hfollows.agree hreplica
  rw [Brain.VenueBook.book, hagree.book]
  exact ⟨rfl, rfl, hagree.lastSeq⟩

/-!
### Runs that lose something

The brain cannot know that a frame is missing, since its controller tolerates gaps.
-/

/-- Up to `count` frames are written and arrive. -/
def flush (count : Nat) : List LinkEvent :=
  List.replicate count .written ++ List.replicate count .arrive

/-- The feed becomes synced over an open link. -/
def untilSynced : List LinkEvent :=
  [.opened, .feed (.wsOpen 1), .feed (.restDone 2 (.response 200 true true "snapshot")),
    .feed (.wsMessage 3 "depthUpdate 101")] ++ flush 6

/-- The brain closes the connection; one update is published while it is down and one after the
    reconnect. -/
def acrossReconnect : List LinkEvent :=
  [.closed, .feed (.wsMessage 4 "depthUpdate 102"), .reconnectTimer, .opened,
    .feed (.wsMessage 5 "depthUpdate 103")] ++ flush 2

/-- What the brain makes of the arrived frames. -/
def booksOf (link : BrainLink) : Brain.UnifiedBook :=
  Runs.run Brain.UnifiedBook.step (Brain.UnifiedBook.new 2 Nat.two_pos)
    ((link.arrived.map Prod.fst).map fun e =>
      (6, e.toJson ⟨"binance", "btcusdt@depth@100ms", 1, 6⟩))

/-- The link is up and idle, the feed is synced, and a venue book that counts as synced differs from the
    feed's book. -/
def WrongBookInUse (link : BrainLink) : Prop :=
  (link.sink.ws.sessionOpen = true ∧ link.sink.ws.outbox = [] ∧ link.wire = []) ∧
    LevelsPass link.handler.published ∧ link.handler.state = .synced ∧
    ∃ vb ∈ (booksOf link).venues, vb.key = ("binance", "btcusdt@depth@100ms") ∧ vb.synced = true ∧
      vb.book.asks ≠ link.handler.controller.book.asks

instance (link : BrainLink) : Decidable (WrongBookInUse link) := inferInstanceAs (Decidable (_ ∧ _))

/-- An update that was discarded while the link was down is missing from the book for good; and without any
    loss a checkpoint that is cut replaces the book by its first levels. -/
theorem lossy_link_leaves_wrong_book :
    WrongBookInUse (Runs.run (step (twoLevelFeed 0 0)) (started (twoLevelFeed 0 0) true)
        (untilSynced ++ acrossReconnect)) ∧
      WrongBookInUse (Runs.run (step (twoLevelFeed 1 1)) (started (twoLevelFeed 1 1) true)
        (untilSynced ++ .feed (.wsMessage 4 "depthUpdate 102") :: flush 2)) := by
  constructor
  · decide
  · decide

/-- After the same loss a complete checkpoint brings the brain back. -/
theorem caught_up_brain_equals_pop_after_loss :
    let link := Runs.run (step (twoLevelFeed 1 2)) (started (twoLevelFeed 1 2) true)
      (untilSynced ++ acrossReconnect)
    link.arrived.length < link.handler.published.length ∧
      ∀ vb ∈ (booksOf link).venues, vb.key = ("binance", "btcusdt@depth@100ms") → vb.synced = true →
        vb.book.bids = link.handler.controller.book.bids ∧
          vb.book.asks = link.handler.controller.book.asks ∧
          vb.controller.getAppliedSeqID = link.handler.controller.getAppliedSeqID := by
  intro link
  refine ⟨by decide, ?_⟩
  exact caught_up_brain_equals_pop (twoLevelFeed 1 2) .binance "btcusdt@depth@100ms" rfl true
    (untilSynced ++ acrossReconnect) _ (carries_frames _ _ _ 1 6 6) (by decide) (by decide) (by decide)

end BrainLink

end Feed

end ZidaBot
