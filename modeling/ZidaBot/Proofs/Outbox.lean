/-
Module: ZidaBot.Proofs.Outbox
Purpose: The two outboxes of the system, that of the WebSocket client and that of a signal session, as
  bounded outboxes that make room at the front.  The front is the entry whose write is in flight, so the
  first send that finds either of them full breaks the law of an outbox, and nothing else does.
Trusted boundary: none
Main exports: wsOutbox, sessionOutbox, bounded_wsOutbox, bounded_sessionOutbox, openedClient,
  outbox_law_iff
-/
import ZidaBot.Brain.SignalServer
import ZidaBot.Common.WsClient
import ZidaBot.Library.Outbox

namespace ZidaBot

open Brain Outbox

/-!
### The WebSocket client

The client may hold frames before the connection opens; from then on it is writing whenever it has something
to write, and its operations are those of the library's outbox.
-/

/-- The client as an outbox; text and binary frames go the same way. -/
def wsOutbox {α : Type} : View (WsClient α) α where
  queue := WsClient.outbox
  inFlight := WsClient.inFlight
  send := WsClient.send
  done c := c.writeDone.1

/-- An open client that is writing whenever it has something to write. -/
structure WsClient.Writing {α : Type} (maxOutbox : Nat) (c : WsClient α) : Prop where
  closing : c.closing = false
  opened : c.opened = true
  limit : c.maxOutbox = maxOutbox
  length_le : c.outbox.length ≤ maxOutbox
  busy : c.inFlight = none → c.outbox = []

section Client

variable {α : Type} {c : WsClient α} {maxOutbox : Nat}

/-- A client that is not closing starts a write if none is in flight and there is an entry. -/
theorem WsClient.startWrite_eq (closing : c.closing = false) :
    c.startWrite = { c with inFlight := c.inFlight.or c.outbox.head? } := by
  rw [startWrite, closing]
  cases hinFlight : c.inFlight with
  | none =>
      cases houtbox : c.outbox with
      | nil =>
          cases c
          simp_all
      | cons front rest => rfl
  | some frame =>
      cases c
      simp_all

theorem WsClient.Writing.send_eq (writing : c.Writing maxOutbox) (pos : 0 < maxOutbox) (frame : α) :
    c.send frame =
      { c with
        outbox := c.outbox.drop (c.outbox.length + 1 - maxOutbox) ++ [frame]
        inFlight := c.inFlight.or
          (c.outbox.drop (c.outbox.length + 1 - maxOutbox) ++ [frame]).head? } := by
  have hlimit : ¬ (c.closing || c.maxOutbox == 0) = true := by
    have := writing.limit
    simp [writing.closing]
    omega
  rw [send, if_neg hlimit]
  dsimp only
  rw [if_pos writing.opened, startWrite_eq (by exact writing.closing), writing.limit]

theorem WsClient.Writing.writeDone_eq (writing : c.Writing maxOutbox) (busy : c.inFlight ≠ none) :
    c.writeDone.1 = { c with outbox := c.outbox.tail, inFlight := c.outbox.tail.head? } := by
  obtain ⟨frame, hframe⟩ := Option.ne_none_iff_exists'.mp busy
  rw [writeDone, hframe]
  dsimp only
  rw [startWrite_eq (by exact writing.closing)]
  rfl

theorem WsClient.writeDone_idle (idle : c.inFlight = none) : c.writeDone.1 = c := by
  rw [writeDone, idle]

theorem WsClient.Writing.send (writing : c.Writing maxOutbox) (pos : 0 < maxOutbox) (frame : α) :
    (c.send frame).Writing maxOutbox := by
  have hlength := writing.length_le
  rw [writing.send_eq pos]
  refine ⟨writing.closing, writing.opened, writing.limit, ?_, ?_⟩
  · simp only [List.length_append, List.length_drop, List.length_singleton]
    omega
  · simp

theorem WsClient.Writing.writeDone (writing : c.Writing maxOutbox) :
    c.writeDone.1.Writing maxOutbox := by
  by_cases hidle : c.inFlight = none
  · rwa [writeDone_idle hidle]
  · rw [writing.writeDone_eq hidle]
    have hlength := writing.length_le
    refine ⟨writing.closing, writing.opened, writing.limit, ?_, ?_⟩
    · simp only [List.length_tail]
      omega
    · exact List.head?_eq_none_iff.mp

/-- The client makes room at the front. -/
theorem bounded_wsOutbox {β : Type} (pos : 0 < maxOutbox) :
    Bounded (wsOutbox : View (WsClient (Nat × β)) _) maxOutbox (WsClient.Writing maxOutbox) where
  capacity_pos := pos
  length_le _ writing := writing.length_le
  open_send _ entry writing := writing.send pos entry
  open_done _ writing := writing.writeDone
  queue_send _ entry writing := congrArg WsClient.outbox (writing.send_eq pos entry)
  inFlight_send c entry writing := by
    show (c.send entry).inFlight = c.inFlight.or (c.send entry).outbox.head?
    rw [writing.send_eq pos]
  queue_done _ writing busy := congrArg WsClient.outbox (writing.writeDone_eq busy)
  inFlight_done _ writing busy := congrArg WsClient.inFlight (writing.writeDone_eq busy)

end Client

/-!
### Signal sessions

A failed write leaves its entry in the queue and the next send tries again. In the history of an outbox that
is a write that has not completed yet.
-/

/-- A session as an outbox. -/
def sessionOutbox {α : Type} : View (SignalSession α) α where
  queue := SignalSession.outbox
  inFlight := SignalSession.inFlight
  send := SignalSession.send
  done s := s.onWrite true

/-- A session that keeps to its limit and is writing whenever it has something to write. -/
structure Brain.SignalSession.Writing {α : Type} (s : SignalSession α) : Prop where
  length_le : s.outbox.length ≤ kMaxOutbox
  busy : s.inFlight = none → s.outbox = []

section Session

variable {α : Type} {s : SignalSession α}

theorem Brain.SignalSession.Writing.send_eq (writing : s.Writing) (msg : α) :
    s.send msg =
      { outbox := s.outbox.drop (s.outbox.length + 1 - kMaxOutbox) ++ [msg]
        inFlight := s.inFlight.or
          (s.outbox.drop (s.outbox.length + 1 - kMaxOutbox) ++ [msg]).head? } := by
  have hlength := writing.length_le
  have hkept : (if kMaxOutbox ≤ s.outbox.length then s.outbox.tail else s.outbox) =
      s.outbox.drop (s.outbox.length + 1 - kMaxOutbox) := by
    split
    · have hone : s.outbox.length + 1 - kMaxOutbox = 1 := by omega
      rw [hone, List.drop_one]
    · have hzero : s.outbox.length + 1 - kMaxOutbox = 0 := by omega
      rw [hzero, List.drop_zero]
  rw [SignalSession.send, hkept]
  cases s.inFlight with
  | none => rfl
  | some frame => rfl

theorem Brain.SignalSession.onWrite_eq :
    s.onWrite true = { outbox := s.outbox.tail, inFlight := s.outbox.tail.head? } := by
  rw [SignalSession.onWrite, if_neg (by simp)]
  cases s.outbox.tail <;> simp [SignalSession.doWrite]

theorem Brain.SignalSession.Writing.send (writing : s.Writing) (msg : α) : (s.send msg).Writing := by
  have hlength := writing.length_le
  rw [writing.send_eq]
  refine ⟨?_, by simp⟩
  simp only [List.length_append, List.length_drop, List.length_singleton, kMaxOutbox] at hlength ⊢
  omega

theorem Brain.SignalSession.Writing.onWrite (writing : s.Writing) : (s.onWrite true).Writing := by
  have hlength := writing.length_le
  rw [onWrite_eq]
  refine ⟨?_, List.head?_eq_none_iff.mp⟩
  simp only [List.length_tail]
  omega

/-- So does a session. -/
theorem bounded_sessionOutbox {β : Type} :
    Bounded (sessionOutbox : View (SignalSession (Nat × β)) _) kMaxOutbox SignalSession.Writing where
  capacity_pos := by decide
  length_le _ writing := writing.length_le
  open_send _ entry writing := writing.send entry
  open_done _ writing := writing.onWrite
  queue_send _ entry writing := congrArg SignalSession.outbox (writing.send_eq entry)
  inFlight_send s entry writing := by
    show (s.send entry).inFlight = s.inFlight.or (s.send entry).outbox.head?
    rw [writing.send_eq]
  queue_done _ _ _ := congrArg SignalSession.outbox SignalSession.onWrite_eq
  inFlight_done _ _ _ := congrArg SignalSession.inFlight SignalSession.onWrite_eq

end Session

/-! ### Result -/

section Law

variable {β : Type}

/-- Entries in the order of their sends. -/
def numbered (queued : List β) : List (Nat × β) := queued.zipIdx.map Prod.swap

theorem numbered_fst (queued : List β) : (numbered queued).map Prod.fst = List.range queued.length := by
  simp [numbered, Function.comp_def, List.range_eq_range']

/-- A client right after its handshake, with what was sent before. -/
def openedClient (maxOutbox : Nat) (queued : List β) : WsClient (Nat × β) :=
  (WsClient.handshakeDone
    { connecting := true, outbox := numbered queued, maxOutbox := maxOutbox }).1

theorem openedClient_eq (maxOutbox : Nat) (queued : List β) :
    openedClient maxOutbox queued =
      { opened := true, outbox := numbered queued, inFlight := (numbered queued).head?
        maxOutbox := maxOutbox } := by
  rw [openedClient, WsClient.handshakeDone, if_neg (by simp), WsClient.startWrite_eq (by rfl)]
  rfl

/-- The history of such a client. -/
def openedTrace (maxOutbox : Nat) (queued : List β) : Trace (WsClient (Nat × β)) β :=
  { state := openedClient maxOutbox queued, sent := numbered queued
    started := (openedClient maxOutbox queued).inFlight.toList, evicted := [], written := [], removed := [] }

/-- A session before its first signal. -/
def sessionTrace : Trace (SignalSession (Nat × β)) β :=
  { state := {}, sent := [], started := [], evicted := [], written := [], removed := [] }

theorem exact_openedTrace {maxOutbox : Nat} {queued : List β} (fits : queued.length ≤ maxOutbox) :
    Exact wsOutbox (WsClient.Writing maxOutbox) (openedTrace maxOutbox queued) := by
  have hlength : (numbered queued).length = queued.length := by simp [numbered]
  have hstate := openedClient_eq maxOutbox queued
  constructor
  · rw [openedTrace, hstate]
    exact ⟨rfl, rfl, rfl, hlength ▸ fits, List.head?_eq_none_iff.mp⟩
  · simp [openedTrace, wsOutbox, hstate]
  · simp [openedTrace, wsOutbox, hstate]
  · simp [openedTrace, wsOutbox, hstate]
  · rfl
  · rfl
  · rw [openedTrace, numbered_fst, hlength]

theorem exact_sessionTrace :
    Exact (sessionOutbox : View (SignalSession (Nat × β)) _) SignalSession.Writing sessionTrace :=
  ⟨⟨Nat.zero_le _, fun _ => rfl⟩, rfl, rfl, rfl, rfl, rfl, rfl⟩

/-- The outbox law.  For every limit of at least one, every queue of frames sent before the connection
    opened and every sequence of sends and completions, the law holds for the client after every part of
    the sequence exactly if no send finds its outbox full; and the same for a signal session. -/
theorem outbox_law_iff [DecidableEq β] (maxOutbox : Nat) (pos : 1 ≤ maxOutbox) (queued : List β)
    (fits : queued.length ≤ maxOutbox) (frames : List (Event β)) (signals : List (Event String)) :
    ((∀ reached, reached <+: frames →
        Lawful wsOutbox (Runs.run (Trace.step wsOutbox) (openedTrace maxOutbox queued) reached)) ↔
      Runs.Along (Trace.step wsOutbox) (Room wsOutbox maxOutbox) (openedTrace maxOutbox queued) frames) ∧
    ((∀ reached, reached <+: signals →
        Lawful sessionOutbox (Runs.run (Trace.step sessionOutbox) sessionTrace reached)) ↔
      Runs.Along (Trace.step sessionOutbox) (Room sessionOutbox kMaxOutbox) sessionTrace signals) :=
  ⟨lawful_iff (bounded_wsOutbox pos) (exact_openedTrace fits) frames,
    lawful_iff bounded_sessionOutbox exact_sessionTrace signals⟩

end Law

/-- Two places are enough for sends that wait for completions. -/
theorem outbox_law_two_places :
    let frames : List (Event String) := [.send "b", .done, .send "c", .done, .done]
    Lawful wsOutbox (Runs.run (Trace.step wsOutbox) (openedTrace 2 ["a"]) frames) ∧
      (Runs.run (Trace.step wsOutbox) (openedTrace 2 ["a"]) frames).started =
        [(0, "a"), (1, "b"), (2, "c")] := by
  intro frames
  have hroom : Runs.Along (Trace.step wsOutbox) (Room wsOutbox 2) (openedTrace 2 ["a"]) frames := by
    simp only [frames, Runs.Along]
    decide
  have hlaw := (outbox_law_iff 2 (by decide) ["a"] (by decide) frames []).1.mpr hroom
  exact ⟨hlaw frames (List.prefix_refl _), by decide⟩

/-- With two places, a third frame evicts the first while it is being written, and the completion takes
    the second, which never reaches the writer. -/
theorem full_outbox_loses_frame :
    let frames : List (Event String) := [.send "a", .send "b", .send "c", .done]
    let reached := Runs.run (Trace.step wsOutbox) (openedTrace 2 []) frames
    reached.started = [(0, "a"), (2, "c")] ∧ reached.evicted = [(0, "a")] ∧
      reached.written = [(0, "a")] ∧ reached.removed = [(1, "b")] ∧ ¬ Lawful wsOutbox reached := by
  intro frames reached
  refine ⟨by decide, by decide, by decide, by decide, ?_⟩
  intro law
  exact absurd law.removed_written (by decide)

end ZidaBot
