/-
Module: ZidaBot.Library.Outbox
Purpose: Queues whose front is being written by an asynchronous operation.  An outbox is seen through its
  queue and the entry whose write is in flight; a run is traced with what was sent, handed to the writer,
  evicted and completed, every entry numbered by its position among the sends.  The law says that the
  write in flight keeps its entry, that a completion takes the entry it has written, and that the writer
  gets a subsequence of what was sent.  A bounded outbox that makes room at the front keeps the law exactly
  as long as no send finds it full.
Trusted boundary: none
Main exports: View, Event, Trace, Trace.step, Lawful, Bounded, Room, lawful_iff
-/
import ZidaBot.Library.Runs
import Mathlib.Data.List.Nodup

namespace Outbox

/-- An outbox from outside: the queue, the entry handed to the writer and not completed yet, enqueueing, and
    the successful completion of the write in flight. -/
structure View (σ α : Type*) where
  queue : σ → List α
  inFlight : σ → Option α
  send : σ → α → σ
  done : σ → σ

/-- A send, or a successful completion. -/
inductive Event (β : Type*) where
  | send (frame : β)
  | done
deriving DecidableEq

/-- A state with its history: entries sent, handed to the writer, gone from the queue without a completion,
    completed, and taken from the queue by completions. -/
structure Trace (σ β : Type*) where
  state : σ
  sent : List (Nat × β)
  started : List (Nat × β)
  evicted : List (Nat × β)
  written : List (Nat × β)
  removed : List (Nat × β)

variable {σ β : Type*}

section Tracing

variable [DecidableEq β]

/-- What an operation took from a queue. -/
def gone (before after : List (Nat × β)) : List (Nat × β) := before.filter fun entry => entry ∉ after

/-- One event.  Without a write in flight there is no completion. -/
def Trace.step (v : View σ (Nat × β)) (t : Trace σ β) : Event β → Trace σ β
  | .send frame =>
      let entry := (t.sent.length, frame)
      let state := v.send t.state entry
      { t with
        state := state
        sent := t.sent ++ [entry]
        evicted := t.evicted ++ gone (v.queue t.state) (v.queue state)
        started := if v.inFlight t.state = none then t.started ++ (v.inFlight state).toList else t.started }
  | .done =>
      match v.inFlight t.state with
      | none => t
      | some entry =>
          let state := v.done t.state
          { t with
            state := state
            written := t.written ++ [entry]
            removed := t.removed ++ gone (v.queue t.state) (v.queue state)
            started := t.started ++ (v.inFlight state).toList }

end Tracing

/-- The law of an outbox, for the trace so far. -/
structure Lawful (v : View σ (Nat × β)) (t : Trace σ β) : Prop where
  /-- The entry in flight stands unchanged at the front. -/
  front_kept : ∀ entry, v.inFlight t.state = some entry → (v.queue t.state).head? = some entry
  /-- Completions take what was written. -/
  removed_written : t.removed = t.written
  /-- The writer gets a subsequence of what was sent, nothing twice. -/
  started_sent : t.started.Sublist t.sent
  started_nodup : t.started.Nodup
  /-- What it has not got waits or was evicted before it was started, older than all that wait. -/
  missing : ∀ entry ∈ t.sent, entry ∉ t.started → entry ∈ v.queue t.state ∨ entry ∈ t.evicted
  evicted_unstarted : ∀ entry ∈ t.evicted, entry ∉ t.started
  evicted_oldest : ∀ entry ∈ t.evicted, ∀ waiting ∈ v.queue t.state, waiting ∉ t.started →
    entry.1 < waiting.1

/-- A bounded outbox on an open connection (`Open`) that makes room at the front. -/
structure Bounded (v : View σ (Nat × β)) (capacity : Nat) (Open : σ → Prop) : Prop where
  capacity_pos : 0 < capacity
  length_le : ∀ s, Open s → (v.queue s).length ≤ capacity
  open_send : ∀ s entry, Open s → Open (v.send s entry)
  open_done : ∀ s, Open s → Open (v.done s)
  queue_send : ∀ s entry, Open s →
    v.queue (v.send s entry) = (v.queue s).drop ((v.queue s).length + 1 - capacity) ++ [entry]
  inFlight_send : ∀ s entry, Open s →
    v.inFlight (v.send s entry) = (v.inFlight s).or (v.queue (v.send s entry)).head?
  queue_done : ∀ s, Open s → v.inFlight s ≠ none → v.queue (v.done s) = (v.queue s).tail
  inFlight_done : ∀ s, Open s → v.inFlight s ≠ none → v.inFlight (v.done s) = (v.queue s).tail.head?

/-- A send finds room. -/
def Room (v : View σ (Nat × β)) (capacity : Nat) (t : Trace σ β) : Event β → Prop
  | .send _ => (v.queue t.state).length < capacity
  | .done => True

instance (v : View σ (Nat × β)) (capacity : Nat) (t : Trace σ β) : DecidablePred (Room v capacity t)
  | .send _ => inferInstanceAs (Decidable (_ < _))
  | .done => instDecidableTrue

/-- As long as nothing was evicted: what was sent is what was written and what is queued, the front of the
    queue is in flight, and entries are numbered in order. -/
structure Exact (v : View σ (Nat × β)) (Open : σ → Prop) (t : Trace σ β) : Prop where
  opened : Open t.state
  sent_eq : t.sent = t.written ++ v.queue t.state
  started_eq : t.started = t.written ++ (v.queue t.state).head?.toList
  inFlight_eq : v.inFlight t.state = (v.queue t.state).head?
  evicted_eq : t.evicted = []
  removed_eq : t.removed = t.written
  numbered : t.sent.map Prod.fst = List.range t.sent.length

namespace Exact

variable {v : View σ (Nat × β)} {Open : σ → Prop} {t : Trace σ β} {capacity : Nat}

theorem sent_nodup (inv : Exact v Open t) : t.sent.Nodup := by
  apply List.Nodup.of_map Prod.fst
  rw [inv.numbered]
  exact List.nodup_range

theorem lawful (inv : Exact v Open t) : Lawful v t := by
  have hsub : t.started.Sublist t.sent := by
    rw [inv.started_eq, inv.sent_eq]
    refine List.Sublist.append_left ?_ _
    cases v.queue t.state with
    | nil => exact List.Sublist.refl _
    | cons front rest => simp
  constructor
  · intro entry hentry
    rw [← inv.inFlight_eq, hentry]
  · exact inv.removed_eq
  · exact hsub
  · exact hsub.nodup inv.sent_nodup
  · intro entry hsent hnot
    rw [inv.sent_eq] at hsent
    rcases List.mem_append.mp hsent with hwritten | hqueued
    · exact absurd (inv.started_eq ▸ List.mem_append_left _ hwritten) hnot
    · exact Or.inl hqueued
  · intro entry hentry
    rw [inv.evicted_eq] at hentry
    cases hentry
  · intro entry hentry
    rw [inv.evicted_eq] at hentry
    cases hentry

/-- A new number is not in use. -/
theorem fresh (inv : Exact v Open t) (frame : β) : (t.sent.length, frame) ∉ t.sent := by
  intro hmem
  have hnumber : t.sent.length ∈ t.sent.map Prod.fst := List.mem_map_of_mem hmem
  rw [inv.numbered] at hnumber
  exact absurd (List.mem_range.mp hnumber) (Nat.lt_irrefl _)

variable [DecidableEq β]

theorem send (inv : Exact v Open t) (bounded : Bounded v capacity Open) {frame : β}
    (room : (v.queue t.state).length < capacity) : Exact v Open (t.step v (.send frame)) := by
  have hqueue : v.queue (v.send t.state (t.sent.length, frame)) =
      v.queue t.state ++ [(t.sent.length, frame)] := by
    have hdrop : (v.queue t.state).length + 1 - capacity = 0 := by omega
    rw [bounded.queue_send _ _ inv.opened, hdrop, List.drop_zero]
  have hinFlight : v.inFlight (v.send t.state (t.sent.length, frame)) =
      (v.queue t.state ++ [(t.sent.length, frame)]).head? := by
    rw [bounded.inFlight_send _ _ inv.opened, inv.inFlight_eq, hqueue]
    cases v.queue t.state <;> rfl
  constructor
  · exact bounded.open_send _ _ inv.opened
  · simp only [Trace.step, hqueue]
    nth_rewrite 1 [inv.sent_eq]
    rw [List.append_assoc]
  · simp only [Trace.step, hqueue, hinFlight, inv.inFlight_eq, inv.started_eq]
    cases v.queue t.state <;> simp
  · simp only [Trace.step, hinFlight, hqueue]
  · have hnone : gone (v.queue t.state) (v.queue t.state ++ [(t.sent.length, frame)]) = [] := by
      apply List.filter_eq_nil_iff.mpr
      intro entry hentry
      simp [hentry]
    simp only [Trace.step, hqueue, inv.evicted_eq, hnone, List.append_nil]
  · exact inv.removed_eq
  · simp only [Trace.step, List.map_append, inv.numbered, List.length_append]
    simp [List.range_succ]

theorem done (inv : Exact v Open t) (bounded : Bounded v capacity Open) :
    Exact v Open (t.step v .done) := by
  have hinFlight := inv.inFlight_eq
  cases hqueue : v.queue t.state with
  | nil =>
      rw [hqueue] at hinFlight
      simpa [Trace.step, hinFlight] using inv
  | cons front rest =>
      rw [hqueue] at hinFlight
      have hbusy : v.inFlight t.state ≠ none := by simp [hinFlight]
      have hqueue' : v.queue (v.done t.state) = rest := by
        rw [bounded.queue_done _ inv.opened hbusy, hqueue, List.tail_cons]
      have hinFlight' : v.inFlight (v.done t.state) = rest.head? := by
        rw [bounded.inFlight_done _ inv.opened hbusy, hqueue, List.tail_cons]
      have hnodup : (front :: rest).Nodup := by
        have hsent := inv.sent_nodup
        rw [inv.sent_eq, hqueue] at hsent
        exact (List.nodup_append.mp hsent).2.1
      have hgone : gone (front :: rest) rest = [front] := by
        have hfront := (List.nodup_cons.mp hnodup).1
        simp [gone, hfront]
      have hstep : t.step v .done =
          { t with
            state := v.done t.state, written := t.written ++ [front], removed := t.removed ++ [front]
            started := t.started ++ rest.head?.toList } := by
        simp only [Trace.step, hinFlight, List.head?_cons, hqueue, hqueue', hgone, hinFlight']
      rw [hstep]
      constructor
      · exact bounded.open_done _ inv.opened
      · simp [inv.sent_eq, hqueue, hqueue']
      · simp [inv.started_eq, hqueue, hqueue']
      · simp [hinFlight', hqueue']
      · exact inv.evicted_eq
      · simp [inv.removed_eq]
      · exact inv.numbered

/-- A send that finds the queue full evicts the entry in flight. -/
theorem not_lawful_of_full (inv : Exact v Open t) (bounded : Bounded v capacity Open) {frame : β}
    (full : capacity ≤ (v.queue t.state).length) : ¬ Lawful v (t.step v (.send frame)) := by
  intro lawful
  have hlength : (v.queue t.state).length = capacity :=
    Nat.le_antisymm (bounded.length_le _ inv.opened) full
  cases hqueue : v.queue t.state with
  | nil =>
      have hpos := bounded.capacity_pos
      simp [hqueue] at hlength
      omega
  | cons front rest =>
      have hdrop : (v.queue t.state).length + 1 - capacity = 1 := by omega
      have hqueue' : v.queue (v.send t.state (t.sent.length, frame)) =
          rest ++ [(t.sent.length, frame)] := by
        rw [bounded.queue_send _ _ inv.opened, hdrop, hqueue]
        rfl
      have hinFlight : v.inFlight (v.send t.state (t.sent.length, frame)) = some front := by
        rw [bounded.inFlight_send _ _ inv.opened, inv.inFlight_eq, hqueue]
        rfl
      have hfront := lawful.front_kept front hinFlight
      have hmem : front ∈ rest ++ [(t.sent.length, frame)] := by
        rw [← hqueue']
        exact List.mem_of_head? hfront
      have hsent : front ∈ t.sent := by
        rw [inv.sent_eq, hqueue]
        simp
      have hnodup := inv.sent_nodup
      rw [inv.sent_eq, hqueue] at hnodup
      rcases List.mem_append.mp hmem with hrest | hnew
      · exact (List.nodup_cons.mp (List.nodup_append.mp hnodup).2.1).1 hrest
      · rw [List.mem_singleton.mp hnew] at hsent
        exact inv.fresh frame hsent

end Exact

/-- The law holds after every part of a run exactly if no send of the run finds the outbox full. -/
theorem lawful_iff [DecidableEq β] {v : View σ (Nat × β)} {capacity : Nat} {Open : σ → Prop}
    (bounded : Bounded v capacity Open) {start : Trace σ β} (inv : Exact v Open start)
    (events : List (Event β)) :
    (∀ reached, reached <+: events → Lawful v (Runs.run (Trace.step v) start reached)) ↔
      Runs.Along (Trace.step v) (Room v capacity) start events := by
  refine Runs.Along.iff_of_invariant (Exact v Open) (Lawful v) (fun _ => Exact.lawful) ?_ ?_ inv events
  · intro t e inv room
    cases e with
    | send frame => exact inv.send bounded room
    | done => exact inv.done bounded
  · intro t e inv lawful
    cases e with
    | send frame =>
        by_contra hfull
        exact inv.not_lawful_of_full bounded (Nat.le_of_not_lt hfull) lawful
    | done => trivial

end Outbox
