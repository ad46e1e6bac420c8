/-
Module: ZidaBot.Proofs.BrainProcess
Purpose: The brain process over whole runs of its threads.  The event queue keeps the order of the messages
  and loses only the oldest waiting ones, when it is full; what the scan thread owns is what the events it
  has taken and a promotion make of it, one after the other.  The shutdown waits for at most one more event,
  and is slept through exactly if its notification overtakes the scan thread.
Trusted boundary: none
Main exports: queue_run, received, enqueued, waited, EventOrder, event_order, ScanInput, inputs, scan_run,
  handled_run, shutdown_of_process
-/
import ZidaBot.Brain.BrainProcess
import ZidaBot.Proofs.Scan

namespace ZidaBot.Brain

open WorkQueue

/-- What changes the data of the scan thread: an event with the clock at its processing, or SIGUSR1. -/
inductive ScanInput where
  | event (now : Reading) (j : Json)
  | promote

/-- One input. -/
def ScanThread.take (opts : BrainOptions) (s : ScanThread) : ScanInput → ScanThread
  | .event now j => s.process opts now j
  | .promote => s.promote

namespace BrainProcess

variable {opts : BrainOptions} {p : BrainProcess}

/-!
### The queue

The callbacks of all connections push into one queue. What they push is determined by the events and by who
holds the mutex, so it can be stated without the queue; the law then says what has become of it.
-/

/-- The run of the queue depends on what was received only. -/
theorem queue_run (opts : BrainOptions) (p : BrainProcess) (events : List BrainEvent) :
    (Runs.run (step opts) p events).queue =
      Runs.run (WorkQueue.step scanProtocol) p.queue (events.filterMap BrainEvent.queueEvent) := by
  have hview : ∀ (p : BrainProcess) e, (step opts p e).queue =
      Runs.translated (WorkQueue.step scanProtocol) BrainEvent.queueEvent p.queue e := fun _ _ => rfl
  rw [Runs.run_view BrainProcess.queue hview, Runs.run_translated]

/-- The event of a message that parses, with its connection. -/
def message? : BrainEvent → Option QueuedEvent
  | .message connection (some j) => some (connection, j)
  | _ => none

/-- The messages that parse. -/
def received (events : List BrainEvent) : List QueuedEvent := events.filterMap message?

/-- The event that a step queues.  Between its test and its sleep the scan thread holds the mutex; a callback
    that comes then waits, and its step is still to be taken. -/
def enqueues (p : BrainProcess) (e : BrainEvent) : Option QueuedEvent :=
  if p.queue.holdsMutex then none else message? e

/-- The event whose callback meets the held mutex. -/
def waits (p : BrainProcess) (e : BrainEvent) : Option QueuedEvent :=
  if p.queue.holdsMutex then message? e else none

/-- The events that a run queues. -/
def enqueued (opts : BrainOptions) (events : List BrainEvent) : List QueuedEvent :=
  Runs.outputs (step opts) enqueues (start opts) events

/-- The events whose callbacks have met the held mutex. -/
def waited (opts : BrainOptions) (events : List BrainEvent) : List QueuedEvent :=
  Runs.outputs (step opts) waits (start opts) events

theorem received_cons (e : BrainEvent) (events : List BrainEvent) :
    received (e :: events) = (message? e).toList ++ received events := by
  cases hmessage : message? e <;> simp [received, hmessage]

/-- A received event is queued, or its callback waits. -/
theorem outputs_received (opts : BrainOptions) (p : BrainProcess) (events : List BrainEvent) :
    (Runs.outputs (step opts) enqueues p events).Sublist (received events) ∧
      (received events).Perm
        (Runs.outputs (step opts) enqueues p events ++ Runs.outputs (step opts) waits p events) := by
  induction events generalizing p with
  | nil => exact ⟨List.Sublist.refl _, List.Perm.refl _⟩
  | cons e events ih =>
      obtain ⟨hsub, hperm⟩ := ih (step opts p e)
      rw [received_cons, Runs.outputs, Runs.outputs, enqueues, waits]
      cases p.queue.holdsMutex with
      | false =>
          refine ⟨(List.Sublist.refl _).append hsub, ?_⟩
          rw [List.append_assoc]
          exact hperm.append_left _
      | true =>
          refine ⟨hsub.trans (List.sublist_append_right ..), ?_⟩
          exact (hperm.append_left _).trans (List.perm_append_comm_assoc ..)

/-- A message that finds the queue full. -/
def FindsFull (p : BrainProcess) (e : BrainEvent) : Prop :=
  ∃ connection j, e = .message connection (some j) ∧ kEventQueueCap ≤ p.queue.queue.length

theorem queue_of_none {e : BrainEvent} (own : e.queueEvent = none) : (step opts p e).queue = p.queue := by
  rw [step, Runs.translated, own]

theorem queue_of_event {e : BrainEvent} {event : WorkQueue.Event QueuedEvent}
    (own : e.queueEvent = some event) : (step opts p e).queue = WorkQueue.step scanProtocol p.queue event := by
  rw [step, Runs.translated, own]

theorem findsFull_of_entered {e : BrainEvent} {event : WorkQueue.Event QueuedEvent}
    (same : e.queueEvent = some event) (entered : p.queue.entered event ≠ [])
    (full : kEventQueueCap ≤ p.queue.queue.length) : FindsFull p e := by
  cases e with
  | message connection parsed =>
      cases parsed with
      | none => cases same
      | some j => exact ⟨connection, j, rfl, full⟩
  | promote => cases same
  | _ =>
      cases same
      exact absurd rfl entered

theorem pushed_step (p : BrainProcess) (e : BrainEvent) :
    (step opts p e).queue.pushed = p.queue.pushed ++ (p.enqueues e).toList := by
  cases hevent : e.queueEvent with
  | none =>
      have hnothing : message? e = none := by
        cases e with
        | message connection parsed =>
            cases parsed with
            | none => rfl
            | some j => cases hevent
        | _ => rfl
      rw [queue_of_none hevent, enqueues, hnothing, ite_self]
      exact (List.append_nil _).symm
  | some event =>
      have hentered : p.queue.entered event = (p.enqueues e).toList := by
        cases e with
        | message connection parsed =>
            cases parsed with
            | none => cases hevent
            | some j =>
                cases hevent
                rw [State.entered, enqueues]
                split <;> rfl
        | promote => cases hevent
        | _ =>
            cases hevent
            rw [enqueues]
            split <;> rfl
      rw [queue_of_event hevent, (step_push scanProtocol p.queue event).1, hentered]

/-- Everything that a run queues is pushed. -/
theorem pushed_run (opts : BrainOptions) (events : List BrainEvent) :
    (Runs.run (step opts) (start opts) events).queue.pushed = enqueued opts events :=
  Runs.log_outputs (fun p : BrainProcess => p.queue.pushed) pushed_step (start opts) events

/-- What has become of the messages of a run. -/
structure EventOrder (opts : BrainOptions) (events : List BrainEvent) (s : WorkQueue.State QueuedEvent) :
    Prop where
  bounded : s.queue.length ≤ kEventQueueCap
  /-- Every message that parses is queued, unless its callback waits. -/
  arrived : (received events).Perm (enqueued opts events ++ waited opts events)
  inOrder : (enqueued opts events).Sublist (received events)
  /-- Every queued event is processed, in hand, waiting, or dropped. -/
  accounted : (enqueued opts events).Perm (s.dropped ++ (s.handled ++ s.inHand ++ s.queue))
  ordered : (s.handled ++ s.inHand ++ s.queue).Sublist (enqueued opts events)
  /-- The waiting events are the ones queued last. -/
  newest : s.queue <:+ enqueued opts events
  /-- Once every callback has notified, the scan thread does not sleep over a waiting event. -/
  notStranded : s.notices = 0 → s.place = .blocked → s.queue = []

/-- In every run of the threads the events keep the order in which they were received, on all connections
    together; one that is not processed is waiting, or was dropped by a full queue for a later one. -/
theorem event_order (opts : BrainOptions) (events : List BrainEvent) :
    EventOrder opts events (Runs.run (step opts) (start opts) events).queue ∧
      (Runs.Along (step opts) (fun p e => ¬ FindsFull p e) (start opts) events →
        (Runs.run (step opts) (start opts) events).queue.dropped = []) := by
  have hcapacity : 0 < scanProtocol.capacity := by decide
  have hordered : Ordered scanProtocol (Runs.run (step opts) (start opts) events).queue := by
    rw [queue_run]
    exact ordered_run hcapacity _
  have hnoticed : Noticed scanProtocol (Runs.run (step opts) (start opts) events).queue := by
    rw [queue_run]
    exact noticed_run scanProtocol _
  have hpushed := pushed_run opts events
  obtain ⟨hinOrder, hreceived⟩ := outputs_received opts (start opts) events
  constructor
  · refine ⟨hordered.bounded, hreceived, hinOrder, ?_, hpushed ▸ hordered.handled_sublist,
      hpushed ▸ hordered.queue_suffix, hnoticed.empty_of_blocked⟩
    obtain ⟨older, holder, _, hperm⟩ := hordered.left
    rw [← hpushed, holder, ← List.append_assoc]
    exact hperm.append_right _
  · intro hroom
    have hstep : ∀ (p : BrainProcess) e, p.queue.dropped = [] → ¬ FindsFull p e →
        (step opts p e).queue.dropped = [] := by
      intro p e hkept hfull
      cases hevent : e.queueEvent with
      | none => rw [queue_of_none hevent, hkept]
      | some event =>
          have hroom : Runs.Along (WorkQueue.step scanProtocol)
              (fun s e => s.entered e ≠ [] → s.queue.length < scanProtocol.capacity) p.queue [event] := by
            refine ⟨fun hentered => ?_, trivial⟩
            by_contra hlong
            exact hfull (findsFull_of_entered hevent hentered (Nat.le_of_not_lt hlong))
          rw [queue_of_event hevent]
          exact kept_of_room hkept hroom
    exact hroom.invariant hstep rfl

/-!
### The scan thread

Books, detector and health snapshot are written by the scan thread only, and by the handler of SIGUSR1.
Their history is the sequence of these inputs, whatever the other threads do.
-/

/-- What a step gives to the scan thread. -/
def input (p : BrainProcess) (e : BrainEvent) : Option ScanInput :=
  match e, p.queue.place with
  | .process now, .working event => some (.event now event.2)
  | .promote, _ => some .promote
  | _, _ => none

/-- What the steps of a run give to it. -/
def inputs (opts : BrainOptions) (events : List BrainEvent) : List ScanInput :=
  Runs.outputs (step opts) input (start opts) events

theorem scan_step (opts : BrainOptions) (p : BrainProcess) (e : BrainEvent) :
    (step opts p e).scan = Runs.run (ScanThread.take opts) p.scan (p.input e).toList := by
  cases e with
  | process now => cases hplace : p.queue.place <;> simp [step, scanStep, input, hplace, ScanThread.take]
  | promote => cases hplace : p.queue.place <;> simp [step, scanStep, input, ScanThread.take]
  | _ => simp [step, scanStep, input]

/-- What the scan thread owns is what its inputs make of it, one after the other. -/
theorem scan_run (opts : BrainOptions) (events : List BrainEvent) :
    (Runs.run (step opts) (start opts) events).scan =
      Runs.run (ScanThread.take opts) (ScanThread.new opts) (inputs opts events) :=
  Runs.view_outputs BrainProcess.scan (ScanThread.take opts) (scan_step opts) (start opts) events

/-- The shutdown notifies while the scan thread holds the mutex, after its test and before its sleep. -/
def NotifyAllOvertakes (p : BrainProcess) (e : BrainEvent) : Prop :=
  e = .notifyAll ∧ p.queue.stopped = true ∧ p.queue.announced = false ∧ p.queue.place = .checked

theorem overtakes_iff {e : BrainEvent} {event : WorkQueue.Event QueuedEvent} (own : e.queueEvent = some event) :
    Overtakes p.queue event ↔ NotifyAllOvertakes p e := by
  apply and_congr_left
  intro _
  constructor
  · rintro rfl
    cases e with
    | notifyAll => rfl
    | message connection parsed => cases parsed <;> cases own
    | _ => cases own
  · rintro rfl
    exact (Option.some.inj own).symm

theorem asleep_iff (seen : StopSeen scanProtocol p.queue) (awake : ¬ Asleep p.queue) (e : BrainEvent) :
    ¬ Asleep (step opts p e).queue ↔ ¬ NotifyAllOvertakes p e := by
  cases hevent : e.queueEvent with
  | none =>
      rw [queue_of_none hevent]
      refine iff_of_true awake ?_
      rintro ⟨rfl, _⟩
      cases hevent
  | some event =>
      rw [queue_of_event hevent, ← overtakes_iff hevent]
      exact asleep_step_iff seen awake event

theorem stopSeen_step {e : BrainEvent} (seen : StopSeen scanProtocol p.queue) :
    StopSeen scanProtocol (step opts p e).queue := by
  cases hevent : e.queueEvent with
  | none =>
      rw [queue_of_none hevent]
      exact seen
  | some event =>
      rw [queue_of_event hevent]
      exact seen.step event

/-- After the shutdown handler has stored its flag the scan thread takes at most one event more, whatever is
    waiting; and it sleeps, or is about to, with the shutdown announced exactly if the notification came while
    it had found the queue empty and not gone to sleep yet. -/
theorem shutdown_of_process (opts : BrainOptions) (events : List BrainEvent) :
    (Runs.run (step opts) (start opts) events).queue.late.length ≤ 1 ∧
      ((∀ reached, reached <+: events → ¬ Asleep (Runs.run (step opts) (start opts) reached).queue) ↔
        Runs.Along (step opts) (fun p e => ¬ NotifyAllOvertakes p e) (start opts) events) := by
  constructor
  · rw [queue_run]
    exact late_le_one rfl _
  · have hseen : ∀ p e, StopSeen scanProtocol p.queue → ¬ Asleep p.queue →
        StopSeen scanProtocol (step opts p e).queue := fun _ _ seen _ => stopSeen_step seen
    have hexact : ∀ p e, StopSeen scanProtocol p.queue → ¬ Asleep p.queue →
        (¬ Asleep (step opts p e).queue ↔ ¬ NotifyAllOvertakes p e) := fun _ e seen awake => asleep_iff seen awake e
    have hstart : ¬ Asleep (start opts).queue := fun asleep => (by cases asleep.1)
    exact Runs.Along.iff_of_step hseen hexact (StopSeen.start scanProtocol) hstart events

end BrainProcess

end ZidaBot.Brain
