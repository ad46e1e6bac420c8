/-
Module: ZidaBot.Library.WorkQueue
Purpose: A bounded queue between producers and one consumer thread, guarded by a mutex and a condition
  variable.  A critical section of a producer is one step, and so is everything the consumer does under the
  mutex, except that testing its condition and going to sleep are two: the mutex keeps producers out
  between them, but not a stop flag that is written without it.  Whatever the threads do, items are handled
  in order, only the oldest waiting ones are dropped, and none is left behind by a sleeping consumer.  A
  stop is slept through exactly if it is announced between the test and the sleep.
Trusted boundary: documented behaviour of mutexes and condition variables
Main exports: Protocol, Place, State, Event, step, step_push, kept_of_room, Ordered, ordered_run, Noticed,
  noticed_run, Asleep, Overtakes, awake_iff, awake_of_stopsLocked, late_le_one, exits_alone
-/
import ZidaBot.Library.Runs
import Mathlib.Data.List.Perm.Basic
import Mathlib.Logic.Function.Iterate

namespace WorkQueue

/-- How the code around a queue is written: the size at which pushes make room, whether the loop of the
    consumer tests the stop flag before it takes the mutex, whether a producer notifies while it holds the
    mutex, and whether the stop flag is written under the mutex. -/
structure Protocol where
  capacity : Nat
  testsFlag : Bool
  notifiesLocked : Bool
  stopsLocked : Bool

/-- Where the consumer is between two steps: at the head of its loop, about to take the mutex and test its
    condition, holding the mutex after a test that failed, asleep, outside the mutex with an item, or out of
    the loop. -/
inductive Place (α : Type*) where
  | atHead
  | locking
  | checked
  | blocked
  | working (item : α)
  | exited
deriving DecidableEq, Repr

/-- The queue and its threads.  `notices` are the producers that have released the mutex and not notified
    yet.  `pushed`, `handled` and `dropped` record what became of the items, and `late` those taken when
    the stop flag was set. -/
structure State (α : Type*) where
  queue : List α := []
  place : Place α := .atHead
  notices : Nat := 0
  stopped : Bool := false
  announced : Bool := false
  pushed : List α := []
  handled : List α := []
  dropped : List α := []
  late : List α := []
deriving DecidableEq, Repr

/-- Steps of the producers, of the stopping thread and of the consumer.  `wake` is a wake-up without a
    notification. -/
inductive Event (α : Type*) where
  | push (item : α)
  | notify
  | stop
  | announce
  | head
  | lock
  | block
  | wake
  | done
deriving DecidableEq, Repr

variable {α : Type*}

namespace State

/-- The item the consumer is working on. -/
def inHand (s : State α) : List α :=
  match s.place with
  | .working item => [item]
  | _ => []

/-- The consumer holds the mutex between two steps. -/
def holdsMutex (s : State α) : Bool :=
  match s.place with
  | .checked => true
  | _ => false

/-- A notification reaches a sleeping consumer and nobody else. -/
def notified (s : State α) : State α :=
  match s.place with
  | .blocked => { s with place := .locking }
  | _ => s

/-- How many of the waiting items a push drops. -/
def surplus (p : Protocol) (s : State α) : Nat := s.queue.length + 1 - p.capacity

/-- A push without its notification. -/
def pushItem (p : Protocol) (s : State α) (item : α) : State α :=
  { s with
    queue := s.queue.drop (s.surplus p) ++ [item]
    pushed := s.pushed ++ [item]
    dropped := s.dropped ++ s.queue.take (s.surplus p) }

/-- The consumer takes the mutex and tests its condition. -/
def lockAndTest (s : State α) : State α :=
  match s.queue with
  | item :: rest =>
      { s with
        queue := rest, place := .working item
        late := if s.stopped then s.late ++ [item] else s.late }
  | [] => if s.stopped then { s with place := .exited } else { s with place := .checked }

end State

/-- One step; a step that its thread cannot take changes nothing. -/
def step (p : Protocol) (s : State α) : Event α → State α
  | .push item =>
      if s.holdsMutex then s
      else if p.notifiesLocked then (s.pushItem p item).notified
      else { s.pushItem p item with notices := s.notices + 1 }
  | .notify => if s.notices = 0 then s else { s with notices := s.notices - 1 }.notified
  | .stop => if p.stopsLocked && s.holdsMutex then s else { s with stopped := true }
  | .announce => if s.stopped && !s.announced then { s with announced := true }.notified else s
  | .head =>
      match s.place with
      | .atHead =>
          if p.testsFlag && s.stopped then { s with place := .exited } else { s with place := .locking }
      | _ => s
  | .lock =>
      match s.place with
      | .locking => s.lockAndTest
      | _ => s
  | .block =>
      match s.place with
      | .checked => { s with place := .blocked }
      | _ => s
  | .wake =>
      match s.place with
      | .blocked => { s with place := .locking }
      | _ => s
  | .done =>
      match s.place with
      | .working item => { s with place := .atHead, handled := s.handled ++ [item] }
      | _ => s

/-!
### What a step can do

Items and threads are looked at separately. As to items a step is a push, a take, a finish, or nothing; as
to the consumer it moves the place, the notices or the flags.
-/

section Cases

variable {s s' : State α}

theorem notified_cases (s : State α) :
    (s.place = .blocked ∧ s.notified = { s with place := .locking }) ∨
      (s.place ≠ .blocked ∧ s.notified = s) := by
  rw [State.notified]
  cases hplace : s.place <;> simp

/-- Apart from a push, from taking an item and from finishing it, a step moves no items. -/
structure SameItems (s s' : State α) : Prop where
  queue : s'.queue = s.queue
  pushed : s'.pushed = s.pushed
  handled : s'.handled = s.handled
  dropped : s'.dropped = s.dropped
  inHand : s'.inHand = s.inHand

theorem SameItems.refl (s : State α) : SameItems s s := ⟨rfl, rfl, rfl, rfl, rfl⟩

theorem SameItems.notified (s : State α) : SameItems s s.notified := by
  rcases notified_cases s with ⟨hblocked, heq⟩ | ⟨_, heq⟩
  · rw [heq]
    refine ⟨rfl, rfl, rfl, rfl, ?_⟩
    simp [State.inHand, hblocked]
  · rw [heq]
    exact SameItems.refl s

theorem SameItems.trans {s'' : State α} (first : SameItems s s') (second : SameItems s' s'') :
    SameItems s s'' :=
  ⟨second.queue.trans first.queue, second.pushed.trans first.pushed, second.handled.trans first.handled,
    second.dropped.trans first.dropped, second.inHand.trans first.inHand⟩

/-- The movements of items. -/
theorem step_items (p : Protocol) (s : State α) (e : Event α) :
    SameItems s (step p s e) ∨
      (∃ item, SameItems (s.pushItem p item) (step p s e)) ∨
      (∃ item rest, s.place = .locking ∧ s.queue = item :: rest ∧ (step p s e).queue = rest ∧
        (step p s e).place = .working item ∧ (step p s e).pushed = s.pushed ∧
        (step p s e).handled = s.handled ∧ (step p s e).dropped = s.dropped) ∨
      (∃ item, s.place = .working item ∧
        step p s e = { s with place := .atHead, handled := s.handled ++ [item] }) := by
  cases e with
  | push item =>
      have hpushed : SameItems s (step p s (.push item)) ∨
          SameItems (s.pushItem p item) (step p s (.push item)) := by
        simp only [step]
        split
        · exact Or.inl (SameItems.refl s)
        · right
          split
          · exact SameItems.notified _
          · exact ⟨rfl, rfl, rfl, rfl, rfl⟩
      rcases hpushed with hsame | hpushed
      · exact Or.inl hsame
      · exact Or.inr (Or.inl ⟨item, hpushed⟩)
  | notify =>
      left
      simp only [step]
      split
      · exact SameItems.refl s
      · have hnotices : SameItems s { s with notices := s.notices - 1 } := ⟨rfl, rfl, rfl, rfl, rfl⟩
        exact hnotices.trans (SameItems.notified _)
  | stop =>
      left
      simp only [step]
      split
      · exact SameItems.refl s
      · exact ⟨rfl, rfl, rfl, rfl, rfl⟩
  | announce =>
      left
      simp only [step]
      split
      · have hannounced : SameItems s { s with announced := true } := ⟨rfl, rfl, rfl, rfl, rfl⟩
        exact hannounced.trans (SameItems.notified _)
      · exact SameItems.refl s
  | head =>
      left
      cases hplace : s.place <;> simp only [step, hplace]
      case atHead => split <;> exact ⟨rfl, rfl, rfl, rfl, by simp [State.inHand, hplace]⟩
      all_goals exact SameItems.refl s
  | lock =>
      cases hplace : s.place <;> simp only [step, hplace]
      case locking =>
        cases hqueue : s.queue with
        | nil =>
            left
            simp only [State.lockAndTest, hqueue]
            split <;> exact ⟨hqueue.symm, rfl, rfl, rfl, by simp [State.inHand, hplace]⟩
        | cons item rest =>
            refine Or.inr (Or.inr (Or.inl ⟨item, rest, trivial, rfl, ?_⟩))
            simp [State.lockAndTest, hqueue]
      all_goals exact Or.inl (SameItems.refl s)
  | block =>
      left
      cases hplace : s.place <;> simp only [step, hplace]
      case checked => exact ⟨rfl, rfl, rfl, rfl, by simp [State.inHand, hplace]⟩
      all_goals exact SameItems.refl s
  | wake =>
      left
      cases hplace : s.place <;> simp only [step, hplace]
      case blocked => exact ⟨rfl, rfl, rfl, rfl, by simp [State.inHand, hplace]⟩
      all_goals exact SameItems.refl s
  | done =>
      cases hplace : s.place <;> simp only [step, hplace]
      case working item => exact Or.inr (Or.inr (Or.inr ⟨item, rfl, rfl⟩))
      all_goals exact Or.inl (SameItems.refl s)

/-- The item that a step finishes. -/
def State.finished (s : State α) : Event α → List α
  | .done => s.inHand
  | _ => []

/-- Items are handled by the last step of a round only. -/
theorem step_handled (p : Protocol) (s : State α) (e : Event α) :
    (step p s e).handled = s.handled ++ s.finished e := by
  have hnotified : ∀ t : State α, t.notified.handled = t.handled := fun t => (SameItems.notified t).handled
  cases e with
  | push item =>
      simp only [step, State.finished, List.append_nil]
      split
      · rfl
      · split
        · rw [hnotified]
          rfl
        · rfl
  | notify =>
      simp only [step, State.finished, List.append_nil]
      split
      · rfl
      · rw [hnotified]
  | stop =>
      simp only [step, State.finished, List.append_nil]
      split <;> rfl
  | announce =>
      simp only [step, State.finished, List.append_nil]
      split
      · rw [hnotified]
      · rfl
  | head =>
      cases hplace : s.place <;> simp only [step, hplace, State.finished, List.append_nil]
      split <;> rfl
  | lock =>
      cases hplace : s.place <;> simp only [step, hplace, State.finished, List.append_nil]
      case locking =>
        rw [State.lockAndTest]
        split
        · rfl
        · split <;> rfl
  | block =>
      cases hplace : s.place <;> simp only [step, hplace, State.finished, List.append_nil]
  | wake =>
      cases hplace : s.place <;> simp only [step, hplace, State.finished, List.append_nil]
  | done =>
      cases hplace : s.place <;> simp only [step, hplace, State.finished, State.inHand, List.append_nil]

/-- The item that a step puts into the queue. -/
def State.entered (s : State α) : Event α → List α
  | .push item => if s.holdsMutex then [] else [item]
  | _ => []

/-- The items that a step drops to make room. -/
def State.displaced (p : Protocol) (s : State α) : Event α → List α
  | .push _ => if s.holdsMutex then [] else s.queue.take (s.surplus p)
  | _ => []

/-- Items enter the queue and are dropped by pushes only. -/
theorem step_push (p : Protocol) (s : State α) (e : Event α) :
    (step p s e).pushed = s.pushed ++ s.entered e ∧ (step p s e).dropped = s.dropped ++ s.displaced p e := by
  have hnotified : ∀ t : State α, t.notified.pushed = t.pushed ∧ t.notified.dropped = t.dropped :=
    fun t => ⟨(SameItems.notified t).pushed, (SameItems.notified t).dropped⟩
  cases e with
  | push item =>
      simp only [step, State.entered, State.displaced]
      split
      · exact ⟨(List.append_nil _).symm, (List.append_nil _).symm⟩
      · split
        · rw [(hnotified _).1, (hnotified _).2]
          exact ⟨rfl, rfl⟩
        · exact ⟨rfl, rfl⟩
  | notify =>
      simp only [step, State.entered, State.displaced, List.append_nil]
      split
      · exact ⟨rfl, rfl⟩
      · exact hnotified _
  | stop =>
      simp only [step, State.entered, State.displaced, List.append_nil]
      split <;> exact ⟨rfl, rfl⟩
  | announce =>
      simp only [step, State.entered, State.displaced, List.append_nil]
      split
      · exact hnotified _
      · exact ⟨rfl, rfl⟩
  | head =>
      cases hplace : s.place <;> simp only [step, hplace, State.entered, State.displaced, List.append_nil]
      case atHead => split <;> exact ⟨rfl, rfl⟩
      all_goals exact ⟨trivial, trivial⟩
  | lock =>
      cases hplace : s.place <;> simp only [step, hplace, State.entered, State.displaced, List.append_nil]
      case locking =>
        rw [State.lockAndTest]
        split
        · exact ⟨rfl, rfl⟩
        · split <;> exact ⟨rfl, rfl⟩
      all_goals exact ⟨trivial, trivial⟩
  | block =>
      cases hplace : s.place <;> simp [step, hplace, State.entered, State.displaced]
  | wake =>
      cases hplace : s.place <;> simp [step, hplace, State.entered, State.displaced]
  | done =>
      cases hplace : s.place <;> simp [step, hplace, State.entered, State.displaced]

/-- Nothing is dropped in a run whose pushes all find room. -/
theorem kept_of_room {p : Protocol} {s : State α} {events : List (Event α)} (kept : s.dropped = [])
    (room : Runs.Along (step p) (fun s e => s.entered e ≠ [] → s.queue.length < p.capacity) s events) :
    (Runs.run (step p) s events).dropped = [] := by
  have hstep : ∀ (s : State α) e, s.dropped = [] → (s.entered e ≠ [] → s.queue.length < p.capacity) →
      (step p s e).dropped = [] := by
    intro s e hkept hroom
    rw [(step_push p s e).2, hkept, List.nil_append]
    cases e with
    | push item =>
        simp only [State.entered, State.displaced] at hroom ⊢
        split at hroom
        · rename_i hheld
          rw [if_pos hheld]
        · rename_i hfree
          have hsurplus : s.surplus p = 0 := by
            have hlength := hroom (by simp)
            rw [State.surplus]
            omega
          rw [if_neg hfree, hsurplus, List.take_zero]
    | _ => rfl
  exact room.invariant hstep kept

end Cases

/-!
### Items are handled in order

Pushed items leave the queue at the front, to be handled or dropped. The invariant keeps both kinds apart
while it remembers the order in which they were pushed.
-/

/-- What was pushed is what has left the queue, and then the queue.  Of what has left it, the items that
    were handled, with the one in hand, are in order, and the others were dropped. -/
structure Ordered (p : Protocol) (s : State α) : Prop where
  bounded : s.queue.length ≤ p.capacity
  left : ∃ older, s.pushed = older ++ s.queue ∧ (s.handled ++ s.inHand).Sublist older ∧
    older.Perm (s.dropped ++ (s.handled ++ s.inHand))

namespace Ordered

variable {p : Protocol} {s s' : State α}

theorem start (p : Protocol) : Ordered p ({} : State α) :=
  ⟨Nat.zero_le _, [], rfl, List.Sublist.refl _, List.Perm.refl _⟩

theorem same (ordered : Ordered p s) (same : SameItems s s') : Ordered p s' := by
  obtain ⟨hbounded, hleft⟩ := ordered
  constructor
  · rw [same.queue]
    exact hbounded
  · rw [same.queue, same.pushed, same.handled, same.dropped, same.inHand]
    exact hleft

/-- A push moves the dropped items to those that have left the queue. -/
theorem pushItem (ordered : Ordered p s) (capacity_pos : 0 < p.capacity) (item : α) :
    Ordered p (s.pushItem p item) := by
  obtain ⟨hbounded, older, hpushed, hsub, hperm⟩ := ordered
  constructor
  · simp only [State.pushItem, State.surplus, List.length_append, List.length_drop, List.length_singleton]
    omega
  · refine ⟨older ++ s.queue.take (s.surplus p), ?_, ?_, ?_⟩
    · calc s.pushed ++ [item] = older ++ s.queue ++ [item] := by rw [hpushed]
        _ = older ++ (s.queue.take (s.surplus p) ++ s.queue.drop (s.surplus p)) ++ [item] := by
            rw [List.take_append_drop]
        _ = older ++ s.queue.take (s.surplus p) ++ (s.queue.drop (s.surplus p) ++ [item]) := by
            simp only [List.append_assoc]
    · exact hsub.trans (List.sublist_append_left ..)
    · have hmoved : (older ++ s.queue.take (s.surplus p)).Perm
          (s.dropped ++ (s.handled ++ s.inHand) ++ s.queue.take (s.surplus p)) := hperm.append_right _
      have hswap : (s.dropped ++ (s.handled ++ s.inHand) ++ s.queue.take (s.surplus p)).Perm
          (s.dropped ++ s.queue.take (s.surplus p) ++ (s.handled ++ s.inHand)) := by
        rw [List.append_assoc s.dropped, List.append_assoc s.dropped]
        exact List.Perm.append_left _ List.perm_append_comm
      exact hmoved.trans hswap

theorem step (capacity_pos : 0 < p.capacity) (ordered : Ordered p s) (e : Event α) :
    Ordered p (step p s e) := by
  rcases step_items p s e with hsame | ⟨item, hpush⟩ |
    ⟨item, rest, hplace, hqueue, hqueue', hplace', hpushed, hhandled, hdropped⟩ | ⟨item, hplace, heq⟩
  · exact ordered.same hsame
  · exact (ordered.pushItem capacity_pos item).same hpush
  · obtain ⟨hbounded, older, hleft, hsub, hperm⟩ := ordered
    have hbefore : s.inHand = [] := by rw [State.inHand, hplace]
    have hafter : (WorkQueue.step p s e).inHand = [item] := by rw [State.inHand, hplace']
    rw [hbefore, List.append_nil] at hsub hperm
    constructor
    · rw [hqueue']
      rw [hqueue] at hbounded
      exact Nat.le_of_succ_le hbounded
    · refine ⟨older ++ [item], ?_, ?_, ?_⟩
      · rw [hpushed, hqueue', hleft, hqueue, List.append_assoc, List.singleton_append]
      · rw [hhandled, hafter]
        exact hsub.append (List.Sublist.refl _)
      · rw [hhandled, hdropped, hafter, ← List.append_assoc]
        exact hperm.append_right _
  · obtain ⟨hbounded, hleft⟩ := ordered
    have hbefore : s.inHand = [item] := by rw [State.inHand, hplace]
    rw [heq]
    refine ⟨hbounded, ?_⟩
    rw [hbefore] at hleft
    simpa [State.inHand] using hleft

/-- As long as nothing was dropped, everything is still there. -/
theorem complete (ordered : Ordered p s) (kept : s.dropped = []) :
    s.pushed = s.handled ++ s.inHand ++ s.queue := by
  obtain ⟨_, older, hpushed, hsub, hperm⟩ := ordered
  rw [kept, List.nil_append] at hperm
  rw [hpushed, hsub.eq_of_length hperm.length_eq.symm]

/-- The queue holds the items pushed last. -/
theorem queue_suffix (ordered : Ordered p s) : s.queue <:+ s.pushed := by
  obtain ⟨_, older, hpushed, _⟩ := ordered
  exact ⟨older, hpushed.symm⟩

/-- No item is handled twice, and none that was not pushed. -/
theorem handled_sublist (ordered : Ordered p s) : (s.handled ++ s.inHand ++ s.queue).Sublist s.pushed := by
  obtain ⟨_, older, hpushed, hsub, _⟩ := ordered
  rw [hpushed]
  exact hsub.append (List.Sublist.refl _)

end Ordered

/-- Items are handled in order in every run. -/
theorem ordered_run {p : Protocol} (capacity_pos : 0 < p.capacity) (events : List (Event α)) :
    Ordered p (Runs.run (step p) {} events) :=
  Runs.invariant_run (fun _ e ordered => ordered.step capacity_pos e) (Ordered.start p) events

/-!
### No item is left behind

A sleeping consumer with items waiting is owed a notification. That the test and the sleep are two steps
does no harm here, since producers push under the mutex.
-/

/-- A consumer that has found the queue empty keeps producers out until it sleeps, and to a sleeping consumer
    every item is still going to be announced. -/
structure Noticed (p : Protocol) (s : State α) : Prop where
  checked : s.place = .checked → s.queue = []
  blocked : s.place = .blocked → s.queue = [] ∨ 0 < s.notices
  locked : p.notifiesLocked = true → s.notices = 0

namespace Noticed

variable {p : Protocol} {s : State α}

theorem start (p : Protocol) : Noticed p ({} : State α) :=
  ⟨fun _ => rfl, fun _ => Or.inl rfl, fun _ => rfl⟩

/-- After a notification the consumer does not sleep. -/
theorem of_awake {s' : State α} (notices : p.notifiesLocked = true → s'.notices = 0)
    (unchecked : s'.place ≠ .checked) (awake : s'.place ≠ .blocked) : Noticed p s' :=
  ⟨fun h => absurd h unchecked, fun h => absurd h awake, notices⟩

theorem notified_place (s : State α) : s.notified.place ≠ .blocked := by
  rcases notified_cases s with ⟨_, heq⟩ | ⟨hplace, heq⟩
  · rw [heq]
    simp
  · rw [heq]
    exact hplace

theorem notified_checked (s : State α) : s.notified.place = .checked ↔ s.place = .checked := by
  rcases notified_cases s with ⟨hplace, heq⟩ | ⟨_, heq⟩
  · rw [heq, hplace]
    simp
  · rw [heq]

theorem notified_notices (s : State α) : s.notified.notices = s.notices := by
  rcases notified_cases s with ⟨_, heq⟩ | ⟨_, heq⟩ <;> rw [heq]

theorem notified_queue (s : State α) : s.notified.queue = s.queue := (SameItems.notified s).queue

theorem step (noticed : Noticed p s) (e : Event α) : Noticed p (step p s e) := by
  obtain ⟨hchecked, hblocked, hlocked⟩ := noticed
  cases e with
  | push item =>
      simp only [WorkQueue.step]
      split
      · exact ⟨hchecked, hblocked, hlocked⟩
      · rename_i hfree
        have hunchecked : s.place ≠ .checked := by
          intro hplace
          simp [State.holdsMutex, hplace] at hfree
        split
        · rename_i hinside
          refine of_awake ?_ ?_ (notified_place _)
          · intro _
            rw [notified_notices]
            exact hlocked hinside
          · rw [Ne, notified_checked]
            exact hunchecked
        · rename_i houtside
          refine ⟨fun h => absurd h hunchecked, fun _ => Or.inr (Nat.succ_pos _), ?_⟩
          intro hinside
          exact absurd hinside houtside
  | notify =>
      simp only [WorkQueue.step]
      split
      · exact ⟨hchecked, hblocked, hlocked⟩
      · rename_i hsome
        refine ⟨?_, fun h => absurd h (notified_place _), ?_⟩
        · rw [notified_checked, notified_queue]
          exact hchecked
        · intro hinside
          exact absurd (hlocked hinside) hsome
  | stop =>
      simp only [WorkQueue.step]
      split <;> exact ⟨hchecked, hblocked, hlocked⟩
  | announce =>
      simp only [WorkQueue.step]
      split
      · refine ⟨?_, fun h => absurd h (notified_place _), ?_⟩
        · rw [notified_checked, notified_queue]
          exact hchecked
        · rw [notified_notices]
          exact hlocked
      · exact ⟨hchecked, hblocked, hlocked⟩
  | head =>
      cases hplace : s.place <;> simp only [WorkQueue.step, hplace]
      case atHead => split <;> exact of_awake hlocked (by simp) (by simp)
      all_goals exact ⟨hchecked, hblocked, hlocked⟩
  | lock =>
      cases hplace : s.place <;> simp only [WorkQueue.step, hplace]
      case locking =>
        cases hqueue : s.queue with
        | nil =>
            simp only [State.lockAndTest, hqueue]
            split
            · exact of_awake hlocked (by simp) (by simp)
            · refine ⟨fun _ => ?_, fun h => ?_, hlocked⟩
              · rfl
              · cases h
        | cons item rest =>
            simp only [State.lockAndTest, hqueue]
            exact of_awake hlocked (by simp) (by simp)
      all_goals exact ⟨hchecked, hblocked, hlocked⟩
  | block =>
      cases hplace : s.place <;> simp only [WorkQueue.step, hplace]
      case checked => exact ⟨fun _ => hchecked hplace, fun _ => Or.inl (hchecked hplace), hlocked⟩
      all_goals exact ⟨hchecked, hblocked, hlocked⟩
  | wake =>
      cases hplace : s.place <;> simp only [WorkQueue.step, hplace]
      case blocked => exact of_awake hlocked (by simp) (by simp)
      all_goals exact ⟨hchecked, hblocked, hlocked⟩
  | done =>
      cases hplace : s.place <;> simp only [WorkQueue.step, hplace]
      case working item => exact of_awake hlocked (by simp) (by simp)
      all_goals exact ⟨hchecked, hblocked, hlocked⟩

/-- Once every producer has notified, a consumer sleeps on an empty queue only. -/
theorem empty_of_blocked (noticed : Noticed p s) (quiet : s.notices = 0) (sleeps : s.place = .blocked) :
    s.queue = [] := by
  rcases noticed.blocked sleeps with hempty | hpending
  · exact hempty
  · rw [quiet] at hpending
    exact absurd hpending (Nat.lt_irrefl 0)

end Noticed

theorem noticed_run (p : Protocol) (events : List (Event α)) :
    Noticed p (Runs.run (step p) {} events) :=
  Runs.invariant_run (fun _ e noticed => noticed.step e) (Noticed.start p) events

/-!
### The stop

A flag that is written without the mutex may change between the test and the sleep, and its notification
then finds nobody asleep.
-/

/-- The stop was announced, and the consumer sleeps or is about to: no announcement will wake it. -/
def Asleep (s : State α) : Prop := s.announced = true ∧ (s.place = .checked ∨ s.place = .blocked)

/-- The announcement is made while the consumer holds the mutex, after its test and before its sleep. -/
def Overtakes (s : State α) (e : Event α) : Prop :=
  e = .announce ∧ s.stopped = true ∧ s.announced = false ∧ s.place = .checked

/-- Only a stop that was made is announced, and where the flag is written under the mutex the consumer does
    not miss it. -/
structure StopSeen (p : Protocol) (s : State α) : Prop where
  stopped : s.announced = true → s.stopped = true
  locked : p.stopsLocked = true → s.place = .checked → s.stopped = false

section Stop

variable {p : Protocol} {s : State α}

theorem notified_stopped (s : State α) : s.notified.stopped = s.stopped := by
  rcases notified_cases s with ⟨_, heq⟩ | ⟨_, heq⟩ <;> rw [heq]

theorem notified_announced (s : State α) : s.notified.announced = s.announced := by
  rcases notified_cases s with ⟨_, heq⟩ | ⟨_, heq⟩ <;> rw [heq]

/-- The flags and the places in which a consumer sleeps or is about to, after a step. -/
theorem step_stop (p : Protocol) (s : State α) (e : Event α) :
    ((step p s e).stopped = s.stopped ∨ (step p s e).stopped = true ∧
      (step p s e).place = s.place ∧ (p.stopsLocked = true → s.place ≠ .checked)) ∧
    ((step p s e).announced = s.announced ∨ e = .announce ∧ s.stopped = true ∧ s.announced = false) ∧
    ((step p s e).place = .checked → s.place = .checked ∨ s.stopped = false) ∧
    ((step p s e).place = .blocked → s.place = .checked ∨ s.place = .blocked) := by
  have hcheckedOr : s.place = .checked → s.place = .checked ∨ s.stopped = false := Or.inl
  have hblockedOr : s.place = .blocked → s.place = .checked ∨ s.place = .blocked := Or.inr
  cases e with
  | push item =>
      simp only [step]
      split
      · exact ⟨Or.inl rfl, Or.inl rfl, hcheckedOr, hblockedOr⟩
      · split
        · rw [notified_stopped, notified_announced, Noticed.notified_checked]
          exact ⟨Or.inl rfl, Or.inl rfl, hcheckedOr, fun h => absurd h (Noticed.notified_place _)⟩
        · exact ⟨Or.inl rfl, Or.inl rfl, hcheckedOr, hblockedOr⟩
  | notify =>
      simp only [step]
      split
      · exact ⟨Or.inl rfl, Or.inl rfl, hcheckedOr, hblockedOr⟩
      · rw [notified_stopped, notified_announced, Noticed.notified_checked]
        exact ⟨Or.inl rfl, Or.inl rfl, hcheckedOr, fun h => absurd h (Noticed.notified_place _)⟩
  | stop =>
      simp only [step]
      split
      · exact ⟨Or.inl rfl, Or.inl rfl, hcheckedOr, hblockedOr⟩
      · rename_i hfree
        refine ⟨Or.inr ⟨rfl, rfl, ?_⟩, Or.inl rfl, hcheckedOr, hblockedOr⟩
        intro hlocked hplace
        simp [State.holdsMutex, hlocked, hplace] at hfree
  | announce =>
      simp only [step]
      split
      · rename_i hfirst
        have hflags : s.stopped = true ∧ s.announced = false := by simpa using hfirst
        rw [notified_stopped, notified_announced, Noticed.notified_checked]
        exact ⟨Or.inl rfl, Or.inr ⟨trivial, hflags⟩, hcheckedOr,
          fun h => absurd h (Noticed.notified_place _)⟩
      · exact ⟨Or.inl rfl, Or.inl rfl, hcheckedOr, hblockedOr⟩
  | head =>
      cases hplace : s.place <;> simp only [step, hplace]
      case atHead => split <;> exact ⟨Or.inl rfl, Or.inl rfl, by simp, by simp⟩
      all_goals simp
  | lock =>
      cases hplace : s.place <;> simp only [step, hplace]
      case locking =>
        cases hqueue : s.queue with
        | nil =>
            simp only [State.lockAndTest, hqueue]
            split
            · exact ⟨Or.inl rfl, Or.inl rfl, by simp, by simp⟩
            · rename_i hrunning
              exact ⟨Or.inl rfl, Or.inl rfl, fun _ => Or.inr (by simpa using hrunning), by simp⟩
        | cons item rest => simp [State.lockAndTest, hqueue]
      all_goals simp
  | block =>
      cases hplace : s.place <;> simp [step, hplace]
  | wake =>
      cases hplace : s.place <;> simp [step, hplace]
  | done =>
      cases hplace : s.place <;> simp [step, hplace]

theorem StopSeen.start (p : Protocol) : StopSeen p ({} : State α) :=
  ⟨fun h => (by cases h), fun _ h => (by cases h)⟩

theorem StopSeen.step (seen : StopSeen p s) (e : Event α) : StopSeen p (step p s e) := by
  obtain ⟨hstopped, hannounced, hchecked, _⟩ := step_stop p s e
  constructor
  · intro hnow
    have hbefore : s.stopped = true := by
      rcases hannounced with hsame | ⟨_, hset, _⟩
      · exact seen.stopped (hsame ▸ hnow)
      · exact hset
    rcases hstopped with hsame | ⟨hset, _⟩
    · exact hsame.trans hbefore
    · exact hset
  · intro hlocked hplace
    rcases hstopped with hsame | ⟨_, hsamePlace, hfree⟩
    · rcases hchecked hplace with hbefore | hrunning
      · exact hsame.trans (seen.locked hlocked hbefore)
      · exact hsame.trans hrunning
    · -- the flag was set under the mutex, which a consumer after its test would hold
      exact absurd (hsamePlace ▸ hplace) (hfree hlocked)

theorem stopSeen_run (p : Protocol) (events : List (Event α)) :
    StopSeen p (Runs.run (WorkQueue.step p) {} events) :=
  Runs.invariant_run (fun _ e seen => seen.step e) (StopSeen.start p) events

/-- A consumer that is not asleep falls asleep only through an announcement that overtakes its sleep. -/
theorem asleep_step_iff (seen : StopSeen p s) (awake : ¬ Asleep s) (e : Event α) :
    ¬ Asleep (step p s e) ↔ ¬ Overtakes s e := by
  rw [not_iff_not]
  constructor
  · rintro ⟨hannounced, hplace⟩
    obtain ⟨_, hfrom, hchecked, hblocked⟩ := step_stop p s e
    rcases hfrom with hsame | ⟨rfl, hstopped, hfirst⟩
    · -- announced before, so the flag is set, and a test does not fail any more
      have hbefore : s.announced = true := hsame ▸ hannounced
      exfalso
      rcases hplace with hplace | hplace
      · rcases hchecked hplace with hthere | hrunning
        · exact awake ⟨hbefore, Or.inl hthere⟩
        · exact absurd ((seen.stopped hbefore).symm.trans hrunning) (by decide)
      · exact awake ⟨hbefore, hblocked hplace⟩
    · refine ⟨rfl, hstopped, hfirst, ?_⟩
      have hstep : step p s .announce = { s with announced := true }.notified := by
        simp [step, hstopped, hfirst]
      rw [hstep] at hplace
      rcases hplace with hplace | hplace
      · rwa [Noticed.notified_checked] at hplace
      · exact absurd hplace (Noticed.notified_place _)
  · rintro ⟨rfl, hstopped, hfirst, hplace⟩
    have hstep : step p s .announce = { s with announced := true }.notified := by
      simp [step, hstopped, hfirst]
    rw [Asleep, hstep, notified_announced, Noticed.notified_checked]
    exact ⟨rfl, Or.inl hplace⟩

/-- A stop is slept through exactly if it is announced between the test and the sleep. -/
theorem awake_iff (p : Protocol) (events : List (Event α)) :
    (∀ reached, reached <+: events → ¬ Asleep (Runs.run (step p) {} reached)) ↔
      Runs.Along (step p) (fun s e => ¬ Overtakes s e) {} events := by
  have hseen : ∀ (s : State α) e, StopSeen p s → ¬ Asleep s → StopSeen p (step p s e) :=
    fun _ e seen _ => seen.step e
  have hexact : ∀ (s : State α) e, StopSeen p s → ¬ Asleep s →
      (¬ Asleep (step p s e) ↔ ¬ Overtakes s e) := fun _ e seen awake => asleep_step_iff seen awake e
  have hstart : ¬ Asleep ({} : State α) := fun asleep => (by cases asleep.1)
  exact Runs.Along.iff_of_step hseen hexact (StopSeen.start p) hstart events

/-- With the flag written under the mutex no stop is slept through. -/
theorem awake_of_stopsLocked (locked : p.stopsLocked = true) (events : List (Event α)) :
    ¬ Asleep (Runs.run (step p) {} events) := by
  have hnever : ∀ s : State α, StopSeen p s → ∀ e, ¬ Overtakes s e := by
    rintro s seen e ⟨_, hstopped, _, hplace⟩
    exact absurd (hstopped.symm.trans (seen.locked locked hplace)) (by decide)
  have hstep : ∀ (s : State α) e, StopSeen p s ∧ ¬ Asleep s →
      StopSeen p (step p s e) ∧ ¬ Asleep (step p s e) := by
    rintro s e ⟨seen, awake⟩
    exact ⟨seen.step e, (asleep_step_iff seen awake e).mpr (hnever s seen e)⟩
  have hstart : StopSeen p ({} : State α) ∧ ¬ Asleep ({} : State α) :=
    ⟨StopSeen.start p, fun asleep => (by cases asleep.1)⟩
  exact (Runs.invariant_run hstep hstart events).2

end Stop

/-!
### The end of the loop

Once the consumer has seen the flag it leaves, after the item in hand or after all that wait, depending on
what its loop tests.
-/

section Exit

variable {p : Protocol} {s : State α}

/-- Once the flag is set a consumer that tests it in its loop takes at most one more item. -/
structure LateOnce (s : State α) : Prop where
  length : s.late.length ≤ 1
  stopped : s.late ≠ [] → s.stopped = true
  after : s.late ≠ [] → (∃ item, s.place = .working item) ∨ s.place = .atHead ∨ s.place = .exited

theorem LateOnce.start : LateOnce ({} : State α) :=
  ⟨Nat.zero_le _, fun h => absurd rfl h, fun h => absurd rfl h⟩

/-- A consumer out of the queue is not reached by notifications. -/
theorem notified_of_busy {s : State α}
    (busy : (∃ item, s.place = .working item) ∨ s.place = .atHead ∨ s.place = .exited) : s.notified = s := by
  rcases notified_cases s with ⟨hblocked, _⟩ | ⟨_, heq⟩
  · rw [hblocked] at busy
    rcases busy with ⟨_, h⟩ | h | h <;> cases h
  · exact heq

/-- With a late item taken, the consumer finishes it and leaves its loop. -/
theorem step_of_late (testsFlag : p.testsFlag = true) (stopped : s.stopped = true)
    (busy : (∃ item, s.place = .working item) ∨ s.place = .atHead ∨ s.place = .exited) (e : Event α) :
    (step p s e).late = s.late ∧ (step p s e).stopped = true ∧
      ((∃ item, (step p s e).place = .working item) ∨ (step p s e).place = .atHead ∨
        (step p s e).place = .exited) := by
  have hfree : s.holdsMutex = false := by
    rcases busy with ⟨item, h⟩ | h | h <;> simp [State.holdsMutex, h]
  cases e with
  | push item =>
      have hpushed : ∀ notices, ({ s.pushItem p item with notices := notices } : State α).notified =
          { s.pushItem p item with notices := notices } := fun notices => notified_of_busy busy
      have hlocked : (s.pushItem p item).notified = s.pushItem p item := notified_of_busy busy
      simp only [step, hfree, hlocked]
      split
      · rename_i hfalse
        cases hfalse
      · split <;> exact ⟨rfl, stopped, busy⟩
  | notify =>
      have hnotified : ({ s with notices := s.notices - 1 } : State α).notified =
          { s with notices := s.notices - 1 } := notified_of_busy busy
      simp only [step, hnotified]
      split <;> exact ⟨rfl, stopped, busy⟩
  | stop =>
      simp only [step, hfree, Bool.and_false]
      exact ⟨rfl, rfl, busy⟩
  | announce =>
      have hnotified : ({ s with announced := true } : State α).notified =
          { s with announced := true } := notified_of_busy busy
      simp only [step, hnotified]
      split <;> exact ⟨rfl, stopped, busy⟩
  | head =>
      rcases busy with ⟨item, h⟩ | h | h <;> simp [step, h, testsFlag, stopped]
  | lock => rcases busy with ⟨item, h⟩ | h | h <;> simp [step, h, stopped]
  | block => rcases busy with ⟨item, h⟩ | h | h <;> simp [step, h, stopped]
  | wake => rcases busy with ⟨item, h⟩ | h | h <;> simp [step, h, stopped]
  | done => rcases busy with ⟨item, h⟩ | h | h <;> simp [step, h, stopped]

/-- An item is late only if the consumer takes it with the flag set. -/
theorem step_late (p : Protocol) (s : State α) (e : Event α) :
    (step p s e).late = s.late ∨
      ∃ item, (step p s e).late = s.late ++ [item] ∧ s.stopped = true ∧ (step p s e).stopped = true ∧
        (step p s e).place = .working item := by
  have hnotified : ∀ t : State α, t.notified.late = t.late := by
    intro t
    rcases notified_cases t with ⟨_, heq⟩ | ⟨_, heq⟩ <;> rw [heq]
  cases e with
  | push item =>
      left
      simp only [step]
      split
      · rfl
      · split
        · rw [hnotified]
          rfl
        · rfl
  | notify =>
      left
      simp only [step]
      split
      · rfl
      · rw [hnotified]
  | stop =>
      left
      simp only [step]
      split <;> rfl
  | announce =>
      left
      simp only [step]
      split
      · rw [hnotified]
      · rfl
  | head =>
      left
      cases hplace : s.place <;> simp only [step, hplace]
      case atHead => split <;> rfl
  | lock =>
      cases hplace : s.place <;> simp only [step, hplace]
      case locking =>
        cases hqueue : s.queue with
        | nil =>
            left
            simp only [State.lockAndTest, hqueue]
            split <;> rfl
        | cons item rest =>
            simp only [State.lockAndTest, hqueue]
            cases hstopped : s.stopped with
            | true => exact Or.inr ⟨item, by simp⟩
            | false => exact Or.inl (by simp)
      all_goals exact Or.inl trivial
  | block =>
      left
      cases hplace : s.place <;> simp only [step, hplace]
  | wake =>
      left
      cases hplace : s.place <;> simp only [step, hplace]
  | done =>
      left
      cases hplace : s.place <;> simp only [step, hplace]

theorem LateOnce.step (testsFlag : p.testsFlag = true) (once : LateOnce s) (e : Event α) :
    LateOnce (step p s e) := by
  by_cases hnone : s.late = []
  · rcases step_late p s e with hsame | ⟨item, hlate, _, hstopped, hplace⟩
    · have hstill : (WorkQueue.step p s e).late = [] := hsame.trans hnone
      refine ⟨?_, fun h => absurd hstill h, fun h => absurd hstill h⟩
      rw [hstill]
      exact Nat.zero_le _
    · rw [hnone, List.nil_append] at hlate
      refine ⟨?_, fun _ => hstopped, fun _ => Or.inl ⟨item, hplace⟩⟩
      rw [hlate]
      exact Nat.le_refl _
  · obtain ⟨hlate, hstopped, hbusy⟩ := step_of_late testsFlag (once.stopped hnone) (once.after hnone) e
    refine ⟨?_, fun _ => hstopped, fun _ => hbusy⟩
    rw [hlate]
    exact once.length

/-- A consumer that tests the flag in its loop takes at most one item after the flag is set. -/
theorem late_le_one (testsFlag : p.testsFlag = true) (events : List (Event α)) :
    (Runs.run (WorkQueue.step p) ({} : State α) events).late.length ≤ 1 := by
  have hstep : ∀ (s : State α) e, LateOnce s → LateOnce (WorkQueue.step p s e) :=
    fun _ e once => once.step testsFlag e
  exact (Runs.invariant_run hstep LateOnce.start events).length

/-- The consumer's next step, where there is one it can take by itself. -/
def alone (p : Protocol) (s : State α) : State α :=
  match s.place with
  | .atHead => step p s .head
  | .locking => step p s .lock
  | .working _ => step p s .done
  | _ => s

/-- A consumer that takes the mutex with the flag set empties the queue and leaves. -/
theorem exits_of_locking (untested : p.testsFlag = false) {items : List α} {s : State α}
    (place : s.place = .locking) (stopped : s.stopped = true) (queue : s.queue = items) :
    ∃ n, ((alone p)^[n] s).place = .exited ∧ ((alone p)^[n] s).queue = [] ∧
      ((alone p)^[n] s).handled = s.handled ++ items ∧ ((alone p)^[n] s).dropped = s.dropped ∧
      ((alone p)^[n] s).pushed = s.pushed := by
  induction items generalizing s with
  | nil =>
      refine ⟨1, ?_⟩
      simp [alone, place, step, State.lockAndTest, queue, stopped]
  | cons item rest ih =>
      -- take the item, finish it, and go round the loop
      let t : State α :=
        { s with queue := rest, place := .locking, handled := s.handled ++ [item], late := s.late ++ [item] }
      have hround : (alone p)^[3] s = t := by
        simp [alone, place, step, State.lockAndTest, queue, stopped, untested, t]
      obtain ⟨n, hplace, hqueue, hhandled, hdropped, hpushed⟩ := ih (s := t) rfl stopped rfl
      refine ⟨n + 3, ?_⟩
      rw [Function.iterate_add_apply, hround]
      refine ⟨hplace, hqueue, ?_, hdropped, hpushed⟩
      rw [hhandled]
      simp [t]

/-- Once the stop is announced to a consumer that is awake, it needs no help of others to handle all that is
    left and to leave its loop. -/
theorem exits_alone (untested : p.testsFlag = false) {s : State α} (seen : StopSeen p s)
    (announced : s.announced = true) (awake : ¬ Asleep s) (inside : s.place ≠ .exited) :
    ∃ n, ((alone p)^[n] s).place = .exited ∧ ((alone p)^[n] s).queue = [] ∧
      ((alone p)^[n] s).handled = s.handled ++ s.inHand ++ s.queue ∧
      ((alone p)^[n] s).dropped = s.dropped ∧ ((alone p)^[n] s).pushed = s.pushed := by
  have hstopped : s.stopped = true := seen.stopped announced
  cases hplace : s.place with
  | atHead =>
      have hstep : alone p s = { s with place := .locking } := by simp [alone, hplace, step, untested]
      obtain ⟨n, hout⟩ := exits_of_locking untested (s := { s with place := .locking }) rfl hstopped rfl
      refine ⟨n + 1, ?_⟩
      rw [Function.iterate_succ_apply, hstep]
      simpa [State.inHand, hplace] using hout
  | locking =>
      obtain ⟨n, hout⟩ := exits_of_locking untested hplace hstopped rfl
      refine ⟨n, ?_⟩
      simpa [State.inHand, hplace] using hout
  | checked => exact absurd ⟨announced, Or.inl hplace⟩ awake
  | blocked => exact absurd ⟨announced, Or.inr hplace⟩ awake
  | working item =>
      let t : State α := { s with place := .locking, handled := s.handled ++ [item] }
      have hround : (alone p)^[2] s = t := by simp [alone, hplace, step, untested, t]
      obtain ⟨n, hout⟩ := exits_of_locking untested (s := t) rfl hstopped rfl
      refine ⟨n + 2, ?_⟩
      rw [Function.iterate_add_apply, hround]
      simpa [State.inHand, hplace, t] using hout
  | exited => exact absurd hplace inside

end Exit

end WorkQueue
