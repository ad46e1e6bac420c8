/-
Module: ZidaBot.Library.SingleFlight
Purpose: A client that serves one request at a time, seen from outside.  Requests are numbered; handlers
  are started on behalf of a request and may outlive it.  A board shows whose callback is held, whose
  handlers can still act, what was answered and whose handlers have acted on which request.  Two rules: no
  callback is invoked twice, whatever the handlers do; and handlers act on their own request only, as long
  as no request is accepted while a handler of an earlier one can still act.
Trusted boundary: none
Main exports: Board, Board.accept, Board.refuse, Board.finish, Turn, Turns, Answered, Answered.turns,
  Owned, Owned.turns, Owned.accept, Served, Served.answers_subset, Answered.served
-/
import Mathlib.Data.List.Nodup
import Mathlib.Logic.Relation

namespace SingleFlight

variable {α : Type*}

/-- The client as requests and handlers see it. -/
structure Board (α : Type*) where
  /-- A request is being served. -/
  inFlight : Bool
  /-- The request whose callback is held. -/
  held : Option Nat
  /-- The last request that was accepted. -/
  current : Nat
  /-- The number of the next request. -/
  next : Nat
  /-- The owners of the handlers that can still act. -/
  live : List Nat
  /-- The requests that were refused. -/
  refused : List Nat
  /-- Invocations of callbacks. -/
  answers : List (Nat × α)
  /-- Who has completed, failed or aborted which request. -/
  effects : List (Nat × Nat)

namespace Board

/-- A free client accepts the next request. -/
def accept (b : Board α) : Board α :=
  { b with inFlight := true, held := some b.next, current := b.next, next := b.next + 1 }

/-- A busy client answers it at once. -/
def refuse (refusal : α) (b : Board α) : Board α :=
  { b with
    next := b.next + 1, refused := b.refused ++ [b.next], answers := b.answers ++ [(b.next, refusal)] }

/-- The actor has an effect on the request in flight. -/
def touch (actor : Nat) (b : Board α) : Board α :=
  { b with effects := b.effects ++ [(actor, b.current)] }

/-- The actor completes the request in flight. -/
def finish (actor : Nat) (answer : α) (b : Board α) : Board α :=
  { b.touch actor with
    inFlight := false, held := none
    answers := b.answers ++ (b.held.map fun request => (request, answer)).toList }

end Board

/-- What a handler of `actor` can do: start another one, cancel or use up handlers, and act on the request
    in flight. -/
inductive Turn (actor : Nat) : Board α → Board α → Prop where
  | start (b : Board α) : Turn actor b { b with live := b.live ++ [actor] }
  | shrink (b : Board α) {live : List Nat} (fewer : live.Sublist b.live) : Turn actor b { b with live := live }
  | touch (b : Board α) (busy : b.inFlight = true) : Turn actor b (b.touch actor)
  | finish (b : Board α) (busy : b.inFlight = true) (answer : α) : Turn actor b (b.finish actor answer)

/-- Any number of turns. -/
def Turns (actor : Nat) : Board α → Board α → Prop := Relation.ReflTransGen (Turn actor)

/-- What was done stays done. -/
theorem Turns.effects_subset {actor : Nat} {b b' : Board α} (turns : Turns actor b b') :
    b.effects ⊆ b'.effects := by
  induction turns with
  | refl => exact List.Subset.refl _
  | tail _ last ih =>
      refine List.Subset.trans ih ?_
      cases last with
      | start => exact List.Subset.refl _
      | shrink => exact List.Subset.refl _
      | touch => exact List.subset_append_left _ _
      | finish => exact List.subset_append_left _ _

/-- Answers are not taken back. -/
theorem Turns.answers_subset {actor : Nat} {b b' : Board α} (turns : Turns actor b b') :
    b.answers ⊆ b'.answers := by
  induction turns with
  | refl => exact List.Subset.refl _
  | tail _ last ih =>
      refine List.Subset.trans ih ?_
      cases last with
      | start => exact List.Subset.refl _
      | shrink => exact List.Subset.refl _
      | touch => exact List.Subset.refl _
      | finish => exact List.subset_append_left _ _

/-- What one event can do to the client: a handler runs, a call is refused, or a call is accepted and
    served on. -/
inductive Served (refusal : α) (b : Board α) : Board α → Prop where
  | handler {actor : Nat} {b' : Board α} (turns : Turns actor b b') : Served refusal b b'
  | refused : Served refusal b (b.refuse refusal)
  | accepted {cleanup actor : Nat} {idle b' : Board α} (before : Turns cleanup b idle)
      (after : Turns actor idle.accept b') : Served refusal b b'

/-- Answers are not taken back by events either. -/
theorem Served.answers_subset {refusal : α} {b b' : Board α} (served : Served refusal b b') :
    b.answers ⊆ b'.answers := by
  cases served with
  | handler turns => exact turns.answers_subset
  | refused => exact List.subset_append_left _ _
  | accepted before after => exact List.Subset.trans before.answers_subset after.answers_subset

/-! ### Callbacks -/

/-- No callback was invoked twice, the one held was not invoked, and refused requests got the refusal. -/
structure Answered (refusal : α) (b : Board α) : Prop where
  known : ∀ answer ∈ b.answers, answer.1 < b.next
  once : (b.answers.map Prod.fst).Nodup
  held_known : ∀ request, b.held = some request → request < b.next
  held_open : ∀ request, b.held = some request → request ∉ b.answers.map Prod.fst
  refusals : ∀ request ∈ b.refused, (request, refusal) ∈ b.answers

namespace Answered

variable {refusal : α} {b b' : Board α} {actor : Nat}

theorem next_not_answered (inv : Answered refusal b) : b.next ∉ b.answers.map Prod.fst := by
  intro hmem
  obtain ⟨answer, hanswer, hnext⟩ := List.mem_map.mp hmem
  exact Nat.lt_irrefl _ (hnext ▸ inv.known answer hanswer)

theorem accept (inv : Answered refusal b) : Answered refusal b.accept where
  known answer hanswer := Nat.lt_succ_of_lt (inv.known answer hanswer)
  once := inv.once
  held_known _ hheld := Option.some.inj hheld ▸ Nat.lt_succ_self b.next
  held_open _ hheld := Option.some.inj hheld ▸ inv.next_not_answered
  refusals := inv.refusals

/-- One more answer, to a request that had none. -/
theorem once_append {answers : List (Nat × α)} (once : (answers.map Prod.fst).Nodup) {request : Nat}
    (unanswered : request ∉ answers.map Prod.fst) (answer : α) :
    ((answers ++ [(request, answer)]).map Prod.fst).Nodup := by
  rw [List.map_append, List.map_singleton, ← List.concat_eq_append]
  exact List.Nodup.concat unanswered once

theorem refuse (inv : Answered refusal b) : Answered refusal (b.refuse refusal) := by
  refine ⟨?_, ?_, ?_, ?_, ?_⟩
  · intro answer hanswer
    rcases List.mem_append.mp hanswer with hold | hnew
    · exact Nat.lt_succ_of_lt (inv.known answer hold)
    · rw [List.mem_singleton.mp hnew]
      exact Nat.lt_succ_self b.next
  · exact once_append inv.once inv.next_not_answered refusal
  · exact fun request hheld => Nat.lt_succ_of_lt (inv.held_known request hheld)
  · intro request hheld hmem
    rcases List.mem_map.mp hmem with ⟨answer, hanswer, rfl⟩
    rcases List.mem_append.mp hanswer with hold | hnew
    · exact inv.held_open _ hheld (List.mem_map_of_mem hold)
    · rw [List.mem_singleton.mp hnew] at hheld
      exact Nat.lt_irrefl _ (inv.held_known _ hheld)
  · intro request hrequest
    rcases List.mem_append.mp hrequest with hold | hnew
    · exact List.mem_append_left _ (inv.refusals request hold)
    · rw [List.mem_singleton.mp hnew]
      exact List.mem_append_right _ (List.mem_singleton_self _)

theorem finish (inv : Answered refusal b) (answer : α) : Answered refusal (b.finish actor answer) := by
  have hnone : ∀ request, (b.finish actor answer).held ≠ some request := fun request h => by cases h
  cases hheld : b.held with
  | none =>
      have hanswers : (b.finish actor answer).answers = b.answers := by simp [Board.finish, hheld]
      exact ⟨hanswers ▸ inv.known, hanswers ▸ inv.once, fun request h => absurd h (hnone request),
        fun request h => absurd h (hnone request), hanswers ▸ inv.refusals⟩
  | some request =>
      have hanswers : (b.finish actor answer).answers = b.answers ++ [(request, answer)] := by
        simp [Board.finish, hheld]
      refine ⟨?_, ?_, fun request h => absurd h (hnone request), fun request h => absurd h (hnone request),
        ?_⟩
      · rw [hanswers]
        intro other hother
        rcases List.mem_append.mp hother with hold | hnew
        · exact inv.known other hold
        · rw [List.mem_singleton.mp hnew]
          exact inv.held_known request hheld
      · rw [hanswers]
        exact once_append inv.once (inv.held_open request hheld) answer
      · rw [hanswers]
        exact fun other hother => List.mem_append_left _ (inv.refusals other hother)

theorem turn (inv : Answered refusal b) (turn : Turn actor b b') : Answered refusal b' := by
  cases turn with
  | start => exact ⟨inv.known, inv.once, inv.held_known, inv.held_open, inv.refusals⟩
  | shrink => exact ⟨inv.known, inv.once, inv.held_known, inv.held_open, inv.refusals⟩
  | touch => exact ⟨inv.known, inv.once, inv.held_known, inv.held_open, inv.refusals⟩
  | finish busy answer => exact inv.finish answer

/-- Callbacks stay in order whatever a handler does. -/
theorem turns (inv : Answered refusal b) (turns : Turns actor b b') : Answered refusal b' := by
  induction turns with
  | refl => exact inv
  | tail _ last ih => exact ih.turn last

/-- Callbacks stay in order at every event. -/
theorem served (inv : Answered refusal b) (served : Served refusal b b') : Answered refusal b' := by
  cases served with
  | handler turns => exact inv.turns turns
  | refused => exact inv.refuse
  | accepted before after => exact (inv.turns before).accept.turns after

/-- A request has one answer. -/
theorem unique (inv : Answered refusal b) {request : Nat} {first second : α}
    (hfirst : (request, first) ∈ b.answers) (hsecond : (request, second) ∈ b.answers) : first = second :=
  congrArg Prod.snd (List.inj_on_of_nodup_map inv.once hfirst hsecond rfl)

/-- A refused request was answered by the refusal and by nothing else. -/
theorem refused_once (inv : Answered refusal b) {request : Nat} (refused : request ∈ b.refused) :
    b.answers.filter (fun answer => answer.1 == request) = [(request, refusal)] := by
  obtain ⟨before, after, hsplit⟩ := List.append_of_mem (inv.refusals request refused)
  have honce := inv.once
  rw [hsplit, List.map_append, List.map_cons] at honce
  obtain ⟨-, hafter, hbefore⟩ := List.nodup_append.mp honce
  have hfirst : before.filter (fun answer => answer.1 == request) = [] := by
    rw [List.filter_eq_nil_iff]
    intro answer hanswer hsame
    exact hbefore _ (List.mem_map_of_mem hanswer) _ (List.mem_cons_self ..) (eq_of_beq hsame)
  have hlast : after.filter (fun answer => answer.1 == request) = [] := by
    rw [List.filter_eq_nil_iff]
    intro answer hanswer hsame
    have hmem : answer.1 ∈ after.map Prod.fst := List.mem_map_of_mem hanswer
    rw [eq_of_beq hsame] at hmem
    exact (List.nodup_cons.mp hafter).1 hmem
  rw [hsplit, List.filter_append, List.filter_cons_of_pos (by simp), hfirst, hlast]
  rfl

end Answered

/-! ### Owners -/

/-- Effects were on the actor's own request, and while a request is in flight, only its handlers can act. -/
structure Owned (b : Board α) : Prop where
  known : ∀ owner ∈ b.live, owner < b.next
  current_known : b.inFlight = true → b.current < b.next
  own : b.inFlight = true → ∀ owner ∈ b.live, owner = b.current
  isolated : ∀ effect ∈ b.effects, effect.1 = effect.2

/-- The actor is a known request, and the one in flight if there is one. -/
structure Acts (actor : Nat) (b : Board α) : Prop where
  known : actor < b.next
  current : b.inFlight = true → actor = b.current

namespace Owned

variable {b b' : Board α} {actor : Nat}

theorem touched (inv : Owned b) (acts : Acts actor b) (busy : b.inFlight = true) :
    ∀ effect ∈ (b.touch actor).effects, effect.1 = effect.2 := by
  intro effect heffect
  rcases List.mem_append.mp heffect with hold | hnew
  · exact inv.isolated effect hold
  · rw [List.mem_singleton.mp hnew]
    exact acts.current busy

/-- Handlers that are cancelled or used up take nothing away. -/
theorem shrink (inv : Owned b) {live : List Nat} (fewer : live.Sublist b.live) :
    Owned { b with live := live } :=
  ⟨fun owner howner => inv.known owner (fewer.subset howner), inv.current_known,
    fun hbusy owner howner => inv.own hbusy owner (fewer.subset howner), inv.isolated⟩

theorem turn (inv : Owned b) (acts : Acts actor b) (turn : Turn actor b b') :
    Owned b' ∧ Acts actor b' := by
  cases turn with
  | start =>
      refine ⟨⟨?_, inv.current_known, ?_, inv.isolated⟩, ⟨acts.known, acts.current⟩⟩
      · intro owner howner
        rcases List.mem_append.mp howner with hold | hnew
        · exact inv.known owner hold
        · exact List.mem_singleton.mp hnew ▸ acts.known
      · intro hbusy owner howner
        rcases List.mem_append.mp howner with hold | hnew
        · exact inv.own hbusy owner hold
        · exact List.mem_singleton.mp hnew ▸ acts.current hbusy
  | shrink fewer => exact ⟨inv.shrink fewer, ⟨acts.known, acts.current⟩⟩
  | touch busy =>
      exact ⟨⟨inv.known, inv.current_known, inv.own, inv.touched acts busy⟩, ⟨acts.known, acts.current⟩⟩
  | finish busy answer =>
      exact ⟨⟨inv.known, fun h => (Bool.false_ne_true h).elim, fun h => (Bool.false_ne_true h).elim,
        inv.touched acts busy⟩, ⟨acts.known, fun h => (Bool.false_ne_true h).elim⟩⟩

/-- A handler whose request is in flight, or that runs while none is, acts on its own request only. -/
theorem turns (inv : Owned b) (acts : Acts actor b) (turns : Turns actor b b') : Owned b' := by
  have hboth : Owned b' ∧ Acts actor b' := by
    induction turns with
    | refl => exact ⟨inv, acts⟩
    | tail _ last ih => exact ih.1.turn ih.2 last
  exact hboth.1

/-- A request is accepted when no handler can act any more. -/
theorem accept (inv : Owned b) (idle : b.live = []) : Owned b.accept ∧ Acts b.next b.accept := by
  refine ⟨⟨?_, fun _ => Nat.lt_succ_self b.next, ?_, inv.isolated⟩, ⟨Nat.lt_succ_self b.next, fun _ => rfl⟩⟩
  · intro owner howner
    exact Nat.lt_succ_of_lt (inv.known owner howner)
  · intro _ owner howner
    have hnone : owner ∈ b.live := howner
    rw [idle] at hnone
    cases hnone

/-- A request that is answered by the accepting call itself meets no handler. -/
theorem accept_finish (inv : Owned b) (answer : α) : Owned (b.accept.finish b.next answer) := by
  refine ⟨fun owner howner => Nat.lt_succ_of_lt (inv.known owner howner),
    fun h => (Bool.false_ne_true h).elim, fun h => (Bool.false_ne_true h).elim, ?_⟩
  intro effect heffect
  rcases List.mem_append.mp heffect with hold | hnew
  · exact inv.isolated effect hold
  · rw [List.mem_singleton.mp hnew]
    rfl

theorem refuse (inv : Owned b) (refusal : α) : Owned (b.refuse refusal) :=
  ⟨fun owner howner => Nat.lt_succ_of_lt (inv.known owner howner),
    fun hbusy => Nat.lt_succ_of_lt (inv.current_known hbusy), inv.own, inv.isolated⟩

/-- The owner of a handler that can act is an actor. -/
theorem acts (inv : Owned b) (live : actor ∈ b.live) : Acts actor b :=
  ⟨inv.known actor live, fun hbusy => inv.own hbusy actor live⟩

end Owned

end SingleFlight
