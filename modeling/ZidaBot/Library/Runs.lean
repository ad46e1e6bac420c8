/-
Module: ZidaBot.Library.Runs
Purpose: Finite runs of a machine given by a step function.  A run is a list of events; `Along` says that
  a condition on the state before the step and the event of the step holds at every step of a run.  The
  invariant rule says that what every admitted step keeps holds in every state reached.  A run that may
  stop early keeps what it has taken, and continues where it has not stopped.  A view of the state that
  only some of the events touch is what those events alone make of it.
Trusted boundary: none
Main exports: run, Along, Along.invariant, Along.iff_of_invariant, Along.iff_of_step, Along.trapped,
  Along.of_always, along_of_forall, invariant_run, run_view, along_view, view_run, run_rel, log_run, translated,
  run_translated, outputs, log_outputs, view_outputs, traced, run_traced, runUntil, runUntil_append
-/
import Mathlib.Data.List.Basic

namespace Runs

variable {σ ε : Type*}

/-- The state after the events of a run, oldest event first. -/
def run (step : σ → ε → σ) (s : σ) (events : List ε) : σ :=
  events.foldl step s

@[simp] theorem run_nil (step : σ → ε → σ) (s : σ) : run step s [] = s := rfl

@[simp] theorem run_cons (step : σ → ε → σ) (s : σ) (e : ε) (events : List ε) :
    run step s (e :: events) = run step (step s e) events := rfl

theorem run_append (step : σ → ε → σ) (s : σ) (first second : List ε) :
    run step s (first ++ second) = run step (run step s first) second :=
  List.foldl_append

/-- Every step of the run is taken in a state, and with an event, that meet the condition. -/
def Along (step : σ → ε → σ) (condition : σ → ε → Prop) : σ → List ε → Prop
  | _, [] => True
  | s, e :: events => condition s e ∧ Along step condition (step s e) events

namespace Along

variable {step : σ → ε → σ} {condition : σ → ε → Prop}

instance decidable [∀ s e, Decidable (condition s e)] (s : σ) :
    (events : List ε) → Decidable (Along step condition s events)
  | [] => isTrue trivial
  | e :: events =>
      have : Decidable (Along step condition (step s e) events) := decidable (step s e) events
      inferInstanceAs (Decidable (condition s e ∧ Along step condition (step s e) events))

theorem append_iff {s : σ} {first second : List ε} :
    Along step condition s (first ++ second) ↔
      Along step condition s first ∧ Along step condition (run step s first) second := by
  induction first generalizing s with
  | nil => simp [Along]
  | cons e first ih => simp [Along, ih, and_assoc]

/-- Two conditions hold along a run together. -/
theorem and {other : σ → ε → Prop} {s : σ} {events : List ε} (first : Along step condition s events)
    (second : Along step other s events) :
    Along step (fun s e => condition s e ∧ other s e) s events := by
  induction events generalizing s with
  | nil => trivial
  | cons e events ih => exact ⟨⟨first.1, second.1⟩, ih first.2 second.2⟩

/-- The invariant rule for runs whose steps all meet a condition. -/
theorem invariant {property : σ → Prop}
    (preserved : ∀ s e, property s → condition s e → property (step s e))
    {s : σ} {events : List ε} (holds : property s) (along : Along step condition s events) :
    property (run step s events) := by
  induction events generalizing s with
  | nil => exact holds
  | cons e events ih => exact ih (preserved s e holds along.1) along.2

/-- The exact form of the invariant rule: if the invariant gives the property and is kept by the steps that
    meet the condition, and a step that keeps the property meets it, then the property holds in every state
    a run passes exactly if the condition holds along the run. -/
theorem iff_of_invariant (invariant property : σ → Prop) (sound : ∀ s, invariant s → property s)
    (preserved : ∀ s e, invariant s → condition s e → invariant (step s e))
    (exact_step : ∀ s e, invariant s → property (step s e) → condition s e)
    {s : σ} (inv : invariant s) (events : List ε) :
    (∀ reached, reached <+: events → property (run step s reached)) ↔ Along step condition s events := by
  induction events generalizing s with
  | nil =>
      refine iff_of_true ?_ trivial
      intro reached hprefix
      rw [List.prefix_nil.mp hprefix]
      exact sound s inv
  | cons e events ih =>
      constructor
      · intro hall
        have hstep : condition s e := exact_step s e inv (hall [e] (by simp))
        refine ⟨hstep, (ih (preserved s e inv hstep)).mp ?_⟩
        intro reached hprefix
        exact hall (e :: reached) (List.cons_prefix_cons.mpr ⟨rfl, hprefix⟩)
      · intro halong reached hprefix
        cases reached with
        | nil => exact sound s inv
        | cons e' reached =>
            obtain ⟨rfl, htail⟩ := List.cons_prefix_cons.mp hprefix
            exact (ih (preserved s _ inv halong.1)).mpr halong.2 reached htail

/-- The same where an invariant of every step goes with the property. -/
theorem iff_of_step {invariant property : σ → Prop}
    (preserved : ∀ s e, invariant s → property s → invariant (step s e))
    (exact_step : ∀ s e, invariant s → property s → (property (step s e) ↔ condition s e))
    {s : σ} (inv : invariant s) (holds : property s) (events : List ε) :
    (∀ reached, reached <+: events → property (run step s reached)) ↔ Along step condition s events := by
  let both (s : σ) : Prop := invariant s ∧ property s
  have hboth : both s := ⟨inv, holds⟩
  refine iff_of_invariant both property (fun s both => both.2) ?_ ?_ hboth events
  · intro s e both hstep
    exact ⟨preserved s e both.1 both.2, (exact_step s e both.1 both.2).mpr hstep⟩
  · intro s e both hkept
    exact (exact_step s e both.1 both.2).mp hkept

/-- A step that misses the condition leads into a trap, and so does the whole run. -/
theorem trapped {trap : σ → Prop} (falls : ∀ s e, ¬ condition s e → trap (step s e))
    (stays : ∀ s e, trap s → trap (step s e)) {s : σ} {events : List ε}
    (missed : ¬ Along step condition s events) : trap (run step s events) := by
  induction events generalizing s with
  | nil => exact absurd trivial missed
  | cons e events ih =>
      by_cases hstep : condition s e
      · exact ih fun hrest => missed ⟨hstep, hrest⟩
      · -- once trapped, always trapped
        have htrap := falls s e hstep
        clear ih missed hstep
        rw [run_cons]
        generalize step s e = trapped at htrap
        induction events generalizing trapped with
        | nil => exact htrap
        | cons e' events ih => exact ih _ (stays _ e' htrap)

/-- Events that meet the condition in every state. -/
theorem of_always {events : List ε} (always : ∀ e ∈ events, ∀ s, condition s e) (s : σ) :
    Along step condition s events := by
  induction events generalizing s with
  | nil => trivial
  | cons e events ih =>
      exact ⟨always e (List.mem_cons_self ..) s,
        ih (fun e' he' => always e' (List.mem_cons_of_mem e he')) _⟩

end Along

/-- A condition on the events alone holds along every run of such events. -/
theorem along_of_forall {step : σ → ε → σ} {condition : ε → Prop} {events : List ε}
    (all : ∀ e ∈ events, condition e) (s : σ) : Along step (fun _ e => condition e) s events :=
  Along.of_always (fun e he _ => all e he) s

/-- The invariant rule: what every step keeps holds at the end of every run. -/
theorem invariant_run {step : σ → ε → σ} {property : σ → Prop}
    (preserved : ∀ s e, property s → property (step s e)) {s : σ} (holds : property s)
    (events : List ε) : property (run step s events) := by
  induction events generalizing s with
  | nil => exact holds
  | cons e events ih => exact ih (preserved s e holds)

section View

variable {β : Type*} {step : σ → ε → σ} (view : σ → β) {act : β → ε → β}

/-- A view that every event changes as it changes the view's own machine. -/
theorem run_view (viewed : ∀ s e, view (step s e) = act (view s) e) (s : σ) (events : List ε) :
    view (run step s events) = run act (view s) events := by
  induction events generalizing s with
  | nil => rfl
  | cons e events ih => rw [run_cons, run_cons, ih, viewed]

/-- A condition on the view is one along the run of the view's own machine. -/
theorem along_view (viewed : ∀ s e, view (step s e) = act (view s) e) (condition : β → ε → Prop) (s : σ)
    (events : List ε) :
    Along step (fun s e => condition (view s) e) s events ↔ Along act condition (view s) events := by
  induction events generalizing s with
  | nil => exact Iff.rfl
  | cons e events ih => simp only [Along, ih, viewed]

end View

/-- A view that changes by its own events only: after a run it is what those events have made of it. -/
theorem view_run {β : Type*} {step : σ → ε → σ} (view : σ → β) (act : β → ε → β) {own : ε → Bool}
    (self : ∀ s e, own e = true → view (step s e) = act (view s) e)
    (other : ∀ s e, own e = false → view (step s e) = view s) (s : σ) (events : List ε) :
    view (run step s events) = run act (view s) (events.filter own) := by
  induction events generalizing s with
  | nil => rfl
  | cons e events ih =>
      rw [run_cons, ih]
      cases hown : own e with
      | true => rw [List.filter_cons_of_pos hown, run_cons, self s e hown]
      | false => rw [List.filter_cons_of_neg (by simp [hown]), other s e hown]

/-- So the events of others make no difference to it. -/
theorem view_run_filter {β : Type*} {step : σ → ε → σ} (view : σ → β) (act : β → ε → β) {own : ε → Bool}
    (self : ∀ s e, own e = true → view (step s e) = act (view s) e)
    (other : ∀ s e, own e = false → view (step s e) = view s) (s : σ) (events : List ε) :
    view (run step s events) = view (run step s (events.filter own)) := by
  have hown : (events.filter own).filter own = events.filter own := by
    rw [List.filter_filter]
    simp
  rw [view_run view act self other, view_run view act self other, hown]

/-- The simulation rule: two machines that take the same events and keep a relation at every event. -/
theorem run_rel {τ : Type*} {first : σ → ε → σ} {second : τ → ε → τ} (rel : σ → τ → Prop) {events : List ε}
    (simulated : ∀ e ∈ events, ∀ s t, rel s t → rel (first s e) (second t e)) {s : σ} {t : τ}
    (related : rel s t) : rel (run first s events) (run second t events) := by
  induction events generalizing s t with
  | nil => exact related
  | cons e events ih =>
      exact ih (fun e' he' => simulated e' (List.mem_cons_of_mem e he'))
        (simulated e (List.mem_cons_self ..) s t related)

/-- A list that every step only adds to: what a run has added are the additions of its events. -/
theorem log_run {β : Type*} {step : σ → ε → σ} (log : σ → List β) (added : ε → List β)
    (logged : ∀ s e, log (step s e) = log s ++ added e) (s : σ) (events : List ε) :
    log (run step s events) = log s ++ events.flatMap added := by
  induction events generalizing s with
  | nil => simp
  | cons e events ih => rw [run_cons, ih, logged, List.flatMap_cons, List.append_assoc]

/-!
### Machines driven by other machines

A component of a system sees some of the events, or what the system puts out at some of its steps. Its run
is then a run of its own, over the translated events.
-/

section Driven

variable {α : Type*} {step : σ → ε → σ}

/-- A machine that takes what some of the events stand for, and ignores the others. -/
def translated (step : σ → ε → σ) (translate : α → Option ε) (s : σ) (e : α) : σ :=
  match translate e with
  | some event => step s event
  | none => s

theorem run_translated (step : σ → ε → σ) (translate : α → Option ε) (s : σ) (events : List α) :
    run (translated step translate) s events = run step s (events.filterMap translate) := by
  induction events generalizing s with
  | nil => rfl
  | cons e events ih =>
      rw [run_cons, ih, translated]
      cases hevent : translate e with
      | none => rw [List.filterMap_cons_none hevent]
      | some event => rw [List.filterMap_cons_some hevent, run_cons]

/-- What the steps of a run put out, in order. -/
def outputs (step : σ → ε → σ) (out : σ → ε → Option α) : σ → List ε → List α
  | _, [] => []
  | s, e :: events => (out s e).toList ++ outputs step out (step s e) events

/-- A log that grows by the outputs of the steps. -/
theorem log_outputs {out : σ → ε → Option α} (log : σ → List α)
    (grows : ∀ s e, log (step s e) = log s ++ (out s e).toList) (s : σ) (events : List ε) :
    log (run step s events) = log s ++ outputs step out s events := by
  induction events generalizing s with
  | nil => exact (List.append_nil _).symm
  | cons e events ih => rw [run_cons, ih, grows, outputs, List.append_assoc]

/-- A component that changes by the outputs of the steps only. -/
theorem view_outputs {β : Type*} {out : σ → ε → Option α} (view : σ → β) (act : β → α → β)
    (driven : ∀ s e, view (step s e) = run act (view s) (out s e).toList) (s : σ) (events : List ε) :
    view (run step s events) = run act (view s) (outputs step out s events) := by
  induction events generalizing s with
  | nil => rfl
  | cons e events ih => rw [run_cons, ih, driven, outputs, run_append]

end Driven

/-!
### Runs with their history

Writing down the events in the state makes statements about the past into statements about the state.
-/

/-- A step that also writes down its event. -/
def traced (step : σ → ε → σ) (s : σ × List ε) (e : ε) : σ × List ε := (step s.1 e, s.2 ++ [e])

@[simp] theorem run_traced (step : σ → ε → σ) (s : σ) (past events : List ε) :
    run (traced step) (s, past) events = (run step s events, past ++ events) := by
  induction events generalizing s past with
  | nil => simp
  | cons e events ih => simp [traced, ih]

/-- Writing down the events does not change the states a condition is asked of. -/
theorem along_traced {step : σ → ε → σ} {condition : σ → ε → Prop} {s : σ} {past events : List ε} :
    Along (traced step) (fun state e => condition state.1 e) (s, past) events ↔
      Along step condition s events := by
  induction events generalizing s past with
  | nil => exact Iff.rfl
  | cons e events ih => exact and_congr_right fun _ => ih

/-! ### Runs that stop -/

/-- What a run that may stop has come to: its state, the events it has taken, and whether it stopped. -/
@[ext] structure Stretch (σ ε : Type*) where
  state : σ
  taken : List ε
  stopped : Bool

/-- Run until a step asks to stop; the event of that step is the last one taken. -/
def runUntil (step : σ → ε → σ × Bool) : σ → List ε → Stretch σ ε
  | s, [] => ⟨s, [], false⟩
  | s, e :: events =>
      if (step s e).2 then ⟨(step s e).1, [e], true⟩
      else
        let rest := runUntil step (step s e).1 events
        ⟨rest.state, e :: rest.taken, rest.stopped⟩

/-- A run that goes on takes up where the first part has ended. -/
theorem runUntil_append (step : σ → ε → σ × Bool) (s : σ) (first second : List ε) :
    runUntil step s (first ++ second) =
      if (runUntil step s first).stopped then runUntil step s first
      else
        ⟨(runUntil step (runUntil step s first).state second).state,
          (runUntil step s first).taken ++ (runUntil step (runUntil step s first).state second).taken,
          (runUntil step (runUntil step s first).state second).stopped⟩ := by
  induction first generalizing s with
  | nil => simp [runUntil]
  | cons e first ih =>
      rw [List.cons_append, runUntil, runUntil]
      by_cases hstop : (step s e).2 = true
      · simp [hstop]
      · rw [if_neg hstop, if_neg hstop, ih]
        split <;> simp_all

end Runs
