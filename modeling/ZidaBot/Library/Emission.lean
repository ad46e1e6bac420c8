/-
Module: ZidaBot.Library.Emission
Purpose: Functions on a state that make calls to observers and never look at them.  `attach k s` is the state
  with the observers `k` put on, and `record k call` is what a call makes of them.  A function emits if, for
  every state, it makes the same calls and arrives at the same state whichever observers are attached.
  Emission is kept by composition, by case splits on what the observers do not show in, and by runs.
Trusted boundary: none
Main exports: Emits, EmitsWith, Emits.quiet, Emits.call, Emits.comp, Emits.select, Emits.ite, EmitsWith.quiet,
  EmitsWith.bind, EmitsWith.bindWith, Emits.run
-/
import ZidaBot.Library.Runs

namespace Emission

variable {κ σ α β γ : Type*} {attach : κ → σ → σ} {record : κ → α → κ}

/-- Whichever observers are attached to a state, the function makes the same calls to them and leaves the
    same state. -/
def Emits (attach : κ → σ → σ) (record : κ → α → κ) (f : σ → σ) : Prop :=
  ∀ s, ∃ s', ∃ calls : List α, ∀ k, f (attach k s) = attach (calls.foldl record k) s'

/-- The same for a function with a result beside the state; the observers do not show in the result. -/
def EmitsWith (attach : κ → σ → σ) (record : κ → α → κ) (f : σ → σ × β) : Prop :=
  ∀ s, ∃ s' b, ∃ calls : List α, ∀ k, f (attach k s) = (attach (calls.foldl record k) s', b)

/-! ### Functions of the state alone

The rules follow how a callback is put together: parts that make no call, parts that make one, one part after
the other, and a choice between parts.  What is chosen on must look the same under all observers. -/

namespace Emits

variable {f g : σ → σ}

theorem id : Emits attach record fun s => s := fun s => ⟨s, [], fun _ => rfl⟩

/-- A function that makes no call. -/
theorem quiet (blind : ∀ k s, f (attach k s) = attach k (f s)) : Emits attach record f :=
  fun s => ⟨f s, [], fun k => blind k s⟩

/-- A function that makes one call and does nothing else. -/
theorem call {a : α} (given : ∀ k s, f (attach k s) = attach (record k a) s) : Emits attach record f :=
  fun s => ⟨s, [a], fun k => given k s⟩

theorem comp (second : Emits attach record g) (first : Emits attach record f) :
    Emits attach record fun s => g (f s) := by
  intro s
  obtain ⟨between, calls, hfirst⟩ := first s
  obtain ⟨after, more, hsecond⟩ := second between
  refine ⟨after, calls ++ more, fun k => ?_⟩
  simp only [hfirst, hsecond, List.foldl_append]

/-- A case split on something that the observers do not show in. -/
theorem select {f : γ → σ → σ} (view : σ → γ) (blind : ∀ k s, view (attach k s) = view s)
    (each : ∀ c, Emits attach record (f c)) : Emits attach record fun s => f (view s) s := by
  intro s
  obtain ⟨after, calls, hcalls⟩ := each (view s) s
  refine ⟨after, calls, fun k => ?_⟩
  simp only [blind k s, hcalls]

theorem ite (c : σ → Prop) [DecidablePred c] (blind : ∀ k s, c (attach k s) ↔ c s)
    (yes : Emits attach record f) (no : Emits attach record g) :
    Emits attach record fun s => if c s then f s else g s := by
  intro s
  by_cases hc : c s
  · obtain ⟨after, calls, hcalls⟩ := yes s
    exact ⟨after, calls, fun k => by simp only [if_pos ((blind k s).mpr hc), hcalls]⟩
  · obtain ⟨after, calls, hcalls⟩ := no s
    exact ⟨after, calls, fun k => by simp only [if_neg (hc ∘ (blind k s).mp), hcalls]⟩

/-- A run of steps that emit. -/
theorem run {ε : Type*} {step : σ → ε → σ} {events : List ε}
    (each : ∀ e ∈ events, Emits attach record fun s => step s e) :
    Emits attach record fun s => Runs.run step s events := by
  induction events with
  | nil => exact id
  | cons e events ih =>
      have hrest := ih fun e' he' => each e' (List.mem_cons_of_mem e he')
      exact hrest.comp (each e (List.mem_cons_self ..))

end Emits

/-! ### Functions with a result

A part may also report something to the part after it, such as whether a session goes on.  The observers must
not show in the report, so that what comes next is the same whichever are attached. -/

namespace EmitsWith

variable {f : σ → σ × β}

/-- A function that makes no call. -/
theorem quiet (blind : ∀ k s, f (attach k s) = (attach k (f s).1, (f s).2)) : EmitsWith attach record f :=
  fun s => ⟨(f s).1, (f s).2, [], fun k => blind k s⟩

theorem pure {g : σ → σ} (emits : Emits attach record g) (b : β) :
    EmitsWith attach record fun s => (g s, b) := by
  intro s
  obtain ⟨after, calls, hcalls⟩ := emits s
  exact ⟨after, b, calls, fun k => by simp only [hcalls]⟩

/-- The result decides what comes next. -/
theorem bind {k : β → σ → σ} (first : EmitsWith attach record f) (next : ∀ b, Emits attach record (k b)) :
    Emits attach record fun s => k (f s).2 (f s).1 := by
  intro s
  obtain ⟨between, b, calls, hfirst⟩ := first s
  obtain ⟨after, more, hnext⟩ := next b between
  refine ⟨after, calls ++ more, fun k => ?_⟩
  simp only [hfirst, hnext, List.foldl_append]

theorem bindWith {k : β → σ → σ × γ} (first : EmitsWith attach record f)
    (next : ∀ b, EmitsWith attach record (k b)) : EmitsWith attach record fun s => k (f s).2 (f s).1 := by
  intro s
  obtain ⟨between, b, calls, hfirst⟩ := first s
  obtain ⟨after, c, more, hnext⟩ := next b between
  refine ⟨after, c, calls ++ more, fun k => ?_⟩
  simp only [hfirst, hnext, List.foldl_append]

/-- What comes before. -/
theorem comp {g : σ → σ} (second : EmitsWith attach record f) (first : Emits attach record g) :
    EmitsWith attach record fun s => f (g s) := by
  intro s
  obtain ⟨between, calls, hfirst⟩ := first s
  obtain ⟨after, b, more, hsecond⟩ := second between
  refine ⟨after, b, calls ++ more, fun k => ?_⟩
  simp only [hfirst, hsecond, List.foldl_append]

theorem select {f : γ → σ → σ × β} (view : σ → γ) (blind : ∀ k s, view (attach k s) = view s)
    (each : ∀ c, EmitsWith attach record (f c)) : EmitsWith attach record fun s => f (view s) s := by
  intro s
  obtain ⟨after, b, calls, hcalls⟩ := each (view s) s
  refine ⟨after, b, calls, fun k => ?_⟩
  simp only [blind k s, hcalls]

theorem ite {g : σ → σ × β} (c : σ → Prop) [DecidablePred c] (blind : ∀ k s, c (attach k s) ↔ c s)
    (yes : EmitsWith attach record f) (no : EmitsWith attach record g) :
    EmitsWith attach record fun s => if c s then f s else g s := by
  intro s
  by_cases hc : c s
  · obtain ⟨after, b, calls, hcalls⟩ := yes s
    exact ⟨after, b, calls, fun k => by simp only [if_pos ((blind k s).mpr hc), hcalls]⟩
  · obtain ⟨after, b, calls, hcalls⟩ := no s
    exact ⟨after, b, calls, fun k => by simp only [if_neg (hc ∘ (blind k s).mp), hcalls]⟩

end EmitsWith

end Emission
