/-
Module: ZidaBot.Library.Spans
Purpose: Lists as a run of elements with some property and a rest that starts without it.  The run and the
  rest are what `takeWhile` and `dropWhile` find, and every list has exactly one such split.
Trusted boundary: none
Main exports: Stops, takeWhile_span, dropWhile_span, stops_dropWhile
-/
import Mathlib.Data.List.TakeWhile

namespace Spans

variable {α : Type} {p : α → Bool} {run rest : List α}

/-- The list is empty or starts with an element without the property. -/
def Stops (p : α → Bool) (rest : List α) : Prop := ∀ a ∈ rest.head?, p a = false

theorem stops_nil : Stops p [] := by
  rintro a ⟨⟩

theorem stops_cons {a : α} : Stops p (a :: rest) ↔ p a = false := by
  simp [Stops]

/-- The run is what `takeWhile` finds. -/
theorem takeWhile_span (all : ∀ a ∈ run, p a = true) (stops : Stops p rest) :
    (run ++ rest).takeWhile p = run := by
  rw [List.takeWhile_append_of_pos all]
  cases rest with
  | nil => simp
  | cons a rest => simp [stops_cons.mp stops]

/-- The rest is what `dropWhile` leaves. -/
theorem dropWhile_span (all : ∀ a ∈ run, p a = true) (stops : Stops p rest) :
    (run ++ rest).dropWhile p = rest := by
  rw [List.dropWhile_append_of_pos all]
  cases rest with
  | nil => simp
  | cons a rest => simp [stops_cons.mp stops]

/-- What `dropWhile` leaves does not go on with the property. -/
theorem stops_dropWhile (p : α → Bool) (l : List α) : Stops p (l.dropWhile p) := by
  intro a ha
  have hnot := List.head?_dropWhile_not p l
  rw [Option.mem_def.mp ha] at hnot
  simpa using hnot

end Spans
