/-
Module: ZidaBot.Library.RingBuffer
Purpose: Arrays that are written in turn, from the first slot to the last and over again, with a count of
  the slots in use that stops at the size of the array.  Read from the next slot to be written and once
  around, the slots in use are the values written last, oldest first; so as a multiset the used front of
  the array is exactly those values.
Trusted boundary: none
Main exports: recent, recent_concat, Holds, Holds.start, Holds.write, Holds.perm, Holds.count_eq
-/
import Mathlib.Data.List.Rotate

namespace RingBuffer

variable {α : Type*}

/-- The last `capacity` values, or all of them if there are fewer. -/
def recent (capacity : Nat) (values : List α) : List α := values.drop (values.length - capacity)

theorem length_recent (capacity : Nat) (values : List α) :
    (recent capacity values).length = min values.length capacity := by
  rw [recent, List.length_drop]
  omega

/-- One more value: it is enough to have kept the last ones. -/
theorem recent_concat (capacity : Nat) (values : List α) (a : α) :
    recent capacity (values ++ [a]) = recent capacity (recent capacity values ++ [a]) := by
  simp only [recent, List.length_append, List.length_drop, List.length_singleton]
  rw [List.drop_append, List.drop_append, List.drop_drop, List.length_drop]
  congr 2 <;> omega

/-- The slots, of which the first `count` are in use and the one at `pos` is written next, hold the
    values of `window`, oldest first. -/
structure Holds (slots : List α) (pos count : Nat) (window : List α) : Prop where
  pos_lt : pos < slots.length
  count_le : count ≤ slots.length
  /-- Until all slots are in use, the next one is the first that is not. -/
  filling : count < slots.length → pos = count
  window_eq : (slots.take count).rotate pos = window

namespace Holds

variable {slots window : List α} {pos count : Nat}

theorem start (slots : List α) (pos : 0 < slots.length) : Holds slots 0 0 [] :=
  ⟨pos, Nat.zero_le _, fun _ => rfl, rfl⟩

/-- The used slots are the values, in some order. -/
theorem perm (holds : Holds slots pos count window) : (slots.take count).Perm window := by
  rw [← holds.window_eq]
  exact (List.rotate_perm _ _).symm

theorem count_eq (holds : Holds slots pos count window) : count = window.length := by
  rw [← holds.window_eq, List.length_rotate, List.length_take, Nat.min_eq_left holds.count_le]

/-- A write while there are unused slots. -/
theorem write_filling (holds : Holds slots pos count window) (room : count < slots.length) (a : α) :
    Holds (slots.set pos a) ((pos + 1) % slots.length) (count + 1) (window ++ [a]) := by
  have hpos : pos = count := holds.filling room
  have hwindow : slots.take count = window := by
    rw [← holds.window_eq, hpos]
    nth_rewrite 3 [← Nat.min_eq_left holds.count_le]
    rw [← List.length_take, List.rotate_length]
  have hused : (slots.set count a).take (count + 1) = window ++ [a] := by
    rw [List.take_succ_eq_append_getElem (by simpa using room), List.take_set_of_le (Nat.le_refl _),
      hwindow, List.getElem_set_self]
  have hlength : window.length = count := holds.count_eq.symm
  subst hpos
  refine ⟨?_, ?_, ?_, ?_⟩
  · rw [List.length_set]
    exact Nat.mod_lt _ (Nat.zero_lt_of_lt room)
  · rw [List.length_set]
    exact room
  · intro hroom
    rw [List.length_set] at hroom
    exact Nat.mod_eq_of_lt hroom
  · rw [hused]
    by_cases hlast : pos + 1 = slots.length
    · rw [hlast, Nat.mod_self, List.rotate_zero]
    · have hnext : pos + 1 < slots.length := by omega
      have hall : (window ++ [a]).length = pos + 1 := by simp [hlength]
      rw [Nat.mod_eq_of_lt hnext, ← hall, List.rotate_length]

/-- A write over the oldest value. -/
theorem write_full (holds : Holds slots pos count window) (full : count = slots.length) (a : α) :
    Holds (slots.set pos a) ((pos + 1) % slots.length) count (window.tail ++ [a]) := by
  subst full
  have hpos := holds.pos_lt
  have hwindow : window.tail = slots.drop (pos + 1) ++ slots.take pos := by
    rw [← holds.window_eq, List.take_length, List.rotate_eq_drop_append_take (Nat.le_of_lt hpos),
      List.drop_eq_getElem_cons hpos, List.cons_append, List.tail_cons]
  have hslots : slots.set pos a = (slots.take pos ++ [a]) ++ slots.drop (pos + 1) := by
    rw [List.set_eq_take_append_cons_drop, if_pos hpos, List.append_assoc, List.singleton_append]
  have hfront : (slots.take pos ++ [a]).length = pos + 1 := by
    simp [Nat.min_eq_left (Nat.le_of_lt hpos)]
  refine ⟨?_, ?_, ?_, ?_⟩
  · rw [List.length_set]
    exact Nat.mod_lt _ (Nat.zero_lt_of_lt hpos)
  · rw [List.length_set]
  · intro hroom
    rw [List.length_set] at hroom
    exact absurd hroom (Nat.lt_irrefl _)
  · -- at the last slot the position goes back to zero, which rotates by as much
    have hturn := List.rotate_mod (slots.set pos a) (pos + 1)
    rw [List.length_set] at hturn
    rw [List.take_of_length_le (by simp), hturn, hslots, ← hfront, List.rotate_append_length_eq, hfront, hwindow,
      List.append_assoc]

/-- A write keeps the last values, as many as there are slots. -/
theorem write (holds : Holds slots pos count window) (a : α) :
    Holds (slots.set pos a) ((pos + 1) % slots.length) (if count < slots.length then count + 1 else count)
      (recent slots.length (window ++ [a])) := by
  have hcount := holds.count_eq
  have hle := holds.count_le
  have hlength : (window ++ [a]).length = count + 1 := by simp [hcount]
  by_cases hroom : count < slots.length
  · have hall : recent slots.length (window ++ [a]) = window ++ [a] := by
      rw [recent, hlength, Nat.sub_eq_zero_of_le hroom, List.drop_zero]
    rw [if_pos hroom, hall]
    exact holds.write_filling hroom a
  · have hfull : count = slots.length := by omega
    have hne : window ≠ [] := by
      intro hnil
      have hpos := holds.pos_lt
      rw [hnil] at hcount
      simp only [List.length_nil] at hcount
      omega
    have hrest : recent slots.length (window ++ [a]) = window.tail ++ [a] := by
      have hone : count + 1 - slots.length = 1 := by omega
      rw [recent, hlength, hone, List.drop_one, List.tail_append_of_ne_nil hne]
    rw [if_neg hroom, hrest]
    exact holds.write_full hfull a

end Holds

end RingBuffer
