/-
Module: ZidaBot.Library.SortedSeq
Purpose: Sequences kept in strictly increasing key order and searched by bisection.  The search loop is
  the one of the C++ standard library's `lower_bound`; on a sequence ordered by its keys it returns the
  length of the part below the wanted key, so every positional edit there (overwrite, insert, erase) can
  be read as an edit between two known parts of the sequence.
Trusted boundary: none
Main exports: lowerBound, lowerBound_eq_of_partition, Ascending, Ascending.exists_split,
  Ascending.replace, Ascending.insert, Ascending.erase
-/
import Mathlib.Data.List.Basic
import Mathlib.Order.Lattice

namespace SortedSeq

variable {α κ : Type*}

/-!
### Bisection

The loop keeps a window `[first, first + len)`; everything left of the window satisfies the predicate
and nothing right of it does.  The window halves in every round, so its own length bounds the number of
rounds and serves as the structural argument.
-/

/-- The search window after at most `fuel` rounds, as its left end. -/
def lowerBoundLoop (before : α → Bool) (xs : List α) : Nat → Nat → Nat → Nat
  | 0, first, _ => first
  | fuel + 1, first, len =>
      if len = 0 then first
      else
        let half := len / 2
        let middle := first + half
        match xs[middle]? with
        | none => first
        | some x =>
            if before x then lowerBoundLoop before xs fuel (middle + 1) (len - half - 1)
            else lowerBoundLoop before xs fuel first half

/-- First position whose element does not satisfy `before`, found by bisection. -/
def lowerBound (before : α → Bool) (xs : List α) : Nat :=
  lowerBoundLoop before xs xs.length 0 xs.length

/-- On a sequence cut at position `n` by the predicate, a window around `n` shrinks to `n`. -/
theorem lowerBoundLoop_eq {before : α → Bool} {xs : List α} {n : Nat}
    (cut : ∀ i x, xs[i]? = some x → (before x = true ↔ i < n)) :
    ∀ (fuel first len : Nat), len ≤ fuel → first ≤ n → n ≤ first + len →
      first + len ≤ xs.length → lowerBoundLoop before xs fuel first len = n := by
  intro fuel
  induction fuel with
  | zero =>
      intro first len hfuel hlow hhigh _
      simp only [lowerBoundLoop]
      omega
  | succ fuel ih =>
      intro first len hfuel hlow hhigh hlen
      rw [lowerBoundLoop]
      by_cases hzero : len = 0
      · rw [if_pos hzero]
        omega
      · rw [if_neg hzero]
        have hmiddle : first + len / 2 < xs.length := by omega
        simp only [List.getElem?_eq_getElem hmiddle]
        have hcut := cut (first + len / 2) _ (List.getElem?_eq_getElem hmiddle)
        split
        · -- the middle lies left of the cut: keep the right half
          rename_i hbefore
          have hlt := hcut.mp hbefore
          exact ih (first + len / 2 + 1) (len - len / 2 - 1) (by omega) (by omega) (by omega)
            (by omega)
        · -- the middle lies at or right of the cut: keep the left half
          rename_i hbefore
          have hge : ¬ first + len / 2 < n := fun hlt => hbefore (hcut.mpr hlt)
          exact ih first (len / 2) (by omega) hlow (by omega) (by omega)

/-- Bisection finds the cut of a partitioned sequence. -/
theorem lowerBound_eq_of_partition {before : α → Bool} {ys zs : List α}
    (below : ∀ y ∈ ys, before y = true) (above : ∀ z ∈ zs, before z = false) :
    lowerBound before (ys ++ zs) = ys.length := by
  apply lowerBoundLoop_eq
  · intro i x hx
    by_cases hi : i < ys.length
    · rw [List.getElem?_append_left hi] at hx
      simp [hi, below x (List.mem_of_getElem? hx)]
    · rw [List.getElem?_append_right (by omega)] at hx
      simp [hi, above x (List.mem_of_getElem? hx)]
  · exact Nat.le_refl _
  · exact Nat.zero_le _
  · simp
  · simp

/-- Inserting at the end of a known first part. -/
theorem insertIdx_append_length (ys zs : List α) (x : α) :
    (ys ++ zs).insertIdx ys.length x = ys ++ x :: zs := by
  induction ys with
  | nil => simp
  | cons y ys ih => simpa using ih

/-!
### Strictly ascending sequences
-/

section Ascending

variable [LinearOrder κ] (key : α → κ)

/-- Keys strictly increase from left to right; in particular no key occurs twice. -/
def Ascending (xs : List α) : Prop :=
  xs.Pairwise fun a b => key a < key b

variable {key}

namespace Ascending

theorem nil : Ascending key ([] : List α) := List.Pairwise.nil

theorem append_iff {ys zs : List α} :
    Ascending key (ys ++ zs) ↔
      Ascending key ys ∧ Ascending key zs ∧ ∀ y ∈ ys, ∀ z ∈ zs, key y < key z :=
  List.pairwise_append

theorem cons_iff {x : α} {xs : List α} :
    Ascending key (x :: xs) ↔ (∀ y ∈ xs, key x < key y) ∧ Ascending key xs :=
  List.pairwise_cons

/-- Every ascending sequence splits at a wanted key, and bisection with a test for being below that key
    returns the length of the part below it. -/
theorem exists_split {xs : List α} (ascending : Ascending key xs) {k : κ} {before : α → Bool}
    (tests : ∀ x, before x = true ↔ key x < k) :
    ∃ ys zs, xs = ys ++ zs ∧ (∀ y ∈ ys, key y < k) ∧ (∀ z ∈ zs, k ≤ key z) ∧
      lowerBound before xs = ys.length := by
  have split : ∃ ys zs, xs = ys ++ zs ∧ (∀ y ∈ ys, key y < k) ∧ ∀ z ∈ zs, k ≤ key z := by
    induction xs with
    | nil => exact ⟨[], [], rfl, by simp, by simp⟩
    | cons x xs ih =>
        obtain ⟨hhead, htail⟩ := cons_iff.mp ascending
        by_cases hx : key x < k
        · obtain ⟨ys, zs, rfl, below, above⟩ := ih htail
          refine ⟨x :: ys, zs, rfl, ?_, above⟩
          intro y hy
          rcases List.mem_cons.mp hy with rfl | hy
          · exact hx
          · exact below y hy
        · refine ⟨[], x :: xs, rfl, by simp, ?_⟩
          intro z hz
          rcases List.mem_cons.mp hz with rfl | hz
          · exact not_lt.mp hx
          · exact (not_lt.mp hx).trans (hhead z hz).le
  obtain ⟨ys, zs, rfl, below, above⟩ := split
  refine ⟨ys, zs, rfl, below, above, lowerBound_eq_of_partition ?_ ?_⟩
  · intro y hy
    exact (tests y).mpr (below y hy)
  · intro z hz
    exact Bool.eq_false_iff.mpr fun hbefore => not_lt.mpr (above z hz) ((tests z).mp hbefore)

/-- The element found at the cut has the wanted key exactly when some element has it. -/
theorem head_of_mem {ys zs : List α} {x : α} (ascending : Ascending key (ys ++ zs))
    (below : ∀ y ∈ ys, key y < key x) (above : ∀ z ∈ zs, key x ≤ key z)
    (member : x ∈ ys ++ zs) : ∃ rest, zs = x :: rest := by
  rcases List.mem_append.mp member with hleft | hright
  · exact absurd (below x hleft) (lt_irrefl _)
  · cases zs with
    | nil => simp at hright
    | cons z rest =>
        rcases List.mem_cons.mp hright with rfl | hrest
        · exact ⟨rest, rfl⟩
        · obtain ⟨-, hzs, -⟩ := append_iff.mp ascending
          have hlt := (cons_iff.mp hzs).1 x hrest
          exact absurd (above z (List.mem_cons_self ..)) (not_le.mpr hlt)

/-- Overwriting an element by one of the same key keeps the order. -/
theorem replace {ys zs : List α} {x x' : α} (ascending : Ascending key (ys ++ x :: zs))
    (same : key x' = key x) : Ascending key (ys ++ x' :: zs) := by
  obtain ⟨hys, hzs, hcross⟩ := append_iff.mp ascending
  obtain ⟨hhead, htail⟩ := cons_iff.mp hzs
  refine append_iff.mpr ⟨hys, cons_iff.mpr ⟨fun y hy => same ▸ hhead y hy, htail⟩, ?_⟩
  intro y hy z hz
  rcases List.mem_cons.mp hz with rfl | hz
  · exact same ▸ hcross y hy x (List.mem_cons_self ..)
  · exact hcross y hy z (List.mem_cons_of_mem x hz)

/-- Inserting a fresh key between the part below it and the part above it keeps the order. -/
theorem insert {ys zs : List α} {x : α} (ascending : Ascending key (ys ++ zs))
    (below : ∀ y ∈ ys, key y < key x) (above : ∀ z ∈ zs, key x < key z) :
    Ascending key (ys ++ x :: zs) := by
  obtain ⟨hys, hzs, hcross⟩ := append_iff.mp ascending
  refine append_iff.mpr ⟨hys, cons_iff.mpr ⟨above, hzs⟩, ?_⟩
  intro y hy z hz
  rcases List.mem_cons.mp hz with rfl | hz
  · exact below y hy
  · exact hcross y hy z hz

/-- Erasing an element keeps the order. -/
theorem erase {ys zs : List α} {x : α} (ascending : Ascending key (ys ++ x :: zs)) :
    Ascending key (ys ++ zs) :=
  List.Pairwise.sublist (List.sublist_cons_self x zs |>.append_left ys) ascending

theorem dropLast {xs : List α} (ascending : Ascending key xs) : Ascending key xs.dropLast :=
  List.Pairwise.sublist (List.dropLast_sublist xs) ascending

/-- A member below which there is none stands first. -/
theorem head?_of_min {xs : List α} (ascending : Ascending key xs) {x : α} (member : x ∈ xs)
    (least : ∀ y ∈ xs, key x ≤ key y) : xs.head? = some x := by
  cases xs with
  | nil => cases member
  | cons y rest =>
      rcases List.mem_cons.mp member with rfl | hrest
      · rfl
      · have hlt := (cons_iff.mp ascending).1 x hrest
        exact absurd (least y (List.mem_cons_self ..)) (not_le.mpr hlt)

/-- At a split where the wanted key is absent, everything right of the cut lies strictly above. -/
theorem above_of_head_ne {zs : List α} {k : κ} (ascending : Ascending key zs)
    (above : ∀ z ∈ zs, k ≤ key z) (absent : ∀ z, zs.head? = some z → key z ≠ k) :
    ∀ z ∈ zs, k < key z := by
  cases zs with
  | nil => simp
  | cons z rest =>
      have hz : k < key z :=
        lt_of_le_of_ne (above z (List.mem_cons_self ..)) (Ne.symm (absent z rfl))
      intro y hy
      rcases List.mem_cons.mp hy with rfl | hy
      · exact hz
      · exact hz.trans ((cons_iff.mp ascending).1 y hy)

end Ascending

end Ascending

end SortedSeq
