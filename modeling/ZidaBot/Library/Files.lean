/-
Module: ZidaBot.Library.Files
Purpose: A file system as a map from paths to lines, with the operations of a writer that appends to a file
  and sets it aside.  A line is kept by a set of paths if exactly one of them holds it.  Setting a file aside
  keeps every line if the new name is in the set and holds nothing; under a name that holds something, or
  that is not in the set, lines are lost.
Trusted boundary: none
Main exports: Store, contents, openAppend, openTrunc, append, rename, setAside, Kept, Kept.setAside,
  not_kept_setAside_taken, not_kept_setAside_outside
-/
import Mathlib.Data.Set.Basic
import Mathlib.Logic.Function.Basic

namespace Files

/-- The files that exist, each with its lines. -/
structure Store (π α : Type*) where
  file : π → Option (List α)

namespace Store

variable {π α : Type*}

/-- No file at all. -/
def empty : Store π α := { file := fun _ => none }

/-- The lines under a path; none where there is no file. -/
def contents (s : Store π α) (p : π) : List α := (s.file p).getD []

variable [DecidableEq π] (s : Store π α)

/-- A file with the given lines, instead of what was under its path. -/
def put (p : π) (lines : List α) : Store π α := { file := Function.update s.file p (some lines) }

/-- Open for appending: a file that does not exist is created. -/
def openAppend (p : π) : Store π α := s.put p (s.contents p)

/-- Open for writing from the start. -/
def openTrunc (p : π) : Store π α := s.put p []

/-- Append a line to a file that is open. -/
def append (p : π) (line : α) : Store π α := s.put p (s.contents p ++ [line])

/-- Rename: a file under the new name is replaced, and a missing source is an error without effect. -/
def rename (src dst : π) : Store π α :=
  match s.file src with
  | none => s
  | some lines => if src = dst then s else put { file := Function.update s.file src none } dst lines

/-- Rename a file and start it anew. -/
def setAside (src dst : π) : Store π α := (s.rename src dst).openTrunc src

variable {s}

theorem file_put (p q : π) (lines : List α) :
    (s.put p lines).file q = if q = p then some lines else s.file q :=
  Function.update_apply s.file p (some lines) q

theorem contents_put (p q : π) (lines : List α) :
    (s.put p lines).contents q = if q = p then lines else s.contents q := by
  rw [contents, file_put]
  split <;> rfl

theorem file_openAppend (p q : π) :
    (s.openAppend p).file q = if q = p then some (s.contents p) else s.file q :=
  file_put p q _

theorem file_append (p q : π) (line : α) :
    (s.append p line).file q = if q = p then some (s.contents p ++ [line]) else s.file q :=
  file_put p q _

@[simp] theorem contents_openAppend (p q : π) : (s.openAppend p).contents q = s.contents q := by
  rw [openAppend, contents_put]
  split
  · rename_i hq
    rw [hq]
  · rfl

theorem contents_append (p q : π) (line : α) :
    (s.append p line).contents q = if q = p then s.contents p ++ [line] else s.contents q :=
  contents_put p q _

/-- A file that exists moves to the new name as it is, and an empty one takes its place. -/
theorem file_setAside {src dst : π} (present : (s.file src).isSome) (different : src ≠ dst) (q : π) :
    (s.setAside src dst).file q =
      if q = src then some [] else if q = dst then s.file src else s.file q := by
  obtain ⟨lines, hlines⟩ := Option.isSome_iff_exists.mp present
  have hrename : s.rename src dst = put { file := Function.update s.file src none } dst lines := by
    rw [rename, hlines]
    exact if_neg different
  rw [setAside, hrename, hlines]
  simp only [openTrunc, put, Function.update_apply]
  split
  · rfl
  · rfl

theorem contents_setAside {src dst : π} (present : (s.file src).isSome) (different : src ≠ dst) (q : π) :
    (s.setAside src dst).contents q =
      if q = src then [] else if q = dst then s.contents src else s.contents q := by
  rw [contents, file_setAside present different]
  split
  · rfl
  · split <;> rfl

end Store

open Store

/-- Exactly one of the paths holds the line. -/
def Kept {π α : Type*} (paths : Set π) (s : Store π α) (line : α) : Prop :=
  ∃! p, p ∈ paths ∧ line ∈ s.contents p

section Kept

variable {π α : Type*} {paths : Set π} {s s' : Store π α} {line other : α} {p q src dst : π}

/-- Two of the paths that hold a kept line are the same. -/
theorem Kept.eq (kept : Kept paths s line) (hp : p ∈ paths) (atP : line ∈ s.contents p) (hq : q ∈ paths)
    (atQ : line ∈ s.contents q) : p = q :=
  kept.unique ⟨hp, atP⟩ ⟨hq, atQ⟩

/-- Only who holds the line matters. -/
theorem Kept.congr (same : ∀ p, line ∈ s'.contents p ↔ line ∈ s.contents p) :
    Kept paths s' line ↔ Kept paths s line := by
  simp only [Kept, same]

variable [DecidableEq π]

/-- Another line is appended. -/
theorem kept_append_of_ne (different : line ≠ other) :
    Kept paths (s.append p other) line ↔ Kept paths s line := by
  apply Kept.congr
  intro q
  rw [contents_append]
  split
  · rename_i hq
    rw [hq]
    simp [different]
  · rfl

/-- A line that no file holds is appended. -/
theorem kept_append_self (member : p ∈ paths) (fresh : ∀ q, line ∉ s.contents q) :
    Kept paths (s.append p line) line := by
  refine ⟨p, ⟨member, ?_⟩, ?_⟩
  · simp [contents_append]
  · rintro q ⟨-, hq⟩
    rw [contents_append] at hq
    by_contra hne
    rw [if_neg hne] at hq
    exact fresh q hq

section SetAside

variable (present : (s.file src).isSome) (different : src ≠ dst)

include present different

/-- Who holds a line once a file was set aside. -/
theorem mem_contents_setAside :
    line ∈ (s.setAside src dst).contents q ↔
      (q = dst ∧ line ∈ s.contents src) ∨ (q ≠ src ∧ q ≠ dst ∧ line ∈ s.contents q) := by
  rw [contents_setAside present different]
  by_cases hsrc : q = src
  · simp [hsrc, different]
  · by_cases hdst : q = dst
    · simp [hdst, Ne.symm different]
    · simp [hsrc, hdst]

/-- Setting a file aside under a name of the set that holds nothing keeps every line. -/
theorem Kept.setAside (kept : Kept paths s line) (source : src ∈ paths) (inside : dst ∈ paths)
    (free : s.contents dst = []) : Kept paths (s.setAside src dst) line := by
  obtain ⟨p, ⟨hp, hline⟩, hunique⟩ := kept
  have hne : p ≠ dst := by
    rintro rfl
    rw [free] at hline
    cases hline
  by_cases hsrc : p = src
  · -- the line moves with its file
    subst hsrc
    refine ⟨dst, ⟨inside, (mem_contents_setAside present different).mpr (Or.inl ⟨rfl, hline⟩)⟩, ?_⟩
    rintro q ⟨hq, hqline⟩
    rcases (mem_contents_setAside present different).mp hqline with ⟨rfl, -⟩ | ⟨hother, -, hold⟩
    · rfl
    · exact absurd (hunique q ⟨hq, hold⟩) hother
  · refine ⟨p, ⟨hp, (mem_contents_setAside present different).mpr (Or.inr ⟨hsrc, hne, hline⟩)⟩, ?_⟩
    rintro q ⟨hq, hqline⟩
    rcases (mem_contents_setAside present different).mp hqline with ⟨-, hmoved⟩ | ⟨-, -, hold⟩
    · exact absurd (hunique src ⟨source, hmoved⟩).symm hsrc
    · exact hunique q ⟨hq, hold⟩

/-- What was kept under the new name is kept no more. -/
theorem not_kept_setAside_taken (kept : Kept paths s line) (source : src ∈ paths) (inside : dst ∈ paths)
    (taken : line ∈ s.contents dst) : ¬ Kept paths (s.setAside src dst) line := by
  rintro ⟨q, ⟨hq, hline⟩, -⟩
  rcases (mem_contents_setAside present different).mp hline with ⟨-, hmoved⟩ | ⟨-, hother, hold⟩
  · exact different (kept.eq source hmoved inside taken)
  · exact hother (kept.eq hq hold inside taken)

/-- What was kept in the file itself is not kept under a name outside the set. -/
theorem not_kept_setAside_outside (kept : Kept paths s line) (source : src ∈ paths) (outside : dst ∉ paths)
    (moved : line ∈ s.contents src) : ¬ Kept paths (s.setAside src dst) line := by
  rintro ⟨q, ⟨hq, hline⟩, -⟩
  rcases (mem_contents_setAside present different).mp hline with ⟨rfl, -⟩ | ⟨hother, -, hold⟩
  · exact outside hq
  · exact hother (kept.eq hq hold source moved)

end SetAside

end Kept

end Files
