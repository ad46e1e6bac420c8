/-
Module: ZidaBot.Library.LastValue
Purpose: Lists whose elements may each give a value, where the last one that does counts.  Two readings of
  one list agree in the value that counts exactly if the last element that gives a value under either of
  them gives it under both, or repeats under one of them the value that counts before it under the other.
Trusted boundary: none
Main exports: Last, last_concat, Last.unique, lookup_foldl_record, agree_iff
-/
import Mathlib.Data.List.Basic
import Mathlib.Data.List.Induction

namespace LastValue

variable {α β κ : Type*}

/-- The value of the last element that gives one. -/
def Last (gives : α → β → Prop) (l : List α) (b : β) : Prop :=
  ∃ before a after, l = before ++ a :: after ∧ gives a b ∧ ∀ later ∈ after, ∀ b', ¬ gives later b'

/-- The element gives no value. -/
def Silent (gives : α → β → Prop) (a : α) : Prop := ∀ b, ¬ gives a b

/-- An element gives at most one value. -/
def Functional (gives : α → β → Prop) : Prop := ∀ a b b', gives a b → gives a b' → b = b'

variable {gives other : α → β → Prop} {l : List α} {a : α} {b b' : β}

theorem not_last_nil : ¬ Last gives [] b := by
  rintro ⟨before, a, after, hsplit, -⟩
  simp at hsplit

/-- Where a list with one more element at the end is split at an element. -/
theorem split_concat {before after : List α} {found : α} (split : l ++ [a] = before ++ found :: after) :
    (before = l ∧ found = a ∧ after = []) ∨ ∃ rest, after = rest ++ [a] ∧ l = before ++ found :: rest := by
  rcases List.eq_nil_or_concat after with rfl | ⟨rest, last, rfl⟩
  · obtain ⟨rfl, hfound⟩ := List.append_inj' split rfl
    exact Or.inl ⟨rfl, (List.head_eq_of_cons_eq hfound).symm, rfl⟩
  · rw [List.concat_eq_append] at split ⊢
    rw [← List.cons_append, ← List.append_assoc] at split
    obtain ⟨rfl, hlast⟩ := List.append_inj' split rfl
    obtain rfl := List.head_eq_of_cons_eq hlast
    exact Or.inr ⟨rest, rfl, rfl⟩

/-- One more element at the end. -/
theorem last_concat : Last gives (l ++ [a]) b ↔ gives a b ∨ (Silent gives a ∧ Last gives l b) := by
  constructor
  · rintro ⟨before, found, after, hsplit, hgives, hlater⟩
    rcases split_concat hsplit with ⟨-, rfl, -⟩ | ⟨rest, rfl, rfl⟩
    · exact Or.inl hgives
    · refine Or.inr ⟨hlater a (by simp), before, found, rest, rfl, hgives, ?_⟩
      exact fun later hmem => hlater later (List.mem_append_left _ hmem)
  · rintro (hgives | ⟨hsilent, before, found, after, rfl, hgives, hlater⟩)
    · exact ⟨l, a, [], rfl, hgives, fun later hmem => absurd hmem List.not_mem_nil⟩
    · refine ⟨before, found, after ++ [a], by simp, hgives, ?_⟩
      intro later hmem
      rcases List.mem_append.mp hmem with hold | hnew
      · exact hlater later hold
      · rw [List.mem_singleton.mp hnew]
        exact hsilent

/-- The value that counts is given by some element. -/
theorem Last.exists_mem (last : Last gives l b) : ∃ a ∈ l, gives a b := by
  obtain ⟨before, a, after, rfl, hgives, -⟩ := last
  exact ⟨a, by simp, hgives⟩

theorem Last.unique (functional : Functional gives) (first : Last gives l b) (second : Last gives l b') :
    b = b' := by
  induction l using List.reverseRecOn with
  | nil => exact absurd first not_last_nil
  | append_singleton l a ih =>
      rcases last_concat.mp first with hgives | ⟨hsilent, hlast⟩
      · rcases last_concat.mp second with hgives' | ⟨hsilent, -⟩
        · exact functional a b b' hgives hgives'
        · exact absurd hgives (hsilent b)
      · rcases last_concat.mp second with hgives' | ⟨-, hlast'⟩
        · exact absurd hgives' (hsilent b')
        · exact ih hlast hlast'

/-!
### Association lists
-/

section Record

variable [BEq κ] [LawfulBEq κ]

/-- Note what an element says of a key, in front of what was noted before. -/
def record (entry : α → Option (κ × β)) (table : List (κ × β)) (a : α) : List (κ × β) :=
  match entry a with
  | none => table
  | some noted => noted :: table

/-- Under a key one finds the last that was said of it. -/
theorem lookup_foldl_record (entry : α → Option (κ × β)) (l : List α) (key : κ) (b : β) :
    (l.foldl (record entry) []).lookup key = some b ↔ Last (fun a b => entry a = some (key, b)) l b := by
  induction l using List.reverseRecOn with
  | nil => exact iff_of_false (by simp) not_last_nil
  | append_singleton l a ih =>
      rw [List.foldl_append, last_concat, List.foldl_cons, List.foldl_nil, record]
      cases hentry : entry a with
      | none => simp [Silent, hentry, ih]
      | some noted =>
          obtain ⟨key', b'⟩ := noted
          by_cases hkey : key = key'
          · subst hkey
            simp [Silent, hentry]
          · have hother : Silent (fun a b => entry a = some (key, b)) a := by
              intro b hb
              rw [hentry] at hb
              exact hkey (congrArg Prod.fst (Option.some.inj hb)).symm
            have hbeq : (key == key') = false := beq_eq_false_iff_ne.mpr hkey
            rw [List.lookup_cons, hbeq, ih]
            exact ⟨fun h => Or.inr ⟨hother, h⟩, fun h => (h.resolve_left (hentry ▸ hother b)).2⟩

end Record

/-!
### Two readings

A difference does no harm if a later element settles it, so agreement is a condition on the last element
that says anything under either reading.
-/

/-- The element that decides: a value under both readings, or under one of them the value that counts before
    it under the other. -/
def Settles (gives other : α → β → Prop) (before : List α) (a : α) : Prop :=
  (∃ b, gives a b ∧ other a b) ∨ (∃ b, gives a b ∧ Silent other a ∧ Last other before b) ∨
    ∃ b, other a b ∧ Silent gives a ∧ Last gives before b

/-- The last element that gives a value under either reading settles it. -/
def LastSettles (gives other : α → β → Prop) (l : List α) : Prop :=
  ∀ before a after, l = before ++ a :: after →
    (∀ later ∈ after, Silent gives later ∧ Silent other later) →
    (Silent gives a ∧ Silent other a) ∨ Settles gives other before a

theorem lastSettles_concat_silent (silent : Silent gives a ∧ Silent other a) :
    LastSettles gives other (l ++ [a]) ↔ LastSettles gives other l := by
  constructor
  · intro hall before found after hsplit hlater
    refine hall before found (after ++ [a]) (by simp [hsplit]) ?_
    intro later hmem
    rcases List.mem_append.mp hmem with hold | hnew
    · exact hlater later hold
    · rw [List.mem_singleton.mp hnew]
      exact silent
  · intro hall before found after hsplit hlater
    rcases split_concat hsplit with ⟨-, rfl, -⟩ | ⟨rest, rfl, hrest⟩
    · exact Or.inl silent
    · exact hall before found rest hrest fun later hmem => hlater later (List.mem_append_left _ hmem)

theorem lastSettles_concat_of_not_silent (heard : ¬ (Silent gives a ∧ Silent other a)) :
    LastSettles gives other (l ++ [a]) ↔ Settles gives other l a := by
  constructor
  · intro hall
    exact (hall l a [] rfl fun later hmem => absurd hmem List.not_mem_nil).resolve_left heard
  · intro hsettles before found after hsplit hlater
    rcases split_concat hsplit with ⟨rfl, rfl, -⟩ | ⟨rest, rfl, -⟩
    · exact Or.inr hsettles
    · exact absurd (hlater a (by simp)) heard

/-- An element that gives a value agrees with a list exactly if that value counts in the list. -/
theorem gives_iff_last (functional : Functional gives) (functional' : Functional other) {b : β}
    (given : gives a b) : (∀ b', gives a b' ↔ Last other l b') ↔ Last other l b := by
  constructor
  · exact fun hall => (hall b).mp given
  · intro hlast b'
    constructor
    · intro hgives
      rwa [functional a b' b hgives given]
    · intro hlast'
      rwa [← hlast.unique functional' hlast']

/-- One more element that is not silent under both readings. -/
theorem agree_concat (functional : Functional gives) (functional' : Functional other)
    (heard : ¬ (Silent gives a ∧ Silent other a)) :
    (∀ b, Last gives (l ++ [a]) b ↔ Last other (l ++ [a]) b) ↔ Settles gives other l a := by
  simp only [last_concat]
  by_cases hgives : Silent gives a
  · have hother : ¬ Silent other a := fun h => heard ⟨hgives, h⟩
    obtain ⟨b, hb⟩ : ∃ b, other a b := by simpa [Silent] using hother
    have hsettles : Settles gives other l a ↔ Last gives l b := by
      constructor
      · rintro (⟨b', hb', -⟩ | ⟨b', hb', -⟩ | ⟨b', hb', -, hlast⟩)
        · exact absurd hb' (hgives b')
        · exact absurd hb' (hgives b')
        · rwa [functional' a b b' hb hb']
      · exact fun hlast => Or.inr (Or.inr ⟨b, hb, hgives, hlast⟩)
    rw [hsettles, ← gives_iff_last functional' functional hb]
    simp only [hgives _, hgives, hother, false_or, true_and, false_and, or_false]
    exact forall_congr' fun b' => Iff.comm
  · obtain ⟨b, hb⟩ : ∃ b, gives a b := by simpa [Silent] using hgives
    by_cases hother : Silent other a
    · have hsettles : Settles gives other l a ↔ Last other l b := by
        constructor
        · rintro (⟨b', -, hb'⟩ | ⟨b', hb', -, hlast⟩ | ⟨b', hb', -⟩)
          · exact absurd hb' (hother b')
          · rwa [functional a b b' hb hb']
          · exact absurd hb' (hother b')
        · exact fun hlast => Or.inr (Or.inl ⟨b, hb, hother, hlast⟩)
      rw [hsettles, ← gives_iff_last functional functional' hb]
      simp only [hother _, hgives, hother, false_or, true_and, false_and, or_false]
    · simp only [hgives, hother, false_and, or_false]
      constructor
      · exact fun hall => Or.inl ⟨b, hb, (hall b).mp hb⟩
      · rintro (⟨b', hb', hother'⟩ | ⟨-, -, hsilent, -⟩ | ⟨-, -, hsilent, -⟩)
        · intro b''
          constructor
          · exact fun hb'' => functional a b' b'' hb' hb'' ▸ hother'
          · exact fun hb'' => functional' a b' b'' hother' hb'' ▸ hb'
        · exact absurd hsilent hother
        · exact absurd hsilent hgives

/-- Two readings agree in the value that counts exactly if the last element that gives one settles it. -/
theorem agree_iff (functional : Functional gives) (functional' : Functional other) (l : List α) :
    (∀ b, Last gives l b ↔ Last other l b) ↔ LastSettles gives other l := by
  induction l using List.reverseRecOn with
  | nil =>
      refine iff_of_true (fun b => iff_of_false not_last_nil not_last_nil) ?_
      intro before a after hsplit
      simp at hsplit
  | append_singleton l a ih =>
      by_cases hsilent : Silent gives a ∧ Silent other a
      · rw [lastSettles_concat_silent hsilent, ← ih]
        simp only [last_concat, hsilent.1 _, hsilent.2 _, hsilent.1, hsilent.2, false_or, true_and]
      · rw [lastSettles_concat_of_not_silent hsilent]
        exact agree_concat functional functional' hsilent

end LastValue
