/-
Module: ZidaBot.Library.RepeatedBatch
Purpose: Batches that are applied twice to a bounded map and may name a key several times.  The measure is the
  map without a bound: a key that it keeps among its first `d` from some moment on is held from that moment on,
  and sees its own operations only.  So the second time changes nothing where each of the first `d` keys in the
  end has stayed among the first `d` for long enough.  A batch that never has more than `d` keys at a time is
  of that kind.
Trusted boundary: none
Main exports: left, within_left, cell_append_near, StaysNear, PersistsNear, SameValues, Lasting,
  run_run_of_lasting, lasting_of_fits
-/
import ZidaBot.Library.BoundedMap

namespace BoundedMap

open SortedSeq SortedMap

variable {κ β : Type*} [LinearOrder κ] {xs : List (κ × β)} {k : κ} {d : Nat}
variable {ops past before later : List (κ × Option β)} {op : κ × Option β}

/-!
### The map without a bound

Its keys after a batch are those that are held or written and not finally erased.  The bounded map holds some of
them.
-/

instance : Decidable (FinallyErased k ops) :=
  decidable_of_iff ((opsAt k ops).getLast?.any (fun op => op.2.isNone) = true) (by
    rw [FinallyErased]
    cases (opsAt k ops).getLast? <;> simp)

/-- The keys of the unbounded map after a batch. -/
def left (xs : List (κ × β)) (ops : List (κ × Option β)) : Finset κ :=
  (reach xs ops).filter fun k => ¬ FinallyErased k ops

theorem mem_left : k ∈ left xs ops ↔ (cell xs k ≠ none ∨ Written k ops) ∧ ¬ FinallyErased k ops := by
  rw [left, Finset.mem_filter, mem_reach]

theorem opsAt_append (first second : List (κ × Option β)) :
    opsAt k (first ++ second) = opsAt k first ++ opsAt k second := List.filter_append ..

/-- One more operation. -/
theorem mem_left_concat :
    k ∈ left xs (ops ++ [op]) ↔ if op.1 = k then op.2 ≠ none else k ∈ left xs ops := by
  have hwritten : Written k (ops ++ [op]) ↔ Written k ops ∨ (op.1 = k ∧ op.2 ≠ none) := by
    simp [Written, or_and_right, exists_or]
  rw [mem_left, hwritten]
  split
  · rename_i hkey
    have herased : FinallyErased k (ops ++ [op]) ↔ op.2 = none := by simp [FinallyErased, opsAt, hkey]
    rw [herased]
    exact ⟨fun h => h.2, fun h => ⟨Or.inr (Or.inr ⟨hkey, h⟩), h⟩⟩
  · rename_i hkey
    have herased : FinallyErased k (ops ++ [op]) ↔ FinallyErased k ops := by
      simp [FinallyErased, opsAt, hkey]
    rw [herased, mem_left]
    simp [hkey]

/-- A batch that does not name the key leaves it or does not bring it. -/
theorem mem_left_append (unnamed : opsAt k later = []) : k ∈ left xs (before ++ later) ↔ k ∈ left xs before := by
  induction later using List.reverseRecOn with
  | nil => rw [List.append_nil]
  | append_singleton later op ih =>
      rw [opsAt_append, List.append_eq_nil_iff] at unnamed
      have hother : op.1 ≠ k := by simpa [opsAt] using unnamed.2
      rw [← List.append_assoc, mem_left_concat, if_neg hother]
      exact ih unnamed.1

/-- A second time makes no difference to it. -/
theorem left_append_self (xs : List (κ × β)) (ops : List (κ × Option β)) : left xs (ops ++ ops) = left xs ops := by
  ext k
  have hwritten : Written k (ops ++ ops) ↔ Written k ops := by simp [Written]
  have herased : FinallyErased k (ops ++ ops) ↔ FinallyErased k ops := by
    rw [FinallyErased, opsAt_append, List.getLast?_append, FinallyErased]
    cases (opsAt k ops).getLast? <;> rfl
  rw [mem_left, mem_left, hwritten, herased]

section Merge

variable {merge : β → β → β}

theorem Within.cell_eq_none {keys : Finset κ} (within : Within d keys xs) (absent : k ∉ keys) :
    cell xs k = none := by
  by_contra hheld
  exact absent (within.keys_mem k hheld)

omit [LinearOrder κ] in
theorem actAll_append (first second : List (κ × Option β)) (c : Option β) :
    actAll merge (first ++ second) c = actAll merge second (actAll merge first c) := List.foldl_append

/-- The bounded map holds no other keys. -/
theorem within_left (sorted : Sorted xs) (fits : xs.length ≤ d) (ops : List (κ × Option β)) :
    Within d (left xs ops) (Runs.run (amend merge d) xs ops) := by
  have hreach : Within d (reach xs ops) (Runs.run (amend merge d) xs ops) :=
    (within_reach sorted fits).run fun _ h => mem_reach.mpr (Or.inr h)
  refine ⟨hreach.sorted, hreach.length_le, ?_⟩
  intro key hheld
  refine Finset.mem_filter.mpr ⟨hreach.keys_mem key hheld, ?_⟩
  exact fun herased => hheld (cell_run_of_finallyErased sorted herased)

/-- What one more operation does to a key that is near after it. -/
theorem cell_concat (sorted : Sorted xs) (fits : xs.length ≤ d)
    (near : op.2 ≠ none → Near d (left xs (ops ++ [op])) k) :
    cell (Runs.run (amend merge d) xs (ops ++ [op])) k =
      if op.1 = k then act merge op.2 (cell (Runs.run (amend merge d) xs ops) k)
      else cell (Runs.run (amend merge d) xs ops) k := by
  have hwithin : Within d (left xs ops) (Runs.run (amend merge d) xs ops) := within_left sorted fits ops
  rw [Runs.run_append, Runs.run_cons, Runs.run_nil]
  cases herase : op.2 with
  | none =>
      rw [amend, herase]
      dsimp only
      rw [cell_del hwithin.sorted]
      rfl
  | some v =>
      -- a write takes no key away
      have hwider : Within d (left xs (ops ++ [op])) (Runs.run (amend merge d) xs ops) := by
        refine ⟨hwithin.sorted, hwithin.length_le, ?_⟩
        intro key hheld
        rw [mem_left_concat]
        split
        · simp [herase]
        · exact hwithin.keys_mem key hheld
      have hwritten : op.2 ≠ none → op.1 ∈ left xs (ops ++ [op]) := by
        intro hsome
        rw [mem_left_concat, if_pos rfl]
        exact hsome
      rw [← herase]
      exact cell_amend_near hwider hwritten (near (by simp [herase]))

/-- A key that is near whenever it is there sees its own operations only. -/
theorem cell_append_near (sorted : Sorted xs) (fits : xs.length ≤ d)
    (near : ∀ i ≤ later.length, k ∈ left xs (before ++ later.take i) →
      Near d (left xs (before ++ later.take i)) k) :
    cell (Runs.run (amend merge d) xs (before ++ later)) k =
      actAll merge (opsAt k later) (cell (Runs.run (amend merge d) xs before) k) := by
  induction later using List.reverseRecOn with
  | nil => rw [List.append_nil]; rfl
  | append_singleton later op ih =>
      have hearlier := ih fun i hi => by
        have hnear := near i (by rw [List.length_append]; exact Nat.le_add_right_of_le hi)
        rw [List.take_append_of_le_length hi] at hnear
        exact hnear
      have hlast : k ∈ left xs (before ++ later ++ [op]) → Near d (left xs (before ++ later ++ [op])) k := by
        have hnear := near (later ++ [op]).length (Nat.le_refl _)
        rw [List.take_length, ← List.append_assoc] at hnear
        exact hnear
      have hsteps : opsAt k (later ++ [op]) = opsAt k later ++ if op.1 = k then [op] else [] := by
        rw [opsAt_append]
        by_cases hkey : op.1 = k <;> simp [opsAt, hkey]
      rw [← List.append_assoc, hsteps]
      by_cases hkey : op.1 = k
      · rw [cell_concat sorted fits fun hsome => hlast (by rw [mem_left_concat, if_pos hkey]; exact hsome),
          hearlier, if_pos hkey, if_pos hkey, actAll_append]
        rfl
      · rw [if_neg hkey, List.append_nil, ← hearlier]
        by_cases hthere : k ∈ left xs (before ++ later ++ [op])
        · rw [cell_concat sorted fits fun _ => hlast hthere, if_neg hkey]
        · -- where the unbounded map does not hold the key, the bounded one does not either
          have hbefore : k ∉ left xs (before ++ later) := by
            rwa [mem_left_concat, if_neg hkey] at hthere
          rw [(within_left sorted fits _).cell_eq_none hthere, (within_left sorted fits _).cell_eq_none hbefore]

/-!
### Keys that last

A batch is applied on top of another one, `past`.  `StaysNear` is about the time after the last operation on a
key, which decides whether it is held in the end; `PersistsNear` about the time since its last erasure, which
decides what is held there, since a write into a held entry is merged into it.
-/

/-- After the last operation on the key, it is near. -/
def StaysNear (d : Nat) (xs : List (κ × β)) (past ops : List (κ × Option β)) (k : κ) : Prop :=
  ∀ i ≤ ops.length, opsAt k (ops.drop i) = [] → Near d (left xs (past ++ ops.take i)) k

/-- After its last erasure the key is near whenever it is there. -/
def PersistsNear (d : Nat) (xs : List (κ × β)) (past ops : List (κ × Option β)) (k : κ) : Prop :=
  ∀ i ≤ ops.length, (∀ op ∈ opsAt k (ops.drop i), op.2 ≠ none) → k ∈ left xs (past ++ ops.take i) →
    Near d (left xs (past ++ ops.take i)) k

variable (merge) in
/-- Merging makes no difference between the values that are held or written at the key. -/
def SameValues (xs : List (κ × β)) (ops : List (κ × Option β)) (k : κ) : Prop :=
  ∀ op ∈ opsAt k ops, ∀ v ∈ op.2,
    (∀ o ∈ cell xs k, merge o v = v) ∧ ∀ op' ∈ opsAt k ops, ∀ u ∈ op'.2, merge u v = v

section Decide

variable [DecidableEq β] (d : Nat) (xs : List (κ × β)) (past ops : List (κ × Option β)) (k : κ)

instance : Decidable (StaysNear d xs past ops k) :=
  inferInstanceAs (Decidable (∀ i ≤ ops.length, opsAt k (ops.drop i) = [] → Near d _ k))

instance : Decidable (PersistsNear d xs past ops k) :=
  inferInstanceAs (Decidable (∀ i ≤ ops.length, (∀ op ∈ opsAt k (ops.drop i), op.2 ≠ none) →
    k ∈ left xs (past ++ ops.take i) → Near d _ k))

instance : Decidable (SameValues merge xs ops k) :=
  inferInstanceAs (Decidable (∀ op ∈ opsAt k ops, ∀ v ∈ op.2,
    (∀ o ∈ cell xs k, merge o v = v) ∧ ∀ op' ∈ opsAt k ops, ∀ u ∈ op'.2, merge u v = v))

end Decide

/-- A key that is not named after some moment is near after it. -/
theorem cell_of_unnamed (sorted : Sorted xs) (fits : xs.length ≤ d) (unnamed : opsAt k later = [])
    (near : ∀ i ≤ later.length, Near d (left xs (before ++ later.take i)) k) :
    cell (Runs.run (amend merge d) xs (before ++ later)) k = cell (Runs.run (amend merge d) xs before) k := by
  rw [cell_append_near sorted fits fun i hi _ => near i hi, unnamed]
  rfl

omit [LinearOrder κ] in
/-- The last element of a kind. -/
theorem exists_last {p : κ × Option β → Prop} {ops : List (κ × Option β)} (some : ∃ op ∈ ops, p op) :
    ∃ before op after, ops = before ++ op :: after ∧ p op ∧ ∀ op' ∈ after, ¬ p op' := by
  induction ops with
  | nil => simp at some
  | cons op ops ih =>
      by_cases hlater : ∃ op' ∈ ops, p op'
      · obtain ⟨before, op', after, rfl, hop, hafter⟩ := ih hlater
        exact ⟨op :: before, op', after, rfl, hop, hafter⟩
      · simp only [not_exists, not_and] at hlater
        obtain ⟨op', hmem, hop⟩ := some
        rcases List.mem_cons.mp hmem with rfl | hmem
        · exact ⟨[], op', ops, rfl, hop, hlater⟩
        · exact absurd hop (hlater op' hmem)

variable (merge) in
/-- What a key that stays near holds in the end: what it held before, or what its last write has made of what
    it held then. -/
theorem cell_of_staysNear (sorted : Sorted xs) (fits : xs.length ≤ d) (stays : StaysNear d xs past ops k)
    (kept : k ∈ left xs (past ++ ops)) :
    (opsAt k ops = [] ∧ cell (Runs.run (amend merge d) xs (past ++ ops)) k =
        cell (Runs.run (amend merge d) xs past) k) ∨
      ∃ before v, before <+: ops ∧ (opsAt k ops).getLast? = some (k, some v) ∧
        cell (Runs.run (amend merge d) xs (past ++ ops)) k =
          act merge (some v) (cell (Runs.run (amend merge d) xs (past ++ before)) k) := by
  by_cases hnamed : ∃ op ∈ ops, op.1 = k
  · right
    obtain ⟨before, ⟨key, change⟩, after, rfl, hkey, hafter⟩ := exists_last hnamed
    obtain rfl : key = k := hkey
    have hunnamed : opsAt key after = [] := List.filter_eq_nil_iff.mpr fun op hop => by
      simpa using hafter op hop
    have hsplit : past ++ (before ++ (key, change) :: after) = past ++ before ++ [(key, change)] ++ after := by simp
    -- after its last operation the key is near all the time
    have hnear : ∀ i ≤ after.length, Near d (left xs (past ++ before ++ [(key, change)] ++ after.take i)) key := by
      intro i hi
      have hstays := stays (before.length + 1 + i)
        (by simp only [List.length_append, List.length_cons]; omega) ?_
      · have htake : (before ++ (key, change) :: after).take (before.length + 1 + i) =
            before ++ [(key, change)] ++ after.take i := by
          rw [Nat.add_assoc, List.take_length_add_append, Nat.add_comm, List.take_succ_cons]
          simp
        rw [htake, ← List.append_assoc, ← List.append_assoc] at hstays
        exact hstays
      · rw [Nat.add_assoc, List.drop_length_add_append, Nat.add_comm, List.drop_succ_cons]
        exact List.filter_eq_nil_iff.mpr fun op hop => by
          simpa using hafter op (List.mem_of_mem_drop hop)
    obtain ⟨v, rfl⟩ : ∃ v, change = some v := by
      rw [hsplit, mem_left_append hunnamed, mem_left_concat, if_pos rfl] at kept
      exact Option.ne_none_iff_exists'.mp kept
    refine ⟨before, v, List.prefix_append .., ?_, ?_⟩
    · have hcons : opsAt key ((key, some v) :: after) = [(key, some v)] := by
        have hlist : opsAt key ((key, some v) :: after) = (key, some v) :: opsAt key after := by simp [opsAt]
        rw [hlist, hunnamed]
      rw [opsAt_append, hcons, List.getLast?_append]
      rfl
    · have hlast := hnear 0 (Nat.zero_le _)
      rw [List.take_zero, List.append_nil] at hlast
      rw [hsplit, cell_of_unnamed sorted fits hunnamed hnear, cell_concat sorted fits fun _ => hlast, if_pos rfl]
  · left
    have hunnamed : opsAt k ops = [] := List.filter_eq_nil_iff.mpr fun op hop hkey =>
      hnamed ⟨op, hop, by simpa using hkey⟩
    refine ⟨hunnamed, cell_of_unnamed sorted fits hunnamed ?_⟩
    intro i hi
    apply stays i hi
    have hsub := (List.drop_sublist i ops).filter fun op => decide (op.1 = k)
    exact List.sublist_nil.mp (hunnamed ▸ hsub)

/-- A key that persists stays near to the end. -/
theorem StaysNear.of_persists (persists : PersistsNear d xs past ops k) (kept : k ∈ left xs (past ++ ops)) :
    StaysNear d xs past ops k := by
  intro i hi hunnamed
  apply persists i hi
  · rw [hunnamed]
    exact fun _ h => absurd h List.not_mem_nil
  · rw [← List.take_append_drop i ops, ← List.append_assoc, mem_left_append hunnamed] at kept
    exact kept

variable (k d merge) in
/-- An entry is what the operation makes of it, unless it is pushed out. -/
theorem cell_amend_cases (sorted : Sorted xs) (op : κ × Option β) :
    cell (amend merge d xs op) k = none ∨
      cell (amend merge d xs op) k = if op.1 = k then act merge op.2 (cell xs k) else cell xs k := by
  cases herase : op.2 with
  | none =>
      right
      rw [amend, herase]
      dsimp only
      rw [cell_del sorted]
      rfl
  | some v =>
      have hput := ascending_put (k := op.1) (v := (cell xs op.1).elim v fun o => merge o v) sorted
      rw [amend, herase]
      dsimp only
      cases hcell : cell ((put op.1 ((cell xs op.1).elim v fun o => merge o v) xs).take d) k with
      | none => exact Or.inl rfl
      | some o =>
          right
          have hmem := (cell_eq_some_iff (List.Pairwise.sublist (List.take_sublist ..) hput)).mp hcell
          rw [← (cell_eq_some_iff hput).mpr (List.mem_of_mem_take hmem), cell_put sorted]
          split
          · rename_i hkey
            rw [hkey]
            rfl
          · rfl

section Laws

variable (merge_merge : ∀ o v w, merge (merge o v) w = merge o w) (merge_self : ∀ v, merge v v = v)

include merge_merge in
/-- Where all values at a key are the same to a write, so is whatever is held there. -/
theorem act_of_sameValues (sorted : Sorted xs) (same : SameValues merge xs ops k) {v : β}
    (written : (k, some v) ∈ ops) {reached : List (κ × Option β)} (sub : reached ⊆ ops) :
    act merge (some v) (cell (Runs.run (amend merge d) xs reached) k) = some v := by
  obtain ⟨hheld, hwrites⟩ := same (k, some v) (mem_opsAt.mpr ⟨written, rfl⟩) v rfl
  have hmerged : ∀ o ∈ cell (Runs.run (amend merge d) xs reached) k, merge o v = v := by
    induction reached using List.reverseRecOn with
    | nil => exact hheld
    | append_singleton reached op ih =>
        have hearlier := ih fun op' hop' => sub (List.mem_append_left _ hop')
        have hop : op ∈ ops := sub (List.mem_append_right _ (List.mem_singleton_self op))
        intro o ho
        rw [Runs.run_append, Runs.run_cons, Runs.run_nil] at ho
        rcases cell_amend_cases k d merge (sorted_run sorted reached) op with hnone | hsees
        · rw [hnone] at ho
          cases ho
        · rw [hsees] at ho
          split at ho
          · rename_i hkey
            obtain ⟨u, hu, rfl⟩ := Option.map_eq_some_iff.mp ho
            have hwritten := hwrites op (mem_opsAt.mpr ⟨hop, hkey⟩) u hu
            cases hcell : cell (Runs.run (amend merge d) xs reached) k with
            | none => exact hwritten
            | some o' =>
                rw [Option.elim_some, merge_merge]
                exact hearlier o' hcell
          · exact hearlier o ho
  rw [act, Option.map_some]
  cases hcell : cell (Runs.run (amend merge d) xs reached) k with
  | none => rfl
  | some o => exact congrArg some (hmerged o hcell)

variable (merge) in
/-- A key that the batch leaves lasts: in both applications it stays near to the end, and where merging makes
    a difference, it does so from its last erasure on. -/
def Lasts (d : Nat) (xs : List (κ × β)) (ops : List (κ × Option β)) (k : κ) : Prop :=
  StaysNear d xs [] ops k ∧
    (StaysNear d xs ops ops k ∧ SameValues merge xs ops k ∨
      PersistsNear d xs ops ops k ∧ ((∃ op ∈ opsAt k ops, op.2 = none) → PersistsNear d xs [] ops k))

instance [DecidableEq β] : Decidable (Lasts merge d xs ops k) := inferInstanceAs (Decidable (_ ∧ _))

variable (merge) in
/-- All near keys that the batch leaves last. -/
def Lasting (d : Nat) (xs : List (κ × β)) (ops : List (κ × Option β)) : Prop :=
  ∀ k ∈ left xs ops, Near d (left xs ops) k → Lasts merge d xs ops k

instance [DecidableEq β] : Decidable (Lasting merge d xs ops) :=
  inferInstanceAs (Decidable (∀ k ∈ left xs ops, Near d (left xs ops) k → Lasts merge d xs ops k))

include merge_merge merge_self in
/-- At a key that lasts the second time changes nothing. -/
theorem cell_run_of_lasts (sorted : Sorted xs) (fits : xs.length ≤ d) (kept : k ∈ left xs ops)
    (lasts : Lasts merge d xs ops k) :
    cell (Runs.run (amend merge d) xs ops) k ≠ none ∧
      cell (Runs.run (amend merge d) xs (ops ++ ops)) k = cell (Runs.run (amend merge d) xs ops) k := by
  obtain ⟨hstays, hsecond⟩ := lasts
  have hfirst := cell_of_staysNear merge sorted fits hstays kept
  rw [List.nil_append, Runs.run_nil] at hfirst
  have hheld : cell (Runs.run (amend merge d) xs ops) k ≠ none := by
    rcases hfirst with ⟨hunnamed, hsame⟩ | ⟨before, v, -, -, hact⟩
    · rw [hsame]
      refine (mem_left.mp kept).1.resolve_right ?_
      rintro ⟨op, hop, hkey, -⟩
      have hmem := mem_opsAt.mpr ⟨hop, hkey⟩
      rw [hunnamed] at hmem
      cases hmem
    · rw [hact]
      simp [act]
  refine ⟨hheld, ?_⟩
  rcases hsecond with ⟨hstays', hvalues⟩ | ⟨hpersists, hpersists'⟩
  · -- whatever was held, the last write leaves itself
    have hkept : k ∈ left xs (ops ++ ops) := by rwa [left_append_self]
    rcases cell_of_staysNear merge sorted fits hstays' hkept with
      ⟨-, hsame⟩ | ⟨before, v, hbefore, hlast, hact⟩
    · exact hsame
    · have hwritten : (k, some v) ∈ ops := (mem_opsAt.mp (List.mem_of_getLast? hlast)).1
      have hsub : ops ++ before ⊆ ops := List.append_subset.mpr ⟨fun _ h => h, hbefore.subset⟩
      rw [hact, act_of_sameValues merge_merge sorted hvalues hwritten hsub]
      rcases hfirst with ⟨hunnamed, -⟩ | ⟨before', v', hbefore', hlast', hact'⟩
      · rw [hunnamed] at hlast
        cases hlast
      · obtain rfl : v = v' := by
          rw [hlast] at hlast'
          cases hlast'
          rfl
        rw [hact', List.nil_append, act_of_sameValues merge_merge sorted hvalues hwritten hbefore'.subset]
  · by_cases herased : ∃ op ∈ opsAt k ops, op.2 = none
    · -- both times the key starts anew at its last erasure
      have hnamed : ∃ op ∈ ops, op.1 = k ∧ op.2 = none := by
        obtain ⟨op, hop, hnone⟩ := herased
        exact ⟨op, (mem_opsAt.mp hop).1, (mem_opsAt.mp hop).2, hnone⟩
      obtain ⟨before, op, after, hops, ⟨hkey, hnone⟩, hafter⟩ := exists_last hnamed
      have hanew : ∀ past, PersistsNear d xs past ops k →
          cell (Runs.run (amend merge d) xs (past ++ ops)) k = actAll merge (opsAt k after) none := by
        intro past hpersists
        have hgone : cell (Runs.run (amend merge d) xs (past ++ before ++ [op])) k = none := by
          rw [cell_concat sorted fits fun hsome => absurd hnone hsome, if_pos hkey, hnone]
          rfl
        have hsplit : past ++ ops = past ++ before ++ [op] ++ after := by rw [hops]; simp
        rw [hsplit, cell_append_near sorted fits, hgone]
        intro i hi hthere
        have htake : ops.take (before.length + 1 + i) = before ++ [op] ++ after.take i := by
          rw [hops, Nat.add_assoc, List.take_length_add_append, Nat.add_comm, List.take_succ_cons]
          simp
        have hdrop : ops.drop (before.length + 1 + i) = after.drop i := by
          rw [hops, Nat.add_assoc, List.drop_length_add_append, Nat.add_comm, List.drop_succ_cons]
        have hnear := hpersists (before.length + 1 + i) ?_ ?_ ?_
        · rw [htake, ← List.append_assoc, ← List.append_assoc] at hnear
          exact hnear
        · rw [hops, List.length_append, List.length_cons]
          omega
        · intro op' hop' hnone'
          rw [hdrop] at hop'
          obtain ⟨hmem, hkey'⟩ := mem_opsAt.mp hop'
          exact hafter op' (List.mem_of_mem_drop hmem) ⟨hkey', hnone'⟩
        · rw [htake, ← List.append_assoc, ← List.append_assoc]
          exact hthere
      have honce := hanew [] (hpersists' herased)
      rw [List.nil_append] at honce
      rw [hanew ops hpersists, honce]
    · -- the key is never erased, so the second time writes into what the first time has left
      have hwrites : ∀ op ∈ opsAt k ops, op.2 ≠ none := fun op hop hnone => herased ⟨op, hop, hnone⟩
      rw [cell_append_near sorted fits fun i hi hthere => hpersists i hi (fun op hop => hwrites op
        (((List.drop_sublist i ops).filter _).subset hop)) hthere]
      rcases hfirst with ⟨hunnamed, -⟩ | ⟨before, v, -, hlast, hact⟩
      · rw [hunnamed]
        rfl
      · obtain ⟨earlier, hopsAt⟩ : ∃ earlier, opsAt k ops = earlier ++ [(k, some v)] :=
          List.getLast?_eq_some_iff.mp hlast
        have hearlier : ∀ op ∈ earlier, op.2 ≠ none := fun op hop =>
          hwrites op (by rw [hopsAt]; exact List.mem_append_left _ hop)
        rw [hact, hopsAt, act, Option.map_some, actAll_some_of_writes merge_merge hearlier]
        cases cell (Runs.run (amend merge d) xs ([] ++ before)) k with
        | none => rw [Option.elim_none, merge_self]
        | some o => rw [Option.elim_some, merge_merge]

include merge_merge merge_self in
/-- A batch whose keys last has done its work after the first time. -/
theorem run_run_of_lasting (sorted : Sorted xs) (fits : xs.length ≤ d) (lasting : Lasting merge d xs ops) :
    Runs.run (amend merge d) (Runs.run (amend merge d) xs ops) ops = Runs.run (amend merge d) xs ops := by
  have honce : Within d (left xs ops) (Runs.run (amend merge d) xs ops) := within_left sorted fits ops
  have htwice : Within d (left xs ops) (Runs.run (amend merge d) xs (ops ++ ops)) := by
    rw [← left_append_self]
    exact within_left sorted fits (ops ++ ops)
  have hkept := fun key (hkey : key ∈ left xs ops) hnear =>
    cell_run_of_lasts merge_merge merge_self sorted fits hkey (lasting key hkey hnear)
  rw [← Runs.run_append]
  apply ext_cell htwice.sorted honce.sorted
  intro key
  by_cases hnear : Near d (left xs ops) key
  · by_cases hkey : key ∈ left xs ops
    · exact (hkept key hkey hnear).2
    · rw [htwice.cell_eq_none hkey, honce.cell_eq_none hkey]
  · -- with all near keys held, there is no room for others
    rw [cell_eq_none_of_full htwice _ hnear, cell_eq_none_of_full honce _ hnear]
    · exact fun key hkey hnear => (hkept key hkey hnear).1
    · intro key hkey hnear
      rw [(hkept key hkey hnear).2]
      exact (hkept key hkey hnear).1

end Laws

/-!
### Batches without a cut
-/

/-- While the batch is applied on top of another one, the unbounded map has at most `d` keys. -/
def Fits (d : Nat) (xs : List (κ × β)) (past ops : List (κ × Option β)) : Prop :=
  ∀ i ≤ ops.length, (left xs (past ++ ops.take i)).card ≤ d

theorem near_of_card_le {keys : Finset κ} (member : k ∈ keys) (fits : keys.card ≤ d) : Near d keys k := by
  have hsub : keys.filter (fun other => other < k) ⊂ keys := by
    refine Finset.filter_ssubset.mpr ⟨k, member, lt_irrefl k⟩
  exact (Finset.card_lt_card hsub).trans_le fits

theorem Fits.persistsNear (fits : Fits d xs past ops) (k : κ) : PersistsNear d xs past ops k :=
  fun i hi _ hthere => near_of_card_le hthere (fits i hi)

/-- What never needs the bound lasts. -/
theorem lasting_of_fits (once : Fits d xs [] ops) (twice : Fits d xs ops ops) : Lasting merge d xs ops := by
  intro k hkept _
  exact ⟨StaysNear.of_persists (once.persistsNear k) hkept,
    Or.inr ⟨twice.persistsNear k, fun _ => once.persistsNear k⟩⟩

end Merge

end BoundedMap
