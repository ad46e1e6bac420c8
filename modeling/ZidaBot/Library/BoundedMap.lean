/-
Module: ZidaBot.Library.BoundedMap
Purpose: Sorted maps that keep their first `d` entries, edited by batches of writes and erasures.  A write
  at a held key merges the new value into the old one.  A key with fewer than `d` smaller keys among all
  that the batch can reach is never pushed out, so it holds what its own operations have made of it.  From
  that follow the batches whose repetition and whose order make no difference.
Trusted boundary: none
Main exports: cell, act, amend, Within, Near, opsAt, cell_run_near, FinallyErased, reach, Settled,
  run_run_of_settled, run_perm_of_settled, settled_of_same_order
-/
import ZidaBot.Library.Runs
import ZidaBot.Library.SortedMap
import Mathlib.Data.Finset.Max
import Mathlib.Data.Finset.Card

namespace BoundedMap

open SortedSeq SortedMap

variable {κ β : Type*} [LinearOrder κ]

/-!
### Cells
-/

/-- The value at a key. -/
def cell (xs : List (κ × β)) (k : κ) : Option β := (xs.find? fun e => e.1 = k).map Prod.snd

variable {xs ys : List (κ × β)} {k : κ}

theorem cell_eq_some_iff (sorted : Sorted xs) {v : β} : cell xs k = some v ↔ (k, v) ∈ xs := by
  rw [cell, Option.map_eq_some_iff]
  constructor
  · rintro ⟨e, hfind, rfl⟩
    have hkey : e.1 = k := by simpa using List.find?_some hfind
    rw [← hkey]
    exact List.mem_of_find?_eq_some hfind
  · intro hmem
    induction xs with
    | nil => cases hmem
    | cons x xs ih =>
        obtain ⟨hhead, htail⟩ := Ascending.cons_iff.mp sorted
        rcases List.mem_cons.mp hmem with rfl | hrest
        · exact ⟨(k, v), by simp, rfl⟩
        · have hne : x.1 ≠ k := (hhead _ hrest).ne
          rw [List.find?_cons_of_neg (by simpa using hne)]
          exact ih htail hrest

theorem cell_ne_none_iff : cell xs k ≠ none ↔ k ∈ xs.map Prod.fst := by
  simp [cell, List.find?_eq_none]

/-- Sorted maps with the same cells are equal. -/
theorem ext_cell (first : Sorted xs) (second : Sorted ys) (same : ∀ k, cell xs k = cell ys k) :
    xs = ys := by
  apply ext_mem first second
  rintro ⟨k, v⟩
  rw [← cell_eq_some_iff first, ← cell_eq_some_iff second, same]

/-- A map that holds what another one holds at a key. -/
theorem cell_congr (first : Sorted xs) (second : Sorted ys) (same : ∀ v, (k, v) ∈ xs ↔ (k, v) ∈ ys) :
    cell xs k = cell ys k := by
  apply Option.ext
  intro v
  rw [cell_eq_some_iff first, cell_eq_some_iff second, same]

theorem ascending_del (sorted : Sorted xs) (key : κ) : Sorted (del key xs) := ascending_filter sorted

theorem cell_del (sorted : Sorted xs) (key : κ) :
    cell (del key xs) k = if key = k then none else cell xs k := by
  split
  · rename_i hkey
    subst hkey
    by_contra hcell
    obtain ⟨e, he, hek⟩ := List.mem_map.mp (cell_ne_none_iff.mp hcell)
    exact absurd hek (by simpa using (List.mem_filter.mp he).2)
  · rename_i hne
    apply cell_congr (ascending_del sorted key) sorted
    intro v
    rw [del, List.mem_filter]
    simp [Ne.symm hne]

theorem cell_put (sorted : Sorted xs) (key : κ) (v : β) :
    cell (put key v xs) k = if key = k then some v else cell xs k := by
  have hput := ascending_put (k := key) (v := v) sorted
  split
  · rename_i hkey
    rw [cell_eq_some_iff hput, mem_put sorted, hkey]
    exact Or.inl rfl
  · rename_i hne
    apply cell_congr hput sorted
    intro w
    rw [mem_put sorted]
    constructor
    · rintro (heq | ⟨hmem, -⟩)
      · exact absurd (congrArg Prod.fst heq).symm hne
      · exact hmem
    · exact fun hmem => Or.inr ⟨hmem, Ne.symm hne⟩

/-!
### One operation

The keys that a batch can reach are fixed in advance. A key with fewer than `d` of them before it is safe
from the bound whatever the batch does.
-/

section Merge

variable (merge : β → β → β)

/-- An operation on the cell of its key: `none` erases, a value is written, merged into the old one. -/
def act (change old : Option β) : Option β := change.map fun v => old.elim v fun o => merge o v

/-- An operation on a map of at most `d` entries. -/
def amend (d : Nat) (xs : List (κ × β)) (op : κ × Option β) : List (κ × β) :=
  match op.2 with
  | none => del op.1 xs
  | some v => (put op.1 ((cell xs op.1).elim v fun o => merge o v) xs).take d

/-- The map is sorted, has room for its entries, and all its keys are among the given ones. -/
structure Within (d : Nat) (keys : Finset κ) (xs : List (κ × β)) : Prop where
  sorted : Sorted xs
  length_le : xs.length ≤ d
  keys_mem : ∀ k, cell xs k ≠ none → k ∈ keys

/-- Fewer than `d` of the keys are smaller. -/
def Near (d : Nat) (keys : Finset κ) (k : κ) : Prop := (keys.filter fun other => other < k).card < d

variable {merge} {d : Nat} {keys : Finset κ} {op : κ × Option β}

theorem sorted_amend (sorted : Sorted xs) (op : κ × Option β) : Sorted (amend merge d xs op) := by
  rw [amend]
  split
  · exact ascending_del sorted _
  · exact List.Pairwise.sublist (List.take_sublist ..) (ascending_put sorted)

/-- No operation on another key brings a key in. -/
theorem cell_amend_of_none (sorted : Sorted xs) (absent : cell xs k = none)
    (other : op.1 = k → op.2 = none) : cell (amend merge d xs op) k = none := by
  by_contra hcell
  rw [amend] at hcell
  split at hcell
  · rw [cell_del sorted, absent, ite_self] at hcell
    exact hcell rfl
  · rename_i v hwrite
    have hne : op.1 ≠ k := by
      intro hkey
      rw [other hkey] at hwrite
      cases hwrite
    obtain ⟨e, he, hek⟩ := List.mem_map.mp (cell_ne_none_iff.mp hcell)
    rcases (mem_put sorted e).mp (List.mem_of_mem_take he) with rfl | ⟨hmem, -⟩
    · exact hne hek
    · exact cell_ne_none_iff.mpr (List.mem_map.mpr ⟨e, hmem, hek⟩) absent

theorem Within.amend (within : Within d keys xs) (written : op.2 ≠ none → op.1 ∈ keys) :
    Within d keys (amend merge d xs op) := by
  refine ⟨sorted_amend within.sorted op, ?_, ?_⟩
  · rw [BoundedMap.amend]
    split
    · exact (List.length_filter_le ..).trans within.length_le
    · exact List.length_take_le ..
  · intro k hcell
    by_cases hwrite : op.1 = k ∧ op.2 ≠ none
    · exact hwrite.1 ▸ written hwrite.2
    · apply within.keys_mem
      intro habsent
      refine hcell (cell_amend_of_none within.sorted habsent ?_)
      intro hkey
      by_contra hsome
      exact hwrite ⟨hkey, hsome⟩

/-- A map within its keys has fewer than `d` entries below a key that is near. -/
theorem below_length_lt (sorted : Sorted xs) (within : ∀ k, cell xs k ≠ none → k ∈ keys)
    (near : Near d keys k) : (below (fun other => decide (other < k)) xs).length < d := by
  have hsorted : Sorted (below (fun other => decide (other < k)) xs) := ascending_filter sorted
  have hnodup : ((below (fun other => decide (other < k)) xs).map Prod.fst).Nodup :=
    List.pairwise_map.mpr (hsorted.imp fun hlt => hlt.ne)
  rw [← List.length_map (f := Prod.fst), ← List.toFinset_card_of_nodup hnodup]
  refine lt_of_le_of_lt (Finset.card_le_card ?_) near
  intro key hkey
  obtain ⟨e, he, rfl⟩ := List.mem_map.mp (List.mem_toFinset.mp hkey)
  obtain ⟨hmem, hlt⟩ := List.mem_filter.mp he
  refine Finset.mem_filter.mpr ⟨?_, by simpa using hlt⟩
  exact within e.1 (cell_ne_none_iff.mpr (List.mem_map_of_mem hmem))

/-- The cell of a near key sees the operations on it and no others. -/
theorem cell_amend_near (within : Within d keys xs) (written : op.2 ≠ none → op.1 ∈ keys)
    (near : Near d keys k) :
    cell (amend merge d xs op) k = if op.1 = k then act merge op.2 (cell xs k) else cell xs k := by
  rw [amend]
  split
  · rename_i herase
    rw [cell_del within.sorted, herase]
    rfl
  · rename_i v hwrite
    have hput := ascending_put (k := op.1) (v := (cell xs op.1).elim v fun o => merge o v) within.sorted
    have hkeys : ∀ key, cell (put op.1 ((cell xs op.1).elim v fun o => merge o v) xs) key ≠ none →
        key ∈ keys := by
      intro key hcell
      rw [cell_put within.sorted] at hcell
      split at hcell
      · rename_i hkey
        exact hkey ▸ written (by simp [hwrite])
      · exact within.keys_mem key hcell
    -- fewer than `d` entries stand before the key, so the cut does not reach it
    have hcut : cell ((put op.1 ((cell xs op.1).elim v fun o => merge o v) xs).take d) k =
        cell (put op.1 ((cell xs op.1).elim v fun o => merge o v) xs) k := by
      apply cell_congr (List.Pairwise.sublist (List.take_sublist ..) hput) hput
      intro w
      exact ⟨List.mem_of_mem_take,
        fun hmem => mem_take_of_below hput hmem (below_length_lt hput hkeys near)⟩
    rw [hcut, cell_put within.sorted, hwrite]
    split
    · rename_i hkey
      rw [hkey]
      rfl
    · rfl

/-!
### Batches

A safe key holds what its own operations have made of it, in their order; the other keys do not matter.
-/

/-- The operations of a batch on one key, in their order. -/
def opsAt (k : κ) (ops : List (κ × Option β)) : List (κ × Option β) := ops.filter fun op => op.1 = k

/-- The last operation of the batch on the key erases it. -/
def FinallyErased (k : κ) (ops : List (κ × Option β)) : Prop :=
  ((opsAt k ops).getLast?.map Prod.snd) = some none

/-- Some operation of the batch writes the key. -/
def Written (k : κ) (ops : List (κ × Option β)) : Prop := ∃ op ∈ ops, op.1 = k ∧ op.2 ≠ none

variable (merge) in
/-- The operations of a batch on one cell. -/
def actAll (ops : List (κ × Option β)) (old : Option β) : Option β :=
  ops.foldl (fun c op => act merge op.2 c) old

variable {ops ops' : List (κ × Option β)}

theorem mem_opsAt {op : κ × Option β} : op ∈ opsAt k ops ↔ op ∈ ops ∧ op.1 = k := by
  simp [opsAt]

theorem sorted_run (sorted : Sorted xs) (ops : List (κ × Option β)) :
    Sorted (Runs.run (amend merge d) xs ops) := by
  induction ops generalizing xs with
  | nil => exact sorted
  | cons op ops ih => exact ih (sorted_amend sorted op)

theorem Within.run (within : Within d keys xs) (written : ∀ k, Written k ops → k ∈ keys) :
    Within d keys (Runs.run (BoundedMap.amend merge d) xs ops) := by
  induction ops generalizing xs with
  | nil => exact within
  | cons op ops ih =>
      apply ih
      · exact within.amend fun hsome => written op.1 ⟨op, List.mem_cons_self .., rfl, hsome⟩
      · rintro k ⟨op', hmem, hkey⟩
        exact written k ⟨op', List.mem_cons_of_mem op hmem, hkey⟩

/-- A near key holds what its own operations have made of it. -/
theorem cell_run_near (within : Within d keys xs) (written : ∀ k, Written k ops → k ∈ keys)
    (near : Near d keys k) :
    cell (Runs.run (amend merge d) xs ops) k = actAll merge (opsAt k ops) (cell xs k) := by
  induction ops generalizing xs with
  | nil => rfl
  | cons op ops ih =>
      have hop : op.2 ≠ none → op.1 ∈ keys := fun hsome =>
        written op.1 ⟨op, List.mem_cons_self .., rfl, hsome⟩
      have hops : ∀ k, Written k ops → k ∈ keys := by
        rintro k ⟨op', hmem, hkey⟩
        exact written k ⟨op', List.mem_cons_of_mem op hmem, hkey⟩
      rw [Runs.run_cons, ih (within.amend hop) hops, cell_amend_near within hop near]
      by_cases hkey : op.1 = k
      · rw [if_pos hkey, opsAt, opsAt, List.filter_cons_of_pos (by simpa using hkey)]
        rfl
      · rw [if_neg hkey, opsAt, opsAt, List.filter_cons_of_neg (by simpa using hkey)]

/-- A key that is finally erased is not there after the batch. -/
theorem cell_run_of_finallyErased (sorted : Sorted xs) (erased : FinallyErased k ops) :
    cell (Runs.run (amend merge d) xs ops) k = none := by
  induction ops using List.reverseRecOn with
  | nil => simp [FinallyErased, opsAt] at erased
  | append_singleton ops op ih =>
      have hsorted : Sorted (Runs.run (amend merge d) xs ops) := sorted_run sorted ops
      rw [Runs.run_append, Runs.run_cons, Runs.run_nil]
      by_cases hkey : op.1 = k
      · have hnone : op.2 = none := by simpa [FinallyErased, opsAt, hkey] using erased
        rw [amend, hnone]
        dsimp only
        rw [cell_del hsorted, if_pos hkey]
      · have hearlier : FinallyErased k ops := by simpa [FinallyErased, opsAt, hkey] using erased
        exact cell_amend_of_none hsorted (ih hearlier) fun h => absurd h hkey

/-- A near key that is held or written, and not finally erased, is there after the batch. -/
theorem cell_run_ne_none (within : Within d keys xs) (written : ∀ k, Written k ops → k ∈ keys)
    (near : Near d keys k) (origin : cell xs k ≠ none ∨ Written k ops)
    (kept : ¬ FinallyErased k ops) : cell (Runs.run (amend merge d) xs ops) k ≠ none := by
  rw [cell_run_near within written near, actAll]
  rcases List.eq_nil_or_concat (opsAt k ops) with hempty | ⟨earlier, last, hlast⟩
  · rw [hempty]
    rcases origin with hheld | ⟨op, hop, hkey, -⟩
    · exact hheld
    · have hmem : op ∈ opsAt k ops := mem_opsAt.mpr ⟨hop, hkey⟩
      rw [hempty] at hmem
      cases hmem
  · have hsome : last.2 ≠ none := by
      intro hnone
      apply kept
      rw [FinallyErased, hlast]
      simp [hnone]
    rw [hlast, List.concat_eq_append, List.foldl_append, List.foldl_cons, List.foldl_nil, act]
    simpa using hsome

/-!
### Counting near keys

Whether the map has room for a key beyond the near ones is a matter of counting.
-/

instance (d : Nat) (keys : Finset κ) : DecidablePred (Near d keys) := fun _ =>
  inferInstanceAs (Decidable (_ < _))

/-- At most `d` keys are near. -/
theorem card_near_le (d : Nat) (keys : Finset κ) : (keys.filter (Near d keys)).card ≤ d := by
  rcases (keys.filter (Near d keys)).eq_empty_or_nonempty with hempty | hsome
  · simp [hempty]
  · -- all near keys but the greatest one lie below it
    obtain ⟨top, htop, hmax⟩ := Finset.exists_max_image _ id hsome
    have hbelow : keys.filter (Near d keys) ⊆ insert top (keys.filter fun other => other < top) := by
      intro k hk
      rcases (hmax k hk).lt_or_eq with hlt | heq
      · exact Finset.mem_insert_of_mem (Finset.mem_filter.mpr ⟨(Finset.mem_filter.mp hk).1, hlt⟩)
      · exact Finset.mem_insert.mpr (Or.inl heq)
    have hcard := (Finset.card_le_card hbelow).trans (Finset.card_insert_le _ _)
    have hnear : Near d keys top := (Finset.mem_filter.mp htop).2
    rw [Near] at hnear
    omega

/-- Where some key is not near, `d` keys are. -/
theorem le_card_near (member : k ∈ keys) (far : ¬ Near d keys k) :
    d ≤ (keys.filter (Near d keys)).card := by
  -- the least key that is not near has only near ones below it
  obtain ⟨least, hleast, hmin⟩ := Finset.exists_min_image (keys.filter fun k => ¬ Near d keys k) id
    ⟨k, Finset.mem_filter.mpr ⟨member, far⟩⟩
  have hfar : d ≤ (keys.filter fun other => other < least).card :=
    not_lt.mp (Finset.mem_filter.mp hleast).2
  refine hfar.trans (Finset.card_le_card ?_)
  intro other hother
  obtain ⟨hmem, hlt⟩ := Finset.mem_filter.mp hother
  refine Finset.mem_filter.mpr ⟨hmem, ?_⟩
  by_contra hnot
  exact absurd hlt (not_lt.mpr (hmin other (Finset.mem_filter.mpr ⟨hmem, hnot⟩)))

/-- A map that holds all near keys holds no other. -/
theorem cell_eq_none_of_full (within : Within d keys xs)
    (full : ∀ k ∈ keys, Near d keys k → cell xs k ≠ none) (far : ¬ Near d keys k) : cell xs k = none := by
  by_contra hcell
  have hmember := within.keys_mem k hcell
  have hheld : insert k (keys.filter (Near d keys)) ⊆ (xs.map Prod.fst).toFinset := by
    intro key hkey
    rw [List.mem_toFinset, ← cell_ne_none_iff]
    rcases Finset.mem_insert.mp hkey with rfl | hnear
    · exact hcell
    · exact full key (Finset.mem_filter.mp hnear).1 (Finset.mem_filter.mp hnear).2
  have hcard := Finset.card_le_card hheld
  rw [Finset.card_insert_of_notMem fun h => far (Finset.mem_filter.mp h).2] at hcard
  have hlength : (xs.map Prod.fst).toFinset.card ≤ d := by
    refine (List.toFinset_card_le _).trans ?_
    rw [List.length_map]
    exact within.length_le
  have hnear := le_card_near hmember far
  omega

/-!
### Batches whose repetition and order make no difference

A bounded map forgets what it has no room for. This shows only if a batch makes room that it did not have at
some point: a near key is erased while a key beyond stays.
-/

/-- The keys that are held or written. -/
def reach (xs : List (κ × β)) (ops : List (κ × Option β)) : Finset κ :=
  (xs.map Prod.fst).toFinset ∪ ((ops.filter fun op => op.2.isSome).map Prod.fst).toFinset

theorem mem_reach : k ∈ reach xs ops ↔ cell xs k ≠ none ∨ Written k ops := by
  rw [reach, Finset.mem_union, List.mem_toFinset, List.mem_toFinset, ← cell_ne_none_iff]
  refine or_congr_right ?_
  simp only [List.mem_map, List.mem_filter, Written, Option.isSome_iff_ne_none]
  constructor
  · rintro ⟨op, ⟨hmem, hsome⟩, hkey⟩
    exact ⟨op, hmem, hkey, hsome⟩
  · rintro ⟨op, hmem, hkey, hsome⟩
    exact ⟨op, ⟨hmem, hsome⟩, hkey⟩

theorem within_reach (sorted : Sorted xs) (fits : xs.length ≤ d) : Within d (reach xs ops) xs :=
  ⟨sorted, fits, fun _ hcell => mem_reach.mpr (Or.inl hcell)⟩

/-- Nothing near is finally erased, or everything beyond is. -/
def Settled (d : Nat) (keys : Finset κ) (ops : List (κ × Option β)) : Prop :=
  (∀ k ∈ keys, Near d keys k → ¬ FinallyErased k ops) ∨
    ∀ k ∈ keys, ¬ Near d keys k → FinallyErased k ops

/-- A settled batch leaves nothing beyond the near keys, if it starts from a map that has the near keys it
    does not write. -/
theorem cell_run_far (within : Within d keys xs) (written : ∀ k, Written k ops → k ∈ keys)
    (settled : (∀ k ∈ keys, Near d keys k →
        (cell xs k ≠ none ∨ Written k ops) ∧ ¬ FinallyErased k ops) ∨
      ∀ k ∈ keys, ¬ Near d keys k → FinallyErased k ops)
    (far : ¬ Near d keys k) : cell (Runs.run (amend merge d) xs ops) k = none := by
  have hwithin : Within d keys (Runs.run (amend merge d) xs ops) := within.run written
  rcases settled with hkept | herased
  · refine cell_eq_none_of_full hwithin ?_ far
    intro key hkey hnear
    exact cell_run_ne_none within written hnear (hkept key hkey hnear).1 (hkept key hkey hnear).2
  · by_contra hcell
    exact hcell (cell_run_of_finallyErased within.sorted (herased k (hwithin.keys_mem k hcell) far))

/-- The map after a settled batch, cell by cell. -/
theorem cell_run_settled (sorted : Sorted xs) (fits : xs.length ≤ d)
    (settled : Settled d (reach xs ops) ops) (k : κ) :
    cell (Runs.run (amend merge d) xs ops) k =
      if Near d (reach xs ops) k then actAll merge (opsAt k ops) (cell xs k) else none := by
  have hwithin : Within d (reach xs ops) xs := within_reach sorted fits
  have hwritten : ∀ k, Written k ops → k ∈ reach xs ops := fun _ h => mem_reach.mpr (Or.inr h)
  split
  · rename_i hnear
    exact cell_run_near hwithin hwritten hnear
  · rename_i hfar
    refine cell_run_far hwithin hwritten (settled.imp_left ?_) hfar
    exact fun hkept key hkey hnear => ⟨mem_reach.mp hkey, hkept key hkey hnear⟩

section Laws

variable (merge_merge : ∀ o v w, merge (merge o v) w = merge o w) (merge_self : ∀ v, merge v v = v)

omit [LinearOrder κ] in
include merge_merge in
/-- Of several writes into a held cell the last one counts. -/
theorem actAll_some_of_writes {o w : β} {earlier : List (κ × Option β)} {key : κ}
    (writes : ∀ op ∈ earlier, op.2 ≠ none) :
    actAll merge (earlier ++ [(key, some w)]) (some o) = some (merge o w) := by
  induction earlier generalizing o with
  | nil => rfl
  | cons op earlier ih =>
      obtain ⟨v, hv⟩ := Option.ne_none_iff_exists'.mp (writes op (List.mem_cons_self ..))
      have hrest := ih (o := merge o v) fun op' hop' => writes op' (List.mem_cons_of_mem op hop')
      rw [merge_merge] at hrest
      rw [List.cons_append, actAll, List.foldl_cons, ← actAll, hv]
      exact hrest

omit [LinearOrder κ] in
include merge_merge merge_self in
/-- The operations on a cell have done their work after the first time. -/
theorem actAll_actAll (ops : List (κ × Option β)) (c : Option β) :
    actAll merge ops (actAll merge ops c) = actAll merge ops c := by
  by_cases herase : ∃ op ∈ ops, op.2 = none
  · -- behind an erasure nothing of the old cell is left
    obtain ⟨op, hop, hnone⟩ := herase
    obtain ⟨before, after, rfl⟩ := List.append_of_mem hop
    have hconst : ∀ c, actAll merge (before ++ op :: after) c = actAll merge after none := by
      intro c
      rw [actAll, List.foldl_append, List.foldl_cons, hnone]
      rfl
    rw [hconst, hconst]
  · have hwrites : ∀ op ∈ ops, op.2 ≠ none := fun op hop hnone => herase ⟨op, hop, hnone⟩
    rcases List.eq_nil_or_concat ops with rfl | ⟨earlier, ⟨key, change⟩, rfl⟩
    · rfl
    · rw [List.concat_eq_append] at hwrites ⊢
      obtain ⟨w, rfl⟩ := Option.ne_none_iff_exists'.mp (hwrites (key, change) (by simp))
      have hearlier : ∀ op ∈ earlier, op.2 ≠ none := fun op hop =>
        hwrites op (List.mem_append_left _ hop)
      obtain ⟨b, hb⟩ : ∃ b, actAll merge (earlier ++ [(key, some w)]) c = some (merge b w) := by
        cases c with
        | some o => exact ⟨o, actAll_some_of_writes merge_merge hearlier⟩
        | none =>
            cases earlier with
            | nil => exact ⟨w, by simp [actAll, act, merge_self]⟩
            | cons op earlier =>
                obtain ⟨v, hv⟩ := Option.ne_none_iff_exists'.mp (hearlier op (List.mem_cons_self ..))
                refine ⟨v, ?_⟩
                rw [List.cons_append, actAll, List.foldl_cons, ← actAll, hv]
                exact actAll_some_of_writes merge_merge fun op' hop' =>
                  hearlier op' (List.mem_cons_of_mem op hop')
      rw [hb, actAll_some_of_writes merge_merge hearlier, merge_merge]

include merge_merge merge_self in
/-- A settled batch has done its work after the first time. -/
theorem run_run_of_settled (sorted : Sorted xs) (fits : xs.length ≤ d)
    (settled : Settled d (reach xs ops) ops) :
    Runs.run (amend merge d) (Runs.run (amend merge d) xs ops) ops = Runs.run (amend merge d) xs ops := by
  have hwritten : ∀ k, Written k ops → k ∈ reach xs ops := fun _ h => mem_reach.mpr (Or.inr h)
  have hwithin : Within d (reach xs ops) xs := within_reach sorted fits
  have hafter : Within d (reach xs ops) (Runs.run (amend merge d) xs ops) := hwithin.run hwritten
  apply ext_cell (sorted_run hafter.sorted ops) hafter.sorted
  intro k
  by_cases hnear : Near d (reach xs ops) k
  · rw [cell_run_near hafter hwritten hnear, cell_run_near hwithin hwritten hnear,
      actAll_actAll merge_merge merge_self]
  · rw [cell_run_settled sorted fits settled, if_neg hnear]
    refine cell_run_far hafter hwritten (settled.imp_left ?_) hnear
    -- the first time has left every near key in place
    intro hkept key hkey hnearKey
    exact ⟨Or.inl (cell_run_ne_none hwithin hwritten hnearKey (mem_reach.mp hkey) (hkept key hkey hnearKey)),
      hkept key hkey hnearKey⟩

end Laws

/-! #### The order of a batch -/

/-- A batch that names a key once has one operation on it. -/
theorem opsAt_of_mem (distinct : (ops.map Prod.fst).Nodup) (member : op ∈ ops) :
    opsAt op.1 ops = [op] := by
  obtain ⟨before, after, rfl⟩ := List.append_of_mem member
  rw [List.map_append, List.map_cons, List.nodup_append] at distinct
  obtain ⟨-, hafter, hcross⟩ := distinct
  have hnone : ∀ l : List (κ × Option β), op.1 ∉ l.map Prod.fst → opsAt op.1 l = [] := by
    intro l hnot
    apply List.filter_eq_nil_iff.mpr
    intro other hother hkey
    exact hnot (List.mem_map.mpr ⟨other, hother, by simpa using hkey⟩)
  have hbefore := hnone before fun hmem => hcross _ hmem _ (List.mem_cons_self ..) rfl
  have hrest := hnone after (List.nodup_cons.mp hafter).1
  rw [opsAt] at hbefore hrest ⊢
  rw [List.filter_append, hbefore, List.filter_cons_of_pos (by simp), hrest, List.nil_append]

/-- What a batch with distinct keys does to one key does not depend on its order. -/
theorem opsAt_perm (perm : ops'.Perm ops) (distinct : (ops.map Prod.fst).Nodup) (k : κ) :
    opsAt k ops' = opsAt k ops := by
  have hdistinct : (ops'.map Prod.fst).Nodup := (perm.map Prod.fst).nodup_iff.mpr distinct
  cases hops : opsAt k ops with
  | nil =>
      have hperm := perm.filter fun op => op.1 = k
      rw [← opsAt, ← opsAt, hops] at hperm
      exact hperm.eq_nil
  | cons op rest =>
      obtain ⟨hmem, rfl⟩ := mem_opsAt.mp (hops ▸ List.mem_cons_self .. : op ∈ opsAt k ops)
      rw [opsAt_of_mem hdistinct (perm.mem_iff.mpr hmem), ← hops, opsAt_of_mem distinct hmem]

theorem reach_perm (perm : ops'.Perm ops) : reach xs ops' = reach xs ops := by
  ext k
  rw [mem_reach, mem_reach]
  refine or_congr_right ?_
  simp only [Written, perm.mem_iff]

/-- The order of a settled batch with distinct keys makes no difference. -/
theorem run_perm_of_settled (sorted : Sorted xs) (fits : xs.length ≤ d)
    (distinct : (ops.map Prod.fst).Nodup) (settled : Settled d (reach xs ops) ops)
    (perm : ops'.Perm ops) :
    Runs.run (amend merge d) xs ops' = Runs.run (amend merge d) xs ops := by
  have hsettled : Settled d (reach xs ops') ops' := by
    simp only [Settled, FinallyErased, reach_perm perm, opsAt_perm perm distinct]
    exact settled
  apply ext_cell (sorted_run sorted ops') (sorted_run sorted ops)
  intro k
  rw [cell_run_settled sorted fits hsettled, cell_run_settled sorted fits settled, reach_perm perm,
    opsAt_perm perm distinct]

/-- The erasures of a batch. -/
def erasures (ops : List (κ × Option β)) : List (κ × Option β) := ops.filter fun op => op.2.isNone

/-- The writes of a batch. -/
def writes (ops : List (κ × Option β)) : List (κ × Option β) := ops.filter fun op => !op.2.isNone

omit [LinearOrder κ] in
theorem mem_erasures : op ∈ erasures ops ↔ op ∈ ops ∧ op.2 = none := by simp [erasures]

omit [LinearOrder κ] in
theorem mem_writes : op ∈ writes ops ↔ op ∈ ops ∧ op.2 ≠ none := by
  cases hop : op.2 <;> simp [writes, hop]

omit [LinearOrder κ] in
theorem written_writes : Written k (writes ops) ↔ Written k ops := by
  constructor
  · rintro ⟨op, hmem, hkey, hsome⟩
    exact ⟨op, (mem_writes.mp hmem).1, hkey, hsome⟩
  · rintro ⟨op, hmem, hkey, hsome⟩
    exact ⟨op, mem_writes.mpr ⟨hmem, hsome⟩, hkey, hsome⟩

/-- Writes alone erase nothing. -/
theorem not_finallyErased_writes : ¬ FinallyErased k (writes ops) := by
  intro herased
  obtain ⟨last, hlast, hnone⟩ := Option.map_eq_some_iff.mp herased
  have hmem := (mem_opsAt.mp (List.mem_of_getLast? hlast)).1
  exact (mem_writes.mp hmem).2 hnone

/-- Erasures alone leave what they do not name. -/
theorem cell_run_erasures (sorted : Sorted xs) (all : ∀ op ∈ ops, op.2 = none) :
    cell (Runs.run (amend merge d) xs ops) k =
      if k ∈ ops.map Prod.fst then none else cell xs k := by
  induction ops generalizing xs with
  | nil => rfl
  | cons op ops ih =>
      have hnone := all op (List.mem_cons_self ..)
      have hamend : amend merge d xs op = del op.1 xs := by rw [amend, hnone]
      have hrun := ih (ascending_del sorted op.1) fun op' hop' => all op' (List.mem_cons_of_mem op hop')
      rw [Runs.run_cons, hamend, hrun, cell_del sorted, List.map_cons]
      by_cases hrest : k ∈ ops.map Prod.fst
      · rw [if_pos hrest, if_pos (List.mem_cons_of_mem _ hrest)]
      · rw [if_neg hrest]
        by_cases hkey : op.1 = k
        · rw [if_pos hkey, if_pos (by simp [hkey])]
        · rw [if_neg hkey, if_neg]
          rw [List.mem_cons, not_or]
          exact ⟨Ne.symm hkey, hrest⟩

/-- Writing first leaves nothing beyond the near keys. -/
theorem cell_writes_erasures_far (sorted : Sorted xs) (fits : xs.length ≤ d)
    (far : ¬ Near d (reach xs ops) k) :
    cell (Runs.run (amend merge d) xs (writes ops ++ erasures ops)) k = none := by
  have hwritten : ∀ k, Written k (writes ops) → k ∈ reach xs ops := fun _ h =>
    mem_reach.mpr (Or.inr (written_writes.mp h))
  have hwithin : Within d (reach xs ops) xs := within_reach sorted fits
  have hfirst : cell (Runs.run (amend merge d) xs (writes ops)) k = none := by
    refine cell_run_far hwithin hwritten (Or.inl ?_) far
    intro key hkey _
    exact ⟨(mem_reach.mp hkey).imp_right written_writes.mpr, not_finallyErased_writes⟩
  rw [Runs.run_append, cell_run_erasures (sorted_run sorted _) fun op hop => (mem_erasures.mp hop).2, hfirst,
    ite_self]

/-- With distinct keys, an erased key is finally erased. -/
theorem mem_erasures_iff (distinct : (ops.map Prod.fst).Nodup) :
    k ∈ (erasures ops).map Prod.fst ↔ FinallyErased k ops := by
  constructor
  · intro hkey
    obtain ⟨op, hop, rfl⟩ := List.mem_map.mp hkey
    obtain ⟨hmem, hnone⟩ := mem_erasures.mp hop
    rw [FinallyErased, opsAt_of_mem distinct hmem]
    simp [hnone]
  · intro hlast
    obtain ⟨last, hlast, hnone⟩ := Option.map_eq_some_iff.mp hlast
    obtain ⟨hmem, hkey⟩ := mem_opsAt.mp (List.mem_of_getLast? hlast)
    exact List.mem_map.mpr ⟨last, mem_erasures.mpr ⟨hmem, hnone⟩, hkey⟩

/-- With distinct keys, a written key is not erased. -/
theorem not_finallyErased_of_written (distinct : (ops.map Prod.fst).Nodup) (written : Written k ops) :
    ¬ FinallyErased k ops := by
  obtain ⟨op, hmem, rfl, hsome⟩ := written
  intro hlast
  rw [FinallyErased, opsAt_of_mem distinct hmem] at hlast
  exact hsome (by simpa using hlast)

/-- Where a near key is left out, the least far key that is left becomes a near one. -/
theorem exists_far_near_of_left {left : Finset κ} (sub : left ⊆ keys) {gone : κ} (member : gone ∈ keys)
    (near : Near d keys gone) (out : gone ∉ left) (kept : k ∈ left) (far : ¬ Near d keys k) :
    ∃ key ∈ left, ¬ Near d keys key ∧ Near d left key := by
  obtain ⟨least, hleast, hmin⟩ := Finset.exists_min_image
    (left.filter fun key => ¬ Near d keys key) id ⟨k, Finset.mem_filter.mpr ⟨kept, far⟩⟩
  obtain ⟨hleft, hfar⟩ := Finset.mem_filter.mp hleast
  refine ⟨least, hleft, hfar, ?_⟩
  -- below the least far key only near keys are left, and one of those is gone
  have hsub : left.filter (fun other => other < least) ⊆ (keys.filter (Near d keys)).erase gone := by
    intro other hother
    obtain ⟨hmem, hlt⟩ := Finset.mem_filter.mp hother
    refine Finset.mem_erase.mpr ⟨?_, Finset.mem_filter.mpr ⟨sub hmem, ?_⟩⟩
    · rintro rfl
      exact out hmem
    · by_contra hother
      exact absurd hlt (not_lt.mpr (hmin other (Finset.mem_filter.mpr ⟨hmem, hother⟩)))
  have hmember : gone ∈ keys.filter (Near d keys) := Finset.mem_filter.mpr ⟨member, near⟩
  have hcard := Finset.card_le_card hsub
  have htotal := card_near_le d keys
  have hpos := Finset.card_pos.mpr ⟨gone, hmember⟩
  rw [Finset.card_erase_of_mem hmember] at hcard
  rw [Near]
  omega

/-- The keys that a batch reaches and does not erase. -/
def spared (xs : List (κ × β)) (ops : List (κ × Option β)) : Finset κ :=
  (reach xs ops).filter fun key => key ∉ (erasures ops).map Prod.fst

theorem mem_spared (distinct : (ops.map Prod.fst).Nodup) :
    k ∈ spared xs ops ↔ k ∈ reach xs ops ∧ ¬ FinallyErased k ops := by
  rw [spared, Finset.mem_filter, mem_erasures_iff distinct]

/-- The erasures of a batch leave spared keys only. -/
theorem within_spared (sorted : Sorted xs) (fits : xs.length ≤ d) :
    Within d (spared xs ops) (Runs.run (amend merge d) xs (erasures ops)) := by
  have hreach : Within d (reach xs ops) (Runs.run (amend merge d) xs (erasures ops)) := by
    apply (within_reach sorted fits).run
    rintro key ⟨op, hmem, -, hsome⟩
    exact absurd (mem_erasures.mp hmem).2 hsome
  refine ⟨hreach.sorted, hreach.length_le, ?_⟩
  intro key hheld
  refine Finset.mem_filter.mpr ⟨hreach.keys_mem key hheld, ?_⟩
  intro herased
  rw [cell_run_erasures sorted fun op hop => (mem_erasures.mp hop).2, if_pos herased] at hheld
  exact hheld rfl

variable (merge) in
/-- Erasing first makes room: where an erased key was near, the least key beyond that stays is taken. -/
theorem exists_far_erasures_writes (sorted : Sorted xs) (fits : xs.length ≤ d)
    (distinct : (ops.map Prod.fst).Nodup) {erased : κ} (erasedReached : erased ∈ reach xs ops)
    (erasedNear : Near d (reach xs ops) erased) (erasedLast : FinallyErased erased ops)
    (reached : k ∈ reach xs ops) (far : ¬ Near d (reach xs ops) k) (kept : ¬ FinallyErased k ops) :
    ∃ key, ¬ Near d (reach xs ops) key ∧
      cell (Runs.run (amend merge d) xs (erasures ops ++ writes ops)) key ≠ none := by
  have hgone : erased ∉ spared xs ops := fun h => ((mem_spared distinct).mp h).2 erasedLast
  obtain ⟨least, hleast, hfar, hnear⟩ := exists_far_near_of_left (Finset.filter_subset _ _) erasedReached
    erasedNear hgone ((mem_spared distinct).mpr ⟨reached, kept⟩) far
  have hwritten : ∀ key, Written key (writes ops) → key ∈ spared xs ops := by
    intro key hkey
    have hkey := written_writes.mp hkey
    exact (mem_spared distinct).mpr
      ⟨mem_reach.mpr (Or.inr hkey), not_finallyErased_of_written distinct hkey⟩
  refine ⟨least, hfar, ?_⟩
  rw [Runs.run_append]
  refine cell_run_ne_none (within_spared sorted fits) hwritten hnear ?_ not_finallyErased_writes
  obtain ⟨hreached, hstays⟩ := (mem_spared distinct).mp hleast
  refine (mem_reach.mp hreached).imp ?_ written_writes.mpr
  intro hheld
  rw [cell_run_erasures sorted fun op hop => (mem_erasures.mp hop).2,
    if_neg fun h => hstays ((mem_erasures_iff distinct).mp h)]
  exact hheld

/-- A batch with distinct keys that may begin with its erasures as well as with its writes is settled. -/
theorem settled_of_same_order (sorted : Sorted xs) (fits : xs.length ≤ d)
    (distinct : (ops.map Prod.fst).Nodup)
    (same : Runs.run (amend merge d) xs (erasures ops ++ writes ops) =
      Runs.run (amend merge d) xs (writes ops ++ erasures ops)) :
    Settled d (reach xs ops) ops := by
  by_contra hunsettled
  simp only [Settled, not_or, not_forall, not_not] at hunsettled
  obtain ⟨⟨erased, herasedReached, herasedNear, herasedLast⟩, k, hreached, hfar, hkept⟩ := hunsettled
  obtain ⟨key, hkeyFar, hheld⟩ := exists_far_erasures_writes merge sorted fits distinct herasedReached
    herasedNear herasedLast hreached hfar hkept
  rw [same, cell_writes_erasures_far sorted fits hkeyFar] at hheld
  exact hheld rfl

end Merge

end BoundedMap
