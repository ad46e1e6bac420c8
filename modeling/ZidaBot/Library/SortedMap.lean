/-
Module: ZidaBot.Library.SortedMap
Purpose: Finite maps as entry lists in strictly increasing key order, and their first entries.  `put` and
  `del` are the two updates; `take` is the map cut to its first entries.  For a condition on keys that holds
  of every smaller key too, the entries that meet it are an initial part of the map, and both updates and
  the cut can be carried out on that part alone.
Trusted boundary: none
Main exports: put, del, below, mem_put, ascending_put, ext_mem, Lower, below_put, below_del, below_take,
  head?_below, take_put, mem_take_of_below, edit, below_edit_congr
-/
import ZidaBot.Library.SortedSeq
import Mathlib.Data.List.Nodup

namespace SortedMap

open SortedSeq

variable {κ β : Type*} [LinearOrder κ]

/-- The entries are in strictly increasing order of their keys. -/
abbrev Sorted (xs : List (κ × β)) : Prop := Ascending Prod.fst xs

/-- Write a key: overwrite its entry, or insert one where it belongs. -/
def put (k : κ) (v : β) : List (κ × β) → List (κ × β)
  | [] => [(k, v)]
  | e :: rest =>
      if e.1 < k then e :: put k v rest
      else if e.1 = k then (k, v) :: rest
      else (k, v) :: e :: rest

/-- Erase a key. -/
def del (k : κ) (xs : List (κ × β)) : List (κ × β) := xs.filter fun e => e.1 ≠ k

/-- The entries whose keys meet a condition. -/
def below (p : κ → Bool) (xs : List (κ × β)) : List (κ × β) := xs.filter fun e => p e.1

/-!
### Membership and order
-/

/-- Smaller keys do not take part in a write. -/
theorem put_append {k : κ} {v : β} {ys : List (κ × β)} (smaller : ∀ y ∈ ys, y.1 < k)
    (zs : List (κ × β)) : put k v (ys ++ zs) = ys ++ put k v zs := by
  induction ys with
  | nil => rfl
  | cons y ys ih =>
      rw [List.cons_append, put, if_pos (smaller y (List.mem_cons_self ..)),
        ih fun z hz => smaller z (List.mem_cons_of_mem y hz)]
      rfl

/-- A write, with the values seen through a function. -/
theorem map_put {γ : Type*} (f : β → γ) (k : κ) (v : β) (xs : List (κ × β)) :
    (put k v xs).map (Prod.map id f) = put k (f v) (xs.map (Prod.map id f)) := by
  induction xs with
  | nil => rfl
  | cons x xs ih =>
      simp only [put, List.map_cons, Prod.map_fst, id_eq]
      split
      · rw [List.map_cons, ih]
      · split
        · rfl
        · rfl

/-- An erasure, with the values seen through a function. -/
theorem map_del {γ : Type*} (f : β → γ) (k : κ) (xs : List (κ × β)) :
    (del k xs).map (Prod.map id f) = del k (xs.map (Prod.map id f)) := by
  rw [del, del, List.filter_map]
  rfl

theorem mem_put {k : κ} {v : β} {xs : List (κ × β)} (sorted : Sorted xs) (e : κ × β) :
    e ∈ put k v xs ↔ e = (k, v) ∨ (e ∈ xs ∧ e.1 ≠ k) := by
  induction xs with
  | nil => simp [put]
  | cons x xs ih =>
      obtain ⟨hhead, htail⟩ := Ascending.cons_iff.mp sorted
      rw [put]
      split
      · rename_i hlt
        rw [List.mem_cons, ih htail, List.mem_cons]
        constructor
        · rintro (rfl | rfl | ⟨hmem, hne⟩)
          · exact Or.inr ⟨Or.inl rfl, hlt.ne⟩
          · exact Or.inl rfl
          · exact Or.inr ⟨Or.inr hmem, hne⟩
        · rintro (rfl | ⟨rfl | hmem, hne⟩)
          · exact Or.inr (Or.inl rfl)
          · exact Or.inl rfl
          · exact Or.inr (Or.inr ⟨hmem, hne⟩)
      · rename_i hge
        -- from here on every entry of the tail lies strictly above the key
        have habove : ∀ y ∈ xs, y.1 ≠ k := fun y hy =>
          ((not_lt.mp hge).trans_lt (hhead y hy)).ne'
        split
        · rename_i heq
          rw [List.mem_cons, List.mem_cons]
          constructor
          · rintro (rfl | hmem)
            · exact Or.inl rfl
            · exact Or.inr ⟨Or.inr hmem, habove e hmem⟩
          · rintro (rfl | ⟨rfl | hmem, hne⟩)
            · exact Or.inl rfl
            · exact absurd heq hne
            · exact Or.inr hmem
        · rename_i hne
          rw [List.mem_cons]
          refine or_congr_right ⟨fun hmem => ⟨hmem, ?_⟩, And.left⟩
          rcases List.mem_cons.mp hmem with rfl | hmem
          · exact hne
          · exact habove e hmem

theorem ascending_put {k : κ} {v : β} {xs : List (κ × β)} (sorted : Sorted xs) :
    Sorted (put k v xs) := by
  induction xs with
  | nil => exact List.pairwise_singleton _ _
  | cons x xs ih =>
      obtain ⟨hhead, htail⟩ := Ascending.cons_iff.mp sorted
      rw [put]
      split
      · rename_i hlt
        refine Ascending.cons_iff.mpr ⟨?_, ih htail⟩
        intro y hy
        rcases (mem_put htail y).mp hy with rfl | ⟨hmem, -⟩
        · exact hlt
        · exact hhead y hmem
      · rename_i hge
        split
        · rename_i heq
          exact Ascending.cons_iff.mpr ⟨fun y hy => heq ▸ hhead y hy, htail⟩
        · rename_i hne
          have hlt : k < x.1 := lt_of_le_of_ne (not_lt.mp hge) (Ne.symm hne)
          refine Ascending.cons_iff.mpr ⟨?_, sorted⟩
          intro y hy
          rcases List.mem_cons.mp hy with rfl | hmem
          · exact hlt
          · exact hlt.trans (hhead y hmem)

theorem ascending_filter {p : κ × β → Bool} {xs : List (κ × β)} (sorted : Sorted xs) :
    Sorted (xs.filter p) :=
  List.Pairwise.sublist List.filter_sublist sorted

/-- Sorted maps with the same entries are equal. -/
theorem ext_mem {xs ys : List (κ × β)} (first : Sorted xs) (second : Sorted ys)
    (same : ∀ e, e ∈ xs ↔ e ∈ ys) : xs = ys := by
  have nodup : ∀ {zs : List (κ × β)}, Sorted zs → zs.Nodup := fun sorted =>
    sorted.imp fun hlt heq => absurd (congrArg Prod.fst heq) hlt.ne
  exact ((List.perm_ext_iff_of_nodup (nodup first) (nodup second)).mpr same).eq_of_pairwise
    (fun a b _ _ hab hba => absurd hab (not_lt.mpr hba.le)) first second

/-!
### The part of a map below a bound
-/

/-- A condition on keys that passes to smaller keys. -/
def Lower (p : κ → Bool) : Prop := ∀ a b, a ≤ b → p b = true → p a = true

variable {p : κ → Bool} {xs ys : List (κ × β)}

/-- A write reaches the part below a bound if its key does. -/
theorem below_put (sorted : Sorted xs) (k : κ) (v : β) :
    below p (put k v xs) = if p k then put k v (below p xs) else below p xs := by
  have hbelow : Sorted (below p xs) := ascending_filter sorted
  have hput : Sorted (below p (put k v xs)) := ascending_filter (ascending_put sorted)
  split
  · rename_i hk
    refine ext_mem hput (ascending_put hbelow) fun e => ?_
    rw [below, List.mem_filter, mem_put sorted, mem_put hbelow, below, List.mem_filter]
    constructor
    · rintro ⟨rfl | ⟨hmem, hne⟩, hp⟩
      · exact Or.inl rfl
      · exact Or.inr ⟨⟨hmem, hp⟩, hne⟩
    · rintro (rfl | ⟨⟨hmem, hp⟩, hne⟩)
      · exact ⟨Or.inl rfl, hk⟩
      · exact ⟨Or.inr ⟨hmem, hne⟩, hp⟩
  · rename_i hk
    refine ext_mem hput hbelow fun e => ?_
    rw [below, List.mem_filter, mem_put sorted, below, List.mem_filter]
    constructor
    · rintro ⟨rfl | ⟨hmem, -⟩, hp⟩
      · exact absurd hp hk
      · exact ⟨hmem, hp⟩
    · rintro ⟨hmem, hp⟩
      refine ⟨Or.inr ⟨hmem, ?_⟩, hp⟩
      rintro rfl
      exact hk hp

theorem below_del (k : κ) (xs : List (κ × β)) : below p (del k xs) = del k (below p xs) := by
  rw [below, del, List.filter_comm]
  rfl

/-- Cutting a map commutes with looking below a bound. -/
theorem below_take (lower : Lower p) (sorted : Sorted xs) (d : Nat) :
    below p (xs.take d) = (below p xs).take d := by
  induction xs generalizing d with
  | nil => simp [below]
  | cons x xs ih =>
      obtain ⟨hhead, htail⟩ := Ascending.cons_iff.mp sorted
      cases d with
      | zero => rfl
      | succ d =>
          by_cases hx : p x.1 = true
          · have hrest := ih htail d
            rw [below, below] at hrest
            simp [below, hx, hrest]
          · -- nothing behind the first entry beyond the bound is below it
            have hnone : ∀ y ∈ xs, ¬ p y.1 = true := fun y hy hp =>
              hx (lower x.1 y.1 (hhead y hy).le hp)
            have hempty : ∀ zs : List (κ × β), (∀ z ∈ zs, z ∈ x :: xs) → below p zs = [] := by
              intro zs hzs
              apply List.filter_eq_nil_iff.mpr
              intro z hz
              rcases List.mem_cons.mp (hzs z hz) with rfl | hmem
              · exact hx
              · exact hnone z hmem
            rw [hempty _ fun z hz => List.mem_of_mem_take hz, hempty (x :: xs) fun _ hz => hz,
              List.take_nil]

/-- The first entry of the part below a bound is the first entry of the map. -/
theorem head?_below (lower : Lower p) (sorted : Sorted xs) {e : κ × β} :
    (below p xs).head? = some e ↔ xs.head? = some e ∧ p e.1 = true := by
  cases xs with
  | nil => simp [below]
  | cons x xs =>
      obtain ⟨hhead, -⟩ := Ascending.cons_iff.mp sorted
      by_cases hx : p x.1 = true
      · simp only [below, List.filter_cons, hx, if_true, List.head?_cons, Option.some.injEq]
        constructor
        · rintro rfl
          exact ⟨rfl, hx⟩
        · exact And.left
      · have hempty : below p (x :: xs) = [] := by
          apply List.filter_eq_nil_iff.mpr
          intro z hz
          rcases List.mem_cons.mp hz with rfl | hmem
          · exact hx
          · exact fun hp => hx (lower x.1 z.1 (hhead z hmem).le hp)
        rw [hempty]
        simp only [List.head?_nil, List.head?_cons, Option.some.injEq, reduceCtorEq, false_iff]
        rintro ⟨rfl, hp⟩
        exact hx hp

/-- What a cut has dropped makes no difference to a write followed by the same cut. -/
theorem take_put (d : Nat) (k : κ) (v : β) (xs : List (κ × β)) :
    (put k v (xs.take d)).take d = (put k v xs).take d := by
  induction xs generalizing d with
  | nil => simp
  | cons x xs ih =>
      cases d with
      | zero => rfl
      | succ d =>
          rw [List.take_succ_cons, put, put]
          split
          · rw [List.take_succ_cons, List.take_succ_cons, ih]
          · split
            · rw [List.take_succ_cons, List.take_succ_cons, List.take_take, Nat.min_self]
            · have hcut : (x :: xs.take d).take d = (x :: xs).take d := by
                rw [← List.take_succ_cons, List.take_take, Nat.min_eq_left (Nat.le_succ d)]
              rw [List.take_succ_cons, List.take_succ_cons, hcut]

/-- An entry with fewer than `d` smaller keys survives the cut to `d` entries. -/
theorem mem_take_of_below (sorted : Sorted xs) {e : κ × β} (member : e ∈ xs) {d : Nat}
    (few : (below (fun k => decide (k < e.1)) xs).length < d) : e ∈ xs.take d := by
  obtain ⟨before, after, rfl⟩ := List.append_of_mem member
  obtain ⟨-, -, hcross⟩ := Ascending.append_iff.mp sorted
  have hsub : before.Sublist (below (fun k => decide (k < e.1)) (before ++ e :: after)) := by
    rw [below, List.filter_append]
    have hall : before.filter (fun y => decide (y.1 < e.1)) = before :=
      List.filter_eq_self.mpr fun y hy => by simpa using hcross y hy e (List.mem_cons_self ..)
    rw [hall]
    exact List.sublist_append_left ..
  have hlength : before.length < d := Nat.lt_of_le_of_lt hsub.length_le few
  rw [List.take_append]
  obtain ⟨n, hn⟩ : ∃ n, d - before.length = n + 1 := ⟨d - before.length - 1, by omega⟩
  simp [hn]

/-!
### Bounded maps edited by deltas
-/

section Edit

variable [Zero β] [DecidableEq β]

/-- One delta on a map of at most `d` entries: zero erases the key, any other value is written and the
    last entry goes where there is no room for it. -/
def edit (d : Nat) (k : κ) (v : β) (xs : List (κ × β)) : List (κ × β) :=
  if v = 0 then del k xs else (put k v xs).take d

/-- What a delta leaves is the written entry or an old one of another key. -/
theorem of_mem_edit {d : Nat} {k : κ} {v : β} (sorted : Sorted xs) {e : κ × β}
    (member : e ∈ edit d k v xs) : (e = (k, v) ∧ v ≠ 0) ∨ (e ∈ xs ∧ e.1 ≠ k) := by
  rw [edit] at member
  split at member
  · obtain ⟨hmem, hne⟩ := List.mem_filter.mp member
    exact Or.inr ⟨hmem, by simpa using hne⟩
  · rename_i hv
    rcases (mem_put sorted e).mp (List.mem_of_mem_take member) with rfl | hold
    · exact Or.inl ⟨rfl, hv⟩
    · exact Or.inr hold

/-- The written entry and the old ones of other keys stay, unless there are `d` smaller keys. -/
theorem mem_edit {d : Nat} {k : κ} {v : β} (sorted : Sorted xs) {e : κ × β}
    (written : (e = (k, v) ∧ v ≠ 0) ∨ (e ∈ xs ∧ e.1 ≠ k))
    (few : v ≠ 0 → (below (fun k' => decide (k' < e.1)) (put k v xs)).length < d) :
    e ∈ edit d k v xs := by
  rw [edit]
  split
  · rename_i hv
    rcases written with ⟨-, hne⟩ | ⟨hmem, hne⟩
    · exact absurd hv hne
    · exact List.mem_filter.mpr ⟨hmem, by simpa using hne⟩
  · rename_i hv
    apply mem_take_of_below (ascending_put sorted) _ (few hv)
    exact (mem_put sorted e).mpr (written.imp_left And.left)

/-- The first entry after a write: the written one or the old first one, whichever is smaller. -/
theorem head?_edit {d : Nat} (room : 0 < d) {k : κ} {v : β} (nonzero : v ≠ 0) (sorted : Sorted xs) :
    ∃ e, (edit d k v xs).head? = some e ∧ e.1 ≤ k ∧ (∀ x ∈ xs, e.1 ≤ x.1) ∧
      (e = (k, v) ∨ xs.head? = some e) := by
  have hmem := mem_put (k := k) (v := v) sorted
  have hsorted := ascending_put (k := k) (v := v) sorted
  rw [edit, if_neg nonzero]
  generalize put k v xs = entries at hmem hsorted ⊢
  cases entries with
  | nil => exact absurd ((hmem (k, v)).mpr (Or.inl rfl)) List.not_mem_nil
  | cons e rest =>
      have hfirst : ∀ x ∈ e :: rest, e.1 ≤ x.1 := by
        intro x hx
        rcases List.mem_cons.mp hx with rfl | hrest
        · exact le_rfl
        · exact ((Ascending.cons_iff.mp hsorted).1 x hrest).le
      have hkey : e.1 ≤ k := hfirst (k, v) ((hmem (k, v)).mpr (Or.inl rfl))
      have hold : ∀ x ∈ xs, e.1 ≤ x.1 := by
        intro x hx
        by_cases hxk : x.1 = k
        · exact hxk ▸ hkey
        · exact hfirst x ((hmem x).mpr (Or.inr ⟨hx, hxk⟩))
      obtain ⟨n, rfl⟩ : ∃ n, d = n + 1 := ⟨d - 1, by omega⟩
      refine ⟨e, rfl, hkey, hold, ?_⟩
      rcases (hmem e).mp (List.mem_cons_self ..) with hwritten | ⟨hmember, -⟩
      · exact Or.inl hwritten
      · exact Or.inr (sorted.head?_of_min hmember hold)

/-- Maps that agree below a bound still agree there after the same delta. -/
theorem below_edit_congr (lower : Lower p) (first : Sorted xs) (second : Sorted ys)
    (agree : below p xs = below p ys) (d : Nat) (k : κ) (v : β) :
    below p (edit d k v xs) = below p (edit d k v ys) := by
  rw [edit, edit]
  split
  · rw [below_del, below_del, agree]
  · rw [below_take lower (ascending_put first), below_take lower (ascending_put second),
      below_put first, below_put second, agree]

end Edit

end SortedMap
