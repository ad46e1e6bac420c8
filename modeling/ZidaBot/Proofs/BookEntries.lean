/-
Module: ZidaBot.Proofs.BookEntries
Purpose: A side of the order book as a bounded map.  The entries of a side go from rank to level; an update
  is one operation on them, a write that keeps the texts of a resting level or an erasure.
Trusted boundary: none
Main exports: entries, Level.requoted, change, entries_placeIn, entries_removeFrom, entries_update,
  entries_updateAll
-/
import ZidaBot.Library.BoundedMap
import ZidaBot.Proofs.OrderBookController

namespace ZidaBot

open SortedSeq

/-- The levels of a side under their ranks, best first. -/
def entries (s : Side) (vec : List Level) : List (Int × Level) := vec.map fun level => (level.rank s, level)

/-- A resting level with the quantity of another one: its texts stay. -/
def Level.requoted (resting level : Level) : Level := { resting with quantityLot := level.quantityLot }

/-- What a level of a message does to its side: an empty one erases, any other is written. -/
def change (s : Side) (level : Level) : Int × Option Level :=
  (level.rank s, if level.isEmpty then none else some level)

theorem entries_append (s : Side) (first second : List Level) :
    entries s (first ++ second) = entries s first ++ entries s second := List.map_append

theorem entries_inj {s : Side} {first second : List Level} (same : entries s first = entries s second) :
    first = second :=
  List.map_injective_iff.mpr (fun _ _ heq => (Prod.mk.inj heq).2) same

theorem sorted_entries {s : Side} {vec : List Level} (ascending : Ascending (Level.rank s) vec) :
    SortedMap.Sorted (entries s vec) :=
  List.pairwise_map.mpr ascending

theorem mem_keys_entries {s : Side} {vec : List Level} {tick : Int} :
    s.rank tick ∈ (entries s vec).map Prod.fst ↔ ∃ level ∈ vec, level.priceTick = tick := by
  simp [entries]

/-- The cell of a tick at a split: the first level that is not better, if it carries the tick. -/
theorem cell_entries_split {s : Side} {better worse : List Level} {tick : Int}
    (ascending : Ascending (Level.rank s) (better ++ worse))
    (below : ∀ l ∈ better, l.rank s < s.rank tick) (above : ∀ l ∈ worse, s.rank tick ≤ l.rank s) :
    BoundedMap.cell (entries s (better ++ worse)) (s.rank tick) =
      worse.head?.filter fun found => found.priceTick = tick := by
  have hsorted := sorted_entries ascending
  cases worse with
  | nil =>
      by_contra hcell
      obtain ⟨level, hlevel, htick⟩ := mem_keys_entries.mp (BoundedMap.cell_ne_none_iff.mp hcell)
      rw [List.append_nil] at hlevel
      have hlt := below level hlevel
      simp [Level.rank, htick] at hlt
  | cons found rest =>
      by_cases hsame : found.priceTick = tick
      · rw [List.head?_cons, Option.filter_some, if_pos (by simpa using hsame),
          BoundedMap.cell_eq_some_iff hsorted, ← hsame]
        exact List.mem_map.mpr ⟨found, by simp, rfl⟩
      · rw [List.head?_cons, Option.filter_some, if_neg (by simpa using hsame)]
        by_contra hcell
        obtain ⟨level, hlevel, htick⟩ := mem_keys_entries.mp (BoundedMap.cell_ne_none_iff.mp hcell)
        have hworse := (Ascending.append_iff.mp ascending).2.1
        have hstrict := hworse.above_of_head_ne above (by
          intro head hhead
          obtain rfl : found = head := by simpa using hhead
          simpa [Level.rank] using hsame)
        rcases List.mem_append.mp hlevel with hbetter | hrest
        · have hlt := below level hbetter
          simp [Level.rank, htick] at hlt
        · have hlt := hstrict level hrest
          simp [Level.rank, htick] at hlt

/-- Placing a level writes it, merged into the level that rests at its tick, and keeps the best levels up
    to the depth. -/
theorem entries_placeIn {s : Side} {depth : Nat} {vec : List Level} (valid : SideValid s depth vec)
    (level : Level) :
    entries s (OrderBook.placeIn s depth vec level) =
      (SortedMap.put (level.rank s)
        ((BoundedMap.cell (entries s vec) (level.rank s)).elim level fun old => old.requoted level)
        (entries s vec)).take depth := by
  obtain ⟨better, worse, rfl, below, above, hfind⟩ :=
    OrderBook.exists_split valid.ascending level.priceTick
  have hsmaller : ∀ e ∈ entries s better, e.1 < level.rank s := by
    intro e he
    obtain ⟨l, hl, rfl⟩ := List.mem_map.mp he
    exact below l hl
  have hlength := valid.length_le
  rw [OrderBook.placeIn_split hfind, cell_entries_split valid.ascending below above, entries_append,
    SortedMap.put_append hsmaller]
  cases worse with
  | nil =>
      dsimp only
      split
      · rename_i hroom
        rw [entries_append, List.take_of_length_le]
        · rfl
        · simp [entries, SortedMap.put]
          omega
      · rename_i hfull
        have hdepth : better.length = depth := by
          simp at hlength
          omega
        simp [entries, SortedMap.put, ← hdepth]
  | cons found rest =>
      have hge : ¬ found.rank s < level.rank s := not_lt.mpr (above found (List.mem_cons_self ..))
      dsimp only
      split
      · rename_i hsame
        have hrank : found.rank s = level.rank s := by rw [Level.rank, Level.rank, hsame]
        rw [List.take_of_length_le]
        · simp [entries, SortedMap.put, hrank, hsame, Level.requoted, Option.filter_some]
        · simpa [entries, SortedMap.put, hge, hrank] using hlength
      · rename_i hdifferent
        have hrank : ¬ found.rank s = level.rank s := by simpa [Level.rank] using hdifferent
        split
        · rename_i hroom
          rw [List.take_of_length_le]
          · simp [entries, SortedMap.put, hge, hrank, hdifferent, Option.filter_some]
          · simp [entries, SortedMap.put, hge, hrank] at hroom ⊢
            omega
        · rename_i hfull
          have hdepth : (better ++ level :: found :: rest).length = depth + 1 := by
            simp at hlength hfull ⊢
            omega
          rw [List.dropLast_eq_take, hdepth]
          simp [entries, SortedMap.put, hge, hrank, hdifferent, Option.filter_some, List.map_take]

/-- Entries of other ranks are not affected by an erasure. -/
theorem del_entries_of_ne {s : Side} {vec : List Level} {k : Int} (other : ∀ l ∈ vec, l.rank s ≠ k) :
    SortedMap.del k (entries s vec) = entries s vec := by
  apply List.filter_eq_self.mpr
  intro e he
  obtain ⟨l, hl, rfl⟩ := List.mem_map.mp he
  simpa using other l hl

/-- Removing a tick erases it. -/
theorem entries_removeFrom {s : Side} {depth : Nat} {vec : List Level} (valid : SideValid s depth vec)
    (tick : Int) :
    entries s (OrderBook.removeFrom s vec tick) = SortedMap.del (s.rank tick) (entries s vec) := by
  obtain ⟨better, worse, rfl, below, above, hfind⟩ := OrderBook.exists_split valid.ascending tick
  have hworse : Ascending (Level.rank s) worse := (Ascending.append_iff.mp valid.ascending).2.1
  have hbetter : SortedMap.del (s.rank tick) (entries s better) = entries s better :=
    del_entries_of_ne fun l hl => (below l hl).ne
  have hsplit : SortedMap.del (s.rank tick) (entries s (better ++ worse)) =
      entries s better ++ SortedMap.del (s.rank tick) (entries s worse) := by
    rw [entries_append, SortedMap.del, List.filter_append, ← SortedMap.del, ← SortedMap.del, hbetter]
  rw [OrderBook.removeFrom_split hfind, hsplit]
  cases worse with
  | nil => simp [entries, SortedMap.del]
  | cons found rest =>
      dsimp only
      split
      · -- the first level that is not better carries the tick, the others lie beyond it
        rename_i hsame
        have hrest : SortedMap.del (s.rank tick) (entries s rest) = entries s rest := by
          apply del_entries_of_ne
          intro l hl
          have hlt := (Ascending.cons_iff.mp hworse).1 l hl
          rw [← hsame]
          exact hlt.ne'
        rw [entries_append, ← hrest]
        simp [entries, SortedMap.del, Level.rank, hsame]
      · rename_i hdifferent
        rw [del_entries_of_ne, entries_append]
        intro l hl
        refine (hworse.above_of_head_ne above ?_ l hl).ne'
        intro head hhead
        obtain rfl : found = head := by simpa using hhead
        simpa [Level.rank] using hdifferent

namespace OrderBook

/-- An update is one operation on the entries of its side. -/
theorem entries_update {book : OrderBook} (valid : book.Valid) (s : Side) (level : Level) :
    entries s ((book.update s level).side s) =
      BoundedMap.amend Level.requoted book.depth (entries s (book.side s)) (change s level) := by
  rw [update, change, BoundedMap.amend]
  split
  · rw [remove, side_setSide_self]
    exact entries_removeFrom (valid s) level.priceTick
  · rw [side_setSide_self]
    exact entries_placeIn (valid s) level

/-- The levels of a message are a batch of operations. -/
theorem entries_updateAll {book : OrderBook} (valid : book.Valid) (s : Side) (levels : List Level) :
    entries s ((OrderBookController.updateAll s book levels).side s) =
      Runs.run (BoundedMap.amend Level.requoted book.depth) (entries s (book.side s))
        (levels.map (change s)) := by
  induction levels generalizing book with
  | nil => rfl
  | cons level levels ih =>
      have hrest := ih (valid.update s level)
      rw [entries_update valid, depth_update] at hrest
      exact hrest

end OrderBook

end ZidaBot
