/-
Module: ZidaBot.Proofs.OrderBook
Purpose: The representation invariant of the order book.  `SideValid` says what `validate` tests on one
  side; the split lemmas read the positional edits of `update` and `remove` as edits between the part of
  the side that is better than a tick and the part that is not.  Every operation keeps the invariant, so
  it holds after every sequence of operations on a fresh book.
Trusted boundary: none
Main exports: Side.rank, SideValid, OrderBook.Valid, OrderBook.validate_iff, placeIn_split,
  removeFrom_split, Valid.apply, valid_run
-/
import ZidaBot.Common.OrderBook
import ZidaBot.Library.Runs
import Mathlib.Data.List.InsertIdx

namespace ZidaBot

open SortedSeq

/-- Both sides ascend in their rank: the worse the price, the higher the rank. -/
def Side.rank : Side → Int → Int
  | .bid, tick => -tick
  | .ask, tick => tick

theorem Side.before_iff (s : Side) (obTick tick : Int) :
    s.before obTick tick = true ↔ s.rank obTick < s.rank tick := by
  cases s <;> simp [Side.before, Side.rank]

@[simp] theorem Side.rank_inj (s : Side) (a b : Int) : s.rank a = s.rank b ↔ a = b := by
  cases s <;> simp [Side.rank]

/-- Rank of a level on its side. -/
abbrev Level.rank (s : Side) (level : Level) : Int := s.rank level.priceTick

/-- One side of a well-formed book of the given depth. -/
structure SideValid (s : Side) (depth : Nat) (vec : List Level) : Prop where
  length_le : vec.length ≤ depth
  ascending : Ascending (Level.rank s) vec
  resting : ∀ level ∈ vec, level.quantityLot ≠ 0

theorem SideValid.nil (s : Side) (depth : Nat) : SideValid s depth [] :=
  ⟨Nat.zero_le _, Ascending.nil, by simp⟩

namespace OrderBook

/-- The representation invariant of the whole book. -/
def Valid (book : OrderBook) : Prop :=
  ∀ s, SideValid s book.depth (book.side s)

/-!
### What `validate` tests

`validate` looks at neighbours and at sizes only. On a list that is enough for strict order, so what it
accepts is the invariant.
-/

theorem neighboursOrdered_iff (s : Side) (vec : List Level) :
    neighboursOrdered s vec = true ↔ Ascending (Level.rank s) vec := by
  induction vec with
  | nil => simp [neighboursOrdered, Ascending.nil]
  | cons first rest ih =>
      cases rest with
      | nil => simp [neighboursOrdered, Ascending.cons_iff, Ascending.nil]
      | cons second rest =>
          rw [neighboursOrdered, Bool.and_eq_true, ih, Side.before_iff]
          constructor
          · rintro ⟨hlt, hrest⟩
            refine Ascending.cons_iff.mpr ⟨?_, hrest⟩
            intro level hlevel
            rcases List.mem_cons.mp hlevel with rfl | hlevel
            · exact hlt
            · exact lt_trans hlt ((Ascending.cons_iff.mp hrest).1 level hlevel)
          · intro h
            obtain ⟨hhead, htail⟩ := Ascending.cons_iff.mp h
            exact ⟨hhead second (List.mem_cons_self ..), htail⟩

/-- `validate` returns true exactly on well-formed books. -/
theorem validate_iff (book : OrderBook) : book.validate = true ↔ book.Valid := by
  have resting_iff : ∀ vec : List Level,
      vec.all (fun l => !l.isEmpty) = true ↔ ∀ level ∈ vec, level.quantityLot ≠ 0 := by
    intro vec
    simp [Level.isEmpty]
  simp only [validate, Bool.and_eq_true, decide_eq_true_eq, neighboursOrdered_iff, resting_iff]
  constructor
  · rintro ⟨⟨⟨⟨⟨hbids, hasks⟩, hbidOrder⟩, haskOrder⟩, hbidRest⟩, haskRest⟩ s
    cases s
    · exact ⟨hbids, hbidOrder, hbidRest⟩
    · exact ⟨hasks, haskOrder, haskRest⟩
  · intro h
    exact ⟨⟨⟨⟨⟨(h .bid).length_le, (h .ask).length_le⟩, (h .bid).ascending⟩, (h .ask).ascending⟩,
      (h .bid).resting⟩, (h .ask).resting⟩

/-!
### Positional edits read at a split

The code edits a side at the position that the search returns. Every lemma about an edit starts from the
split at that position, so that none has to speak of indices again.
-/

/-- The side splits at every tick, and the search returns the length of its better part. -/
theorem exists_split {s : Side} {vec : List Level} (ascending : Ascending (Level.rank s) vec)
    (tick : Int) :
    ∃ better worse, vec = better ++ worse ∧ (∀ l ∈ better, l.rank s < s.rank tick) ∧
      (∀ l ∈ worse, s.rank tick ≤ l.rank s) ∧ lowerBound s vec tick = better.length :=
  ascending.exists_split fun level => s.before_iff level.priceTick tick

/-- The binary search always finds a tick that rests on the side. -/
theorem lowerBound_finds {s : Side} {vec : List Level} (ascending : Ascending (Level.rank s) vec)
    {level : Level} (member : level ∈ vec) :
    vec[lowerBound s vec level.priceTick]? = some level := by
  obtain ⟨better, worse, rfl, below, above, hfind⟩ := exists_split ascending level.priceTick
  obtain ⟨rest, rfl⟩ := Ascending.head_of_mem ascending below above member
  rw [hfind]
  simp

/-- Removal at a split: the first level of the worse part goes if it carries the tick. -/
theorem removeFrom_split {s : Side} {better worse : List Level} {tick : Int}
    (find : lowerBound s (better ++ worse) tick = better.length) :
    removeFrom s (better ++ worse) tick =
      match worse with
      | [] => better
      | found :: rest => if found.priceTick = tick then better ++ rest else better ++ found :: rest := by
  rw [removeFrom, find]
  cases worse with
  | nil => simp
  | cons found rest => simp [List.eraseIdx_append_of_length_le]

/-- Placement at a split: overwrite, insert, insert and trim, or leave a full side alone. -/
theorem placeIn_split {s : Side} {depth : Nat} {better worse : List Level} {level : Level}
    (find : lowerBound s (better ++ worse) level.priceTick = better.length) :
    placeIn s depth (better ++ worse) level =
      match worse with
      | [] => if better.length < depth then better ++ [level] else better
      | found :: rest =>
          if found.priceTick = level.priceTick then
            better ++ { found with quantityLot := level.quantityLot } :: rest
          else if (better ++ found :: rest).length < depth then better ++ level :: found :: rest
          else (better ++ level :: found :: rest).dropLast := by
  rw [placeIn, find]
  cases worse with
  | nil => simp
  | cons found rest => simp [insertIdx_append_length]

/-!
### Where the levels of a changed side come from
-/

/-- A removal leaves levels that were there. -/
theorem mem_of_mem_removeFrom {s : Side} {vec : List Level} {tick : Int} {level : Level}
    (member : level ∈ removeFrom s vec tick) : level ∈ vec := by
  rw [removeFrom] at member
  split at member
  · split at member
    · exact List.mem_of_mem_eraseIdx member
    · exact member
  · exact member

/-- A placement leaves levels that were there, the new one, or an old one with the new quantity. -/
theorem of_mem_placeIn {s : Side} {depth : Nat} {vec : List Level} {placed level : Level}
    (member : level ∈ placeIn s depth vec placed) :
    level ∈ vec ∨ level = placed ∨ ∃ found ∈ vec, found.priceTick = placed.priceTick ∧
      level = { found with quantityLot := placed.quantityLot } := by
  have hinserted : ∀ i, level ∈ vec.insertIdx i placed → level = placed ∨ level ∈ vec :=
    fun i hmember => List.eq_or_mem_of_mem_insertIdx hmember
  rw [placeIn] at member
  split at member
  · rename_i found hfound
    split at member
    · rename_i htick
      rcases List.mem_or_eq_of_mem_set member with hold | heq
      · exact Or.inl hold
      · exact Or.inr (Or.inr ⟨found, List.mem_of_getElem? hfound, htick, heq⟩)
    · have hnew : level = placed ∨ level ∈ vec := by
        split at member
        · exact hinserted _ member
        · exact hinserted _ (List.dropLast_subset _ member)
      exact hnew.elim (fun heq => Or.inr (Or.inl heq)) Or.inl
  · split at member
    · exact (hinserted _ member).elim (fun heq => Or.inr (Or.inl heq)) Or.inl
    · exact Or.inl member

/-!
### Every operation keeps the invariant

One lemma for each edit, from these one for each operation, and by induction one for every sequence.
-/

theorem SideValid.removeFrom {s : Side} {depth : Nat} {vec : List Level}
    (valid : SideValid s depth vec) (tick : Int) :
    SideValid s depth (OrderBook.removeFrom s vec tick) := by
  obtain ⟨better, worse, rfl, -, -, hfind⟩ := exists_split valid.ascending tick
  rw [removeFrom_split hfind]
  cases worse with
  | nil => simpa using valid
  | cons found rest =>
      dsimp only
      split
      · refine ⟨?_, valid.ascending.erase, ?_⟩
        · have := valid.length_le
          simp at this ⊢
          omega
        · intro level hlevel
          apply valid.resting
          simp at hlevel ⊢
          tauto
      · exact valid

theorem SideValid.placeIn {s : Side} {depth : Nat} {vec : List Level}
    (valid : SideValid s depth vec) {level : Level} (resting : level.quantityLot ≠ 0) :
    SideValid s depth (OrderBook.placeIn s depth vec level) := by
  obtain ⟨better, worse, rfl, below, above, hfind⟩ := exists_split valid.ascending level.priceTick
  have length_le := valid.length_le
  have member : ∀ l ∈ better ++ level :: worse, l.quantityLot ≠ 0 := by
    intro l hl
    rcases List.mem_append.mp hl with hl | hl
    · exact valid.resting l (List.mem_append_left _ hl)
    · rcases List.mem_cons.mp hl with rfl | hl
      · exact resting
      · exact valid.resting l (List.mem_append_right _ hl)
  rw [placeIn_split hfind]
  cases worse with
  | nil =>
      dsimp only
      split
      · exact ⟨by simp; omega, valid.ascending.insert below (by simp), member⟩
      · simpa using valid
  | cons found rest =>
      dsimp only
      split
      · -- Option A: same tick, new quantity
        rename_i hsame
        refine ⟨by simpa using length_le, valid.ascending.replace (by simp [Level.rank]), ?_⟩
        intro l hl
        rcases List.mem_append.mp hl with hl | hl
        · exact valid.resting l (List.mem_append_left _ hl)
        · rcases List.mem_cons.mp hl with rfl | hl
          · exact resting
          · exact valid.resting l (by simp [hl])
      · rename_i hdifferent
        have hworse : Ascending (Level.rank s) (found :: rest) :=
          (Ascending.append_iff.mp valid.ascending).2.1
        have strictly : ∀ l ∈ found :: rest, Level.rank s level < l.rank s := by
          refine hworse.above_of_head_ne above ?_
          intro l hhead
          obtain rfl : found = l := by simpa using hhead
          simpa [Level.rank] using hdifferent
        have ascending := valid.ascending.insert below strictly
        split
        · exact ⟨by simp at *; omega, ascending, member⟩
        · exact ⟨by simp at *; omega, ascending.dropLast,
            fun l hl => member l (List.dropLast_subset _ hl)⟩

theorem Valid.setSide {book : OrderBook} (valid : book.Valid) {s : Side} {vec : List Level}
    (sideValid : SideValid s book.depth vec) : (book.setSide s vec).Valid := by
  intro s'
  by_cases hs : s' = s
  · subst hs
    simpa using sideValid
  · rw [side_setSide_of_ne hs, depth_setSide]
    exact valid s'

theorem Valid.remove {book : OrderBook} (valid : book.Valid) (s : Side) (tick : Int) :
    (book.remove s tick).Valid :=
  valid.setSide (SideValid.removeFrom (valid s) tick)

theorem Valid.update {book : OrderBook} (valid : book.Valid) (s : Side) (level : Level) :
    (book.update s level).Valid := by
  rw [OrderBook.update]
  split
  · exact valid.remove s level.priceTick
  · rename_i hresting
    exact valid.setSide (SideValid.placeIn (valid s) (by simpa [Level.isEmpty] using hresting))

/-- An update at a resting tick leaves the level there, with the new quantity beside the old texts. -/
theorem Valid.mem_update_of_resting {book : OrderBook} (valid : book.Valid) {s : Side} {level found : Level}
    (placed : level.quantityLot ≠ 0) (resting : found ∈ book.side s)
    (tick : found.priceTick = level.priceTick) :
    { found with quantityLot := level.quantityLot } ∈ (book.update s level).side s := by
  have hfind : (book.side s)[lowerBound s (book.side s) level.priceTick]? = some found := by
    rw [← tick]
    exact lowerBound_finds (valid s).ascending resting
  have hlt := (List.getElem?_eq_some_iff.mp hfind).1
  rw [OrderBook.update, if_neg (by simpa [Level.isEmpty] using placed), side_setSide_self,
    OrderBook.placeIn, hfind]
  dsimp only
  rw [if_pos tick]
  exact List.mem_set hlt _

theorem valid_clear (book : OrderBook) : book.clear.Valid := by
  intro s
  rw [side_clear]
  exact SideValid.nil s _

theorem valid_empty (depth : Nat) (depth_pos : 0 < depth) : (empty depth depth_pos).Valid :=
  valid_clear (empty depth depth_pos)

theorem Valid.apply {book : OrderBook} (valid : book.Valid) (op : BookOp) :
    (book.apply op).Valid := by
  cases op with
  | update s level => exact valid.update s level
  | remove s tick => exact valid.remove s tick
  | clear => exact valid_clear book

/-- The invariant after every sequence of operations on a fresh book. -/
theorem valid_run (depth : Nat) (depth_pos : 0 < depth) (ops : List BookOp) :
    (Runs.run OrderBook.apply (empty depth depth_pos) ops).Valid :=
  Runs.invariant_run (fun _ op valid => valid.apply op) (valid_empty depth depth_pos) ops

theorem depth_apply (book : OrderBook) (op : BookOp) : (book.apply op).depth = book.depth := by
  cases op with
  | update s level => exact depth_update s book level
  | remove s tick => exact depth_setSide book s _
  | clear => rfl

theorem depth_run (depth : Nat) (depth_pos : 0 < depth) (ops : List BookOp) :
    (Runs.run OrderBook.apply (empty depth depth_pos) ops).depth = depth :=
  Runs.invariant_run (fun book op h => (depth_apply book op).trans h) rfl ops

/-- On a well-formed book the pointers are non-null exactly below the size of the side. -/
theorem Valid.levelPtr_isSome {book : OrderBook} (valid : book.Valid) (s : Side) (i : Nat) :
    (book.levelPtr s i).isSome = true ↔ i < (book.side s).length := by
  rw [levelPtr]
  cases hget : (book.side s)[i]? with
  | none => simpa using hget
  | some level =>
      have hlt : i < (book.side s).length := (List.getElem?_eq_some_iff.mp hget).1
      have hresting := (valid s).resting level (List.mem_of_getElem? hget)
      simp [Level.isEmpty, hresting, hlt]

end OrderBook

end ZidaBot
