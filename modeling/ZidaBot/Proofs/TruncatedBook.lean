/-
Module: ZidaBot.Proofs.TruncatedBook
Purpose: The bounded book against the reference that forgets nothing, level by level.  Whatever is held is
  held by the reference too, with the same quantity; and as long as nothing was taken away from a side, the
  side is the reference itself, listed in book order and cut to the depth.
Trusted boundary: none
Main exports: Listing, Fills, Filled, truncated_book_sound
-/
import ZidaBot.Proofs.TopOfBook

namespace ZidaBot

open SortedSeq

/-- The resting ticks of a reference with their quantities, in the order of the side. -/
structure Listing (s : Side) (r : Reference) (levels : List (Int × Int)) : Prop where
  sorted : levels.Pairwise fun better worse => s.before better.1 worse.1 = true
  mem_iff : ∀ tick quantity, (tick, quantity) ∈ levels ↔ r tick = quantity ∧ quantity ≠ 0

/-- The operation takes nothing away from the side. -/
def Fills (s : Side) : BookOp → Prop
  | .update s' level => s' = s → level.quantityLot ≠ 0
  | .remove s' _ => s' ≠ s
  | .clear => False

/-- The side shows the first entries of a sorted map that holds what the reference holds. -/
def Filled (s : Side) (book : OrderBook) (r : Reference) : Prop :=
  ∃ entries : List (Int × Int), SortedMap.Sorted entries ∧
    (∀ tick quantity, (s.rank tick, quantity) ∈ entries ↔ r tick = quantity ∧ quantity ≠ 0) ∧
    quotes s (book.side s) = entries.take book.depth

/-- An operation that takes nothing away keeps the first entries first. -/
theorem Filled.apply {s : Side} {book : OrderBook} {r : Reference} (valid : book.Valid)
    (filled : Filled s book r) {op : BookOp} (fills : Fills s op) :
    Filled s (book.apply op) (Reference.apply s r op) := by
  obtain ⟨entries, hsorted, hmem, hquotes⟩ := filled
  rw [Filled, OrderBook.depth_apply]
  cases op with
  | update s' level =>
      by_cases hs : s' = s
      · subst hs
        have hlevel : level.quantityLot ≠ 0 := fills rfl
        refine ⟨SortedMap.put (level.rank s') level.quantityLot entries, SortedMap.ascending_put hsorted,
          ?_, ?_⟩
        · intro tick quantity
          rw [SortedMap.mem_put hsorted, hmem, Reference.apply, if_pos rfl, Prod.mk.injEq, Level.rank,
            Side.rank_inj]
          simp only [ne_eq, Side.rank_inj]
          by_cases htick : tick = level.priceTick
          · rw [htick, Function.update_self]
            constructor
            · rintro (⟨-, rfl⟩ | ⟨-, hne⟩)
              · exact ⟨rfl, hlevel⟩
              · exact absurd rfl hne
            · exact fun h => Or.inl ⟨rfl, h.1.symm⟩
          · simp [htick]
        · rw [OrderBook.apply, OrderBook.quotes_update valid, SortedMap.edit, if_neg hlevel, hquotes,
            SortedMap.take_put]
      · refine ⟨entries, hsorted, ?_, ?_⟩
        · rw [Reference.apply, if_neg hs]
          exact hmem
        · rw [OrderBook.apply, OrderBook.side_update_of_ne (Ne.symm hs), hquotes]
  | remove s' tick =>
      have hs : s' ≠ s := fills
      refine ⟨entries, hsorted, ?_, ?_⟩
      · rw [Reference.apply, if_neg hs]
        exact hmem
      · rw [OrderBook.apply, OrderBook.side_remove_of_ne (Ne.symm hs), hquotes]
  | clear => exact absurd fills id

/-- The entries of a filled side, read as ticks. -/
theorem Filled.listing {s : Side} {book : OrderBook} {r : Reference} (filled : Filled s book r) :
    ∃ levels, Listing s r levels ∧
      (book.side s).map (fun level => (level.priceTick, level.quantityLot)) =
        levels.take book.depth := by
  obtain ⟨entries, hsorted, hmem, hquotes⟩ := filled
  have hback : (book.side s).map (fun level => (level.priceTick, level.quantityLot)) =
      (quotes s (book.side s)).map fun e => (s.rank e.1, e.2) := by
    simp [quotes, Level.rank]
  refine ⟨entries.map fun e => (s.rank e.1, e.2), ⟨?_, ?_⟩, ?_⟩
  · apply List.pairwise_map.mpr
    refine hsorted.imp ?_
    intro better worse hlt
    rw [Side.before_iff, Side.rank_rank, Side.rank_rank]
    exact hlt
  · intro tick quantity
    rw [← hmem, List.mem_map]
    constructor
    · rintro ⟨e, he, heq⟩
      obtain ⟨rfl, rfl⟩ := Prod.mk.inj heq
      rwa [Side.rank_rank]
    · intro he
      exact ⟨_, he, by simp⟩
  · rw [hback, hquotes, List.map_take]

/-- A side from which nothing was taken since the book was cleared. -/
theorem filled_run_clear (s : Side) (book : OrderBook) {ops : List BookOp}
    (fills : ∀ op ∈ ops, Fills s op) :
    Filled s (Runs.run OrderBook.apply book.clear ops) (reference s ops) := by
  induction ops using List.reverseRecOn with
  | nil =>
      refine ⟨[], Ascending.nil, ?_, ?_⟩
      · intro tick quantity
        simp only [List.not_mem_nil, false_iff, not_and, not_not]
        rintro rfl
        rfl
      · rw [Runs.run_nil, OrderBook.side_clear, List.take_nil]
        rfl
  | append_singleton ops op ih =>
      rw [reference_concat, Runs.run_append]
      have hearlier := ih fun op' hop' => fills op' (List.mem_append_left _ hop')
      exact hearlier.apply (held_run_clear s book ops).valid (fills op (by simp))

/-- Since the last clearing, every level of a side carries the latest quantity of its tick in the
    reference; and if nothing was taken away from the side, it is the listing of the reference cut to the
    depth. -/
theorem truncated_book_sound (book : OrderBook) (ops : List BookOp) (s : Side) :
    (∀ level ∈ (Runs.run OrderBook.apply book.clear ops).side s,
        level.quantityLot ≠ 0 ∧ reference s ops level.priceTick = level.quantityLot) ∧
      ((∀ op ∈ ops, Fills s op) →
        ∃ levels, Listing s (reference s ops) levels ∧
          ((Runs.run OrderBook.apply book.clear ops).side s).map
            (fun level => (level.priceTick, level.quantityLot)) = levels.take book.depth) := by
  refine ⟨?_, ?_⟩
  · intro level hlevel
    have hheld := held_run_clear s book ops
    exact ⟨(hheld.valid s).resting level hlevel,
      hheld.within level.priceTick level.quantityLot (mem_quotes.mpr ⟨level, hlevel, rfl, rfl⟩)⟩
  · intro hfills
    have hdepth : (Runs.run OrderBook.apply book.clear ops).depth = book.depth :=
      Runs.invariant_run (fun b op h => (OrderBook.depth_apply b op).trans h) rfl ops
    obtain ⟨levels, hlisting, hside⟩ := (filled_run_clear s book hfills).listing
    rw [hdepth] at hside
    exact ⟨levels, hlisting, hside⟩

end ZidaBot
