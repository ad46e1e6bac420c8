/-
Module: ZidaBot.Proofs.TopOfBook
Purpose: The top of the bounded book against a reference that forgets nothing.  Seen as a map from rank to
  quantity, a side of the book is edited by deltas and cut to the depth; the reference takes the same
  deltas without the cut.  The book holds no level the reference does not hold, and it holds every level
  that since it was last sent was never pushed beyond the depth.
Trusted boundary: none
Main exports: quotes, quotes_update, quotes_remove, best, Reference, IsBest, NearTop, StaysNearTop,
  TopMatches, top_of_book_matches_reference
-/
import ZidaBot.Proofs.BookEntries
import Mathlib.Algebra.Ring.Int.Defs
import Mathlib.Data.Finset.Max
import Mathlib.Data.Finset.Image

namespace ZidaBot

open SortedSeq

/-!
### A side as a map from rank to quantity

The texts of a level play no part here. Without them a side is a map in increasing rank, and an operation
writes or erases one key and cuts the rest.
-/

/-- Rank and quantity of the levels of a side, best first. -/
def quotes (s : Side) (vec : List Level) : List (Int × Int) :=
  vec.map fun level => (level.rank s, level.quantityLot)

@[simp] theorem Side.rank_rank (s : Side) (tick : Int) : s.rank (s.rank tick) = tick := by
  cases s <;> simp [Side.rank]

theorem quotes_eq (s : Side) (vec : List Level) :
    quotes s vec = (entries s vec).map (Prod.map id Level.quantityLot) := by
  simp [quotes, entries, Prod.map]

theorem quotes_append (s : Side) (first second : List Level) :
    quotes s (first ++ second) = quotes s first ++ quotes s second := List.map_append

theorem sorted_quotes {s : Side} {vec : List Level} (ascending : Ascending (Level.rank s) vec) :
    SortedMap.Sorted (quotes s vec) :=
  List.pairwise_map.mpr ascending

/-- Placing a level writes its quantity and keeps the best levels up to the depth. -/
theorem quotes_placeIn {s : Side} {depth : Nat} {vec : List Level} (valid : SideValid s depth vec)
    (level : Level) :
    quotes s (OrderBook.placeIn s depth vec level) =
      (SortedMap.put (level.rank s) level.quantityLot (quotes s vec)).take depth := by
  -- the quantity written is that of the level, whatever rests at its tick
  have hquantity : ((BoundedMap.cell (entries s vec) (level.rank s)).elim level
      fun old => old.requoted level).quantityLot = level.quantityLot := by
    cases BoundedMap.cell (entries s vec) (level.rank s) <;> rfl
  rw [quotes_eq, quotes_eq, entries_placeIn valid, List.map_take, SortedMap.map_put, hquantity]

/-- Removing a tick erases it. -/
theorem quotes_removeFrom {s : Side} {depth : Nat} {vec : List Level} (valid : SideValid s depth vec)
    (tick : Int) :
    quotes s (OrderBook.removeFrom s vec tick) = SortedMap.del (s.rank tick) (quotes s vec) := by
  rw [quotes_eq, quotes_eq, entries_removeFrom valid, SortedMap.map_del]

namespace OrderBook

/-- An update is one delta on its side. -/
theorem quotes_update {book : OrderBook} (valid : book.Valid) (s : Side) (level : Level) :
    quotes s ((book.update s level).side s) =
      SortedMap.edit book.depth (level.rank s) level.quantityLot (quotes s (book.side s)) := by
  rw [update, SortedMap.edit]
  by_cases hempty : level.quantityLot = 0
  · rw [if_pos (by simpa [Level.isEmpty] using hempty), if_pos hempty, remove, side_setSide_self]
    exact quotes_removeFrom (valid s) level.priceTick
  · rw [if_neg (by simpa [Level.isEmpty] using hempty), if_neg hempty, side_setSide_self]
    exact quotes_placeIn (valid s) level

/-- A removal is the delta of quantity zero. -/
theorem quotes_remove {book : OrderBook} (valid : book.Valid) (s : Side) (tick : Int) :
    quotes s ((book.remove s tick).side s) =
      SortedMap.edit book.depth (s.rank tick) 0 (quotes s (book.side s)) := by
  rw [remove, side_setSide_self, SortedMap.edit, if_pos rfl]
  exact quotes_removeFrom (valid s) tick

theorem side_update_of_ne {s s' : Side} (different : s' ≠ s) (book : OrderBook) (level : Level) :
    (book.update s level).side s' = book.side s' := by
  rw [update, remove]
  split
  · exact side_setSide_of_ne different book _
  · exact side_setSide_of_ne different book _

theorem side_remove_of_ne {s s' : Side} (different : s' ≠ s) (book : OrderBook) (tick : Int) :
    (book.remove s tick).side s' = book.side s' :=
  side_setSide_of_ne different book _

/-- `best_bid` and `best_ask`. -/
def best : Side → OrderBook → Level
  | .bid, book => book.bestBid
  | .ask, book => book.bestAsk

theorem best_eq (s : Side) (book : OrderBook) : book.best s = (book.side s).headD emptyLevel := by
  cases s <;> rfl

end OrderBook

/-!
### The reference

The reference is a function from ticks to quantities. `Held` relates it to the book: everything shown is
held, and what was near the top since its update is shown. The step lemmas say what one operation does to a
level that is there (`Held.kept`) and to one that is being sent (`Held.sent`); a run from the update on is
then an induction.
-/

/-- One side of a book that forgets nothing: the latest quantity at every tick, zero where nothing
    rests. -/
abbrev Reference := Int → Int

/-- The reference of one side takes every operation on that side. -/
def Reference.apply (s : Side) (r : Reference) : BookOp → Reference
  | .update s' level => if s' = s then Function.update r level.priceTick level.quantityLot else r
  | .remove s' tick => if s' = s then Function.update r tick 0 else r
  | .clear => fun _ => 0

/-- The reference of one side after a sequence of operations. -/
def reference (s : Side) (ops : List BookOp) : Reference :=
  Runs.run (Reference.apply s) (fun _ => 0) ops

theorem reference_concat (s : Side) (ops : List BookOp) (op : BookOp) :
    reference s (ops ++ [op]) = Reference.apply s (reference s ops) op := Runs.run_append ..

/-- The best resting tick. -/
def IsBest (s : Side) (r : Reference) (tick : Int) : Prop :=
  r tick ≠ 0 ∧ ∀ other, r other ≠ 0 → s.rank tick ≤ s.rank other

/-- The tick rests and fewer than `depth` resting ticks are better. -/
def NearTop (s : Side) (depth : Nat) (r : Reference) (tick : Int) : Prop :=
  r tick ≠ 0 ∧ ∀ better : Finset Int, (∀ other ∈ better, r other ≠ 0 ∧ s.rank other < s.rank tick) →
    better.card < depth

/-- Since some update of the tick, the last one at best, it has always been among the `depth` best of the
    reference. -/
def StaysNearTop (s : Side) (depth : Nat) (ops : List BookOp) (tick : Int) : Prop :=
  ∃ before level after, ops = before ++ .update s level :: after ∧ level.priceTick = tick ∧
    ∀ reached, reached <+: after →
      NearTop s depth (reference s (before ++ .update s level :: reached)) tick

/-- The top of a side shows the best tick of the reference with its quantity, and is empty exactly if the
    reference is. -/
structure TopMatches (s : Side) (book : OrderBook) (r : Reference) : Prop where
  quote : ∀ tick, IsBest s r tick →
    (book.best s).priceTick = tick ∧ (book.best s).quantityLot = r tick
  empty : (book.best s).isEmpty = true ↔ ∀ tick, r tick = 0

/-- Everything an operation does to one side, of the book and of the reference: one delta, nothing, or
    the end of all levels. -/
theorem apply_cases {book : OrderBook} (valid : book.Valid) (s : Side) (op : BookOp) :
    (∃ tick quantity,
      quotes s ((book.apply op).side s) =
        SortedMap.edit book.depth (s.rank tick) quantity (quotes s (book.side s)) ∧
      ∀ r, Reference.apply s r op = Function.update r tick quantity) ∨
    ((book.apply op).side s = book.side s ∧ ∀ r, Reference.apply s r op = r) ∨
    ((book.apply op).side s = [] ∧ ∀ r, Reference.apply s r op = fun _ => 0) := by
  cases op with
  | update s' level =>
      by_cases hs : s' = s
      · subst hs
        exact Or.inl ⟨level.priceTick, level.quantityLot, OrderBook.quotes_update valid s' level,
          fun r => if_pos rfl⟩
      · exact Or.inr (Or.inl ⟨OrderBook.side_update_of_ne (Ne.symm hs) book level,
          fun r => if_neg hs⟩)
  | remove s' tick =>
      by_cases hs : s' = s
      · subst hs
        exact Or.inl ⟨tick, 0, OrderBook.quotes_remove valid s' tick, fun r => if_pos rfl⟩
      · exact Or.inr (Or.inl ⟨OrderBook.side_remove_of_ne (Ne.symm hs) book tick,
          fun r => if_neg hs⟩)
  | clear => exact Or.inr (Or.inr ⟨OrderBook.side_clear book s, fun r => rfl⟩)

/-- The book is well formed, shows nothing the reference does not hold, and the reference holds finitely
    many levels. -/
structure Held (s : Side) (book : OrderBook) (r : Reference) : Prop where
  valid : book.Valid
  within : ∀ tick quantity, (s.rank tick, quantity) ∈ quotes s (book.side s) → r tick = quantity
  finite : ∃ ticks : Finset Int, ∀ tick, r tick ≠ 0 → tick ∈ ticks

theorem mem_quotes {s : Side} {vec : List Level} {tick quantity : Int} :
    (s.rank tick, quantity) ∈ quotes s vec ↔
      ∃ level ∈ vec, level.priceTick = tick ∧ level.quantityLot = quantity := by
  simp [quotes, Level.rank]

namespace Held

variable {s : Side} {book : OrderBook} {r : Reference}

theorem sorted (held : Held s book r) : SortedMap.Sorted (quotes s (book.side s)) :=
  sorted_quotes (held.valid s).ascending

/-- One operation on the book and on the reference. -/
theorem apply (held : Held s book r) (op : BookOp) :
    Held s (book.apply op) (Reference.apply s r op) := by
  obtain ⟨ticks, hticks⟩ := held.finite
  have valid := held.valid.apply op
  rcases apply_cases held.valid s op with
    ⟨tick, quantity, hquotes, href⟩ | ⟨hside, href⟩ | ⟨hside, href⟩
  · rw [href]
    refine ⟨valid, ?_, insert tick ticks, ?_⟩
    · intro other q hmem
      rw [hquotes] at hmem
      rcases SortedMap.of_mem_edit held.sorted hmem with ⟨heq, -⟩ | ⟨hold, hne⟩
      · obtain ⟨hrank, rfl⟩ := Prod.mk.inj heq
        rw [(s.rank_inj other tick).mp hrank]
        exact Function.update_self ..
      · rw [Function.update_of_ne (fun h => hne (by rw [h]))]
        exact held.within other q hold
    · intro other hother
      by_cases heq : other = tick
      · simp [heq]
      · rw [Function.update_of_ne heq] at hother
        exact Finset.mem_insert_of_mem (hticks other hother)
  · rw [href]
    refine ⟨valid, ?_, ticks, hticks⟩
    rw [hside]
    exact held.within
  · rw [href]
    refine ⟨valid, ?_, ∅, fun _ h => absurd rfl h⟩
    rw [hside]
    exact fun _ _ h => absurd h List.not_mem_nil

/-- Where anything rests, something rests best. -/
theorem exists_best (held : Held s book r) {tick : Int} (resting : r tick ≠ 0) :
    ∃ top, IsBest s r top := by
  obtain ⟨ticks, hticks⟩ := held.finite
  have hmem : tick ∈ ticks.filter (fun t => r t ≠ 0) :=
    Finset.mem_filter.mpr ⟨hticks tick resting, resting⟩
  obtain ⟨top, htop, hmin⟩ := Finset.exists_min_image _ s.rank ⟨tick, hmem⟩
  refine ⟨top, (Finset.mem_filter.mp htop).2, ?_⟩
  intro other hother
  exact hmin other (Finset.mem_filter.mpr ⟨hticks other hother, hother⟩)

/-- The entries of a written map that are better than a tick are fewer than the depth, if the reference
    says so. -/
theorem few_better (held : Held s book r) {tick written quantity : Int} {depth : Nat}
    (nonzero : quantity ≠ 0)
    (near : NearTop s depth (Function.update r written quantity) tick) :
    (SortedMap.below (fun k => decide (k < s.rank tick))
      (SortedMap.put (s.rank written) quantity (quotes s (book.side s)))).length < depth := by
  have hsorted : SortedMap.Sorted (SortedMap.below (fun k => decide (k < s.rank tick))
      (SortedMap.put (s.rank written) quantity (quotes s (book.side s)))) :=
    SortedMap.ascending_filter (SortedMap.ascending_put held.sorted)
  generalize hentries : SortedMap.below _ _ = entries at hsorted ⊢
  -- the ticks of these entries, counted without repetition
  have hnodup : (entries.map fun e => s.rank e.1).Nodup := by
    apply List.pairwise_map.mpr
    apply hsorted.imp
    intro a b hlt heq
    exact absurd ((s.rank_inj _ _).mp heq) hlt.ne
  have hcard := near.2 (entries.map fun e => s.rank e.1).toFinset ?_
  · rwa [List.toFinset_card_of_nodup hnodup, List.length_map] at hcard
  · intro other hother
    obtain ⟨e, he, rfl⟩ := List.mem_map.mp (List.mem_toFinset.mp hother)
    rw [← hentries] at he
    obtain ⟨hput, hlt⟩ := List.mem_filter.mp he
    refine ⟨?_, by simpa using hlt⟩
    rcases (SortedMap.mem_put held.sorted e).mp hput with rfl | ⟨hold, hne⟩
    · simpa using nonzero
    · obtain ⟨level, hlevel, rfl⟩ := List.mem_map.mp hold
      have hother' : level.priceTick ≠ written := fun h => hne (by simp [Level.rank, h])
      have hquantity := held.within level.priceTick level.quantityLot
        (List.mem_map.mpr ⟨level, hlevel, rfl⟩)
      simpa [Level.rank, Function.update_of_ne hother', hquantity] using
        (held.valid s).resting level hlevel

/-- A level is in the book after its update if it is near the top of the reference then. -/
theorem sent (held : Held s book r) {level : Level}
    (near : NearTop s book.depth (Reference.apply s r (.update s level)) level.priceTick) :
    (s.rank level.priceTick, Reference.apply s r (.update s level) level.priceTick) ∈
      quotes s ((book.apply (.update s level)).side s) := by
  have href : Reference.apply s r (.update s level) = Function.update r level.priceTick level.quantityLot :=
    if_pos rfl
  have hquotes : quotes s ((book.apply (.update s level)).side s) = _ := OrderBook.quotes_update held.valid s level
  rw [href] at near ⊢
  have hnonzero := near.1
  rw [Function.update_self] at hnonzero ⊢
  rw [hquotes]
  exact SortedMap.mem_edit held.sorted (Or.inl ⟨rfl, hnonzero⟩) fun nonzero => held.few_better nonzero near

/-- A level that is in the book stays there with an operation after which it is near the top of the
    reference. -/
theorem kept (held : Held s book r) {tick : Int} (shown : (s.rank tick, r tick) ∈ quotes s (book.side s))
    (op : BookOp) (near : NearTop s book.depth (Reference.apply s r op) tick) :
    (s.rank tick, Reference.apply s r op tick) ∈ quotes s ((book.apply op).side s) := by
  rcases apply_cases held.valid s op with
    ⟨written, quantity, hquotes, href⟩ | ⟨hside, href⟩ | ⟨hside, href⟩
  · rw [hquotes]
    rw [href] at near ⊢
    apply SortedMap.mem_edit held.sorted _ fun nonzero => held.few_better nonzero near
    by_cases heq : tick = written
    · subst heq
      have hnonzero := near.1
      rw [Function.update_self] at hnonzero ⊢
      exact Or.inl ⟨rfl, hnonzero⟩
    · rw [Function.update_of_ne heq]
      exact Or.inr ⟨shown, fun h => heq ((s.rank_inj _ _).mp h)⟩
  · rw [hside, href]
    exact shown
  · rw [href] at near
    exact absurd rfl near.1

end Held

/-- Book and reference after every sequence of operations since the book was cleared. -/
theorem held_run_clear (s : Side) (book : OrderBook) (ops : List BookOp) :
    Held s (Runs.run OrderBook.apply book.clear ops) (reference s ops) := by
  induction ops using List.reverseRecOn with
  | nil =>
      refine ⟨OrderBook.valid_clear book, ?_, ∅, fun _ h => absurd rfl h⟩
      intro tick quantity hmem
      rw [Runs.run_nil, OrderBook.side_clear] at hmem
      exact absurd hmem List.not_mem_nil
  | append_singleton ops op ih =>
      rw [reference_concat, Runs.run_append]
      exact ih.apply op

/-- Book and reference after every sequence of operations. -/
theorem held_run (s : Side) (depth : Nat) (depth_pos : 0 < depth) (ops : List BookOp) :
    Held s (Runs.run OrderBook.apply (OrderBook.empty depth depth_pos) ops) (reference s ops) :=
  held_run_clear s (OrderBook.empty depth depth_pos) ops

/-- A level that stays near the top of the reference is in the book. -/
theorem shown_of_staysNearTop {s : Side} {depth : Nat} (depth_pos : 0 < depth) {ops : List BookOp}
    {tick : Int} (stays : StaysNearTop s depth ops tick) :
    (s.rank tick, reference s ops tick) ∈
      quotes s ((Runs.run OrderBook.apply (OrderBook.empty depth depth_pos) ops).side s) := by
  obtain ⟨before, level, after, rfl, rfl, hnear⟩ := stays
  -- from its update on the level is shown by the book
  have shown : ∀ reached, reached <+: after →
      (s.rank level.priceTick, reference s (before ++ .update s level :: reached) level.priceTick) ∈ quotes s
        ((Runs.run OrderBook.apply (OrderBook.empty depth depth_pos)
          (before ++ .update s level :: reached)).side s) := by
    intro reached
    induction reached using List.reverseRecOn with
    | nil =>
        intro hreached
        have hheld := held_run s depth depth_pos before
        have hnow := hnear [] hreached
        have hdepth := OrderBook.depth_run depth depth_pos before
        rw [reference_concat] at hnow ⊢
        rw [Runs.run_append]
        apply hheld.sent
        rw [hdepth]
        exact hnow
    | append_singleton reached op ih =>
        intro hreached
        have hearlier := ih ((List.prefix_append reached [op]).trans hreached)
        have hheld := held_run s depth depth_pos (before ++ .update s level :: reached)
        have hnow := hnear (reached ++ [op]) hreached
        have hdepth := OrderBook.depth_run depth depth_pos (before ++ .update s level :: reached)
        rw [← List.cons_append, ← List.append_assoc, reference_concat] at hnow ⊢
        rw [Runs.run_append]
        apply hheld.kept hearlier op
        rw [hdepth]
        exact hnow
  exact shown after (List.prefix_refl after)

/-!
### Result
-/

/-- Top of book against the unbounded reference: on a side whose best reference level has, ever since it was
    last sent, been among the `depth` best levels of the reference, the book shows exactly that level and its
    quantity; and it shows nothing exactly if the reference holds nothing. -/
theorem top_of_book_matches_reference (depth : Nat) (depth_pos : 0 < depth) (ops : List BookOp)
    (s : Side) (stays : ∀ tick, IsBest s (reference s ops) tick → StaysNearTop s depth ops tick) :
    TopMatches s (Runs.run OrderBook.apply (OrderBook.empty depth depth_pos) ops)
      (reference s ops) := by
  have hheld := held_run s depth depth_pos ops
  have hshown : ∀ tick, IsBest s (reference s ops) tick → _ := fun tick hbest =>
    shown_of_staysNearTop depth_pos (stays tick hbest)
  generalize Runs.run OrderBook.apply (OrderBook.empty depth depth_pos) ops = book at hheld hshown ⊢
  generalize reference s ops = r at hheld hshown ⊢
  have hquote : ∀ tick, IsBest s r tick →
      (book.best s).priceTick = tick ∧ (book.best s).quantityLot = r tick := by
    intro tick hbest
    obtain ⟨level, hlevel, hprice, hquantity⟩ := mem_quotes.mp (hshown tick hbest)
    have hhead : (book.side s).head? = some level := by
      refine (hheld.valid s).ascending.head?_of_min hlevel ?_
      intro other hother
      have hresting := hheld.within other.priceTick other.quantityLot
        (mem_quotes.mpr ⟨other, hother, rfl, rfl⟩)
      rw [Level.rank, Level.rank, hprice]
      exact hbest.2 other.priceTick (hresting ▸ (hheld.valid s).resting other hother)
    rw [OrderBook.best_eq, List.headD_eq_head?_getD, hhead]
    exact ⟨hprice, hquantity⟩
  refine ⟨hquote, ?_, ?_⟩
  · intro hempty tick
    by_contra hresting
    obtain ⟨top, hbest⟩ := hheld.exists_best hresting
    have hzero : (book.best s).quantityLot = 0 := by simpa [Level.isEmpty] using hempty
    exact hbest.1 ((hquote top hbest).2 ▸ hzero)
  · intro hall
    have hnone : book.side s = [] := by
      apply List.eq_nil_iff_forall_not_mem.mpr
      intro level hlevel
      have hresting := hheld.within level.priceTick level.quantityLot
        (mem_quotes.mpr ⟨level, hlevel, rfl, rfl⟩)
      exact (hheld.valid s).resting level hlevel (hresting ▸ hall level.priceTick)
    rw [OrderBook.best_eq, hnone]
    rfl

/-- A level of one lot. -/
def lotAt (tick : Int) : Level := { priceTick := tick, quantityLot := 1, price := "", quantity := "" }

/-- An ask, and a worse one that a book of depth one does not take. -/
def twoAsks : List BookOp := [.update .ask (lotAt 100), .update .ask (lotAt 105)]

/-- The dropped second ask does not disturb the top of a book of depth one. -/
theorem top_of_book_matches_two_asks :
    TopMatches .ask (Runs.run OrderBook.apply (OrderBook.empty 1 Nat.one_pos) twoAsks)
      (reference .ask twoAsks) := by
  apply top_of_book_matches_reference 1 Nat.one_pos twoAsks .ask
  intro tick hbest
  -- only 100 and 105 ever rest, and 100 is the better one
  have hfirst : ∀ other, reference .ask [.update .ask (lotAt 100)] other ≠ 0 → other = 100 := by
    intro other hother
    by_contra hne
    simp [reference, Reference.apply, lotAt, hne] at hother
  have hboth : ∀ other, reference .ask twoAsks other ≠ 0 → 100 ≤ other := by
    intro other hother
    by_contra hlt
    have h100 : other ≠ 100 := by omega
    have h105 : other ≠ 105 := by omega
    simp [twoAsks, reference, Reference.apply, lotAt, h100, h105] at hother
  obtain rfl : tick = 100 :=
    le_antisymm (hbest.2 100 (by decide)) (hboth tick hbest.1)
  refine ⟨[], lotAt 100, [.update .ask (lotAt 105)], rfl, rfl, ?_⟩
  intro reached hreached
  have hnone : ∀ r : Reference, (∀ other, r other ≠ 0 → 100 ≤ other) → r 100 ≠ 0 →
      NearTop .ask 1 r 100 := by
    intro r hleast hresting
    refine ⟨hresting, fun better hbetter => ?_⟩
    have hempty : better = ∅ := by
      apply Finset.eq_empty_of_forall_notMem
      intro other hother
      exact absurd (hleast other (hbetter other hother).1) (not_le.mpr (hbetter other hother).2)
    rw [hempty]
    exact Nat.one_pos
  rcases List.prefix_cons_iff.mp hreached with rfl | ⟨rest, rfl, hrest⟩
  · exact hnone _ (fun other hother => (hfirst other hother).ge) (by decide)
  · rw [List.prefix_nil.mp hrest]
    exact hnone _ hboth (by decide)

/-- Two bids on a side of depth one, then the better one goes. -/
def exposedBid : List BookOp :=
  [.update .bid (lotAt 100), .update .bid (lotAt 99), .remove .bid 100]

/-- The second bid was never taken, so the book is empty while the reference still holds it. -/
theorem top_of_book_forgets :
    ¬ ∀ (depth : Nat) (depth_pos : 0 < depth) (ops : List BookOp), .clear ∉ ops →
      ∀ s, TopMatches s (Runs.run OrderBook.apply (OrderBook.empty depth depth_pos) ops)
        (reference s ops) := by
  intro all
  have hempty := (all 1 Nat.one_pos exposedBid (by decide) .bid).empty.mp (by decide) 99
  exact absurd hempty (by decide)

end ZidaBot
