/-
Module: ZidaBot.Proofs.LevelTexts
Purpose: The two copies of a level.  A level holds a price and a quantity as scaled integers and as the
  venue's texts; trading reads the integers, the checksum and the published checkpoint read the texts.  An
  update of a resting level writes the integer quantity only, so the copies agree exactly as long as no
  such update changes the quantity.
Trusted boundary: none
Main exports: Level.Agrees, AgreeingOp, TextsDescribe, KeepsQuantity, texts_describe_book_iff,
  stale_quantity_text
-/
import ZidaBot.Common.OrderBookUtils
import ZidaBot.Proofs.OrderBook

namespace ZidaBot

open Runs

/-- The texts of a level parse to its integers. -/
def Level.Agrees (level : Level) : Prop :=
  parsePriceToTicks level.price = .ok level.priceTick ∧ parseQtyToLots level.quantity = .ok level.quantityLot

/-- A level that an update passes to the book agrees. -/
def BookOp.Agrees : BookOp → Prop
  | .update _ level => level.Agrees
  | .remove .. => True
  | .clear => True

/-- The operations on a book to which only agreeing levels are passed. -/
def AgreeingOp : Type := { op : BookOp // op.Agrees }

namespace OrderBook

/-- Effect of such an operation. -/
def applyAgreeing (book : OrderBook) (op : AgreeingOp) : OrderBook := book.apply op.val

/-- Every level the book holds agrees. -/
def TextsDescribe (book : OrderBook) : Prop := ∀ s, ∀ level ∈ book.side s, level.Agrees

/-- The operation is no update that gives a resting level another quantity. -/
def KeepsQuantity (book : OrderBook) (op : AgreeingOp) : Prop :=
  match op.val with
  | .update s level =>
      level.isEmpty = true ∨
        ∀ found ∈ book.side s, found.priceTick = level.priceTick → found.quantityLot = level.quantityLot
  | .remove .. => True
  | .clear => True

theorem TextsDescribe.setSide {book : OrderBook} (describe : book.TextsDescribe) {s : Side}
    {vec : List Level} (changed : ∀ level ∈ vec, level.Agrees) : (book.setSide s vec).TextsDescribe := by
  intro s'
  by_cases hs : s' = s
  · rw [hs, side_setSide_self]
    exact changed
  · rw [side_setSide_of_ne hs]
    exact describe s'

theorem TextsDescribe.remove {book : OrderBook} (describe : book.TextsDescribe) (s : Side) (tick : Int) :
    (book.remove s tick).TextsDescribe :=
  describe.setSide fun level hlevel => describe s level (mem_of_mem_removeFrom hlevel)

/-- An operation keeps the two copies together exactly if it keeps the quantities of resting levels. -/
theorem textsDescribe_apply_iff {book : OrderBook} (valid : book.Valid) (describe : book.TextsDescribe)
    (op : AgreeingOp) : (book.applyAgreeing op).TextsDescribe ↔ book.KeepsQuantity op := by
  obtain ⟨op, hagrees⟩ := op
  cases op with
  | update s level =>
      by_cases hempty : level.isEmpty = true
      · refine iff_of_true ?_ (Or.inl hempty)
        have hremove : book.applyAgreeing ⟨.update s level, hagrees⟩ = book.remove s level.priceTick :=
          if_pos hempty
        rw [hremove]
        exact describe.remove s level.priceTick
      · constructor
        · intro hkept
          refine Or.inr fun found hfound htick => ?_
          have hplaced : level.quantityLot ≠ 0 := by simpa [Level.isEmpty] using hempty
          -- the text of the resting level parses to its old quantity and to the new one
          have hold := (describe s found hfound).2
          have hnew := (hkept s _ (valid.mem_update_of_resting hplaced hfound htick)).2
          exact Except.ok.inj (hold.symm.trans hnew)
        · intro hquantity
          have hsame := hquantity.resolve_left hempty
          have hplace : book.applyAgreeing ⟨.update s level, hagrees⟩ =
              book.setSide s (placeIn s book.depth (book.side s) level) := if_neg hempty
          rw [hplace]
          refine describe.setSide fun changed hchanged => ?_
          rcases of_mem_placeIn hchanged with hold | rfl | ⟨found, hfound, htick, rfl⟩
          · exact describe s changed hold
          · exact hagrees
          · rw [← hsame found hfound htick]
            exact describe s found hfound
  | remove s tick => exact iff_of_true (describe.remove s tick) trivial
  | clear =>
      refine iff_of_true (fun s level hlevel => ?_) trivial
      have hcleared : level ∈ book.clear.side s := hlevel
      rw [side_clear] at hcleared
      cases hcleared

/-- If only agreeing levels are passed to a fresh book, all levels it ever holds agree exactly if no update
    of the run gives a resting level another quantity. -/
theorem texts_describe_book_iff (depth : Nat) (depth_pos : 0 < depth) (ops : List AgreeingOp) :
    (∀ reached, reached <+: ops → (run applyAgreeing (empty depth depth_pos) reached).TextsDescribe) ↔
      Along applyAgreeing KeepsQuantity (empty depth depth_pos) ops := by
  have hstart : (empty depth depth_pos).TextsDescribe := by
    intro s level hlevel
    cases s <;> cases hlevel
  have hvalid : ∀ (book : OrderBook) (op : AgreeingOp), book.Valid → book.TextsDescribe →
      (book.applyAgreeing op).Valid := fun book op valid _ => valid.apply op.val
  have hstep : ∀ (book : OrderBook) (op : AgreeingOp), book.Valid → book.TextsDescribe →
      ((book.applyAgreeing op).TextsDescribe ↔ book.KeepsQuantity op) :=
    fun book op valid describe => textsDescribe_apply_iff valid describe op
  exact Along.iff_of_step hvalid hstep (valid_empty depth depth_pos) hstart ops

/-- A resting bid of quantity 1. -/
def oneBid : Level := { priceTick := 100, quantityLot := 1000, price := "1.00", quantity := "1.000" }

/-- The same bid with quantity 2. -/
def twoBid : Level := { oneBid with quantityLot := 2000, quantity := "2.000" }

theorem oneBid_agrees : oneBid.Agrees := ⟨by decide +kernel, by decide +kernel⟩

theorem twoBid_agrees : twoBid.Agrees := ⟨by decide +kernel, by decide +kernel⟩

/-- A bid that comes, is confirmed with the same quantity, goes, and comes back with another. -/
theorem texts_describe_book_four_ops :
    let ops : List AgreeingOp :=
      [⟨.update .bid oneBid, oneBid_agrees⟩, ⟨.update .bid oneBid, oneBid_agrees⟩,
        ⟨.remove .bid 100, trivial⟩, ⟨.update .bid twoBid, twoBid_agrees⟩]
    ∀ reached, reached <+: ops → (run applyAgreeing (empty 5 (by decide)) reached).TextsDescribe := by
  intro ops
  refine (texts_describe_book_iff 5 (by decide) ops).mpr ⟨?_, ?_, trivial, ?_, trivial⟩
  · exact Or.inr (by decide)
  · exact Or.inr (by decide)
  · exact Or.inr (by decide)

/-- An update that doubles the quantity of a resting bid leaves the text of the old one. -/
theorem stale_quantity_text :
    ∃ ops : List AgreeingOp, ¬ (run applyAgreeing (empty 5 (by decide)) ops).TextsDescribe := by
  refine ⟨[⟨.update .bid oneBid, oneBid_agrees⟩, ⟨.update .bid twoBid, twoBid_agrees⟩], ?_⟩
  intro hdescribe
  have hstale := (hdescribe .bid { twoBid with quantity := "1.000" } (by decide)).2
  exact absurd hstale (by decide +kernel)

end OrderBook

end ZidaBot
