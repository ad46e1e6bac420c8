/-
Module: ZidaBot.Common.OrderBook
Purpose: The depth-bounded two-sided order book of `common/include/orderbook/OrderBook.hpp`.  Each side is
  a vector kept sorted from the best price outwards and searched with `std::lower_bound`; the two template
  instantiations of every operation differ only in the comparison, so one definition takes the side as an
  argument.  Ticks and lots are 64-bit integers that the book only compares and copies, hence `Int`.
Trusted boundary: human-reviewed model
Main exports: Level, Side, OrderBook, OrderBook.update, OrderBook.remove, OrderBook.validate,
  OrderBook.clear, OrderBook.bestBid, OrderBook.bestAsk, OrderBook.levelPtr, BookOp
-/
import ZidaBot.Library.SortedSeq
import Mathlib.Order.Lattice
import Mathlib.Algebra.Group.Nat.Defs
import Mathlib.Algebra.Order.Group.Int

namespace ZidaBot

/-- One price level: scaled integers beside the venue's own decimal texts. -/
structure Level where
  priceTick : Int
  quantityLot : Int
  price : String
  quantity : String
deriving DecidableEq, Repr, Inhabited

/-- A level without quantity is a removal signal. -/
def Level.isEmpty (level : Level) : Bool := level.quantityLot == 0

/-- Side of the book. -/
inductive Side where
  | bid
  | ask
deriving DecidableEq, Repr, Inhabited

/-- The comparison handed to `lower_bound`: a resting tick stands before a wanted tick when its price is
    better, higher for bids and lower for asks. -/
def Side.before : Side → Int → Int → Bool
  | .bid, obTick, tick => decide (obTick > tick)
  | .ask, obTick, tick => decide (obTick < tick)

/-- Bids are sorted descending and asks ascending by tick.  The constructor throws on depth zero, so a
    book of depth zero cannot be built. -/
structure OrderBook where
  depth : Nat
  bids : List Level
  asks : List Level
  depth_pos : 0 < depth
deriving DecidableEq

namespace OrderBook

/-- A fresh book. -/
def empty (depth : Nat) (depth_pos : 0 < depth) : OrderBook :=
  { depth := depth, bids := [], asks := [], depth_pos := depth_pos }

/-- The vector an operation on a side works on. -/
def side (book : OrderBook) : Side → List Level
  | .bid => book.bids
  | .ask => book.asks

/-- Write back the vector of one side. -/
def setSide (book : OrderBook) (s : Side) (vec : List Level) : OrderBook :=
  match s with
  | .bid => { book with bids := vec }
  | .ask => { book with asks := vec }

/-- `std::lower_bound` with the side's comparison. -/
def lowerBound (s : Side) (vec : List Level) (tick : Int) : Nat :=
  SortedSeq.lowerBound (fun obLevel => s.before obLevel.priceTick tick) vec

/-- Erase the level at `tick`, if the search lands on it. -/
def removeFrom (s : Side) (vec : List Level) (tick : Int) : List Level :=
  let it := lowerBound s vec tick
  match vec[it]? with
  | some found => if found.priceTick = tick then vec.eraseIdx it else vec
  | none => vec

/-- `remove<S>`. -/
def remove (s : Side) (book : OrderBook) (tick : Int) : OrderBook :=
  book.setSide s (removeFrom s (book.side s) tick)

/-- Place a non-empty level into a sorted vector of at most `depth` levels. -/
def placeIn (s : Side) (depth : Nat) (vec : List Level) (level : Level) : List Level :=
  let it := lowerBound s vec level.priceTick
  match vec[it]? with
  | some found =>
      if found.priceTick = level.priceTick then
        -- Option A: only the quantity of a level that is already there moves, its texts stay
        vec.set it { found with quantityLot := level.quantityLot }
      else if vec.length < depth then
        vec.insertIdx it level
      else
        -- Option C: a full side takes an improving level and drops its worst one
        (vec.insertIdx it level).dropLast
  | none =>
      -- Option B at the end, or a full side that the level does not improve
      if vec.length < depth then vec.insertIdx it level else vec

/-- `update<S>`: an empty level removes, any other is placed. -/
def update (s : Side) (book : OrderBook) (level : Level) : OrderBook :=
  if level.isEmpty then book.remove s level.priceTick
  else book.setSide s (placeIn s book.depth (book.side s) level)

/-- Clear both sides; the depth stays. -/
def clear (book : OrderBook) : OrderBook :=
  { book with bids := [], asks := [] }

/-- The loop over neighbours of one side: `false` at the first pair out of order. -/
def neighboursOrdered (s : Side) : List Level → Bool
  | previous :: current :: rest =>
      s.before previous.priceTick current.priceTick && neighboursOrdered s (current :: rest)
  | _ => true

/-- Sortedness, uniqueness of ticks, depth and absence of empty levels. -/
def validate (book : OrderBook) : Bool :=
  decide (book.bids.length ≤ book.depth) && decide (book.asks.length ≤ book.depth) &&
    neighboursOrdered .bid book.bids && neighboursOrdered .ask book.asks &&
    book.bids.all (fun l => !l.isEmpty) && book.asks.all (fun l => !l.isEmpty)

/-- The static empty level returned for an empty side. -/
def emptyLevel : Level := { priceTick := 0, quantityLot := 0, price := "", quantity := "" }

/-- Top of the bids. -/
def bestBid (book : OrderBook) : Level := book.bids.headD emptyLevel

/-- Top of the asks. -/
def bestAsk (book : OrderBook) : Level := book.asks.headD emptyLevel

/-- `bid_ptr` and `ask_ptr`: null past the end of the side and on an empty level. -/
def levelPtr (s : Side) (book : OrderBook) (i : Nat) : Option Level :=
  match (book.side s)[i]? with
  | none => none
  | some level => if level.isEmpty then none else some level

end OrderBook

/-- The mutating operations of the class. -/
inductive BookOp where
  | update (s : Side) (level : Level)
  | remove (s : Side) (tick : Int)
  | clear
deriving DecidableEq, Repr

/-- Effect of one operation. -/
def OrderBook.apply (book : OrderBook) : BookOp → OrderBook
  | .update s level => book.update s level
  | .remove s tick => book.remove s tick
  | .clear => book.clear

namespace OrderBook

@[simp] theorem side_setSide_self (book : OrderBook) (s : Side) (vec : List Level) :
    (book.setSide s vec).side s = vec := by
  cases s <;> rfl

theorem side_setSide_of_ne {s s' : Side} (different : s' ≠ s) (book : OrderBook) (vec : List Level) :
    (book.setSide s vec).side s' = book.side s' := by
  cases s <;> cases s' <;> simp_all [setSide, side]

@[simp] theorem depth_setSide (book : OrderBook) (s : Side) (vec : List Level) :
    (book.setSide s vec).depth = book.depth := by
  cases s <;> rfl

@[simp] theorem side_clear (book : OrderBook) (s : Side) : book.clear.side s = [] := by
  cases s <;> rfl

@[simp] theorem depth_clear (book : OrderBook) : book.clear.depth = book.depth := rfl

@[simp] theorem depth_update (s : Side) (book : OrderBook) (level : Level) :
    (book.update s level).depth = book.depth := by
  simp only [update, remove]
  split <;> simp

/-- Books with equal depth and equal sides are equal. -/
theorem ext_side {first second : OrderBook} (depthEq : first.depth = second.depth)
    (sideEq : ∀ s, first.side s = second.side s) : first = second := by
  have bidsEq := sideEq .bid
  have asksEq := sideEq .ask
  cases first
  cases second
  simp_all [side]

end OrderBook

end ZidaBot
