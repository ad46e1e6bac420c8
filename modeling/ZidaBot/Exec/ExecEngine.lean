/-
Module: ZidaBot.Exec.ExecEngine
Purpose: The execution side of a venue: the guards of `exec/src/exec/ExecEngine.cpp`, the strategy of
  `exec/src/exec/Strategies.cpp` and the two order clients that need no exchange, which post a full fill
  at the order's price.  Everything runs on the exec strand; a posted fill callback is an entry of
  `posted` until it runs.  Doubles are rationals.
Trusted boundary: human-reviewed model
Main exports: Order, Fill, ExecConfig, ExecState, fatFinger, positionGuard, cooldownGuard,
  orderFor, submitOrder, onSignal, onFill, ExecEvent, step, IExecStrategy, ExecEngine, EngineCall
-/
import ZidaBot.Brain.ArbDetector

namespace ZidaBot.Exec

open Brain

/-- Side of an order. -/
inductive OrderSide where
  | buy
  | sell
deriving DecidableEq, Repr

/-- An order as submitted. -/
structure Order where
  venue : String
  side : OrderSide
  priceTick : Int
  quantity : ℚ
  clientOrderId : String
deriving DecidableEq

/-- A fill confirmation. -/
structure Fill where
  clientOrderId : String
  filledQty : ℚ
  fillPriceTick : Int
  tsNs : Int
deriving DecidableEq

/-- Constructor arguments of the engine and of its strategy. -/
structure ExecConfig where
  myVenue : String
  positionLimit : ℚ
  maxOrderNotional : ℚ
  cooldownNs : Int
  targetQty : ℚ

/-- Engine, strategy and strand: the two kill switches, the notional filled so far, the last dispatched
    signal per pair, the order counter, and the fill callbacks that were posted and have not run. -/
structure ExecState where
  paused : Bool := false
  openNotional : ℚ := 0
  lastSignalNs : List (String × Int) := []
  strategyPaused : Bool := false
  orderSeq : Nat := 0
  posted : List Fill := []
deriving DecidableEq

/-- E4: the price of the signal exceeds the cap. -/
def fatFinger (cfg : ExecConfig) (cross : ArbCross) : Bool :=
  decide (0 < cfg.maxOrderNotional) && decide (cfg.maxOrderNotional < (cross.sellBidTick : ℚ) / 100)

/-- E1: the estimate does not fit under the limit any more. -/
def positionGuard (cfg : ExecConfig) (s : ExecState) (cross : ArbCross) : Bool :=
  decide (0 < cfg.positionLimit) &&
    decide (cfg.positionLimit < s.openNotional + (cross.sellBidTick : ℚ) / 100)

/-- Key of the dedup map. -/
def pairKey (cross : ArbCross) : String := cross.sellVenue ++ ":" ++ cross.buyVenue

/-- E3: the pair was dispatched too recently. -/
def cooldownGuard (cfg : ExecConfig) (s : ExecState) (cross : ArbCross) : Bool :=
  match s.lastSignalNs.lookup (pairKey cross) with
  | some last => decide (wrap64 (cross.tsDetectedNs - last) < cfg.cooldownNs)
  | none => false

/-- The leg of a cross that a venue handles. -/
def legFor (venue : String) (cross : ArbCross) : Option (OrderSide × Int) :=
  if cross.sellVenue = venue then some (.sell, cross.sellBidTick)
  else if cross.buyVenue = venue then some (.buy, cross.buyAskTick)
  else none

/-- `ImmediateStrategy::on_signal` up to the order it submits: the leg of this venue, sized by the target
    quantity.  Without a target the level quantity would be used, which is still fixed to zero. -/
def orderFor (cfg : ExecConfig) (s : ExecState) (cross : ArbCross) : Option Order :=
  if s.strategyPaused then none
  else
    match legFor cfg.myVenue cross with
    | none => none
    | some (side, priceTick) =>
        let qty := if 0 < cfg.targetQty then cfg.targetQty else 0
        if qty ≤ 0 then none
        else
          some {
            venue := cfg.myVenue, side := side, priceTick := priceTick, quantity := qty
            clientOrderId := cfg.myVenue ++ "-" ++ toString (s.orderSeq + 1) }

/-- `submit_order` of `StubOrderClient` and `DryRunOrderClient`: a full fill at the requested price is
    posted. -/
def submitOrder (nowNs : Int) (s : ExecState) (order : Order) : ExecState :=
  { s with
    posted := s.posted ++ [{
      clientOrderId := order.clientOrderId, filledQty := order.quantity
      fillPriceTick := order.priceTick, tsNs := nowNs }] }

/-- `strategy_->on_signal`. -/
def strategySignal (cfg : ExecConfig) (nowNs : Int) (s : ExecState) (cross : ArbCross) : ExecState :=
  match orderFor cfg s cross with
  | none => s
  | some order => submitOrder nowNs { s with orderSeq := s.orderSeq + 1 } order

/-- `ExecEngine::on_signal`: the guards in order, then the strategy. -/
def onSignal (cfg : ExecConfig) (nowNs : Int) (s : ExecState) (cross : ArbCross) : ExecState :=
  if fatFinger cfg cross then s
  else if positionGuard cfg s cross then s
  else if s.paused then s
  else if 0 < cfg.cooldownNs then
    if cooldownGuard cfg s cross then s
    else
      strategySignal cfg nowNs
        { s with lastSignalNs := (pairKey cross, cross.tsDetectedNs) :: s.lastSignalNs } cross
  else strategySignal cfg nowNs s cross

/-- Notional of a fill. -/
def Fill.notional (fill : Fill) : ℚ := fill.filledQty * ((fill.fillPriceTick : ℚ) / 100)

/-- `ExecEngine::on_fill`. -/
def onFill (s : ExecState) (fill : Fill) : ExecState :=
  { s with openNotional := s.openNotional + fill.notional }

/-- What happens on the strand.  `fill i` runs the posted callback at position `i`. -/
inductive ExecEvent where
  | signal (nowNs : Int) (cross : ArbCross)
  | fill (i : Nat)
  | pause
  | resume
deriving DecidableEq

/-- One event. -/
def step (cfg : ExecConfig) (s : ExecState) : ExecEvent → ExecState
  | .signal nowNs cross => onSignal cfg nowNs s cross
  | .fill i =>
      match s.posted[i]? with
      | none => s
      | some fill => onFill { s with posted := s.posted.eraseIdx i } fill
  | .pause => { s with paused := true, strategyPaused := true }
  | .resume => { s with paused := false, strategyPaused := false }

/-!
### The engine over any strategy
-/

/-- What the engine calls of its pluggable strategy; `σ` is the strategy with everything behind it. -/
structure IExecStrategy (σ : Type) where
  onSignal : σ → ArbCross → σ
  pause : σ → σ
  resume : σ → σ

/-- The engine's own members beside a strategy. -/
structure ExecEngine (σ : Type) where
  paused : Bool := false
  openNotional : ℚ := 0
  lastSignalNs : List (String × Int) := []
  strategy : σ

namespace ExecEngine

variable {σ : Type}

/-- The members the guards read. -/
def guarded (e : ExecEngine σ) : ExecState :=
  { paused := e.paused, openNotional := e.openNotional, lastSignalNs := e.lastSignalNs }

/-- `ExecEngine::on_signal`, with `strategy_->on_signal` a virtual call. -/
def onSignal (cfg : ExecConfig) (strategy : IExecStrategy σ) (e : ExecEngine σ) (cross : ArbCross) :
    ExecEngine σ :=
  if fatFinger cfg cross then e
  else if positionGuard cfg e.guarded cross then e
  else if e.paused then e
  else if 0 < cfg.cooldownNs then
    if cooldownGuard cfg e.guarded cross then e
    else
      { e with
        lastSignalNs := (pairKey cross, cross.tsDetectedNs) :: e.lastSignalNs
        strategy := strategy.onSignal e.strategy cross }
  else { e with strategy := strategy.onSignal e.strategy cross }

/-- `ExecEngine::on_fill`. -/
def onFill (e : ExecEngine σ) (fill : Fill) : ExecEngine σ :=
  { e with openNotional := e.openNotional + fill.notional }

/-- `ExecEngine::pause`. -/
def pause (strategy : IExecStrategy σ) (e : ExecEngine σ) : ExecEngine σ :=
  { e with paused := true, strategy := strategy.pause e.strategy }

/-- `ExecEngine::resume`. -/
def resume (strategy : IExecStrategy σ) (e : ExecEngine σ) : ExecEngine σ :=
  { e with paused := false, strategy := strategy.resume e.strategy }

end ExecEngine

/-- The public calls of the engine; `on_fill` may come with any fill. -/
inductive EngineCall where
  | onSignal (cross : ArbCross)
  | onFill (fill : Fill)
  | pause
  | resume
deriving DecidableEq

/-- Effect of one call. -/
def ExecEngine.call {σ : Type} (cfg : ExecConfig) (strategy : IExecStrategy σ) (e : ExecEngine σ) :
    EngineCall → ExecEngine σ
  | .onSignal cross => e.onSignal cfg strategy cross
  | .onFill fill => e.onFill fill
  | .pause => e.pause strategy
  | .resume => e.resume strategy

/-- A strategy that also keeps the signals it is handed, as the mock of the engine's tests does. -/
def IExecStrategy.recorded {σ : Type} (strategy : IExecStrategy σ) :
    IExecStrategy (σ × List ArbCross) where
  onSignal state cross := (strategy.onSignal state.1 cross, state.2 ++ [cross])
  pause state := (strategy.pause state.1, state.2)
  resume state := (strategy.resume state.1, state.2)

/-- `ImmediateStrategy` behind the interface; of the state only its own members matter. -/
def immediateStrategy (cfg : ExecConfig) (nowNs : Int) : IExecStrategy ExecState where
  onSignal := strategySignal cfg nowNs
  pause s := { s with strategyPaused := true }
  resume s := { s with strategyPaused := false }

/-- The engine with an immediate strategy as one state. -/
def ExecEngine.joined (e : ExecEngine ExecState) : ExecState :=
  { e.strategy with
    paused := e.paused, openNotional := e.openNotional, lastSignalNs := e.lastSignalNs }

end ZidaBot.Exec
