/-
Module: ZidaBot.Proofs.ExecEngine
Purpose: The position limit over whole runs.  The guard compares the filled notional plus one estimate with
  the limit; what it leaves out is the notional of the orders in flight and the quantity of the new one.
  Filled plus in-flight notional is what the limit has to bound: it grows by exactly the order a signal
  places, and the posted fills turn all of it into filled notional.
Trusted boundary: none
Main exports: inFlight, dispatched, Places, onSignal_cases, HasRoom, Inv, position_limit_run
-/
import ZidaBot.Exec.ExecEngine
import ZidaBot.Library.Runs
import Mathlib.Algebra.BigOperators.Group.List.Basic
import Mathlib.Algebra.Order.BigOperators.Group.List
import Mathlib.Tactic.Linarith
import Mathlib.Tactic.Positivity

namespace ZidaBot.Exec

open Brain

/-- Notional of the fills that are posted and have not run. -/
def inFlight (s : ExecState) : ℚ := (s.posted.map Fill.notional).sum

/-- Signals as the detector emits them: the bid above the ask, the ask positive. -/
def WellPriced (cross : ArbCross) : Prop :=
  0 < cross.buyAskTick ∧ cross.buyAskTick < cross.sellBidTick

/-- The signals of a run are well priced. -/
def ExecEvent.WellPriced : ExecEvent → Prop
  | .signal _ cross => Exec.WellPriced cross
  | _ => True

/-- All guards of the engine let the signal through. -/
def dispatched (cfg : ExecConfig) (s : ExecState) (cross : ArbCross) : Prop :=
  fatFinger cfg cross = false ∧ positionGuard cfg s cross = false ∧ s.paused = false ∧
    (0 < cfg.cooldownNs → cooldownGuard cfg s cross = false)

/-- The signal is dispatched, and the strategy has a leg at `tick` and a quantity for it. -/
structure Places (cfg : ExecConfig) (s : ExecState) (cross : ArbCross) (tick : Int) : Prop where
  dispatched : dispatched cfg s cross
  running : s.strategyPaused = false
  sized : 0 < cfg.targetQty
  leg : ∃ side, legFor cfg.myVenue cross = some (side, tick)

/-- Where a signal places an order, the limit has room for it beside everything that is filled or in
    flight. -/
def HasRoom (cfg : ExecConfig) (s : ExecState) : ExecEvent → Prop
  | .signal _ cross => ∀ tick, Places cfg s cross tick →
      s.openNotional + inFlight s + cfg.targetQty * ((tick : ℚ) / 100) ≤ cfg.positionLimit
  | _ => True

variable {cfg : ExecConfig} {s : ExecState}

/-!
### What a signal can do

A signal changes the notional through one order or not at all; the guards of the engine and the choices of
the strategy come down to whether it `Places`.
-/

/-- The strategy makes one order of the target quantity at the price of the leg, or none. -/
theorem orderFor_cases (cfg : ExecConfig) (s : ExecState) (cross : ArbCross) :
    (orderFor cfg s cross = none ∧
        ∀ side tick, s.strategyPaused = false → 0 < cfg.targetQty →
          legFor cfg.myVenue cross ≠ some (side, tick)) ∨
      ∃ side tick, s.strategyPaused = false ∧ 0 < cfg.targetQty ∧
        legFor cfg.myVenue cross = some (side, tick) ∧
        orderFor cfg s cross = some {
          venue := cfg.myVenue, side := side, priceTick := tick, quantity := cfg.targetQty
          clientOrderId := cfg.myVenue ++ "-" ++ toString (s.orderSeq + 1) } := by
  rw [orderFor]
  split
  · rename_i hpaused
    exact Or.inl ⟨rfl, fun side tick hrunning => by simp [hpaused] at hrunning⟩
  · rename_i hrunning
    split
    · rename_i hleg
      exact Or.inl ⟨rfl, fun side tick _ _ hsome => by simp [hleg] at hsome⟩
    · rename_i side tick hleg
      by_cases hsized : 0 < cfg.targetQty
      · exact Or.inr ⟨side, tick, by simpa using hrunning, hsized, hleg,
          by simp [hsized, not_le.mpr hsized]⟩
      · exact Or.inl ⟨by simp [hsized], fun _ _ _ h => absurd h hsized⟩

/-- The strategy submits that order, or does nothing. -/
theorem strategySignal_cases (cfg : ExecConfig) (nowNs : Int) (s : ExecState) (cross : ArbCross) :
    (strategySignal cfg nowNs s cross = s ∧
        ∀ side tick, s.strategyPaused = false → 0 < cfg.targetQty →
          legFor cfg.myVenue cross ≠ some (side, tick)) ∨
      ∃ side tick fill, s.strategyPaused = false ∧ 0 < cfg.targetQty ∧
        legFor cfg.myVenue cross = some (side, tick) ∧
        fill.notional = cfg.targetQty * ((tick : ℚ) / 100) ∧
        (strategySignal cfg nowNs s cross).openNotional = s.openNotional ∧
        (strategySignal cfg nowNs s cross).posted = s.posted ++ [fill] := by
  rcases orderFor_cases cfg s cross with ⟨hnone, hplaces⟩ | ⟨side, tick, hrunning, hsized, hleg, horder⟩
  · refine Or.inl ⟨?_, hplaces⟩
    rw [strategySignal, hnone]
  · let fill : Fill :=
      { clientOrderId := cfg.myVenue ++ "-" ++ toString (s.orderSeq + 1)
        filledQty := cfg.targetQty, fillPriceTick := tick, tsNs := nowNs }
    refine Or.inr ⟨side, tick, fill, hrunning, hsized, hleg, rfl, ?_⟩
    rw [strategySignal, horder]
    exact ⟨rfl, rfl⟩

/-- A dispatched signal reaches the strategy, any other changes nothing. -/
theorem onSignal_eq (cfg : ExecConfig) (nowNs : Int) (s : ExecState) (cross : ArbCross) :
    (¬ dispatched cfg s cross ∧ onSignal cfg nowNs s cross = s) ∨
      dispatched cfg s cross ∧ ∃ recorded, onSignal cfg nowNs s cross =
        strategySignal cfg nowNs { s with lastSignalNs := recorded } cross := by
  rw [onSignal]
  split
  · exact Or.inl ⟨fun h => absurd h.1 (by simp [*]), rfl⟩
  · rename_i hfat
    split
    · exact Or.inl ⟨fun h => absurd h.2.1 (by simp [*]), rfl⟩
    · rename_i hposition
      split
      · exact Or.inl ⟨fun h => absurd h.2.2.1 (by simp [*]), rfl⟩
      · rename_i hpaused
        have hopen : fatFinger cfg cross = false ∧ positionGuard cfg s cross = false ∧
            s.paused = false := ⟨by simpa using hfat, by simpa using hposition, by simpa using hpaused⟩
        split
        · rename_i hcooldown
          split
          · exact Or.inl ⟨fun h => absurd (h.2.2.2 hcooldown) (by simp [*]), rfl⟩
          · rename_i hguard
            exact Or.inr ⟨⟨hopen.1, hopen.2.1, hopen.2.2, fun _ => by simpa using hguard⟩, _, rfl⟩
        · rename_i hcooldown
          exact Or.inr ⟨⟨hopen.1, hopen.2.1, hopen.2.2, fun h => absurd h hcooldown⟩,
            s.lastSignalNs, rfl⟩

/-- Notional and posted fills after a signal: unchanged when it places no order, and one more fill of the
    order's notional when it does. -/
theorem onSignal_cases (cfg : ExecConfig) (nowNs : Int) (s : ExecState) (cross : ArbCross) :
    (onSignal cfg nowNs s cross).openNotional = s.openNotional ∧
      (((onSignal cfg nowNs s cross).posted = s.posted ∧ ∀ tick, ¬ Places cfg s cross tick) ∨
        ∃ tick fill, Places cfg s cross tick ∧ fill.notional = cfg.targetQty * ((tick : ℚ) / 100) ∧
          (onSignal cfg nowNs s cross).posted = s.posted ++ [fill]) := by
  rcases onSignal_eq cfg nowNs s cross with ⟨hrefused, hsame⟩ | ⟨hdispatched, recorded, hstrategy⟩
  · rw [hsame]
    exact ⟨rfl, Or.inl ⟨rfl, fun _ places => hrefused places.dispatched⟩⟩
  · rw [hstrategy]
    rcases strategySignal_cases cfg nowNs { s with lastSignalNs := recorded } cross with
      ⟨hsame, hnone⟩ | ⟨side, tick, fill, hrunning, hqty, hleg, hnotional, hopen, hposted⟩
    · rw [hsame]
      refine ⟨rfl, Or.inl ⟨rfl, fun tick places => ?_⟩⟩
      obtain ⟨side, hleg⟩ := places.leg
      exact hnone side tick places.running places.sized hleg
    · exact ⟨hopen, Or.inr ⟨tick, fill, ⟨hdispatched, hrunning, hqty, side, hleg⟩, hnotional, hposted⟩⟩

/-- The leg of a well-priced signal has a positive price. -/
theorem legFor_pos {venue : String} {cross : ArbCross} (priced : WellPriced cross) {side : OrderSide}
    {tick : Int} (leg : legFor venue cross = some (side, tick)) : 0 < tick := by
  rw [legFor] at leg
  split at leg
  · cases leg
    exact lt_trans priced.1 priced.2
  · split at leg
    · cases leg
      exact priced.1
    · cases leg

/-- A venue has one leg in a cross. -/
theorem Places.unique {cross : ArbCross} {tick tick' : Int} (first : Places cfg s cross tick)
    (second : Places cfg s cross tick') : tick = tick' := by
  obtain ⟨side, hleg⟩ := first.leg
  obtain ⟨side', hleg'⟩ := second.leg
  have hsame := Option.some.inj (hleg.symm.trans hleg')
  exact congrArg Prod.snd hsame

/-!
### Running the posted fills

Fills run in any order and other events come between, so the invariant has to speak of their sum.
-/

theorem inFlight_append (s : ExecState) (fill : Fill) :
    inFlight { s with posted := s.posted ++ [fill] } = inFlight s + fill.notional := by
  simp [inFlight]

/-- Running everything that is posted fills what is in flight. -/
theorem openNotional_drained (cfg : ExecConfig) (s : ExecState) :
    (Runs.run (step cfg) s (List.replicate s.posted.length (.fill 0))).openNotional =
      s.openNotional + inFlight s := by
  obtain ⟨paused, openNotional, lastSignalNs, strategyPaused, orderSeq, posted⟩ := s
  induction posted generalizing openNotional with
  | nil => simp [inFlight]
  | cons fill posted ih =>
      rw [List.length_cons, List.replicate_succ, Runs.run_cons]
      refine (ih (openNotional + fill.notional)).trans ?_
      simp [inFlight, add_assoc]

/-!
### The invariant

Filled and in-flight notional together are what the limit is about. A fill moves an amount from one to the
other, and only an order adds to the sum.
-/

/-- Filled and in-flight notional together stay below the limit, and every fill in flight adds to it. -/
structure Inv (cfg : ExecConfig) (s : ExecState) : Prop where
  bound : s.openNotional + inFlight s ≤ cfg.positionLimit
  nonneg : ∀ fill ∈ s.posted, 0 ≤ fill.notional

theorem Inv.inFlight_nonneg (inv : Inv cfg s) : 0 ≤ inFlight s := by
  refine List.sum_nonneg ?_
  intro x hx
  obtain ⟨fill, hfill, rfl⟩ := List.mem_map.mp hx
  exact inv.nonneg fill hfill

theorem Inv.signal (inv : Inv cfg s) {nowNs : Int} {cross : ArbCross} (priced : WellPriced cross)
    (room : HasRoom cfg s (.signal nowNs cross)) : Inv cfg (onSignal cfg nowNs s cross) := by
  obtain ⟨hopen, ⟨hposted, -⟩ | ⟨tick, fill, places, hnotional, hposted⟩⟩ :=
    onSignal_cases cfg nowNs s cross
  · exact ⟨by rw [inFlight, hopen, hposted]; exact inv.bound, by rw [hposted]; exact inv.nonneg⟩
  · constructor
    · have hroom := room tick places
      have hsum := inFlight_append s fill
      rw [inFlight] at hsum ⊢
      rw [hopen, hposted, hsum, hnotional]
      linarith
    · rw [hposted]
      intro other hother
      rcases List.mem_append.mp hother with hold | hnew
      · exact inv.nonneg other hold
      · obtain ⟨side, hleg⟩ := places.leg
        have htick : (0 : ℚ) < tick := by exact_mod_cast legFor_pos priced hleg
        have hqty := places.sized
        rw [List.mem_singleton.mp hnew, hnotional]
        positivity

theorem Inv.fill (inv : Inv cfg s) {i : Nat} {fill : Fill} (posted : s.posted[i]? = some fill) :
    Inv cfg (onFill { s with posted := s.posted.eraseIdx i } fill) := by
  obtain ⟨hi, hget⟩ := List.getElem?_eq_some_iff.mp posted
  have hperm : (fill :: s.posted.eraseIdx i).Perm s.posted := hget ▸ List.getElem_cons_eraseIdx_perm hi
  have hsum : fill.notional + ((s.posted.eraseIdx i).map Fill.notional).sum = inFlight s := by
    rw [inFlight, ← (hperm.map Fill.notional).sum_eq]
    simp
  constructor
  · have hbound := inv.bound
    simp only [onFill, inFlight] at hsum hbound ⊢
    linarith
  · intro other hother
    exact inv.nonneg other (List.mem_of_mem_eraseIdx hother)

/-- One event keeps the invariant. -/
theorem Inv.step (inv : Inv cfg s) {event : ExecEvent} (priced : event.WellPriced)
    (room : HasRoom cfg s event) : Inv cfg (step cfg s event) := by
  cases event with
  | signal nowNs cross => exact inv.signal priced room
  | fill i =>
      rw [Exec.step]
      cases hposted : s.posted[i]? with
      | none => exact inv
      | some fill => exact inv.fill hposted
  | pause => exact ⟨inv.bound, inv.nonneg⟩
  | resume => exact ⟨inv.bound, inv.nonneg⟩

theorem inv_start (limit_pos : 0 < cfg.positionLimit) : Inv cfg {} :=
  ⟨by simpa [inFlight] using limit_pos.le, fun _ h => absurd h List.not_mem_nil⟩

/-- A signal that places an order without room exceeds the limit as soon as the posted fills have run. -/
theorem exceeded_of_no_room {event : ExecEvent} (noRoom : ¬ HasRoom cfg s event) :
    let next := Exec.step cfg s event
    cfg.positionLimit <
      (Runs.run (Exec.step cfg) next (List.replicate next.posted.length (.fill 0))).openNotional := by
  intro next
  rw [openNotional_drained]
  cases event with
  | signal nowNs cross =>
      have hnext : next = onSignal cfg nowNs s cross := rfl
      rw [HasRoom] at noRoom
      push Not at noRoom
      obtain ⟨tick, places, hlt⟩ := noRoom
      obtain ⟨hopen, ⟨-, hnone⟩ | ⟨tick', fill, places', hnotional, hposted⟩⟩ :=
        onSignal_cases cfg nowNs s cross
      · exact absurd places (hnone tick)
      · have hsum := inFlight_append s fill
        rw [inFlight] at hsum ⊢
        rw [hnext, hopen, hposted, hsum, hnotional, ← places.unique places']
        linarith
  | fill i => exact absurd trivial noRoom
  | pause => exact absurd trivial noRoom
  | resume => exact absurd trivial noRoom

/-!
### Result
-/

/-- Along every run in which each placed order has room beside the filled and the in-flight notional, the
    filled notional stays within the position limit; and a step without room exceeds it as soon as the
    posted fills have run. -/
theorem position_limit_run (cfg : ExecConfig) (limit_pos : 0 < cfg.positionLimit)
    (events : List ExecEvent) (priced : ∀ event ∈ events, event.WellPriced) :
    (Runs.Along (step cfg) (HasRoom cfg) {} events →
      (Runs.run (step cfg) {} events).openNotional ≤ cfg.positionLimit) ∧
    ∀ event, ¬ HasRoom cfg (Runs.run (step cfg) {} events) event →
      ∃ n, cfg.positionLimit < (Runs.run (step cfg) {}
        (events ++ event :: List.replicate n (.fill 0))).openNotional := by
  constructor
  · intro room
    have along : Runs.Along (step cfg) (fun _ event => event.WellPriced) {} events :=
      Runs.along_of_forall priced _
    have inv : Inv cfg (Runs.run (step cfg) {} events) :=
      (along.and room).invariant (fun _ _ inv h => inv.step h.1 h.2) (inv_start limit_pos)
    have hbound := inv.bound
    have hnonneg := inv.inFlight_nonneg
    linarith
  · intro event noRoom
    refine ⟨(step cfg (Runs.run (step cfg) {} events) event).posted.length, ?_⟩
    rw [Runs.run_append, Runs.run_cons]
    exact exceeded_of_no_room noRoom

/-- A seller at 500.00 with a limit of 900.00 and one unit per order. -/
def sellerConfig : ExecConfig :=
  { myVenue := "binance", positionLimit := 900, maxOrderNotional := 0, cooldownNs := 0, targetQty := 1 }

/-- Sell at 500.00, buy elsewhere at 499.00. -/
def sellCross : ArbCross :=
  { sellVenue := "binance", buyVenue := "okx", sellBidTick := 50000, buyAskTick := 49900
    spreadBps := 0, netSpreadBps := 0, tsDetectedNs := 0, sellTsBookNs := 0, buyTsBookNs := 0 }

theorem sellCross_wellPriced : WellPriced sellCross := ⟨by decide, by decide⟩

/-- One signal and its fill: there is room for 500.00. -/
theorem position_limit_run_one_order :
    (Runs.run (step sellerConfig) {} [.signal 0 sellCross, .fill 0]).openNotional ≤ 900 := by
  refine (position_limit_run sellerConfig (by norm_num [sellerConfig]) [.signal 0 sellCross, .fill 0]
    ?_).1 ⟨?_, trivial, trivial⟩
  · intro event hevent
    simp only [List.mem_cons, List.not_mem_nil, or_false] at hevent
    rcases hevent with rfl | rfl
    · exact sellCross_wellPriced
    · trivial
  · intro tick places
    obtain ⟨side, hleg⟩ := places.leg
    have htick : tick = 50000 := by
      simpa [legFor, sellCross, sellerConfig, eq_comm] using congrArg (Option.map Prod.snd) hleg
    rw [htick]
    norm_num [inFlight, sellerConfig]

/-- The limit holds on every run of well-priced signals, fills, pauses and resumes. -/
def PositionLimitHolds (cfg : ExecConfig) : Prop :=
  ∀ events : List ExecEvent, (∀ event ∈ events, event.WellPriced) →
    (Runs.run (step cfg) {} events).openNotional ≤ cfg.positionLimit

/-- Two signals before the first fill: both pass the guard, and 1000.00 are filled. -/
theorem position_limit_exceeded : 0 < sellerConfig.positionLimit ∧ ¬ PositionLimitHolds sellerConfig := by
  refine ⟨by norm_num [sellerConfig], ?_⟩
  intro all
  have hrun := all [.signal 0 sellCross, .signal 1 sellCross, .fill 0, .fill 0] (by
    intro event hevent
    simp only [List.mem_cons, List.not_mem_nil, or_false] at hevent
    rcases hevent with rfl | rfl | rfl | rfl
    · exact sellCross_wellPriced
    · exact sellCross_wellPriced
    · trivial
    · trivial)
  exact absurd hrun (by decide +kernel)

end ZidaBot.Exec
