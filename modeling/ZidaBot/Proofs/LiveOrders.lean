/-
Module: ZidaBot.Proofs.LiveOrders
Purpose: The notional of live orders.  Three places hold the bound together: the product check at startup,
  the price guard on the larger leg of a signal, and the quantity and leg the strategy chooses.  Each of
  them is one lemma; the run lemma puts them together for every order that reaches the client.
Trusted boundary: none
Main exports: LiveBounds, parseExecCmdline_live, OrderBounded, orderFor_bounded, live_order_clamp
-/
import ZidaBot.Exec.ExecCmdLine
import ZidaBot.Proofs.ExecEngine
import ZidaBot.Proofs.ExecGuards
import Mathlib.Tactic.Linarith
import Mathlib.Tactic.Positivity

namespace ZidaBot.Exec

open Brain

/-- What an accepted command line guarantees in live mode. -/
structure LiveBounds (opts : ExecOptions) : Prop where
  price_capped : 0 < opts.maxOrderNotional
  product_capped : opts.targetQty * opts.maxOrderNotional ≤ opts.liveOrderNotionalCap

theorem liveGuards_bounds {out opts : ExecOptions} (accepted : out.liveGuards = .ok opts) :
    LiveBounds opts := by
  rw [ExecOptions.liveGuards] at accepted
  split at accepted
  · cases accepted
  · split at accepted
    · cases accepted
    · split at accepted
      · cases accepted
      · rename_i hpositive
        dsimp only at accepted
        split at accepted
        · cases accepted
        · rename_i hproduct
          cases accepted
          exact ⟨not_le.mp hpositive, not_lt.mp hproduct⟩

/-- Startup: live mode is entered through the rollout guards only. -/
theorem parseExecCmdline_live {parsed : Except String VariablesMap} {opts : ExecOptions}
    (accepted : parseExecCmdline parsed = .ok opts) (live : opts.dryRun = false) :
    LiveBounds opts := by
  unfold parseExecCmdline at accepted
  split at accepted
  · cases accepted
  · split at accepted
    · -- the help text leaves the initializers, which say dry-run
      cases accepted
      cases live
    · split at accepted
      · cases accepted
      · split at accepted
        · cases accepted
        · split at accepted
          · cases accepted
          · split at accepted
            · cases accepted
            · dsimp only at accepted
              split at accepted
              · cases accepted
              · split at accepted
                · exact liveGuards_bounds accepted
                · rename_i hdry
                  cases accepted
                  simp [live] at hdry

/-- A positive quantity, and a notional under the cap. -/
def OrderBounded (cap : ℚ) (order : Order) : Prop :=
  0 < order.quantity ∧ order.quantity * order.priceTick / 100 ≤ cap

/-- Neither leg of a cross is dearer than its bid. -/
theorem legFor_le {venue : String} {cross : ArbCross} (crossed : cross.buyAskTick < cross.sellBidTick)
    {side : OrderSide} {tick : Int} (leg : legFor venue cross = some (side, tick)) :
    tick ≤ cross.sellBidTick := by
  rw [legFor] at leg
  split at leg
  · cases leg
    exact le_refl _
  · split at leg
    · cases leg
      exact crossed.le
    · cases leg

/-- The price guard bounds the larger leg. -/
theorem price_le_of_guarded {cfg : ExecConfig} {cross : ArbCross} (enabled : 0 < cfg.maxOrderNotional)
    (guarded : fatFinger cfg cross = false) : (cross.sellBidTick : ℚ) / 100 ≤ cfg.maxOrderNotional := by
  simpa [fatFinger, enabled] using guarded

/-- The order of a guarded signal: the target quantity at a price under the guard. -/
theorem orderFor_bounded {opts : ExecOptions} (bounds : LiveBounds opts) {s : ExecState}
    {cross : ArbCross} (crossed : cross.buyAskTick < cross.sellBidTick)
    (guarded : fatFinger opts.execConfig cross = false) {order : Order}
    (placed : orderFor opts.execConfig s cross = some order) :
    OrderBounded opts.liveOrderNotionalCap order := by
  rcases orderFor_cases opts.execConfig s cross with ⟨hnone, -⟩ | ⟨side, tick, -, hsized, hleg, horder⟩
  · rw [hnone] at placed
    cases placed
  · rw [horder] at placed
    cases placed
    have htick : (tick : ℚ) ≤ cross.sellBidTick := by exact_mod_cast legFor_le crossed hleg
    have hprice : (tick : ℚ) / 100 ≤ opts.maxOrderNotional :=
      calc (tick : ℚ) / 100 ≤ (cross.sellBidTick : ℚ) / 100 := by linarith
        _ ≤ opts.maxOrderNotional := price_le_of_guarded bounds.price_capped guarded
    refine ⟨hsized, ?_⟩
    calc opts.targetQty * tick / 100 = opts.targetQty * (tick / 100) := mul_div_assoc ..
      _ ≤ opts.targetQty * opts.maxOrderNotional := mul_le_mul_of_nonneg_left hprice hsized.le
      _ ≤ opts.liveOrderNotionalCap := bounds.product_capped

section Runs

variable {κ τ : Type}

/-- Over the stub client the strategy is the one of the position-limit runs. -/
theorem onSignal_stub (cfg : ExecConfig) (nowNs : Int) (tracker : OrderTracker τ)
    (st : ImmediateStrategy (List Fill) τ) (cross : ArbCross) :
    strategySignal cfg nowNs { st.own with posted := st.client } cross =
      { (st.onSignal cfg (stubOrderClient nowNs) tracker cross).own with
        posted := (st.onSignal cfg (stubOrderClient nowNs) tracker cross).client } := by
  have horder : orderFor cfg { st.own with posted := st.client } cross = orderFor cfg st.own cross := rfl
  rw [strategySignal, ImmediateStrategy.onSignal, horder]
  cases orderFor cfg st.own cross with
  | none => rfl
  | some order => rfl

/-- The orders the client has been given, oldest first. -/
def submitted (e : ExecEngine (ImmediateStrategy (κ × List Order) τ)) : List Order :=
  e.strategy.client.2

/-- The engine and the strategy as `main` builds them. -/
def assembled (client : κ) (tracker : τ) : ExecEngine (ImmediateStrategy (κ × List Order) τ) :=
  { strategy := { client := (client, []), tracker := tracker } }

/-- Everything submitted so far is bounded. -/
def SubmittedBounded (cap : ℚ) (e : ExecEngine (ImmediateStrategy (κ × List Order) τ)) : Prop :=
  ∀ order ∈ submitted e, OrderBounded cap order

variable {opts : ExecOptions} {client : IOrderClient κ} {tracker : OrderTracker τ}
variable {e : ExecEngine (ImmediateStrategy (κ × List Order) τ)}

/-- One call submits bounded orders only. -/
theorem submitted_bounded_call (bounds : LiveBounds opts) {call : EngineCall}
    (crossed : ∀ cross ∈ signals [call], cross.buyAskTick < cross.sellBidTick)
    (bounded : SubmittedBounded opts.liveOrderNotionalCap e) :
    SubmittedBounded opts.liveOrderNotionalCap (e.call opts.execConfig
      (ImmediateStrategy.strategy opts.execConfig client.recorded tracker) call) := by
  cases call with
  | onFill fill => exact bounded
  | pause => exact bounded
  | resume => exact bounded
  | onSignal cross =>
      rw [ExecEngine.call]
      cases hguarded : fatFinger opts.execConfig cross with
      | true =>
          rw [ExecEngine.onSignal, if_pos hguarded]
          exact bounded
      | false =>
          rcases ExecEngine.onSignal_cases opts.execConfig
            (ImmediateStrategy.strategy opts.execConfig client.recorded tracker) e cross with
            hdropped | ⟨-, -, hpassed⟩
          · rw [hdropped]
            exact bounded
          · rw [hpassed]
            simp only [SubmittedBounded, submitted, ImmediateStrategy.strategy,
              ImmediateStrategy.onSignal]
            cases hplaced : orderFor opts.execConfig e.strategy.own cross with
            | none => exact bounded
            | some order =>
                intro order' horder'
                rcases List.mem_append.mp horder' with hold | hnew
                · exact bounded order' hold
                · rw [List.mem_singleton.mp hnew]
                  exact orderFor_bounded bounds (crossed cross (by simp [signals])) hguarded hplaced

/-- Live orders stay under the cap.  For every accepted command line in live mode, every order client and
    tracker, and every sequence of signals, fills, pauses and resumes whose signals are crosses, each order
    that reaches the client has a positive quantity and a notional of at most the cap. -/
theorem live_order_clamp (parsed : Except String VariablesMap) (opts : ExecOptions)
    (accepted : parseExecCmdline parsed = .ok opts) (live : opts.dryRun = false)
    (client : IOrderClient κ) (tracker : OrderTracker τ) (clientStart : κ) (trackerStart : τ)
    (calls : List EngineCall)
    (crossed : ∀ cross ∈ signals calls, cross.buyAskTick < cross.sellBidTick) :
    ∀ order ∈ submitted (Runs.run
        (ExecEngine.call opts.execConfig
          (ImmediateStrategy.strategy opts.execConfig client.recorded tracker))
        (assembled clientStart trackerStart) calls),
      0 < order.quantity ∧ order.quantity * order.priceTick / 100 ≤ opts.liveOrderNotionalCap := by
  have bounds := parseExecCmdline_live accepted live
  have hcalls : ∀ call ∈ calls, ∀ cross ∈ signals [call], cross.buyAskTick < cross.sellBidTick := by
    intro call hcall cross hcross
    apply crossed
    obtain ⟨call', hcall', hsome⟩ := List.mem_filterMap.mp hcross
    rw [List.mem_singleton.mp hcall'] at hsome
    exact List.mem_filterMap.mpr ⟨call, hcall, hsome⟩
  have hstart : SubmittedBounded opts.liveOrderNotionalCap (assembled clientStart trackerStart) :=
    fun order horder => absurd horder List.not_mem_nil
  exact (Runs.along_of_forall hcalls _).invariant
    (fun _ _ bounded hcall => submitted_bounded_call bounds hcall bounded) hstart

end Runs

/-- A live process for one venue: a hundredth of the base asset per order, prices up to 1000, and the
    default cap of 25. -/
def liveBinance : VariablesMap :=
  { venue := some "binance", brainPort := 9001, maxOrderNotional := 1000, liveMode := true, armLive := true
    enableLiveVenue := "binance" }

/-- Client and tracker that only count. -/
def countingClient : IOrderClient Nat := ⟨fun count _ => count + 1⟩

def countingTracker : OrderTracker Nat := ⟨fun count _ => count + 1⟩

/-- The leg of the venue in a cross at 500, after one above the price guard. -/
theorem live_order_clamp_binance :
    let opts := liveBinance.options "binance"
    let orders := submitted (Runs.run
      (ExecEngine.call opts.execConfig
        (ImmediateStrategy.strategy opts.execConfig countingClient.recorded countingTracker))
      (assembled 0 0)
      [.onSignal { crossAt 5 with sellBidTick := 150000 }, .onSignal (crossAt 9)])
    parseExecCmdline (.ok liveBinance) = .ok opts ∧ opts.dryRun = false ∧
      orders.map Order.priceTick = [50000] ∧
      ∀ order ∈ orders, 0 < order.quantity ∧ order.quantity * order.priceTick / 100 ≤ 25 := by
  intro opts orders
  have haccepted : parseExecCmdline (.ok liveBinance) = .ok opts := by decide +kernel
  refine ⟨haccepted, rfl, by decide +kernel, ?_⟩
  exact live_order_clamp (.ok liveBinance) opts haccepted rfl countingClient countingTracker 0 0
    [.onSignal { crossAt 5 with sellBidTick := 150000 }, .onSignal (crossAt 9)] (by decide)

end ZidaBot.Exec
