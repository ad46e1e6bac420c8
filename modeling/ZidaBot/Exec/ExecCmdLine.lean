/-
Module: ZidaBot.Exec.ExecCmdLine
Purpose: From the command line of an exec process to the components it runs: the checks of
  `parse_exec_cmdline` (`exec/include/exec/ExecCmdLine.hpp`) and the assembly in `exec/app/exec.cpp`.  The
  option parser itself is a library; it hands over the values, or the text of its error.  Options that
  only name files, hosts or log levels are left out.  The strategy of `exec/src/exec/Strategies.cpp` is
  given here behind any order client and any order tracker.
Trusted boundary: human-reviewed model
Main exports: VariablesMap, ExecOptions, ExecCmdLineError, parseExecCmdline, ExecOptions.execConfig,
  IOrderClient, OrderTracker, ImmediateStrategy, ImmediateStrategy.strategy, stubOrderClient
-/
import ZidaBot.Exec.ExecEngine

namespace ZidaBot.Exec

open Brain

/-- The option values after `po::notify`, defaults filled in; `venue` has no default. -/
structure VariablesMap where
  help : Bool := false
  venue : Option String := none
  brainPort : UInt16 := 0
  targetQty : ℚ := 1 / 100
  positionLimit : ℚ := 0
  maxOrderNotional : ℚ := 0
  cooldownMs : Int := 0
  dryRun : Bool := false
  liveMode : Bool := false
  armLive : Bool := false
  enableLiveVenue : String := ""
  liveOrderNotionalCap : ℚ := 25
deriving DecidableEq

/-- `ExecOptions`, with its member initializers. -/
structure ExecOptions where
  venue : String := ""
  brainPort : UInt16 := 0
  targetQty : ℚ := 1 / 100
  positionLimit : ℚ := 0
  maxOrderNotional : ℚ := 0
  cooldownMs : Int := 0
  dryRun : Bool := true
  armLive : Bool := false
  enableLiveVenue : String := ""
  liveOrderNotionalCap : ℚ := 25
  showHelp : Bool := false
deriving DecidableEq

/-- Why a command line is refused, in the order of the checks. -/
inductive ExecCmdLineError where
  | cli (what : String)
  | venueRequired
  | brainPortRequired
  | bothModes
  | capNotPositive
  | notArmed
  | venueNotEnabled
  | notionalUnbounded
  | orderClamp (estimatedOrderNotional cap : ℚ)
deriving DecidableEq

/-- The options copied from the map.  Without `--live-mode` the process stays in dry-run. -/
def VariablesMap.options (vm : VariablesMap) (venue : String) : ExecOptions :=
  { venue := venue, brainPort := vm.brainPort, targetQty := vm.targetQty
    positionLimit := vm.positionLimit, maxOrderNotional := vm.maxOrderNotional
    cooldownMs := vm.cooldownMs, dryRun := !vm.liveMode, armLive := vm.armLive
    enableLiveVenue := vm.enableLiveVenue, liveOrderNotionalCap := vm.liveOrderNotionalCap }

/-- The rollout guards of live mode. -/
def ExecOptions.liveGuards (out : ExecOptions) : Except ExecCmdLineError ExecOptions :=
  if !out.armLive then .error .notArmed
  else if out.enableLiveVenue ≠ out.venue then .error .venueNotEnabled
  else if out.maxOrderNotional ≤ 0 then .error .notionalUnbounded
  else
    let estimatedOrderNotional := out.targetQty * out.maxOrderNotional
    if out.liveOrderNotionalCap < estimatedOrderNotional then
      .error (.orderClamp estimatedOrderNotional out.liveOrderNotionalCap)
    else .ok out

/-- `parse_exec_cmdline`, on what the option parser has made of `argv`. -/
def parseExecCmdline (parsed : Except String VariablesMap) : Except ExecCmdLineError ExecOptions :=
  match parsed with
  | .error what => .error (.cli what)
  | .ok vm =>
      if vm.help then .ok { showHelp := true }
      else
        match vm.venue with
        | none => .error .venueRequired
        | some venue =>
            if venue = "" then .error .venueRequired
            else if vm.brainPort = 0 then .error .brainPortRequired
            else if vm.dryRun && vm.liveMode then .error .bothModes
            else
              let out := vm.options venue
              if out.liveOrderNotionalCap ≤ 0 then .error .capNotPositive
              else if !out.dryRun then out.liveGuards
              else .ok out

/-- What `main` passes to the constructors of engine and strategy. -/
def ExecOptions.execConfig (opts : ExecOptions) : ExecConfig :=
  { myVenue := opts.venue, positionLimit := opts.positionLimit
    maxOrderNotional := opts.maxOrderNotional
    cooldownNs := wrap64 (opts.cooldownMs * 1000000), targetQty := opts.targetQty }

/-!
### The strategy over any client and tracker
-/

/-- What the strategy calls of its order client; `κ` is the client with everything behind it. -/
structure IOrderClient (κ : Type) where
  submitOrder : κ → Order → κ

/-- What the strategy calls of its order tracker on a signal. -/
structure OrderTracker (τ : Type) where
  registerPending : τ → Order → τ

/-- The members of `ImmediateStrategy` that signals and the kill switch change, with the client and the
    tracker it refers to. -/
structure ImmediateStrategy (κ τ : Type) where
  paused : Bool := false
  orderSeq : Nat := 0
  client : κ
  tracker : τ

namespace ImmediateStrategy

variable {κ τ : Type}

/-- The members that decide about an order. -/
def own (st : ImmediateStrategy κ τ) : ExecState :=
  { strategyPaused := st.paused, orderSeq := st.orderSeq }

/-- `ImmediateStrategy::on_signal`: the order is registered with the tracker, then submitted. -/
def onSignal (cfg : ExecConfig) (client : IOrderClient κ) (tracker : OrderTracker τ)
    (st : ImmediateStrategy κ τ) (cross : ArbCross) : ImmediateStrategy κ τ :=
  match orderFor cfg st.own cross with
  | none => st
  | some order =>
      { st with
        orderSeq := st.orderSeq + 1
        tracker := tracker.registerPending st.tracker order
        client := client.submitOrder st.client order }

/-- The strategy behind its interface. -/
def strategy (cfg : ExecConfig) (client : IOrderClient κ) (tracker : OrderTracker τ) :
    IExecStrategy (ImmediateStrategy κ τ) where
  onSignal := onSignal cfg client tracker
  pause st := { st with paused := true }
  resume st := { st with paused := false }

end ImmediateStrategy

/-- `StubOrderClient`, the client of live mode so far; the state is what it has posted to the strand. -/
def stubOrderClient (nowNs : Int) : IOrderClient (List Fill) where
  submitOrder posted order := (submitOrder nowNs { posted := posted } order).posted

/-- A client that also keeps the orders it is given. -/
def IOrderClient.recorded {κ : Type} (client : IOrderClient κ) : IOrderClient (κ × List Order) where
  submitOrder state order := (client.submitOrder state.1 order, state.2 ++ [order])

end ZidaBot.Exec
