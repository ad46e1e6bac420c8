/-
Module: ZidaBot.Exec.ExecProcess
Purpose: The exec process as `main` of `exec/app/exec.cpp` puts it together: engine, immediate strategy,
  deadline tracker and the stub or dry-run client on one strand, fed by the frames of the signal server and
  ended by SIGINT.  The strand runs what is posted to it in order.  A cross is read into a variable without
  initial values, which are an argument of the step.  The timeout callback and `on_open`, `on_close` only log.
Trusted boundary: human-reviewed model
Main exports: ExecTask, strandClient, deadlineTracker, ExecProcess, ExecProcess.frame, ExecProcess.fill,
  ExecProcess.shutdown, ExecProcessEvent, ExecProcess.step
-/
import ZidaBot.Exec.CrossSignals
import ZidaBot.Exec.DeadlineOrderTracker
import ZidaBot.Exec.ExecCmdLine

namespace ZidaBot.Exec

open Brain

/-- What is posted to the exec strand. -/
inductive ExecTask where
  | frame (text : String)
  | fill (fill : Fill)
  | shutdown
deriving DecidableEq

/-- The order client of the process; its state is the strand that it posts its fill to. -/
def strandClient (nowNs : Int) : IOrderClient (List ExecTask) where
  submitOrder strand order := strand ++ ((stubOrderClient nowNs).submitOrder [] order).map ExecTask.fill

/-- The order tracker of the process. -/
def deadlineTracker : OrderTracker DeadlineOrderTracker where
  registerPending := DeadlineOrderTracker.registerPending

/-- The strategy with its client, which is recorded, and its tracker. -/
abbrev ExecStrategy := ImmediateStrategy (List ExecTask × List Order) DeadlineOrderTracker

/-- The process.  `filled` records the fills whose callback has run, and `stopped` says that `ioc.stop` was
    called. -/
structure ExecProcess where
  engine : ExecEngine ExecStrategy := { strategy := { client := ([], []), tracker := {} } }
  filled : List Fill := []
  stopped : Bool := false

namespace ExecProcess

/-- What waits on the strand. -/
def strand (p : ExecProcess) : List ExecTask := p.engine.strategy.client.1

/-- The orders that were submitted, oldest first. -/
def orders (p : ExecProcess) : List Order := p.engine.strategy.client.2

/-- The tracker. -/
def tracker (p : ExecProcess) : DeadlineOrderTracker := p.engine.strategy.tracker

/-- The process with another strand. -/
def withStrand (p : ExecProcess) (strand : List ExecTask) : ExecProcess :=
  { p with engine.strategy.client := (strand, p.orders) }

/-- The process with another tracker. -/
def withTracker (p : ExecProcess) (tracker : DeadlineOrderTracker) : ExecProcess :=
  { p with engine.strategy.tracker := tracker }

/-- Post to the strand. -/
def post (p : ExecProcess) (task : ExecTask) : ExecProcess := p.withStrand (p.strand ++ [task])

/-- The lambda of `on_raw_message`. -/
def frame (cfg : ExecConfig) (parse : String → Option Json) (nowNs : Int) (uninit : ArbCross) (p : ExecProcess)
    (text : String) : ExecProcess :=
  match parseCross parse text uninit with
  | (cross, true) =>
      { p with
        engine := p.engine.onSignal cfg
          (ImmediateStrategy.strategy cfg (strandClient nowNs).recorded deadlineTracker) cross }
  | (_, false) => p

/-- The callback of a submitted order, without an error. -/
def fill (p : ExecProcess) (fill : Fill) : ExecProcess :=
  let p := p.withTracker (p.tracker.onFill fill)
  { p with engine := p.engine.onFill fill, filled := p.filled ++ [fill] }

/-- The lambda of the signal handler. -/
def shutdown (p : ExecProcess) : ExecProcess :=
  { p.withTracker p.tracker.cancelAll with stopped := true }

/-- The task at the front of the strand runs. -/
def runTask (cfg : ExecConfig) (parse : String → Option Json) (nowNs : Int) (uninit : ArbCross)
    (p : ExecProcess) : ExecProcess :=
  match p.strand with
  | [] => p
  | .frame text :: rest => (p.withStrand rest).frame cfg parse nowNs uninit text
  | .fill f :: rest => (p.withStrand rest).fill f
  | .shutdown :: rest => (p.withStrand rest).shutdown

end ExecProcess

/-- Steps of the process: a frame arrives, SIGINT, the next task of the strand, and the deadline timers of the
    tracker. -/
inductive ExecProcessEvent where
  | received (text : String)
  | interrupt
  | run (nowNs : Int) (uninit : ArbCross)
  | expire (i : Nat)
  | handler (i : Nat)

/-- One step; a stopped `io_context` runs nothing more. -/
def ExecProcess.step (cfg : ExecConfig) (parse : String → Option Json) (p : ExecProcess)
    (e : ExecProcessEvent) : ExecProcess :=
  if p.stopped then p
  else
    match e with
    | .received text => p.post (.frame text)
    | .interrupt => p.post .shutdown
    | .run nowNs uninit => p.runTask cfg parse nowNs uninit
    | .expire i => p.withTracker (p.tracker.timerExpires i)
    | .handler i => p.withTracker (p.tracker.timerHandler i)

end ZidaBot.Exec
