/-
Module: ZidaBot.Proofs.ExecProcess
Purpose: The exec process over whole runs of its strand.  Orders are numbered without gaps, every order is
  filled once and in the order of submission, the notional counts the fills that have run, and the tracker
  knows every order as pending or settled.  Orders follow the crosses that were read, at most one for each,
  and no order, fill or timer depends on the member of a cross that the reader leaves unassigned.
Trusted boundary: none
Main exports: Tracked, Ledger, exec_ledger, crosses, orders_follow_crosses, unassigned_harmless
-/
import ZidaBot.Exec.ExecProcess
import ZidaBot.Library.Decimals
import ZidaBot.Proofs.ExecEngine
import ZidaBot.Proofs.ExecGuards
import ZidaBot.Proofs.OrderTracker

namespace ZidaBot.Exec

open Brain

/-!
### The tracker knows every order

Here the tracker is seen from the process: ids are registered once, and a timer is one of a registered
order.
-/

/-- Every order that was registered is pending or has an outcome, not both, and timers belong to registered
    orders. -/
structure Tracked (seen : List String) (t : DeadlineOrderTracker) : Prop where
  known : ∀ oid, oid ∈ seen ↔ oid ∈ t.pendingIds ∨ oid ∈ t.settled
  apart : ∀ oid ∈ t.pendingIds, oid ∉ t.settled
  waits : ∀ w ∈ t.waits, w.oid ∈ seen

namespace Tracked

variable {seen : List String} {t : DeadlineOrderTracker} {oid : String}

theorem waits_cancelTimers (tracked : Tracked seen t) (oids : List String) :
    ∀ w ∈ (t.cancelTimers oids).waits, w.oid ∈ seen := by
  intro w hw
  obtain ⟨w', hw', rfl⟩ := List.mem_map.mp hw
  split
  · exact tracked.waits w' hw'
  · exact tracked.waits w' hw'

theorem registerPending (tracked : Tracked seen t) {order : Order} (fresh : order.clientOrderId ∉ seen) :
    Tracked (seen ++ [order.clientOrderId]) (t.registerPending order) := by
  have hpending : order.clientOrderId ∉ t.pendingIds := fun h => fresh ((tracked.known _).mpr (Or.inl h))
  have hsettled : order.clientOrderId ∉ t.settled := fun h => fresh ((tracked.known _).mpr (Or.inr h))
  rw [DeadlineOrderTracker.registerPending, if_neg hpending]
  constructor
  · intro oid
    simp only [DeadlineOrderTracker.pendingIds, DeadlineOrderTracker.settled, List.map_append, List.mem_append,
      List.map_cons, List.map_nil, tracked.known oid]
    tauto
  · intro oid hoid
    simp only [DeadlineOrderTracker.pendingIds, List.map_append, List.mem_append, List.map_cons, List.map_nil,
      List.mem_singleton] at hoid
    rcases hoid with hold | rfl
    · exact tracked.apart oid hold
    · exact hsettled
  · intro w hw
    rcases List.mem_append.mp hw with hold | hnew
    · exact List.mem_append_left _ (tracked.waits w hold)
    · rw [List.mem_singleton.mp hnew]
      exact List.mem_append_right _ (List.mem_singleton_self _)

/-- An order leaves with an outcome. -/
theorem settle (tracked : Tracked seen t) (known : oid ∈ seen) (outcome : OrderOutcome) :
    Tracked seen ((t.erase oid).record oid outcome) := by
  have hsettled : ((t.erase oid).record oid outcome).settled = t.settled ++ [oid] := by
    simp [DeadlineOrderTracker.settled, DeadlineOrderTracker.record, DeadlineOrderTracker.erase,
      DeadlineOrderTracker.cancelTimers]
  have hpending : ∀ oid', oid' ∈ ((t.erase oid).record oid outcome).pendingIds ↔
      oid' ∈ t.pendingIds ∧ oid' ≠ oid := fun _ => DeadlineOrderTracker.mem_pendingIds_erase
  constructor
  · intro oid'
    rw [hpending, hsettled, List.mem_append, List.mem_singleton]
    by_cases hsame : oid' = oid
    · subst hsame
      simp [known]
    · simp [hsame, tracked.known oid']
  · intro oid' hoid'
    obtain ⟨hold, hne⟩ := (hpending oid').mp hoid'
    rw [hsettled, List.mem_append, List.mem_singleton]
    rintro (hin | hsame)
    · exact tracked.apart oid' hold hin
    · exact hne hsame
  · exact tracked.waits_cancelTimers [oid]

theorem onFill (tracked : Tracked seen t) (fill : Fill) : Tracked seen (t.onFill fill) := by
  rw [DeadlineOrderTracker.onFill]
  split
  · rename_i hpending
    exact tracked.settle ((tracked.known _).mpr (Or.inl hpending)) .confirmed
  · exact tracked

/-- After its fill an order is not pending. -/
theorem not_pending_onFill (t : DeadlineOrderTracker) (fill : Fill) :
    fill.clientOrderId ∉ (t.onFill fill).pendingIds := by
  rw [DeadlineOrderTracker.onFill]
  split
  · intro hpending
    exact (DeadlineOrderTracker.mem_pendingIds_erase.mp hpending).2 rfl
  · rename_i hgone
    exact hgone

theorem cancelAll (tracked : Tracked seen t) : Tracked seen t.cancelAll := by
  have hsettled : t.cancelAll.settled = t.settled ++ t.pendingIds := by
    simp [DeadlineOrderTracker.settled, DeadlineOrderTracker.cancelAll, Function.comp_def]
  constructor
  · intro oid
    rw [hsettled, List.mem_append, tracked.known oid]
    simp only [DeadlineOrderTracker.cancelAll, DeadlineOrderTracker.pendingIds, List.map_nil, List.not_mem_nil,
      false_or]
    exact or_comm
  · intro oid hoid
    cases hoid
  · exact tracked.waits_cancelTimers t.pendingIds

theorem timerHandler (tracked : Tracked seen t) (i : Nat) : Tracked seen (t.timerHandler i) := by
  rw [DeadlineOrderTracker.timerHandler]
  have hwaits : ∀ w ∈ t.waits.eraseIdx i, w.oid ∈ seen :=
    fun w hw => tracked.waits w (List.mem_of_mem_eraseIdx hw)
  split
  · exact tracked
  · rename_i wait hwait
    have hrest : Tracked seen { t with waits := t.waits.eraseIdx i } := ⟨tracked.known, tracked.apart, hwaits⟩
    split
    · exact tracked
    · exact hrest
    · exact hrest.settle (tracked.waits wait (List.mem_of_getElem? hwait)) .timedOut

theorem timerExpires (tracked : Tracked seen t) (i : Nat) : Tracked seen (t.timerExpires i) := by
  refine ⟨tracked.known, tracked.apart, ?_⟩
  intro w hw
  obtain ⟨j, hj⟩ := List.mem_iff_getElem?.mp hw
  simp only [DeadlineOrderTracker.timerExpires, List.getElem?_modify] at hj
  obtain ⟨w', hw', hsame⟩ := Option.map_eq_some_iff.mp hj
  have hoid : w.oid = w'.oid := by
    rw [← hsame]
    split <;> rfl
  rw [hoid]
  exact tracked.waits w' (List.mem_of_getElem? hw')

end Tracked

/-- Deadlines and their handlers make no order pending. -/
theorem pendingIds_timer (t : DeadlineOrderTracker) (i : Nat) :
    (∀ oid ∈ (t.timerHandler i).pendingIds, oid ∈ t.pendingIds) ∧ (t.timerExpires i).pendingIds = t.pendingIds := by
  refine ⟨?_, rfl⟩
  intro oid hoid
  rw [DeadlineOrderTracker.timerHandler] at hoid
  split at hoid
  · exact hoid
  · split at hoid
    · exact hoid
    · exact hoid
    · exact (DeadlineOrderTracker.mem_pendingIds_erase.mp hoid).1

/-!
### The ledger

Orders, fills and notional are kept in three places. The ledger ties them together by the order of
submission, in which the client posts its fills.
-/

/-- What an order asks for, and what a fill confirms: id, quantity and price. -/
def Order.settlement (order : Order) : String × ℚ × Int := (order.clientOrderId, order.quantity, order.priceTick)

/-- See `Order.settlement`. -/
def Fill.settlement (fill : Fill) : String × ℚ × Int := (fill.clientOrderId, fill.filledQty, fill.fillPriceTick)

/-- The venue and the quantity of an order are those of the configuration. -/
structure Order.Configured (cfg : ExecConfig) (order : Order) : Prop where
  venue : order.venue = cfg.myVenue
  quantity : order.quantity = cfg.targetQty

/-- The fill of a task. -/
def ExecTask.fill? : ExecTask → Option Fill
  | .fill f => some f
  | _ => none

namespace ExecProcess

variable {cfg : ExecConfig} {parse : String → Option Json} {p : ExecProcess}

/-- The ids of the orders. -/
def orderIds (p : ExecProcess) : List String := p.orders.map Order.clientOrderId

/-- The fills whose callback has not run. -/
def postedFills (p : ExecProcess) : List Fill := p.strand.filterMap ExecTask.fill?

/-- The books of the process: orders are numbered from one and are all for the configured venue and quantity, the
    fills are those of the orders in the order of their submission, the first of them have run and make up the
    notional, and the tracker knows every order and waits for none that was filled. -/
structure Ledger (cfg : ExecConfig) (p : ExecProcess) : Prop where
  configured : ∀ order ∈ p.orders, order.Configured cfg
  numbered : p.orderIds = (List.range p.orders.length).map fun k => cfg.myVenue ++ "-" ++ toString (k + 1)
  counted : p.engine.strategy.orderSeq = p.orders.length
  settled : (p.filled ++ p.postedFills).map Fill.settlement = p.orders.map Order.settlement
  notional : p.engine.openNotional = (p.filled.map Fill.notional).sum
  tracked : Tracked p.orderIds p.tracker
  confirmed : ∀ fill ∈ p.filled, fill.clientOrderId ∉ p.tracker.pendingIds
  closed : p.stopped = true → p.tracker.pendingIds = []

theorem Ledger.start (cfg : ExecConfig) : Ledger cfg {} := by
  constructor <;>
    simp [orderIds, orders, postedFills, strand, tracker, DeadlineOrderTracker.pendingIds]
  constructor <;> simp [DeadlineOrderTracker.pendingIds, DeadlineOrderTracker.settled]

/-- The fill that the client posts for an order. -/
def fillOf (nowNs : Int) (order : Order) : Fill :=
  { clientOrderId := order.clientOrderId, filledQty := order.quantity, fillPriceTick := order.priceTick
    tsNs := nowNs }

/-- The order of a cross is submitted: it is registered, recorded and filled later. -/
structure Submits (nowNs : Int) (order : Order) (p p' : ExecProcess) : Prop where
  orders : p'.orders = p.orders ++ [order]
  strand : p'.strand = p.strand ++ [.fill (fillOf nowNs order)]
  tracker : p'.tracker = p.tracker.registerPending order
  counted : p'.engine.strategy.orderSeq = p.engine.strategy.orderSeq + 1
  notional : p'.engine.openNotional = p.engine.openNotional
  filled : p'.filled = p.filled
  stopped : p'.stopped = p.stopped

/-- Nothing of that is touched. -/
structure Untouched (p p' : ExecProcess) : Prop where
  strategy : p'.engine.strategy = p.engine.strategy
  notional : p'.engine.openNotional = p.engine.openNotional
  filled : p'.filled = p.filled
  stopped : p'.stopped = p.stopped

/-- A frame leads to one order for the leg of this venue, or to none. -/
theorem frame_cases (cfg : ExecConfig) (parse : String → Option Json) (nowNs : Int) (uninit : ArbCross)
    (p : ExecProcess) (text : String) :
    Untouched p (p.frame cfg parse nowNs uninit text) ∨
      ∃ cross side order, parseCross parse text uninit = (cross, true) ∧
        legFor cfg.myVenue cross = some (side, order.priceTick) ∧ order.side = side ∧ order.Configured cfg ∧
        order.clientOrderId = cfg.myVenue ++ "-" ++ toString (p.engine.strategy.orderSeq + 1) ∧
        Submits nowNs order p (p.frame cfg parse nowNs uninit text) := by
  rw [frame]
  rcases hparse : parseCross parse text uninit with ⟨cross, _ | _⟩
  · exact Or.inl ⟨rfl, rfl, rfl, rfl⟩
  · let strategy := ImmediateStrategy.strategy cfg (strandClient nowNs).recorded deadlineTracker
    rcases ExecEngine.onSignal_cases cfg strategy p.engine cross with hdropped | ⟨-, -, hpassed⟩
    · left
      simp only [strategy] at hdropped
      simp only [hdropped]
      exact ⟨rfl, rfl, rfl, rfl⟩
    · simp only [strategy] at hpassed
      simp only [hpassed]
      rcases orderFor_cases cfg p.engine.strategy.own cross with ⟨hnone, -⟩ | ⟨side, tick, -, -, hleg, horder⟩
      · left
        refine ⟨?_, rfl, rfl, rfl⟩
        simp only [ImmediateStrategy.strategy, ImmediateStrategy.onSignal, hnone]
      · right
        let order : Order :=
          { venue := cfg.myVenue, side := side, priceTick := tick, quantity := cfg.targetQty
            clientOrderId := cfg.myVenue ++ "-" ++ toString (p.engine.strategy.orderSeq + 1) }
        have hplaced : orderFor cfg p.engine.strategy.own cross = some order := horder
        refine ⟨cross, side, order, rfl, hleg, rfl, ⟨rfl, rfl⟩, rfl, ?_⟩
        have hstrategy : (ImmediateStrategy.strategy cfg (strandClient nowNs).recorded deadlineTracker).onSignal
            p.engine.strategy cross =
            { p.engine.strategy with
              orderSeq := p.engine.strategy.orderSeq + 1
              tracker := p.tracker.registerPending order
              client := (p.strand ++ [.fill (fillOf nowNs order)], p.orders ++ [order]) } := by
          simp only [ImmediateStrategy.strategy, ImmediateStrategy.onSignal, hplaced]
          rfl
        constructor <;> simp only [hstrategy] <;> rfl

/-!
### One step keeps the ledger

A frame submits one order or none, a task of the strand settles one, and the rest touches the tracker only.
-/

theorem pendingIds_onFill (t : DeadlineOrderTracker) (f : Fill) :
    ∀ oid ∈ (t.onFill f).pendingIds, oid ∈ t.pendingIds := by
  intro oid hoid
  rw [DeadlineOrderTracker.onFill] at hoid
  split at hoid
  · exact (DeadlineOrderTracker.mem_pendingIds_erase.mp hoid).1
  · exact hoid

namespace Ledger

variable {p' : ExecProcess}

theorem untouched (ledger : Ledger cfg p) (same : Untouched p p') : Ledger cfg p' := by
  have horders : p'.orders = p.orders := congrArg (fun strategy => strategy.client.2) same.strategy
  have hstrand : p'.strand = p.strand := congrArg (fun strategy => strategy.client.1) same.strategy
  have htracker : p'.tracker = p.tracker := congrArg ImmediateStrategy.tracker same.strategy
  have hids : p'.orderIds = p.orderIds := by rw [orderIds, horders, orderIds]
  have hposted : p'.postedFills = p.postedFills := by rw [postedFills, hstrand, postedFills]
  constructor
  · rw [horders]
    exact ledger.configured
  · rw [hids, horders]
    exact ledger.numbered
  · rw [same.strategy, horders]
    exact ledger.counted
  · rw [same.filled, hposted, horders]
    exact ledger.settled
  · rw [same.notional, same.filled]
    exact ledger.notional
  · rw [hids, htracker]
    exact ledger.tracked
  · rw [same.filled, htracker]
    exact ledger.confirmed
  · rw [same.stopped, htracker]
    exact ledger.closed

/-- The strand changes, but not its fills. -/
theorem withStrand (ledger : Ledger cfg p) {strand : List ExecTask}
    (same : strand.filterMap ExecTask.fill? = p.postedFills) : Ledger cfg (p.withStrand strand) := by
  have hposted : (p.withStrand strand).postedFills = p.postedFills := same
  have hsettled := ledger.settled
  rw [← hposted] at hsettled
  exact ⟨ledger.configured, ledger.numbered, ledger.counted, hsettled, ledger.notional, ledger.tracked, ledger.confirmed,
    ledger.closed⟩

/-- The tracker changes, but no order becomes pending. -/
theorem withTracker (ledger : Ledger cfg p) {t : DeadlineOrderTracker} (tracked : Tracked p.orderIds t)
    (fewer : ∀ oid ∈ t.pendingIds, oid ∈ p.tracker.pendingIds) : Ledger cfg (p.withTracker t) := by
  refine ⟨ledger.configured, ledger.numbered, ledger.counted, ledger.settled, ledger.notional, tracked, ?_, ?_⟩
  · intro f hf hpending
    exact ledger.confirmed f hf (fewer _ hpending)
  · intro hstopped
    apply List.eq_nil_iff_forall_not_mem.mpr
    intro oid hoid
    have hnone := fewer oid hoid
    rw [ledger.closed hstopped] at hnone
    cases hnone

/-- The next number is free. -/
theorem fresh (ledger : Ledger cfg p) :
    cfg.myVenue ++ "-" ++ toString (p.engine.strategy.orderSeq + 1) ∉ p.orderIds := by
  rw [ledger.numbered, ledger.counted]
  intro hmem
  obtain ⟨k, hk, hsame⟩ := List.mem_map.mp hmem
  have hnumber : k + 1 = p.orders.length + 1 := Decimals.append_toString_inj hsame
  have hlt := List.mem_range.mp hk
  omega

/-- Whatever was filled was submitted. -/
theorem filled_mem (ledger : Ledger cfg p) {f : Fill} (filled : f ∈ p.filled) : f.clientOrderId ∈ p.orderIds := by
  have hmem : f.settlement ∈ p.orders.map Order.settlement := by
    rw [← ledger.settled]
    exact List.mem_map_of_mem (List.mem_append_left _ filled)
  obtain ⟨order, horder, hsame⟩ := List.mem_map.mp hmem
  have hid : order.clientOrderId = f.clientOrderId := congrArg Prod.fst hsame
  rw [← hid]
  exact List.mem_map_of_mem horder

theorem submit (ledger : Ledger cfg p) (running : p.stopped = false) {nowNs : Int} {order : Order}
    (configured : order.Configured cfg)
    (id : order.clientOrderId = cfg.myVenue ++ "-" ++ toString (p.engine.strategy.orderSeq + 1))
    (submits : Submits nowNs order p p') : Ledger cfg p' := by
  have hids : p'.orderIds = p.orderIds ++ [order.clientOrderId] := by
    rw [orderIds, submits.orders, List.map_append]
    rfl
  have hposted : p'.postedFills = p.postedFills ++ [fillOf nowNs order] := by
    rw [postedFills, submits.strand, List.filterMap_append]
    rfl
  have hfresh : order.clientOrderId ∉ p.orderIds := by
    rw [id]
    exact ledger.fresh
  have hpending : p.tracker.registerPending order =
      { p.tracker with
        pending := p.tracker.pending ++ [order]
        waits := p.tracker.waits ++ [{ oid := order.clientOrderId, status := .waiting }] } := by
    rw [DeadlineOrderTracker.registerPending, if_neg]
    exact fun h => hfresh ((ledger.tracked.known _).mpr (Or.inl h))
  constructor
  · rw [submits.orders]
    intro order' horder'
    rcases List.mem_append.mp horder' with hold | hnew
    · exact ledger.configured order' hold
    · rw [List.mem_singleton.mp hnew]
      exact configured
  · rw [hids, submits.orders, List.length_append, List.length_singleton, List.range_succ, List.map_append,
      ← ledger.numbered, id, ledger.counted]
    rfl
  · rw [submits.counted, submits.orders, ledger.counted, List.length_append, List.length_singleton]
  · rw [submits.filled, hposted, submits.orders, ← List.append_assoc, List.map_append, ledger.settled,
      List.map_append]
    rfl
  · rw [submits.notional, submits.filled]
    exact ledger.notional
  · rw [hids, submits.tracker]
    exact ledger.tracked.registerPending hfresh
  · rw [submits.filled, submits.tracker, hpending]
    intro f hf hmem
    simp only [DeadlineOrderTracker.pendingIds, List.map_append, List.mem_append, List.map_cons, List.map_nil,
      List.mem_singleton] at hmem
    rcases hmem with hold | hnew
    · exact ledger.confirmed f hf hold
    · exact hfresh (hnew ▸ ledger.filled_mem hf)
  · rw [submits.stopped, running]
    intro hstopped
    cases hstopped

/-- The callback at the front of the strand runs. -/
theorem fill (ledger : Ledger cfg p) {f : Fill} {rest : List ExecTask} (front : p.strand = .fill f :: rest) :
    Ledger cfg ((p.withStrand rest).fill f) := by
  have hposted : p.postedFills = f :: rest.filterMap ExecTask.fill? := by
    rw [postedFills, front]
    rfl
  have hsettled := ledger.settled
  rw [hposted, ← List.singleton_append, ← List.append_assoc] at hsettled
  refine ⟨ledger.configured, ledger.numbered, ledger.counted, hsettled, ?_, ledger.tracked.onFill f, ?_, ?_⟩
  · have hnotional : ((p.withStrand rest).fill f).engine.openNotional = p.engine.openNotional + f.notional := rfl
    have hfilled : ((p.withStrand rest).fill f).filled = p.filled ++ [f] := rfl
    rw [hnotional, hfilled, ledger.notional, List.map_append, List.sum_append]
    simp
  · intro f' hf' hpending
    rcases List.mem_append.mp hf' with hold | hnew
    · exact ledger.confirmed f' hold (pendingIds_onFill p.tracker f _ hpending)
    · rw [List.mem_singleton.mp hnew] at hpending
      exact Tracked.not_pending_onFill p.tracker f hpending
  · intro hstopped
    apply List.eq_nil_iff_forall_not_mem.mpr
    intro oid hoid
    have hnone := pendingIds_onFill p.tracker f oid hoid
    rw [ledger.closed hstopped] at hnone
    cases hnone

theorem shutdown (ledger : Ledger cfg p) : Ledger cfg p.shutdown :=
  ⟨ledger.configured, ledger.numbered, ledger.counted, ledger.settled, ledger.notional, ledger.tracked.cancelAll,
    fun _ _ hpending => (by cases hpending), fun _ => rfl⟩

theorem runTask (ledger : Ledger cfg p) (running : p.stopped = false) (nowNs : Int) (uninit : ArbCross) :
    Ledger cfg (p.runTask cfg parse nowNs uninit) := by
  rw [ExecProcess.runTask]
  split
  · exact ledger
  · rename_i text rest hfront
    have hrest : Ledger cfg (p.withStrand rest) := by
      apply ledger.withStrand
      rw [postedFills, hfront]
      rfl
    rcases frame_cases cfg parse nowNs uninit (p.withStrand rest) text with
      hsame | ⟨_, _, order, _, _, _, hconfigured, hid, hsubmits⟩
    · exact hrest.untouched hsame
    · exact hrest.submit running hconfigured hid hsubmits
  · rename_i f rest hfront
    exact ledger.fill hfront
  · rename_i rest hfront
    apply Ledger.shutdown
    apply ledger.withStrand
    rw [postedFills, hfront]
    rfl

theorem step (ledger : Ledger cfg p) (e : ExecProcessEvent) : Ledger cfg (p.step cfg parse e) := by
  unfold ExecProcess.step
  split
  · exact ledger
  · rename_i hrunning
    cases e with
    | received text =>
        apply ledger.withStrand
        rw [List.filterMap_append]
        exact List.append_nil _
    | interrupt =>
        apply ledger.withStrand
        rw [List.filterMap_append]
        exact List.append_nil _
    | run nowNs uninit => exact ledger.runTask (by simpa using hrunning) nowNs uninit
    | expire i =>
        apply ledger.withTracker (ledger.tracked.timerExpires i)
        rw [(pendingIds_timer p.tracker i).2]
        exact fun _ h => h
    | handler i => exact ledger.withTracker (ledger.tracked.timerHandler i) (pendingIds_timer p.tracker i).1

end Ledger

/-- The books are right in every run: whatever frames arrive, whenever deadlines pass, and wherever the
    shutdown comes, the ledger holds, and so no two orders have the same id. -/
theorem exec_ledger (cfg : ExecConfig) (parse : String → Option Json) (events : List ExecProcessEvent) :
    Ledger cfg (Runs.run (step cfg parse) {} events) ∧ (Runs.run (step cfg parse) {} events).orderIds.Nodup := by
  have hstep : ∀ p e, Ledger cfg p → Ledger cfg (step cfg parse p e) := fun _ e ledger => ledger.step e
  have hledger : Ledger cfg (Runs.run (step cfg parse) {} events) :=
    Runs.invariant_run hstep (Ledger.start cfg) events
  refine ⟨hledger, ?_⟩
  rw [hledger.numbered]
  apply List.Nodup.map _ List.nodup_range
  intro k k' hsame
  have hnumber : k + 1 = k' + 1 := Decimals.append_toString_inj hsame
  omega

/-!
### Orders follow the crosses that were read

The strand runs frames in the order of their arrival, so orders come in the order of the crosses they were
made for.
-/

/-- The frame of a task. -/
def frame? : ExecTask → Option String
  | .frame text => some text
  | .fill _ => none
  | .shutdown => none

/-- The frame that arrives with an event. -/
def received? : ExecProcessEvent → Option String
  | .received text => some text
  | .interrupt => none
  | .run _ _ => none
  | .expire _ => none
  | .handler _ => none

/-- The frame that a step takes from the strand, with the variable it is read into. -/
def reads (p : ExecProcess) (e : ExecProcessEvent) : Option (String × ArbCross) :=
  if p.stopped then none
  else
    match e, p.strand with
    | .run _ uninit, .frame text :: _ => some (text, uninit)
    | _, _ => none

/-- The frames that a run has read. -/
def framesRead (cfg : ExecConfig) (parse : String → Option Json) (p : ExecProcess)
    (events : List ExecProcessEvent) : List (String × ArbCross) :=
  Runs.outputs (step cfg parse) reads p events

/-- The cross of a frame, unless it is discarded. -/
def crossOf (parse : String → Option Json) (read : String × ArbCross) : Option ArbCross :=
  if (parseCross parse read.1 read.2).2 then some (parseCross parse read.1 read.2).1 else none

/-- The leg of an order. -/
def leg (order : Order) : OrderSide × Int := (order.side, order.priceTick)

theorem step_stopped (stopped : p.stopped = true) (e : ExecProcessEvent) : p.step cfg parse e = p := by
  unfold step
  rw [if_pos stopped]

theorem reads_stopped (stopped : p.stopped = true) (e : ExecProcessEvent) : p.reads e = none := by
  unfold reads
  rw [if_pos stopped]

theorem run_stopped (stopped : p.stopped = true) (events : List ExecProcessEvent) :
    Runs.run (step cfg parse) p events = p ∧ framesRead cfg parse p events = [] := by
  induction events with
  | nil => exact ⟨rfl, rfl⟩
  | cons e events ih =>
      have hstep : p.step cfg parse e = p := step_stopped stopped e
      constructor
      · rw [Runs.run_cons, hstep]
        exact ih.1
      · rw [framesRead, Runs.outputs, reads_stopped stopped, hstep]
        exact ih.2

/-- Frames are read in the order of their arrival. -/
theorem frames_step (running : p.stopped = false) (e : ExecProcessEvent) :
    (p.reads e).toList.map Prod.fst ++ (p.step cfg parse e).strand.filterMap frame? =
      p.strand.filterMap frame? ++ (received? e).toList := by
  have hposted : ∀ task, (p.post task).strand = p.strand ++ [task] := fun _ => rfl
  unfold step reads
  rw [if_neg (by simp [running]), if_neg (by simp [running])]
  cases e with
  | received text => simp [hposted, frame?, received?]
  | interrupt => simp [hposted, frame?, received?]
  | expire i => simp [received?, strand, withTracker]
  | handler i => simp [received?, strand, withTracker]
  | run nowNs uninit =>
      unfold runTask
      cases hstrand : p.strand with
      | nil => simp [hstrand, received?]
      | cons task rest =>
          have hrest : (p.withStrand rest).strand = rest := rfl
          cases task with
          | frame text =>
              have hsame : ((p.withStrand rest).frame cfg parse nowNs uninit text).strand.filterMap frame? =
                  rest.filterMap frame? := by
                rcases frame_cases cfg parse nowNs uninit (p.withStrand rest) text with
                  hsame | ⟨_, _, _, _, _, _, _, _, hsubmits⟩
                · rw [strand, hsame.strategy]
                  rfl
                · rw [hsubmits.strand, List.filterMap_append, hrest]
                  simp [frame?]
              simp [hsame, frame?, received?]
          | fill f =>
              have hsame : ((p.withStrand rest).fill f).strand = rest := rfl
              have hfront : (ExecTask.fill f :: rest).filterMap frame? = rest.filterMap frame? := rfl
              simp [hsame, hfront, received?]
          | shutdown =>
              have hsame : (p.withStrand rest).shutdown.strand = rest := rfl
              have hfront : (ExecTask.shutdown :: rest).filterMap frame? = rest.filterMap frame? := rfl
              simp [hsame, hfront, received?]

/-- A step submits at most one order, for the leg of the cross it has read. -/
theorem orders_step (p : ExecProcess) (e : ExecProcessEvent) :
    ((p.step cfg parse e).orders.map leg).Sublist
      (p.orders.map leg ++ ((p.reads e).toList.filterMap (crossOf parse)).filterMap (legFor cfg.myVenue)) := by
  have hkept : ∀ extra, (p.orders.map leg).Sublist (p.orders.map leg ++ extra) := fun _ =>
    List.sublist_append_left ..
  cases hstopped : p.stopped with
  | true =>
      rw [step_stopped hstopped]
      exact hkept _
  | false =>
      unfold step
      rw [if_neg (by simp [hstopped])]
      cases e with
      | received text => exact hkept _
      | interrupt => exact hkept _
      | expire i => exact hkept _
      | handler i => exact hkept _
      | run nowNs uninit =>
          unfold runTask reads
          rw [if_neg (by simp [hstopped])]
          cases hstrand : p.strand with
          | nil => exact hkept _
          | cons task rest =>
              cases task with
              | fill f => exact hkept _
              | shutdown => exact hkept _
              | frame text =>
                  rcases frame_cases cfg parse nowNs uninit (p.withStrand rest) text with
                    hsame | ⟨cross, side, order, hparse, hleg, hside, _, _, hsubmits⟩
                  · have horders : ((p.withStrand rest).frame cfg parse nowNs uninit text).orders = p.orders :=
                      congrArg (fun strategy => strategy.client.2) hsame.strategy
                    simp only [horders]
                    exact hkept _
                  · have hcross : crossOf parse (text, uninit) = some cross := by simp [crossOf, hparse]
                    have hlegs : leg order = (side, order.priceTick) := by rw [leg, hside]
                    have horders : ((p.withStrand rest).frame cfg parse nowNs uninit text).orders =
                        p.orders ++ [order] := hsubmits.orders
                    simp [horders, hcross, hleg, hlegs]

/-- What has become of the frames of a run: those read are the first ones received, and the orders are, in
    order, the legs of this venue in some of the crosses read. -/
theorem orders_follow_crosses (cfg : ExecConfig) (parse : String → Option Json) (p : ExecProcess)
    (events : List ExecProcessEvent) :
    (framesRead cfg parse p events).map Prod.fst ++
        (Runs.run (step cfg parse) p events).strand.filterMap frame? <+:
      p.strand.filterMap frame? ++ events.filterMap received? ∧
    ((Runs.run (step cfg parse) p events).orders.map leg).Sublist (p.orders.map leg ++
      ((framesRead cfg parse p events).filterMap (crossOf parse)).filterMap (legFor cfg.myVenue)) := by
  induction events generalizing p with
  | nil => simp [framesRead, Runs.outputs]
  | cons e events ih =>
      have hframes : framesRead cfg parse p (e :: events) =
          (p.reads e).toList ++ framesRead cfg parse (p.step cfg parse e) events := rfl
      obtain ⟨hread, horders⟩ := ih (p.step cfg parse e)
      rw [Runs.run_cons, hframes]
      constructor
      · cases hstopped : p.stopped with
        | true =>
            obtain ⟨hrun, hnone⟩ := run_stopped hstopped events
            rw [step_stopped hstopped, hrun, hnone, reads_stopped hstopped]
            exact List.prefix_append ..
        | false =>
            have hevents : (e :: events).filterMap received? =
                (received? e).toList ++ events.filterMap received? := by
              cases hreceived : received? e <;> simp [hreceived]
            rw [hevents, List.map_append, List.append_assoc, ← List.append_assoc (p.strand.filterMap frame?),
              ← frames_step hstopped e, List.append_assoc]
            exact (List.prefix_append_right_inj _).mpr hread
      · refine horders.trans ?_
        rw [List.filterMap_append, List.filterMap_append, ← List.append_assoc]
        exact (orders_step p e).append (List.Sublist.refl _)

/-!
### The member that is not read

`parse_cross` fills every member but one. Two runs that differ in what the variable held before are compared
step by step: they differ in that member and in nothing that is made of it.
-/

/-- What an assignment does to two outputs: it throws for both, or assigns to both. -/
theorem readFields_field {α : Type} (j : Json) (key : String) (get : Json → Except JsonError α)
    (set : ArbCross → α → ArbCross) (rest : List CrossField) (out : ArbCross) :
    readFields j (field key get set :: rest) out =
      match j.atKey key >>= get with
      | .error _ => (out, false)
      | .ok v => readFields j rest (set out v) := by
  rw [readFields, field]
  cases j.atKey key with
  | error err => rfl
  | ok member =>
      dsimp only [bind, Except.bind]
      cases get member <;> rfl

/-- A cross with another net spread. -/
def withNetSpread (cross : ArbCross) (netSpreadBps : ℚ) : ArbCross := { cross with netSpreadBps := netSpreadBps }

/-- Whether a frame is read does not depend on the variable it is read into, and what is read depends on it in
    one member only. -/
theorem parseCross_uninit (parse : String → Option Json) (text : String) (uninit other : ArbCross) :
    (parseCross parse text uninit).2 = (parseCross parse text other).2 ∧
      ((parseCross parse text uninit).2 = true → (parseCross parse text uninit).1 =
        withNetSpread (parseCross parse text other).1 uninit.netSpreadBps) := by
  have hfailed : ∀ a b : ArbCross, (a, false).2 = (b, false).2 ∧
      ((a, false).2 = true → (a, false).1 = withNetSpread (b, false).1 uninit.netSpreadBps) :=
    fun _ _ => ⟨rfl, fun h => (by cases h)⟩
  rw [parseCross, parseCross]
  cases parse text with
  | none => exact hfailed _ _
  | some j =>
      simp only [crossFields, readFields_field]
      rcases j.atKey "sell_venue" >>= Json.getString with _ | sellVenue
      · exact hfailed _ _
      rcases j.atKey "buy_venue" >>= Json.getString with _ | buyVenue
      · exact hfailed _ _
      rcases j.atKey "sell_bid_tick" >>= Json.getInt64 with _ | sellBidTick
      · exact hfailed _ _
      rcases j.atKey "buy_ask_tick" >>= Json.getInt64 with _ | buyAskTick
      · exact hfailed _ _
      rcases j.atKey "spread_bps" >>= getDouble with _ | spreadBps
      · exact hfailed _ _
      rcases j.atKey "ts_detected_ns" >>= Json.getInt64 with _ | tsDetectedNs
      · exact hfailed _ _
      rcases j.atKey "sell_ts_book_ns" >>= Json.getInt64 with _ | sellTsBookNs
      · exact hfailed _ _
      rcases j.atKey "buy_ts_book_ns" >>= Json.getInt64 with _ | buyTsBookNs
      · exact hfailed _ _
      exact ⟨rfl, fun _ => rfl⟩

/-- The engine and the strategy do not look at the net spread. -/
theorem onSignal_withNetSpread (cfg : ExecConfig) (client : IOrderClient (List ExecTask × List Order))
    (e : ExecEngine ExecStrategy) (cross : ArbCross) (netSpreadBps : ℚ) :
    e.onSignal cfg (ImmediateStrategy.strategy cfg client deadlineTracker) (withNetSpread cross netSpreadBps) =
      e.onSignal cfg (ImmediateStrategy.strategy cfg client deadlineTracker) cross := rfl

theorem frame_uninit (cfg : ExecConfig) (parse : String → Option Json) (nowNs : Int) (p : ExecProcess)
    (text : String) (uninit other : ArbCross) :
    p.frame cfg parse nowNs uninit text = p.frame cfg parse nowNs other text := by
  obtain ⟨hflag, hcross⟩ := parseCross_uninit parse text uninit other
  rw [frame, frame]
  rcases hother : parseCross parse text other with ⟨cross, _ | _⟩
  · rw [hother] at hflag
    rcases huninit : parseCross parse text uninit with ⟨cross', _ | _⟩
    · rfl
    · rw [huninit] at hflag
      cases hflag
  · rw [hother] at hflag hcross
    rcases huninit : parseCross parse text uninit with ⟨cross', _ | _⟩
    · rw [huninit] at hflag
      cases hflag
    · rw [huninit] at hcross
      have hsame : cross' = withNetSpread cross uninit.netSpreadBps := hcross rfl
      rw [hsame]
      simp only [onSignal_withNetSpread]

/-- The same step with other values in the variable. -/
def withUninit (uninit : ArbCross) : ExecProcessEvent → ExecProcessEvent
  | .run nowNs _ => .run nowNs uninit
  | .received text => .received text
  | .interrupt => .interrupt
  | .expire i => .expire i
  | .handler i => .handler i

theorem step_uninit (cfg : ExecConfig) (parse : String → Option Json) (uninit : ArbCross) (p : ExecProcess)
    (e : ExecProcessEvent) : p.step cfg parse (withUninit uninit e) = p.step cfg parse e := by
  cases e with
  | run nowNs other =>
      have htask : p.runTask cfg parse nowNs uninit = p.runTask cfg parse nowNs other := by
        unfold runTask
        cases p.strand with
        | nil => rfl
        | cons task rest =>
            cases task with
            | frame text => exact frame_uninit cfg parse nowNs (p.withStrand rest) text uninit other
            | fill f => rfl
            | shutdown => rfl
      unfold step
      simp only [withUninit, htask]
  | _ => rfl

/-- The cross is read into a variable without initial values, and one of its members stays as it was.  That
    makes no difference: whatever the memory held at each frame, the run is the same, with the same orders,
    fills, timers and guards. -/
theorem unassigned_harmless (cfg : ExecConfig) (parse : String → Option Json)
    (events : List ExecProcessEvent) (memory : ExecProcessEvent → ArbCross) :
    Runs.run (step cfg parse) {} (events.map fun e => withUninit (memory e) e) =
      Runs.run (step cfg parse) {} events := by
  rw [Runs.run, List.foldl_map]
  congr 1
  funext p e
  exact step_uninit cfg parse (memory e) p e

end ExecProcess

end ZidaBot.Exec
