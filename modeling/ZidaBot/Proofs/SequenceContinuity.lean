/-
Module: ZidaBot.Proofs.SequenceContinuity
Purpose: The whole history of a controller that refuses gaps.  A tracked controller remembers the last
  accepted snapshot and the increments whose levels were applied since; while it is synced these form an
  unbroken chain of sequence numbers and replaying them gives its book.
Trusted boundary: none
Main exports: History, Tracked, ContinuousFrom, Explained, strict_sequence_continuity
-/
import ZidaBot.Proofs.OrderBookController

namespace ZidaBot

open OrderBookController

/-- What has reached the book: the most recent accepted snapshot and, in order, the increments whose
    levels were applied since. -/
structure History where
  baseline : Option GenericSnapshotFormat
  increments : List GenericIncrementalFormat

/-- The history after one call made in the state `c`. -/
def History.record (cfg : ControllerConfig) (c : OrderBookController) (history : History) :
    ControllerOp → History
  | .snapshot msg kind =>
      if (c.onSnapshot cfg msg kind).action = .none then { baseline := some msg, increments := [] }
      else history
  | .increment msg =>
      if Applies cfg c msg then { history with increments := history.increments ++ [msg] }
      else history
  | .reset => history

/-- A controller beside its history. -/
structure Tracked where
  controller : OrderBookController
  history : History

namespace Tracked

/-- A controller as constructed, with nothing applied. -/
def new (depth : Nat) (depth_pos : 0 < depth) : Tracked :=
  { controller := OrderBookController.new depth depth_pos
    history := { baseline := none, increments := [] } }

/-- One call of the controller, recorded. -/
def step (cfg : ControllerConfig) (t : Tracked) (op : ControllerOp) : Tracked :=
  { controller := t.controller.step cfg op
    history := t.history.record cfg t.controller op }

end Tracked

/-- Each increment covers the number after the one applied before it. -/
def ContinuousFrom : Nat → List GenericIncrementalFormat → Prop
  | _, [] => True
  | applied, msg :: rest =>
      msg.firstSeq.toNat ≤ applied + 1 ∧ applied + 1 ≤ msg.lastSeq.toNat ∧
        ContinuousFrom msg.lastSeq.toNat rest

/-- The sequence number reached by a snapshot and the increments after it. -/
def appliedThrough (baseline : UInt64) (increments : List GenericIncrementalFormat) : UInt64 :=
  ((increments.map (·.lastSeq)).getLast?).getD baseline

/-- The book of a snapshot followed by the level updates of the increments, in order. -/
def replay (depth : Nat) (depth_pos : 0 < depth) (snap : GenericSnapshotFormat)
    (increments : List GenericIncrementalFormat) : OrderBook :=
  increments.foldl applyIncrementUpdate (loadSnapshot (OrderBook.empty depth depth_pos) snap)

/-- Every sequence number of a call is below `2 ^ 64 - 1`, so that its successor does not wrap. -/
def ControllerOp.SeqBelow : ControllerOp → Prop
  | .snapshot msg _ => msg.lastUpdateId.toNat < 2 ^ 64 - 1
  | .increment msg => msg.firstSeq.toNat < 2 ^ 64 - 1 ∧ msg.lastSeq.toNat < 2 ^ 64 - 1
  | .reset => True

/-!
### Chains of sequence numbers

A chain grows at its end, while `ContinuousFrom` is read from its start; these lemmas turn one into the
other.
-/

@[simp] theorem appliedThrough_snoc (baseline : UInt64) (increments : List GenericIncrementalFormat)
    (msg : GenericIncrementalFormat) :
    appliedThrough baseline (increments ++ [msg]) = msg.lastSeq := by
  simp [appliedThrough]

theorem appliedThrough_cons (baseline : UInt64) (msg : GenericIncrementalFormat)
    (rest : List GenericIncrementalFormat) :
    appliedThrough baseline (msg :: rest) = appliedThrough msg.lastSeq rest := by
  simp [appliedThrough, List.getLast?_cons]

theorem ContinuousFrom.snoc {baseline : UInt64} {increments : List GenericIncrementalFormat}
    {msg : GenericIncrementalFormat} (chain : ContinuousFrom baseline.toNat increments)
    (first : msg.firstSeq.toNat ≤ (appliedThrough baseline increments).toNat + 1)
    (last : (appliedThrough baseline increments).toNat + 1 ≤ msg.lastSeq.toNat) :
    ContinuousFrom baseline.toNat (increments ++ [msg]) := by
  induction increments generalizing baseline with
  | nil => exact ⟨first, last, trivial⟩
  | cons head rest ih =>
      rw [appliedThrough_cons] at first last
      exact ⟨chain.1, chain.2.1, ih chain.2.2 first last⟩

/-- Along a chain the applied number grows at every increment. -/
theorem ContinuousFrom.increasing {baseline : UInt64} {increments : List GenericIncrementalFormat}
    (chain : ContinuousFrom baseline.toNat increments) :
    (baseline :: increments.map (·.lastSeq)).IsChain (· < ·) := by
  induction increments generalizing baseline with
  | nil => exact .singleton _
  | cons head rest ih =>
      obtain ⟨-, hlast, hrest⟩ := chain
      exact .cons_cons (UInt64.lt_iff_toNat_lt.mpr hlast) (ih hrest)

/-!
### What the history explains

The history is no part of the code. It is recorded beside the controller, and the invariant says that
replaying it gives the controller's book and number; the checks for gaps make it continuous.
-/

/-- The history accounts for everything in the controller. -/
structure Explained (depth : Nat) (depth_pos : 0 < depth) (t : Tracked)
    (snap : GenericSnapshotFormat) : Prop where
  baseline : t.history.baseline = some snap
  chain : ContinuousFrom snap.lastUpdateId.toNat t.history.increments
  applied : t.controller.getAppliedSeqID = appliedThrough snap.lastUpdateId t.history.increments
  book : t.controller.book = replay depth depth_pos snap t.history.increments

/-- Invariant of a tracked controller: the one of the controller, a depth and a number that cannot wrap,
    and an explanation whenever there is a baseline. -/
structure Tracked.Inv (depth : Nat) (depth_pos : 0 < depth) (t : Tracked) : Prop where
  controller : t.controller.Inv
  depth_eq : t.controller.book.depth = depth
  below : t.controller.lastSeq.toNat < 2 ^ 64 - 1
  explained : t.controller.state ≠ .waitingSnapshot → ∃ snap, Explained depth depth_pos t snap

namespace Tracked

variable {cfg : ControllerConfig} {depth : Nat} {depth_pos : 0 < depth} {t : Tracked}

theorem inv_new (depth : Nat) (depth_pos : 0 < depth) : (new depth depth_pos).Inv depth depth_pos :=
  ⟨OrderBookController.inv_new depth depth_pos, rfl, Nat.zero_lt_succ _, fun h => absurd rfl h⟩

/-- A reset controller needs no explanation. -/
theorem inv_resetWith (inv : t.Inv depth depth_pos) (counter : Nat) (history : History) :
    Inv depth depth_pos { controller := t.controller.resetWith counter, history := history } :=
  ⟨OrderBookController.inv_resetWith _ counter, inv.depth_eq, Nat.zero_lt_succ _,
    fun h => absurd rfl h⟩

/-- The two neighbours of an increment that applies: it starts no later than the number after the applied
    one, and ends no earlier. -/
theorem Inv.next_le (inv : t.Inv depth depth_pos) (strict : cfg.allowSeqGap = false)
    (noChecksum : cfg.checksumFn = none) {msg : GenericIncrementalFormat}
    (applies : Applies cfg t.controller msg) :
    msg.lastSeq ≠ 0 ∧ msg.firstSeq.toNat ≤ t.controller.lastSeq.toNat + 1 ∧
      t.controller.lastSeq.toNat + 1 ≤ msg.lastSeq.toNat := by
  have hseq : msg.lastSeq ≠ 0 := by
    intro hzero
    simpa [noChecksum] using applies.guarded hzero
  have hnext : t.controller.expectedSeq.toNat = t.controller.lastSeq.toNat + 1 := by
    have hbelow := inv.below
    rw [inv.controller.next applies.baseline, UInt64.toNat_add]
    exact Nat.mod_eq_of_lt (by simp; omega)
  have hcurrent := applies.current hseq
  have hgap := applies.gapless hseq strict
  rw [UInt64.lt_iff_toNat_lt] at hcurrent hgap
  exact ⟨hseq, by omega, by omega⟩

/-- An applied increment extends the explanation. -/
theorem Inv.applied (inv : t.Inv depth depth_pos) (strict : cfg.allowSeqGap = false)
    (noChecksum : cfg.checksumFn = none) {msg : GenericIncrementalFormat}
    (below : msg.lastSeq.toNat < 2 ^ 64 - 1) (applies : Applies cfg t.controller msg)
    (counter : Nat) :
    Inv depth depth_pos
      { controller := t.controller.appliedWith msg counter
        history := { t.history with increments := t.history.increments ++ [msg] } } := by
  obtain ⟨hseq, hfirst, hlast⟩ := inv.next_le strict noChecksum applies
  obtain ⟨snap, explained⟩ := inv.explained applies.baseline
  have hlastSeq : (t.controller.appliedWith msg counter).lastSeq = msg.lastSeq := by
    simp [appliedWith, OrderBookController.applied, hseq]
  refine ⟨inv.controller.appliedWith applies counter, ?_, ?_, fun _ => ⟨snap, ?_⟩⟩
  · exact (depth_applyIncrementUpdate t.controller.book msg).trans inv.depth_eq
  · simpa only [hlastSeq] using below
  · have happlied : t.controller.lastSeq = appliedThrough snap.lastUpdateId t.history.increments :=
      explained.applied
    refine ⟨explained.baseline, ?_, ?_, ?_⟩
    · exact explained.chain.snoc (happlied ▸ hfirst) (happlied ▸ hlast)
    · simpa [getAppliedSeqID] using hlastSeq
    · have hbook : (t.controller.appliedWith msg counter).book =
          applyIncrementUpdate t.controller.book msg := rfl
      rw [hbook, explained.book]
      simp [replay]

/-- An accepted snapshot starts a new explanation. -/
theorem Inv.loaded (inv : t.Inv depth depth_pos) {msg : GenericSnapshotFormat}
    (below : msg.lastUpdateId.toNat < 2 ^ 64 - 1) (kind : BaselineKind) :
    Inv depth depth_pos
      { controller := t.controller.loaded msg (baselineState kind)
        history := { baseline := some msg, increments := [] } } := by
  refine ⟨inv_loaded t.controller msg kind, ?_, below, fun _ => ⟨msg, rfl, trivial, rfl, ?_⟩⟩
  · exact (depth_loadSnapshot t.controller.book msg).trans inv.depth_eq
  · exact loadSnapshot_congr inv.depth_eq msg

/-- One call keeps the invariant. -/
theorem Inv.step (inv : t.Inv depth depth_pos) (strict : cfg.allowSeqGap = false)
    (noChecksum : cfg.checksumFn = none) {op : ControllerOp} (below : op.SeqBelow) :
    (t.step cfg op).Inv depth depth_pos := by
  cases op with
  | snapshot msg kind =>
      have hloaded := onSnapshot_of_no_checksum noChecksum t.controller msg kind
      simpa [Tracked.step, OrderBookController.step, call, History.record, hloaded, Outcome.action]
        using inv.loaded below kind
  | increment msg =>
      have outcome := onIncrement_cases cfg t.controller msg
      simp only [Tracked.step, OrderBookController.step, call, History.record]
      cases hcase : t.controller.onIncrement cfg msg with
      | mk c reason =>
          rw [hcase] at outcome
          cases outcome with
          | skipped old =>
              -- what is skipped does not apply, so neither half of the pair moves
              have hnot : ¬ Applies cfg t.controller msg := by
                intro applies
                rcases old with hwait | ⟨hseq, hlt⟩
                · exact applies.baseline hwait
                · exact applies.current hseq hlt
              simpa [hnot] using inv
          | resynced reason counter => exact inv_resetWith inv counter _
          | applied counter applies =>
              simpa [applies] using inv.applied strict noChecksum below.2 applies counter
  | reset => exact inv_resetWith inv t.controller.validateCounter t.history

/-- The invariant along every run of strict calls whose numbers do not wrap. -/
theorem inv_run (strict : cfg.allowSeqGap = false) (noChecksum : cfg.checksumFn = none)
    {ops : List ControllerOp} (below : ∀ op ∈ ops, op.SeqBelow) :
    (Runs.run (Tracked.step cfg) (new depth depth_pos) ops).Inv depth depth_pos := by
  have along : Runs.Along (Tracked.step cfg) (fun _ op => op.SeqBelow) (new depth depth_pos) ops :=
    Runs.along_of_forall below _
  exact along.invariant (fun _ _ inv hop => inv.step strict noChecksum hop) (inv_new depth depth_pos)

/-- Tracking does not change what the controller does. -/
theorem controller_run (cfg : ControllerConfig) (t : Tracked) (ops : List ControllerOp) :
    (Runs.run (Tracked.step cfg) t ops).controller =
      Runs.run (OrderBookController.step cfg) t.controller ops := by
  induction ops generalizing t with
  | nil => rfl
  | cons op ops ih => exact ih (t.step cfg op)

end Tracked

/-!
### Result
-/

/-- Strict sequence continuity: with gaps refused, no checksum function and numbers that do not wrap,
    every synced state has a most recent snapshot; the increments applied since cover every number from
    it on without a hole, the applied number is the last of theirs and grew at each of them, the next
    applied increment raises it again, and the book is theirs replayed over the snapshot's. -/
theorem strict_sequence_continuity (cfg : ControllerConfig) (strict : cfg.allowSeqGap = false)
    (noChecksum : cfg.checksumFn = none) (depth : Nat) (depth_pos : 0 < depth)
    (ops : List ControllerOp) (below : ∀ op ∈ ops, op.SeqBelow) :
    let t := Runs.run (Tracked.step cfg) (Tracked.new depth depth_pos) ops
    t.controller =
        Runs.run (OrderBookController.step cfg) (OrderBookController.new depth depth_pos) ops ∧
      (t.controller.isSynced = true →
        ∃ snap, t.history.baseline = some snap ∧
          ContinuousFrom snap.lastUpdateId.toNat t.history.increments ∧
          t.controller.getAppliedSeqID = appliedThrough snap.lastUpdateId t.history.increments ∧
          (snap.lastUpdateId :: t.history.increments.map (·.lastSeq)).IsChain (· < ·) ∧
          t.controller.book = replay depth depth_pos snap t.history.increments) ∧
      (∀ msg, Applies cfg t.controller msg → (t.controller.onIncrement cfg msg).action = .none →
        t.controller.getAppliedSeqID < (t.controller.onIncrement cfg msg).1.getAppliedSeqID) := by
  intro t
  have inv : t.Inv depth depth_pos := Tracked.inv_run strict noChecksum below
  refine ⟨Tracked.controller_run cfg _ ops, ?_, ?_⟩
  · intro hsynced
    have hbaseline : t.controller.state ≠ .waitingSnapshot := by
      intro hwait
      simp [isSynced, hwait] at hsynced
    obtain ⟨snap, explained⟩ := inv.explained hbaseline
    exact ⟨snap, explained.baseline, explained.chain, explained.applied,
      explained.chain.increasing, explained.book⟩
  · intro msg applies haction
    obtain ⟨hseq, -, hlast⟩ := inv.next_le strict noChecksum applies
    have outcome := onIncrement_cases cfg t.controller msg
    cases hcase : t.controller.onIncrement cfg msg with
    | mk c reason =>
        rw [hcase] at outcome haction
        cases outcome with
        | skipped old =>
            rcases old with hwait | ⟨hseq', hlt⟩
            · exact absurd hwait applies.baseline
            · exact absurd hlt (applies.current hseq')
        | resynced reason counter => cases haction
        | applied counter =>
            simpa [getAppliedSeqID, appliedWith, OrderBookController.applied, hseq,
              UInt64.lt_iff_toNat_lt] using Nat.lt_of_succ_le hlast

/-- A snapshot of sequence 4, an increment of 3 to 6 that overlaps it, an old one, and one of 7. -/
theorem strict_sequence_continuity_overlap :
    let increment (first last : UInt64) : GenericIncrementalFormat :=
      ⟨first, last, 0, 0, 0, [⟨100 + last.toNat, 1, "", ""⟩], []⟩
    let ops : List ControllerOp :=
      [.snapshot ⟨4, 0, 0, [], []⟩ .restAnchored, .increment (increment 3 6),
        .increment (increment 2 5), .increment (increment 7 7)]
    let t := Runs.run (Tracked.step {}) (Tracked.new 5 (by decide)) ops
    t.controller.isSynced = true ∧ t.history.increments = [increment 3 6, increment 7 7] ∧
      ∃ snap, t.history.baseline = some snap ∧
        ContinuousFrom snap.lastUpdateId.toNat t.history.increments := by
  intro increment ops t
  have hsynced : t.controller.isSynced = true := by decide
  obtain ⟨-, h, -⟩ := strict_sequence_continuity {} rfl rfl 5 (by decide) ops
    (by intro op hop; simp [ops] at hop; rcases hop with rfl | rfl | rfl | rfl <;>
          simp [ControllerOp.SeqBelow, increment])
  obtain ⟨snap, hbaseline, hchain, -⟩ := h hsynced
  exact ⟨hsynced, by decide, snap, hbaseline, hchain⟩

end ZidaBot
