/-
Module: ZidaBot.Proofs.Checksums
Purpose: Which controllers enforce checksums.  A controller checks an increment against the function that
  the capabilities of the adapter name, and against nothing else.  With the CRC-32 check wired in, no
  increment that fails it is accepted in any run; without a function every non-zero checksum is.  The OKX
  adapter declares checksums and names no function.
Trusted boundary: none
Main exports: EnforcesChecksums, enforces_of_wired, not_enforces_of_unwired, okx_checksums_unenforced
-/
import ZidaBot.Common.CheckSumUtils
import ZidaBot.Feed.GenericFeedHandler
import ZidaBot.Proofs.OrderBookController

namespace ZidaBot.Feed

open Runs OrderBookController

/-- The controller of a feed after some calls. -/
def controllerAfter (cfg : HandlerConfig) (ops : List ControllerOp) : OrderBookController :=
  run (OrderBookController.step cfg.controllerConfig) (.new cfg.depth cfg.depth_pos) ops

/-- In every run: a sequenced increment with a checksum that is applied in the state `Synced` without asking
    for a resync leaves a book that passes the check over 25 levels. -/
def EnforcesChecksums (CRC32Checksum : String → UInt32) (cfg : HandlerConfig) : Prop :=
  ∀ (ops : List ControllerOp) (msg : GenericIncrementalFormat),
    let c := controllerAfter cfg ops
    c.state = .synced → msg.lastSeq ≠ 0 → msg.checksum ≠ 0 → ¬ msg.lastSeq < c.expectedSeq →
      (c.onIncrement cfg.controllerConfig msg).action = .none →
      checkBitgetCRC32 CRC32Checksum (c.onIncrement cfg.controllerConfig msg).1.book msg.checksum 25 = true

variable {CRC32Checksum : String → UInt32} {cfg : HandlerConfig}

/-- Capabilities that name the check over 25 levels enforce it. -/
theorem enforces_of_wired (wired : cfg.adapter.caps.checksumFn = some (checkBitgetCRC32 CRC32Checksum))
    (topN : cfg.adapter.caps.checksumTopN = 25) : EnforcesChecksums CRC32Checksum cfg := by
  intro ops msg c hsynced hseq _ hcurrent hnone
  have hcase := onIncrement_cases cfg.controllerConfig c msg
  generalize c.onIncrement cfg.controllerConfig msg = outcome at hcase hnone
  cases hcase with
  | skipped reason =>
      rcases reason with hwaiting | hold
      · rw [hsynced] at hwaiting
        cases hwaiting
      · exact absurd hold.2 hcurrent
  | resynced reason counter => cases hnone
  | applied counter applies uncrossed checked =>
      have hchecked := (checked _ wired).2
      have htop : cfg.controllerConfig.checksumTopN = 25 := topN
      rw [htop] at hchecked
      exact hchecked

/-- A snapshot without levels. -/
def bareSnapshot : GenericSnapshotFormat :=
  { lastUpdateId := 1, tsRecvNs := 0, checksum := 0, bids := [], asks := [] }

/-- The increment after it, which changes no level. -/
def bareIncrement (checksum : Int) : GenericIncrementalFormat :=
  { firstSeq := 2, lastSeq := 2, prevLast := 1, tsRecvNs := 0, checksum := checksum, bids := [], asks := [] }

/-- The controller of a feed without a checksum function, after that snapshot. -/
theorem controllerAfter_bare (unwired : cfg.adapter.caps.checksumFn = none) :
    controllerAfter cfg [.snapshot bareSnapshot .wsAuthoritative] =
      { book := OrderBook.empty cfg.depth cfg.depth_pos, state := .synced, lastSeq := 1, expectedSeq := 2
        validateCounter := 0 } := by
  have hfn : cfg.controllerConfig.checksumFn = none := unwired
  simp [controllerAfter, run, OrderBookController.step, OrderBookController.call, onSnapshot, hfn,
    bareSnapshot, OrderBookController.new, resetBook, loadSnapshot, snapshotLevels, updateAll,
    OrderBook.clear, OrderBook.empty]

/-- Capabilities without a function accept every checksum but zero. -/
theorem onIncrement_bare_unwired (unwired : cfg.adapter.caps.checksumFn = none) {checksum : Int}
    (present : checksum ≠ 0) :
    let c := controllerAfter cfg [.snapshot bareSnapshot .wsAuthoritative]
    c.state = .synced ∧ ¬ (2 : UInt64) < c.expectedSeq ∧
      (c.onIncrement cfg.controllerConfig (bareIncrement checksum)).action = .none ∧
      (c.onIncrement cfg.controllerConfig (bareIncrement checksum)).1.book =
        OrderBook.empty cfg.depth cfg.depth_pos := by
  intro c
  have hc : c = _ := controllerAfter_bare unwired
  have hfn : cfg.controllerConfig.checksumFn = none := unwired
  have hvalid : (OrderBook.empty cfg.depth cfg.depth_pos).validate = true := rfl
  have huncrossed : crossed (OrderBook.empty cfg.depth cfg.depth_pos) = false := rfl
  have houtcome : ∃ counter, c.onIncrement cfg.controllerConfig (bareIncrement checksum) =
      ({ book := OrderBook.empty cfg.depth cfg.depth_pos, state := .synced, lastSeq := 2, expectedSeq := 3,
         validateCounter := counter }, none) := by
    rw [hc]
    simp only [onIncrement, bareIncrement, applied, applyIncrementUpdate, updateAll, List.foldl_nil,
      steadyGuards, checksumGuards, hfn, huncrossed, hvalid]
    simp only [reduceCtorEq, if_false, Option.isSome_none, Bool.false_and, Bool.false_eq_true,
      beq_eq_false_iff_ne.mpr present, Bool.and_false]
    split_ifs <;> simp_all
  obtain ⟨counter, houtcome⟩ := houtcome
  rw [houtcome, hc]
  exact ⟨rfl, show ¬ (2 : UInt64) < 2 by decide, rfl, rfl⟩

/-- So they do not enforce the check, whatever the strict mode says. -/
theorem not_enforces_of_unwired (unwired : cfg.adapter.caps.checksumFn = none) :
    ¬ EnforcesChecksums CRC32Checksum cfg := by
  intro henforces
  have hpasses : ∀ checksum : Int, checksum ≠ 0 →
      checkBitgetCRC32 CRC32Checksum (OrderBook.empty cfg.depth cfg.depth_pos) checksum 25 = true := by
    intro checksum hpresent
    obtain ⟨hsynced, hcurrent, hnone, hbook⟩ := onIncrement_bare_unwired unwired hpresent
    have hcheck := henforces [.snapshot bareSnapshot .wsAuthoritative] (bareIncrement checksum) hsynced
      (by decide : (2 : UInt64) ≠ 0) hpresent hcurrent hnone
    rw [hbook] at hcheck
    exact hcheck
  -- one book does not have two checksums
  have hone : CRC32ToSigned _ = 1 := eq_of_beq (hpasses 1 (by decide))
  have htwo : CRC32ToSigned _ = 2 := eq_of_beq (hpasses 2 (by decide))
  rw [hone] at htwo
  exact absurd htwo (by decide)

/-- No configuration of an OKX feed enforces checksums. -/
theorem okx_checksums_unenforced (CRC32Checksum : String → UInt32) (cfg : HandlerConfig)
    (okx : cfg.adapter.caps = VenueId.okx.caps) : ¬ EnforcesChecksums CRC32Checksum cfg :=
  not_enforces_of_unwired (by rw [okx]; rfl)

/-- An OKX feed in strict mode. -/
def strictOkx : HandlerConfig :=
  { adapter := .ofTraffic VenueId.okx.caps "/" [] [], depth := 400, depth_pos := defaultDepth_pos
    requireChecksum := true, validateEvery := 1 }

/-- Not even one in strict mode that validates its book at every increment. -/
theorem okx_checksums_unenforced_strict :
    strictOkx.adapter.caps = VenueId.okx.caps ∧ ¬ EnforcesChecksums (fun _ => 0) strictOkx :=
  ⟨rfl, okx_checksums_unenforced (fun _ => 0) strictOkx rfl⟩

/-- One bid and one ask, and an increment that moves the bid; of two different checksums that come with it
    both are accepted, so whatever CRC-32 computes, a wrong one is. -/
theorem okx_wrong_checksum_accepted :
    ¬ ∃ CRC32Checksum : String → UInt32, EnforcesChecksums CRC32Checksum strictOkx := by
  rintro ⟨CRC32Checksum, henforces⟩
  let level (tick : Int) (text : String) : Level :=
    { priceTick := tick, quantityLot := 1000, price := text, quantity := "1.000" }
  let snap : GenericSnapshotFormat :=
    { lastUpdateId := 1, tsRecvNs := 0, checksum := 0
      bids := [level 10000 "100.00"], asks := [level 10100 "101.00"] }
  let msg (checksum : Int) : GenericIncrementalFormat :=
    { firstSeq := 2, lastSeq := 2, prevLast := 1, tsRecvNs := 0, checksum := checksum
      bids := [level 10050 "100.50"], asks := [] }
  have hone := henforces [.snapshot snap .wsAuthoritative] (msg 1) (by decide) (by decide) (by decide)
    (by decide) (by decide)
  have htwo := henforces [.snapshot snap .wsAuthoritative] (msg 2) (by decide) (by decide) (by decide)
    (by decide) (by decide)
  have hsum : ∀ {book : OrderBook} {expected : Int},
      checkBitgetCRC32 CRC32Checksum book expected 25 = true →
        CRC32ToSigned (CRC32Checksum (":".intercalate (checksumTokens book 25))) = expected :=
    fun h => eq_of_beq h
  have hsame := (hsum hone).symm.trans (hsum htwo)
  exact absurd hsame (by decide)

end ZidaBot.Feed
