/-
Module: ZidaBot.Proofs.Staleness
Purpose: The arithmetic of timestamps, from the wire to the age guards.  `sanitize_ts` never overflows and
  bounds a stamp from above, but keeps stamps of any age; the differences that the guards of a scan form then
  overflow for stamps far below zero, and a wrapped age looks young.  Above the bound given here they do
  not, and no cross is made of a book that is too old.
Trusted boundary: none
Main exports: SanitizeInRange, eventStamp, inInt64_of_eventStamp, StampBounds, stampBounds_run, AgesExact,
  agesExact_iff
-/
import ZidaBot.Proofs.ScanGuards

namespace ZidaBot.Brain

open Feed

/-!
### Sanitized stamps

A frame may carry any 64-bit number as its stamp. `sanitize_ts` compares without overflow and bounds it from
above by the clock, so a stamp can be wrong only by being too early.
-/

/-- How far ahead of the clock a stamp may be. -/
def kMaxFutureNs : Int := 60 * 1000000000

/-- No 64-bit operation of `sanitize_ts` overflows: the two bounds, and the differences that are logged. -/
def SanitizeInRange (now ts : Int) : Prop :=
  InInt64 (now + kMaxFutureNs) ∧ (now + kMaxFutureNs < ts → InInt64 (ts - now)) ∧
    (0 < ts → InInt64 (now - 300 * 1000000000) ∧ (ts < now - 300 * 1000000000 → InInt64 (now - ts)))

/-- The clock readings considered. -/
def ClockInRange (now : Int) : Prop := 0 ≤ now ∧ now ≤ 2 ^ 62

theorem sanitizeInRange {now ts : Int} (clock : ClockInRange now) (range : InInt64 ts) :
    SanitizeInRange now ts := by
  obtain ⟨hnow, hnow'⟩ := clock
  obtain ⟨hts, hts'⟩ := range
  have hfuture : kMaxFutureNs = 60000000000 := rfl
  refine ⟨⟨by omega, by omega⟩, fun _ => ⟨by omega, by omega⟩, fun _ => ⟨⟨by omega, by omega⟩, fun _ => ?_⟩⟩
  exact ⟨by omega, by omega⟩

/-- The timestamp that an event carries for its book. -/
def eventStamp (hdr : EventHeader) (j : Json) : Option Int :=
  if hdr.eventType = "snapshot" then (parseSnapshot j).toOption.map GenericSnapshotFormat.tsRecvNs
  else if hdr.eventType = "incremental" then
    (parseIncremental j).toOption.map GenericIncrementalFormat.tsRecvNs
  else if hdr.eventType = "book_state" then (extractTsBookNs j).toOption
  else none

theorem ok_of_toOption {ε α : Type} {x : Except ε α} {a : α} (read : x.toOption = some a) : x = .ok a := by
  cases x with
  | error err => exact absurd read (by simp [Except.toOption])
  | ok b => exact congrArg Except.ok (Option.some.inj read)

theorem inInt64_of_getInt64 {j : Json} {n : Int} (read : j.getInt64 = .ok n) : InInt64 n := by
  cases j with
  | int m => exact Except.ok.inj read ▸ inInt64_wrap64 m
  | float q => exact Except.ok.inj read ▸ inInt64_wrap64 _
  | _ => exact absurd read (by simp [Json.getInt64])

theorem inInt64_of_value {j : Json} {key : String} {n : Int}
    (read : Json.value Json.getInt64 j key 0 = .ok n) : InInt64 n := by
  cases j with
  | object fields =>
      rw [Json.value_object] at read
      cases hlookup : fields.lookup key with
      | none =>
          rw [hlookup] at read
          exact Except.ok.inj read ▸ ⟨by decide, by decide⟩
      | some v =>
          rw [hlookup] at read
          exact inInt64_of_getInt64 read
  | _ => exact absurd read (by simp [Json.value])

theorem inInt64_of_parseSnapshot {j : Json} {snap : GenericSnapshotFormat} (parsed : parseSnapshot j = .ok snap) :
    InInt64 snap.tsRecvNs := by
  simp only [parseSnapshot, bind_ok_iff, pure_ok_iff] at parsed
  obtain ⟨-, -, ts, hts, -, -, -, -, -, -, -, -, -, -, rfl⟩ := parsed
  exact inInt64_of_value hts

theorem inInt64_of_parseIncremental {j : Json} {inc : GenericIncrementalFormat}
    (parsed : parseIncremental j = .ok inc) : InInt64 inc.tsRecvNs := by
  simp only [parseIncremental, bind_ok_iff, pure_ok_iff] at parsed
  obtain ⟨-, -, -, -, -, -, ts, hts, -, -, -, -, -, -, -, -, -, -, rfl⟩ := parsed
  exact inInt64_of_value hts

/-- Whatever number a frame carries, it is read as a 64-bit one. -/
theorem inInt64_of_eventStamp {hdr : EventHeader} {j : Json} {ts : Int} (stamp : eventStamp hdr j = some ts) :
    InInt64 ts := by
  rw [eventStamp] at stamp
  split at stamp
  · obtain ⟨snap, hsnap, rfl⟩ := Option.map_eq_some_iff.mp stamp
    exact inInt64_of_parseSnapshot (ok_of_toOption hsnap)
  · split at stamp
    · obtain ⟨inc, hinc, rfl⟩ := Option.map_eq_some_iff.mp stamp
      exact inInt64_of_parseIncremental (ok_of_toOption hinc)
    · split at stamp
      · exact inInt64_of_value (ok_of_toOption stamp)
      · exact absurd stamp (by simp)

/-- The stamp of a book after an event: its own, none, or the sanitized one of the event. -/
theorem tsBookNs_onEvent (now : Int) (hdr : EventHeader) (j : Json) (vb : VenueBook) :
    (vb.onEvent now hdr j).1.tsBookNs = vb.tsBookNs ∨ (vb.onEvent now hdr j).1.tsBookNs = 0 ∨
      ∃ ts, eventStamp hdr j = some ts ∧ (vb.onEvent now hdr j).1.tsBookNs = sanitizeTs now ts := by
  rw [VenueBook.onEvent, eventStamp]
  split
  · cases hparse : parseSnapshot j with
    | error err => exact Or.inl rfl
    | ok snap => exact Or.inr (Or.inr ⟨snap.tsRecvNs, rfl, rfl⟩)
  · split
    · cases hparse : parseIncremental j with
      | error err => exact Or.inl rfl
      | ok inc => exact Or.inr (Or.inr ⟨inc.tsRecvNs, rfl, rfl⟩)
    · split
      · cases hts : extractTsBookNs j with
        | error err => exact Or.inl rfl
        | ok ts =>
            refine Or.inr (Or.inr ⟨ts, rfl, ?_⟩)
            dsimp only
            split <;> rfl
      · split
        · split
          · split
            · exact Or.inr (Or.inl rfl)
            · exact Or.inl rfl
          · exact Or.inl rfl
        · exact Or.inl rfl

/-!
### Bounds of the stamps along a run

The bound from below is a condition on the events; the one from above follows. A book without a stamp has
zero, which is within both.
-/

/-- Above this stamps cannot overflow the differences of a scan. -/
def kOldestStamp : Int := -2 ^ 62 + kMaxFutureNs

/-- The stamp of a book is above the bounds. -/
def StampBounds (vb : VenueBook) : Prop := kOldestStamp < vb.tsBookNs ∧ vb.tsBookNs ≤ 2 ^ 62 + kMaxFutureNs

/-- The event is processed at a clock reading in range, and a stamp that it carries is above the bound. -/
structure StampedAbove (oldest : Int) (event : Int × Json) : Prop where
  clock : ClockInRange event.1
  stamp : ∀ hdr ts, UnifiedBook.Routed event.2 hdr → eventStamp hdr event.2 = some ts → oldest < ts

theorem sanitizeTs_bounds {now ts : Int} (clock : ClockInRange now) (above : kOldestStamp < ts) :
    kOldestStamp < sanitizeTs now ts ∧ sanitizeTs now ts ≤ 2 ^ 62 + kMaxFutureNs := by
  obtain ⟨hnow, hnow'⟩ := clock
  have hfuture : kMaxFutureNs = 60000000000 := rfl
  have holdest : kOldestStamp = -2 ^ 62 + 60000000000 := rfl
  have hwrap : wrap64 (now + 60 * 1000000000) = now + 60 * 1000000000 :=
    wrap64_of_inInt64 ⟨by omega, by omega⟩
  rw [sanitizeTs, hwrap]
  split <;> constructor <;> omega

theorem stampBounds_zero : kOldestStamp < 0 ∧ (0 : Int) ≤ 2 ^ 62 + kMaxFutureNs := by decide

theorem stampBounds_onEvent {now : Int} {hdr : EventHeader} {j : Json} {vb : VenueBook}
    (clock : ClockInRange now) (stamp : ∀ ts, eventStamp hdr j = some ts → kOldestStamp < ts)
    (bounds : StampBounds vb) : StampBounds (vb.onEvent now hdr j).1 := by
  rw [StampBounds]
  rcases tsBookNs_onEvent now hdr j vb with hsame | hzero | ⟨ts, hts, hstamp⟩
  · rw [hsame]
    exact bounds
  · rw [hzero]
    exact stampBounds_zero
  · rw [hstamp]
    exact sanitizeTs_bounds clock (stamp ts hts)

/-- One event keeps the stamps of all books above the bounds. -/
theorem stampBounds_step {ub : UnifiedBook} {event : Int × Json} (above : StampedAbove kOldestStamp event)
    (bounds : ∀ v ∈ ub.books, StampBounds v) : ∀ v ∈ (ub.step event).books, StampBounds v := by
  by_cases hrouted : ∃ hdr, UnifiedBook.Routed event.2 hdr
  · obtain ⟨hdr, routed⟩ := hrouted
    have hstamp := above.stamp hdr
    by_cases hpresent : UnifiedBook.headerKey hdr ∈ ub.keys
    · obtain ⟨before, vb, after, hbooks, hkey, hfirst⟩ := UnifiedBook.exists_first hpresent
      rw [hbooks] at bounds
      rw [UnifiedBook.step, UnifiedBook.onEvent_known routed hbooks hkey hfirst]
      intro v hv
      rcases List.mem_append.mp hv with hv | hv
      · exact bounds v (List.mem_append_left _ hv)
      · rcases List.mem_cons.mp hv with rfl | hv
        · exact stampBounds_onEvent above.clock (fun ts => hstamp ts routed) (bounds vb (by simp))
        · exact bounds v (by simp [hv])
    · rw [UnifiedBook.step, UnifiedBook.onEvent_fresh routed hpresent]
      intro v hv
      rcases List.mem_append.mp hv with hv | hv
      · exact bounds v hv
      · rw [List.mem_singleton.mp hv]
        exact stampBounds_onEvent above.clock (fun ts => hstamp ts routed) stampBounds_zero
  · rw [UnifiedBook.step, UnifiedBook.onEvent_refused fun hdr routed => hrouted ⟨hdr, routed⟩]
    exact bounds

/-- The stamps of all books along a run. -/
theorem stampBounds_run (depth : Nat) (depth_pos : 0 < depth) {events : List (Int × Json)}
    (above : ∀ event ∈ events, StampedAbove kOldestStamp event) :
    ∀ v ∈ (Runs.run UnifiedBook.step (UnifiedBook.new depth depth_pos) events).books, StampBounds v := by
  let within (ub : UnifiedBook) : Prop := ∀ v ∈ ub.books, StampBounds v
  have hnew : within (UnifiedBook.new depth depth_pos) := fun v hv => absurd hv List.not_mem_nil
  have along : Runs.Along UnifiedBook.step (fun _ event => StampedAbove kOldestStamp event)
      (UnifiedBook.new depth depth_pos) events := Runs.along_of_forall above _
  have hstep : ∀ ub event, within ub → StampedAbove kOldestStamp event → within (ub.step event) :=
    fun ub event bounds hevent => stampBounds_step hevent bounds
  exact Runs.Along.invariant hstep hnew along

/-!
### The guards of a scan

The guards form two differences, of a stamp with the clock and of two stamps. The second is the one that
decides how early a stamp may be: the example at the bound shows that no earlier one will do.
-/

/-- No difference of the age guards overflows. -/
def DifferencesInRange (tsNow : Int) (books : List VenueBook) : Prop :=
  ∀ v ∈ books, InInt64 (tsNow - v.tsBookNs) ∧
    ∀ w ∈ books, InInt64 (v.tsBookNs - w.tsBookNs) ∧ InInt64 |v.tsBookNs - w.tsBookNs|

/-- Every returned cross is one of two books that are not too old. -/
def NoneTooOld (cfg : ArbDetectorConfig) (tsNow : Int) (books : List VenueBook)
    (state : ArbDetector × ScanBuffers) : Prop :=
  ∀ cross ∈ (scanIn cfg tsNow books state).1, ∃ sv ∈ books, ∃ bv ∈ books,
    pairCross cfg tsNow sv bv = some cross ∧
      tsNow - sv.tsBookNs ≤ cfg.maxAgeDiffNs ∧ tsNow - bv.tsBookNs ≤ cfg.maxAgeDiffNs

/-- Stamps within the bounds are near enough to each other and to the clock. -/
theorem differencesInRange {tsNow : Int} {books : List VenueBook} (clock : ClockInRange tsNow)
    (bounds : ∀ v ∈ books, StampBounds v) : DifferencesInRange tsNow books := by
  obtain ⟨hnow, hnow'⟩ := clock
  have hfuture : kMaxFutureNs = 60000000000 := rfl
  have holdest : kOldestStamp = -2 ^ 62 + 60000000000 := rfl
  intro v hv
  obtain ⟨hlow, hhigh⟩ := bounds v hv
  refine ⟨⟨by omega, by omega⟩, ?_⟩
  intro w hw
  obtain ⟨hlow', hhigh'⟩ := bounds w hw
  have habs : |v.tsBookNs - w.tsBookNs| < 2 ^ 63 := abs_lt.mpr ⟨by omega, by omega⟩
  have hnonneg := abs_nonneg (v.tsBookNs - w.tsBookNs)
  exact ⟨⟨by omega, by omega⟩, ⟨by omega, habs⟩⟩

/-- The age guards as the source computes them. -/
theorem guards_of_pairCross {cfg : ArbDetectorConfig} {tsNow : Int} {sv bv : VenueBook} {cross : ArbCross}
    (enabled : 0 < cfg.maxAgeDiffNs) (found : pairCross cfg tsNow sv bv = some cross) :
    wrap64 (tsNow - sv.tsBookNs) ≤ cfg.maxAgeDiffNs ∧ wrap64 (tsNow - bv.tsBookNs) ≤ cfg.maxAgeDiffNs := by
  by_contra hold
  have hguard : 0 < cfg.maxAgeDiffNs ∧
      (cfg.maxAgeDiffNs < wrap64 (tsNow - sv.tsBookNs) ∨
        cfg.maxAgeDiffNs < wrap64 (tsNow - bv.tsBookNs) ∨
        cfg.maxAgeDiffNs < wrap64 |wrap64 (sv.tsBookNs - bv.tsBookNs)|) := by
    refine ⟨enabled, ?_⟩
    rcases not_and_or.mp hold with h | h
    · exact Or.inl (not_le.mp h)
    · exact Or.inr (Or.inl (not_le.mp h))
  simp [pairCross, if_pos hguard] at found

theorem noneTooOld {cfg : ArbDetectorConfig} {tsNow : Int} {books : List VenueBook}
    (enabled : 0 < cfg.maxAgeDiffNs) (range : DifferencesInRange tsNow books)
    (state : ArbDetector × ScanBuffers) : NoneTooOld cfg tsNow books state := by
  intro cross returned
  rw [scanIn_returned, scan_eq_offers] at returned
  obtain ⟨found, hfound, rfl⟩ := List.mem_map.mp returned
  have hcandidate := (mem_of_mem_offers hfound).resolve_left List.not_mem_nil
  obtain ⟨sv, bv, hseller, hbuyer, -, -, -, -, -, hcross⟩ := mem_candidates.mp hcandidate
  have hsv := List.mem_of_mem_take (List.mem_of_getElem? hseller)
  have hbv := List.mem_of_mem_take (List.mem_of_getElem? hbuyer)
  have hguards := guards_of_pairCross enabled hcross
  rw [wrap64_of_inInt64 (range sv hsv).1, wrap64_of_inInt64 (range bv hbv).1] at hguards
  exact ⟨sv, hsv, bv, hbv, hcross, hguards⟩

/-- Whatever events with stamps above the bound are processed, at whatever times, no operation on their
    stamps overflows and no scan afterwards returns a cross of a book that is too old. -/
def AgesExact (oldest : Int) : Prop :=
  ∀ (depth : Nat) (depth_pos : 0 < depth) (events : List (Int × Json)),
    (∀ event ∈ events, StampedAbove oldest event) →
    (∀ event ∈ events, ∀ hdr ts, eventStamp hdr event.2 = some ts → SanitizeInRange event.1 ts) ∧
      ∀ (tsNow : Int) (cfg : ArbDetectorConfig) (state : ArbDetector × ScanBuffers),
        ClockInRange tsNow → 0 < cfg.maxAgeDiffNs →
        let books := (Runs.run UnifiedBook.step (UnifiedBook.new depth depth_pos) events).venues
        DifferencesInRange tsNow books ∧ NoneTooOld cfg tsNow books state

/-- A snapshot frame is as old as its stamp. -/
theorem stampedAbove_stampedFrame (pop : Pop) {bid ask ts now oldest : Int} (bid_pos : 0 < bid)
    (bid_lt : bid < 2 ^ 63) (ask_pos : 0 < ask) (ask_lt : ask < 2 ^ 63) (range : InInt64 ts)
    (clock : ClockInRange now) (above : oldest < ts) :
    StampedAbove oldest (now, stampedFrame pop bid ask ts) := by
  refine ⟨clock, fun hdr stamp routed carried => ?_⟩
  have hhdr := routed.header.symm.trans (routed_stampedFrame pop bid ask ts).header
  cases hhdr
  rw [eventStamp, if_pos rfl, parseSnapshot_stampedFrame pop bid_pos bid_lt ask_pos ask_lt range] at carried
  exact Option.some.inj carried ▸ above

/-- One instrument on two venues. -/
def binancePop : Pop := ⟨.binance, "BTC", "USDT"⟩
@[inherit_doc binancePop]
def okxPop : Pop := ⟨.okx, "BTC", "USDT"⟩

theorem pops_differ : binancePop.key ≠ okxPop.key := by
  simp [binancePop, okxPop, Pop.key, VenueId.name]

/-- Two stamps as far apart as the bound and the clock admit: their difference overflows if the bound is any
    earlier. -/
theorem differences_overflow {oldest : Int} (exact : AgesExact oldest) : kOldestStamp ≤ oldest := by
  by_contra hbelow
  have hclock : ClockInRange (2 ^ 62) := ⟨by decide, by decide⟩
  have hold : InInt64 kOldestStamp := by decide
  have hahead : InInt64 (2 ^ 62 + kMaxFutureNs) := by decide
  have habove : ∀ event ∈ [((2 : Int) ^ 62, stampedFrame binancePop 300 400 kOldestStamp),
      (2 ^ 62, stampedFrame okxPop 100 200 (2 ^ 62 + kMaxFutureNs))], StampedAbove oldest event := by
    intro event hevent
    simp only [List.mem_cons, List.not_mem_nil, or_false] at hevent
    rcases hevent with rfl | rfl
    · exact stampedAbove_stampedFrame _ (by decide) (by decide) (by decide) (by decide) hold hclock
        (not_le.mp hbelow)
    · exact stampedAbove_stampedFrame _ (by decide) (by decide) (by decide) (by decide) hahead hclock
        ((not_le.mp hbelow).trans (by decide))
  have hscan := (exact 1 Nat.one_pos _ habove).2 (2 ^ 62) { unfiltered with maxAgeDiffNs := 1 }
    (ArbDetector.new, staleBuffers) hclock Int.one_pos
  rw [run_two_stamped pops_differ hold hahead] at hscan
  have hdiff := ((hscan.1 _ (List.mem_cons_of_mem _ (List.mem_cons_self ..))).2 _ (List.mem_cons_self ..)).1
  exact absurd hdiff (by decide)

/-!
### Result
-/

/-- The staleness arithmetic is exact for the events with stamps above a bound exactly if the bound is the one
    above or later. -/
theorem agesExact_iff (oldest : Int) : AgesExact oldest ↔ kOldestStamp ≤ oldest := by
  constructor
  · exact differences_overflow
  · intro hlate depth depth_pos events habove
    have hwithin : ∀ event ∈ events, StampedAbove kOldestStamp event := by
      intro event hevent
      have hstamped := habove event hevent
      exact ⟨hstamped.clock, fun hdr ts routed carried => hlate.trans_lt (hstamped.stamp hdr ts routed carried)⟩
    refine ⟨?_, ?_⟩
    · intro event hevent hdr ts carried
      exact sanitizeInRange (habove event hevent).clock (inInt64_of_eventStamp carried)
    · intro tsNow cfg state clock enabled books
      have hrange : DifferencesInRange tsNow books :=
        differencesInRange clock (stampBounds_run depth depth_pos hwithin)
      exact ⟨hrange, noneTooOld enabled hrange state⟩

/-- Five seconds, the only guard. -/
def fiveSeconds : ArbDetectorConfig := { unfiltered with maxAgeDiffNs := 5 * 1000000000 }

/-- Two books with the oldest of all stamps: both ages wrap to negative numbers. -/
theorem pairCross_oldest : ∃ cross,
    pairCross fiveSeconds 1 { quotedBook binancePop 1 Nat.one_pos 300 400 with tsBookNs := -2 ^ 63 }
      { quotedBook okxPop 1 Nat.one_pos 100 200 with tsBookNs := -2 ^ 63 } = some cross ∧
      cross.sellTsBookNs = -2 ^ 63 ∧ cross.buyTsBookNs = -2 ^ 63 := by
  norm_num [pairCross, fiveSeconds, unfiltered, quotedBook, VenueBook.book, OrderBook.bestBid,
    OrderBook.bestAsk, oneLot, ArbDetectorConfig.feeFor, wrap64, Int.bmod]

/-- The scan returns a cross of two books that are older than 292 years. -/
theorem stale_books_cross :
    ∃ cross ∈ (scanIn fiveSeconds 1
        (Runs.run UnifiedBook.step (UnifiedBook.new 1 Nat.one_pos)
          [(1, stampedFrame binancePop 300 400 (-2 ^ 63)), (1, stampedFrame okxPop 100 200 (-2 ^ 63))]).venues
        (ArbDetector.new, staleBuffers)).1,
      fiveSeconds.maxAgeDiffNs < 1 - cross.sellTsBookNs ∧ fiveSeconds.maxAgeDiffNs < 1 - cross.buyTsBookNs := by
  have hrange : InInt64 (-2 ^ 63) := by decide
  have hstamp : sanitizeTs 1 (-2 ^ 63) = -2 ^ 63 := by decide
  obtain ⟨cross, hcross, hsell, hbuy⟩ := pairCross_oldest
  refine ⟨cross, ?_, ?_⟩
  · rw [run_two_stamped pops_differ hrange hrange, hstamp, scanIn_returned, scan]
    dsimp only
    rw [detections_unlimited (by decide)]
    refine List.mem_map.mpr ⟨{ si := 0, bi := 1, cross := cross }, mem_candidates.mpr ?_, rfl⟩
    exact ⟨_, _, rfl, rfl, Nat.one_ne_zero, rfl, rfl, rfl, rfl, hcross⟩
  · rw [hsell, hbuy]
    decide

end ZidaBot.Brain
