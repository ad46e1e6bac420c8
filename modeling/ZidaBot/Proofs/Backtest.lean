/-
Module: ZidaBot.Proofs.Backtest
Purpose: Two replays of the same lines under two clocks.  Clocks that are later than every recorded
  timestamp leave the books alone, so the clock reaches the result in two places only: the guard on the age
  of a book, and the rate limiter.  Where the two clocks give the same verdict on every pair that passes
  the other guards, the replays return the same crosses.
Trusted boundary: none
Main exports: recordedTs, LaterClock, Candidate, HeldBack, SameVerdicts, replays_agree,
  default_replays_differ
-/
import ZidaBot.Brain.BacktestEngine
import ZidaBot.Proofs.ArbDetector

namespace ZidaBot.Brain

open Json Runs

/-!
### Recorded timestamps and the books

`sanitize_ts` reads the clock too, but lets every stamp pass that is not ahead of it. A replay comes after
its recording, so there the clock never reaches the books.
-/

/-- The timestamp that processing a line would take from it. -/
def recordedTs (line : Option Json) : Option Int :=
  match line with
  | none => none
  | some j =>
      match parseHeader j with
      | .error _ => none
      | .ok hdr =>
          if hdr.eventType = "snapshot" then (parseSnapshot j).toOption.map (·.tsRecvNs)
          else if hdr.eventType = "incremental" then (parseIncremental j).toOption.map (·.tsRecvNs)
          else if hdr.eventType = "book_state" then (extractTsBookNs j).toOption
          else none

/-- A reading that is later than a timestamp, and a minute or more before the end of the 64-bit range. -/
structure ReadAfter (now ts : Int) : Prop where
  later : ts < now
  range : InInt64 (now + 60 * 1000000000)

/-- The timestamp of an earlier event is kept. -/
theorem sanitizeTs_of_readAfter {now ts : Int} (read : ReadAfter now ts) : sanitizeTs now ts = ts := by
  have hlater := read.later
  rw [sanitizeTs, wrap64_of_inInt64 read.range, if_neg (by omega)]

/-- So the clock does not reach the book. -/
theorem VenueBook.onEvent_clock {now₁ now₂ : Int} {hdr : EventHeader} {j : Json}
    (header : parseHeader j = .ok hdr) (first : ∀ ts, recordedTs (some j) = some ts → ReadAfter now₁ ts)
    (second : ∀ ts, recordedTs (some j) = some ts → ReadAfter now₂ ts) (vb : VenueBook) :
    vb.onEvent now₁ hdr j = vb.onEvent now₂ hdr j := by
  have hsame : ∀ ts, recordedTs (some j) = some ts → sanitizeTs now₁ ts = sanitizeTs now₂ ts := by
    intro ts hts
    rw [sanitizeTs_of_readAfter (first ts hts), sanitizeTs_of_readAfter (second ts hts)]
  simp only [recordedTs, header] at hsame
  simp only [VenueBook.onEvent]
  split
  · rename_i htype
    cases hparse : parseSnapshot j with
    | error e => rfl
    | ok snap => simp [hsame snap.tsRecvNs (by simp [htype, hparse, Except.toOption])]
  · rename_i hsnapshot
    split
    · rename_i htype
      cases hparse : parseIncremental j with
      | error e => rfl
      | ok inc => simp [hsame inc.tsRecvNs (by simp [htype, hparse, Except.toOption])]
    · rename_i hincremental
      split
      · rename_i htype
        cases hparse : extractTsBookNs j with
        | error e => rfl
        | ok ts => simp [hsame ts (by simp [htype, hparse, Except.toOption])]
      · rfl

theorem UnifiedBook.onEvent_clock {now₁ now₂ : Int} {j : Json}
    (first : ∀ ts, recordedTs (some j) = some ts → ReadAfter now₁ ts)
    (second : ∀ ts, recordedTs (some j) = some ts → ReadAfter now₂ ts) (ub : UnifiedBook) :
    ub.onEvent now₁ j = ub.onEvent now₂ j := by
  rw [UnifiedBook.onEvent, UnifiedBook.onEvent]
  cases hparse : parseHeader j with
  | error e => rfl
  | ok hdr => simp only [VenueBook.onEvent_clock hparse first second]

/-!
### The clock in a pair

What is left of the clock in `pairCross` and in the limiter is a verdict on a pair, `HeldBack`. It is a
condition on the state before the line.
-/

/-- The guard on a book's own age. -/
def TooOld (cfg : ArbDetectorConfig) (now : Int) (vb : VenueBook) : Prop :=
  0 < cfg.maxAgeDiffNs ∧ cfg.maxAgeDiffNs < wrap64 (now - vb.tsBookNs)

/-- The guard on the distance of two books. -/
def Apart (cfg : ArbDetectorConfig) (sv bv : VenueBook) : Prop :=
  0 < cfg.maxAgeDiffNs ∧ cfg.maxAgeDiffNs < wrap64 |wrap64 (sv.tsBookNs - bv.tsBookNs)|

/-- The rate limiter's answer, by the last emission it remembers for the pair. -/
def RateLimited (cfg : ArbDetectorConfig) (now : Int) (last : Option Int) : Prop :=
  0 < cfg.rateLimitNs ∧ ∃ emitted, last = some emitted ∧ wrap64 (now - emitted) < cfg.rateLimitNs

instance (cfg : ArbDetectorConfig) (now : Int) (vb : VenueBook) : Decidable (TooOld cfg now vb) :=
  inferInstanceAs (Decidable (_ ∧ _))

instance (cfg : ArbDetectorConfig) (sv bv : VenueBook) : Decidable (Apart cfg sv bv) :=
  inferInstanceAs (Decidable (_ ∧ _))

/-- The configuration without the age guards. -/
def ageless (cfg : ArbDetectorConfig) : ArbDetectorConfig := { cfg with maxAgeDiffNs := 0 }

/-- A cross with another time of detection. -/
def ArbCross.stamped (now : Int) (cross : ArbCross) : ArbCross := { cross with tsDetectedNs := now }

/-- The age guards apart, the clock shows in the time of detection only. -/
theorem pairCross_eq (cfg : ArbDetectorConfig) (now : Int) (sv bv : VenueBook) :
    pairCross cfg now sv bv =
      if TooOld cfg now sv ∨ TooOld cfg now bv ∨ Apart cfg sv bv then none
      else (pairCross (ageless cfg) 0 sv bv).map (ArbCross.stamped now) := by
  have hguards : (0 < cfg.maxAgeDiffNs ∧
      (cfg.maxAgeDiffNs < wrap64 (now - sv.tsBookNs) ∨ cfg.maxAgeDiffNs < wrap64 (now - bv.tsBookNs) ∨
        cfg.maxAgeDiffNs < wrap64 |wrap64 (sv.tsBookNs - bv.tsBookNs)|)) ↔
      TooOld cfg now sv ∨ TooOld cfg now bv ∨ Apart cfg sv bv := by
    rw [TooOld, TooOld, Apart, and_or_left, and_or_left]
  have hoff : ¬ 0 < (ageless cfg).maxAgeDiffNs := lt_irrefl 0
  have hcap : (ageless cfg).maxSpreadBps = cfg.maxSpreadBps := rfl
  have hmin : (ageless cfg).minSpreadBps = cfg.minSpreadBps := rfl
  have hfee : ∀ venue, (ageless cfg).feeFor venue = cfg.feeFor venue := fun _ => rfl
  simp only [pairCross, hguards, hoff, hcap, hmin, hfee, false_and, if_false]
  by_cases hold : TooOld cfg now sv ∨ TooOld cfg now bv ∨ Apart cfg sv bv
  · simp only [hold, if_true]
    split_ifs <;> rfl
  · simp only [hold, if_false]
    split_ifs <;> rfl

theorem checkRateLimit_eq (cfg : ArbDetectorConfig) (d : ArbDetector) (key : String) (now : Int) :
    (RateLimited cfg now (d.lastEmitNs.lookup key) → d.checkRateLimit cfg key now = (d, false)) ∧
      (¬ RateLimited cfg now (d.lastEmitNs.lookup key) → d.checkRateLimit cfg key now =
        (if cfg.rateLimitNs ≤ 0 then d else { d with lastEmitNs := (key, now) :: d.lastEmitNs }, true)) := by
  rw [ArbDetector.checkRateLimit, RateLimited]
  by_cases hoff : cfg.rateLimitNs ≤ 0
  · simp [hoff, Int.not_lt.mpr hoff]
  · cases hlast : d.lastEmitNs.lookup key with
    | none => simp [hoff]
    | some emitted =>
        have hon : 0 < cfg.rateLimitNs := Int.not_le.mp hoff
        by_cases hrecent : wrap64 (now - emitted) < cfg.rateLimitNs
        · simp [hoff, hon, hrecent]
        · simp [hoff, hrecent]

/-- The limiter's key of a pair. -/
def pairKey (sv bv : VenueBook) : String := sv.venueName ++ ":" ++ bv.venueName

/-- A directed pair of scanned books that passes every guard that does not look at the clock. -/
structure Candidate (cfg : ArbDetectorConfig) (venues : List VenueBook) (sv bv : VenueBook) : Prop where
  positions : ∃ si bi : Nat, bi ≠ si ∧ venues[si]? = some sv ∧ venues[bi]? = some bv
  sellSynced : sv.synced = true
  buySynced : bv.synced = true
  sellNormal : priceAnomaly cfg venues sv = false
  buyNormal : priceAnomaly cfg venues bv = false
  together : ¬ Apart cfg sv bv
  crosses : (pairCross (ageless cfg) 0 sv bv).isSome = true

/-- The clock holds the pair back: one of its books is too old, or it was emitted too recently. -/
def HeldBack (cfg : ArbDetectorConfig) (memory : List (String × Int)) (now : Int) (sv bv : VenueBook) :
    Prop :=
  TooOld cfg now sv ∨ TooOld cfg now bv ∨ RateLimited cfg now (memory.lookup (pairKey sv bv))

/-!
### Two scans of the same books

The verdicts are given at the start of a scan, the limiter's memory changes during it. The two loops are
followed side by side: a pair that was emitted was emitted in both, so an agreement at the start is one
throughout.
-/

section Twin

variable {cfg : ArbDetectorConfig} {venues : List VenueBook} {now₁ now₂ : Int}
  {before₁ before₂ : List (String × Int)}

/-- A detection up to the time of detection. -/
def Detection.timeless (d : Detection) : Detection := { d with cross := d.cross.stamped 0 }

/-- Two scans side by side: they have found the same, and each pair was emitted by both or has the memory
    it had before. -/
structure Twin (before₁ before₂ : List (String × Int)) (now₁ now₂ : Int)
    (acc₁ acc₂ : ArbDetector × List Detection) : Prop where
  found : acc₁.2.map Detection.timeless = acc₂.2.map Detection.timeless
  memory : ∀ key,
    (acc₁.1.lastEmitNs.lookup key = some now₁ ∧ acc₂.1.lastEmitNs.lookup key = some now₂) ∨
      acc₁.1.lastEmitNs.lookup key = before₁.lookup key ∧ acc₂.1.lastEmitNs.lookup key = before₂.lookup key

/-- The verdicts on a candidate agree in the middle of the scan as well. -/
theorem Twin.heldBack_iff {acc₁ acc₂ : ArbDetector × List Detection}
    (twin : Twin before₁ before₂ now₁ now₂ acc₁ acc₂) {sv bv : VenueBook}
    (verdict : HeldBack cfg before₁ now₁ sv bv ↔ HeldBack cfg before₂ now₂ sv bv) :
    HeldBack cfg acc₁.1.lastEmitNs now₁ sv bv ↔ HeldBack cfg acc₂.1.lastEmitNs now₂ sv bv := by
  rcases twin.memory (pairKey sv bv) with ⟨hfirst, hsecond⟩ | ⟨hfirst, hsecond⟩
  · by_cases hon : 0 < cfg.rateLimitNs
    · -- emitted a moment ago by both
      have hlimited : ∀ now, RateLimited cfg now (some now) := by
        intro now
        refine ⟨hon, now, rfl, ?_⟩
        rw [Int.sub_self]
        exact hon
      rw [HeldBack, HeldBack, hfirst, hsecond]
      exact iff_of_true (Or.inr (Or.inr (hlimited now₁))) (Or.inr (Or.inr (hlimited now₂)))
    · have hnever : ∀ now last, ¬ RateLimited cfg now last := fun _ _ h => hon h.1
      simpa only [HeldBack, hnever, or_false] using verdict
  · rw [HeldBack, HeldBack, hfirst, hsecond]
    exact verdict

/-- A pair that does not pass the other guards is passed over, whatever the clock says. -/
theorem scanBuy_of_not_candidate {si bi : Nat} {sv bv : VenueBook} (seller : venues[si]? = some sv)
    (sellSynced : sv.synced = true) (sellNormal : priceAnomaly cfg venues sv = false)
    (buyer : venues[bi]? = some bv) (other : bi = si ∨ ¬ Candidate cfg venues sv bv) (now : Int)
    (acc : ArbDetector × List Detection) : scanBuy cfg now venues si sv acc (bv, bi) = acc := by
  rw [scanBuy]
  split
  · rfl
  · rename_i hne
    have hother := other.resolve_left hne
    split
    · rfl
    · rename_i hguard
      simp only [Bool.or_eq_true, Bool.not_eq_true', not_or, Bool.not_eq_false,
        Bool.not_eq_true] at hguard
      have hnone : pairCross cfg now sv bv = none := by
        rw [pairCross_eq]
        split
        · rfl
        · rename_i hclock
          rw [not_or, not_or] at hclock
          cases hcross : pairCross (ageless cfg) 0 sv bv with
          | none => rfl
          | some cross =>
              exact (hother ⟨⟨si, bi, hne, seller, buyer⟩, sellSynced, hguard.1, sellNormal, hguard.2,
                hclock.2.2, by rw [hcross]; rfl⟩).elim
      rw [hnone]

/-- The detector after an emission. -/
def emitted (cfg : ArbDetectorConfig) (now : Int) (d : ArbDetector) (key : String) (cross : ArbCross) :
    ArbDetector :=
  (if cfg.rateLimitNs ≤ 0 then d else { d with lastEmitNs := (key, now) :: d.lastEmitNs }).emit cross

theorem lookup_emitted (cfg : ArbDetectorConfig) (now : Int) (d : ArbDetector) (key other : String)
    (cross : ArbCross) :
    (emitted cfg now d key cross).lastEmitNs.lookup other =
      if 0 < cfg.rateLimitNs ∧ other = key then some now else d.lastEmitNs.lookup other := by
  have hemit : ∀ d : ArbDetector, (d.emit cross).lastEmitNs = d.lastEmitNs := by
    intro d
    rw [ArbDetector.emit]
    split <;> rfl
  rw [emitted, hemit]
  by_cases hoff : cfg.rateLimitNs ≤ 0
  · simp [hoff, Int.not_lt.mpr hoff]
  · rw [if_neg hoff, List.lookup_cons]
    by_cases hkey : other = key
    · simp [hkey, Int.not_le.mp hoff]
    · simp [hkey, beq_eq_false_iff_ne.mpr hkey]

/-- A candidate is emitted unless the clock holds it back. -/
theorem scanBuy_of_candidate {si bi : Nat} {sv bv : VenueBook} (positions : bi ≠ si)
    (candidate : Candidate cfg venues sv bv) {cross : ArbCross}
    (crosses : pairCross (ageless cfg) 0 sv bv = some cross) (now : Int)
    (acc : ArbDetector × List Detection) :
    (HeldBack cfg acc.1.lastEmitNs now sv bv → scanBuy cfg now venues si sv acc (bv, bi) = acc) ∧
      (¬ HeldBack cfg acc.1.lastEmitNs now sv bv → scanBuy cfg now venues si sv acc (bv, bi) =
        (emitted cfg now acc.1 (pairKey sv bv) (cross.stamped now),
          acc.2 ++ [{ si := si, bi := bi, cross := cross.stamped now }])) := by
  have hpass : (!bv.synced || priceAnomaly cfg venues bv) = false := by
    simp [candidate.buySynced, candidate.buyNormal]
  have hlimit := checkRateLimit_eq cfg acc.1 (pairKey sv bv) now
  rw [pairKey] at hlimit
  simp only [scanBuy, positions, if_false, hpass, Bool.false_eq_true, pairCross_eq cfg now, crosses,
    candidate.together, or_false, HeldBack, pairKey, emitted]
  by_cases hold : TooOld cfg now sv ∨ TooOld cfg now bv
  · rw [← or_assoc]
    simp [hold]
  · rw [← or_assoc]
    simp only [hold, if_false, Option.map_some, false_or]
    refine ⟨fun hlimited => ?_, fun hfree => ?_⟩
    · rw [hlimit.1 hlimited]
    · rw [hlimit.2 hfree]

/-- The verdicts of the two clocks on every candidate of a scan. -/
def ScanVerdicts (cfg : ArbDetectorConfig) (venues : List VenueBook) (before₁ before₂ : List (String × Int))
    (now₁ now₂ : Int) : Prop :=
  ∀ sv bv, Candidate cfg venues sv bv →
    (HeldBack cfg before₁ now₁ sv bv ↔ HeldBack cfg before₂ now₂ sv bv)

/-- The inner loop keeps the two scans together. -/
theorem Twin.scanBuy (verdicts : ScanVerdicts cfg venues before₁ before₂ now₁ now₂) {si : Nat}
    {sv : VenueBook} (seller : venues[si]? = some sv) (sellSynced : sv.synced = true)
    (sellNormal : priceAnomaly cfg venues sv = false) {acc₁ acc₂ : ArbDetector × List Detection}
    (twin : Twin before₁ before₂ now₁ now₂ acc₁ acc₂) {entry : VenueBook × Nat}
    (buyer : entry ∈ venues.zipIdx) :
    Twin before₁ before₂ now₁ now₂ (Brain.scanBuy cfg now₁ venues si sv acc₁ entry)
      (Brain.scanBuy cfg now₂ venues si sv acc₂ entry) := by
  obtain ⟨bv, bi⟩ := entry
  have hbuyer : venues[bi]? = some bv := List.mem_zipIdx_iff_getElem?.mp buyer
  by_cases hcandidate : bi ≠ si ∧ Candidate cfg venues sv bv
  · obtain ⟨hne, candidate⟩ := hcandidate
    obtain ⟨cross, hcross⟩ := Option.isSome_iff_exists.mp candidate.crosses
    have hfirst := scanBuy_of_candidate hne candidate hcross now₁ acc₁
    have hsecond := scanBuy_of_candidate hne candidate hcross now₂ acc₂
    have hverdict := twin.heldBack_iff (verdicts sv bv candidate)
    by_cases hheld : HeldBack cfg acc₁.1.lastEmitNs now₁ sv bv
    · rw [hfirst.1 hheld, hsecond.1 (hverdict.mp hheld)]
      exact twin
    · rw [hfirst.2 hheld, hsecond.2 (mt hverdict.mpr hheld)]
      refine ⟨?_, fun key => ?_⟩
      · rw [List.map_append, List.map_append, twin.found]
        rfl
      · rw [lookup_emitted, lookup_emitted]
        split
        · exact Or.inl ⟨rfl, rfl⟩
        · exact twin.memory key
  · have hother : bi = si ∨ ¬ Candidate cfg venues sv bv := by
      rw [not_and_or, not_not] at hcandidate
      exact hcandidate
    rw [scanBuy_of_not_candidate seller sellSynced sellNormal hbuyer hother,
      scanBuy_of_not_candidate seller sellSynced sellNormal hbuyer hother]
    exact twin

/-- So does the outer loop. -/
theorem Twin.scanSell (verdicts : ScanVerdicts cfg venues before₁ before₂ now₁ now₂)
    {acc₁ acc₂ : ArbDetector × List Detection} (twin : Twin before₁ before₂ now₁ now₂ acc₁ acc₂)
    {entry : VenueBook × Nat} (seller : entry ∈ venues.zipIdx) :
    Twin before₁ before₂ now₁ now₂ (Brain.scanSell cfg now₁ venues acc₁ entry)
      (Brain.scanSell cfg now₂ venues acc₂ entry) := by
  obtain ⟨sv, si⟩ := entry
  have hseller : venues[si]? = some sv := List.mem_zipIdx_iff_getElem?.mp seller
  rw [Brain.scanSell, Brain.scanSell]
  split
  · exact twin
  · rename_i hguard
    simp only [Bool.or_eq_true, Bool.not_eq_true', not_or, Bool.not_eq_false, Bool.not_eq_true] at hguard
    have hbody : ∀ entry ∈ venues.zipIdx, ∀ acc₁ acc₂, Twin before₁ before₂ now₁ now₂ acc₁ acc₂ →
        Twin before₁ before₂ now₁ now₂ (Brain.scanBuy cfg now₁ venues si sv acc₁ entry)
          (Brain.scanBuy cfg now₂ venues si sv acc₂ entry) :=
      fun entry hentry acc₁ acc₂ hacc =>
        hacc.scanBuy verdicts hseller hguard.1.1 hguard.1.2 hentry
    exact run_rel (Twin before₁ before₂ now₁ now₂) hbody twin

/-- Two scans of the same books whose verdicts agree return the same crosses up to the time of
    detection. -/
theorem scan_timeless {d₁ d₂ : ArbDetector}
    (verdicts : ScanVerdicts cfg (venues.take kMaxVenues) d₁.lastEmitNs d₂.lastEmitNs now₁ now₂) :
    (scan cfg now₁ venues d₁).2.map (ArbCross.stamped 0) =
      (scan cfg now₂ venues d₂).2.map (ArbCross.stamped 0) := by
  have hstart : Twin d₁.lastEmitNs d₂.lastEmitNs now₁ now₂ (d₁, []) (d₂, []) :=
    ⟨rfl, fun _ => Or.inr ⟨rfl, rfl⟩⟩
  have hbody : ∀ entry ∈ (venues.take kMaxVenues).zipIdx, ∀ acc₁ acc₂,
      Twin d₁.lastEmitNs d₂.lastEmitNs now₁ now₂ acc₁ acc₂ →
        Twin d₁.lastEmitNs d₂.lastEmitNs now₁ now₂
          (scanSell cfg now₁ (venues.take kMaxVenues) acc₁ entry)
          (scanSell cfg now₂ (venues.take kMaxVenues) acc₂ entry) :=
    fun entry hentry acc₁ acc₂ hacc => hacc.scanSell verdicts hentry
  have htwin : Twin d₁.lastEmitNs d₂.lastEmitNs now₁ now₂ (detections cfg now₁ venues d₁)
      (detections cfg now₂ venues d₂) :=
    run_rel (Twin d₁.lastEmitNs d₂.lastEmitNs now₁ now₂) hbody hstart
  have hfound := congrArg (List.map Detection.cross) htwin.found
  rw [List.map_map, List.map_map] at hfound
  rw [scan, scan, List.map_map, List.map_map]
  exact hfound

end Twin

/-!
### Two replays

The engines have the same books at all times, and differ in the times that their limiters remember; where
the verdicts agree line by line, so do the crosses.
-/

/-- A line with the readings of the two replays. -/
structure Replayed where
  line : Option Json
  first : Reading
  second : Reading

/-- The lines as one replay sees them. -/
def seenBy (clock : Replayed → Reading) (replayed : List Replayed) : List (Option Json × Reading) :=
  replayed.map fun r => (r.line, clock r)

/-- All readings of a replay in order. -/
def readings (clock : Replayed → Reading) (replayed : List Replayed) : List Int :=
  replayed.flatMap fun r => [(clock r).eventNs, (clock r).scanNs]

/-- A clock that never goes back, and of which every reading is later than every recorded timestamp and a
    minute or more before the end of the 64-bit range. -/
structure LaterClock (clock : Replayed → Reading) (replayed : List Replayed) : Prop where
  nondecreasing : (readings clock replayed).Pairwise (· ≤ ·)
  range : ∀ now ∈ readings clock replayed, InInt64 now ∧ InInt64 (now + 60 * 1000000000)
  later : ∀ r ∈ replayed, ∀ ts, recordedTs r.line = some ts → ∀ now ∈ readings clock replayed, ts < now

/-- The two engines at one line. -/
def twinStep (cfg : BacktestConfig) (engines : BacktestEngine × BacktestEngine) (r : Replayed) :
    BacktestEngine × BacktestEngine :=
  ((engines.1.feedEvent cfg r.first r.line).1, (engines.2.feedEvent cfg r.second r.line).1)

/-- If this line runs a scan, the two clocks give the same verdict on every candidate of it. -/
def SameVerdicts (cfg : BacktestConfig) (engines : BacktestEngine × BacktestEngine) (r : Replayed) : Prop :=
  ∀ j, r.line = some j → (engines.1.book.onEvent r.first.eventNs j).2 ≠ "" →
    2 ≤ (engines.1.book.onEvent r.first.eventNs j).1.syncedCount →
    ScanVerdicts cfg.makeArb ((engines.1.book.onEvent r.first.eventNs j).1.venues.take kMaxVenues)
      engines.1.arb.lastEmitNs engines.2.arb.lastEmitNs r.first.scanNs r.second.scanNs

/-- The replayed crosses up to the time of detection. -/
def timeless (crosses : List (List ArbCross)) : List (List ArbCross) :=
  crosses.map fun line => line.map (ArbCross.stamped 0)

/-- One line: engines with the same books keep the same books, and return the same crosses where the
    verdicts agree. -/
theorem feedEvent_twin {cfg : BacktestConfig} {engine₁ engine₂ : BacktestEngine}
    (books : engine₁.book = engine₂.book) {r : Replayed}
    (first : ∀ ts, recordedTs r.line = some ts → ReadAfter r.first.eventNs ts)
    (second : ∀ ts, recordedTs r.line = some ts → ReadAfter r.second.eventNs ts)
    (verdicts : SameVerdicts cfg (engine₁, engine₂) r) :
    (engine₁.feedEvent cfg r.first r.line).1.book = (engine₂.feedEvent cfg r.second r.line).1.book ∧
      (engine₁.feedEvent cfg r.first r.line).2.map (ArbCross.stamped 0) =
        (engine₂.feedEvent cfg r.second r.line).2.map (ArbCross.stamped 0) := by
  obtain ⟨line, now₁, now₂⟩ := r
  cases line with
  | none => exact ⟨books, rfl⟩
  | some j =>
      have hevent : engine₂.book.onEvent now₂.eventNs j = engine₁.book.onEvent now₁.eventNs j := by
        rw [← books]
        exact UnifiedBook.onEvent_clock second first engine₁.book
      simp only [BacktestEngine.feedEvent, hevent]
      split
      · rename_i hscans
        exact ⟨rfl, scan_timeless (verdicts j rfl hscans.1 hscans.2)⟩
      · exact ⟨rfl, rfl⟩

/-- All lines, by induction on them. -/
theorem replay_twin {cfg : BacktestConfig} {replayed : List Replayed}
    (first : ∀ r ∈ replayed, ∀ ts, recordedTs r.line = some ts → ReadAfter r.first.eventNs ts)
    (second : ∀ r ∈ replayed, ∀ ts, recordedTs r.line = some ts → ReadAfter r.second.eventNs ts)
    {engine₁ engine₂ : BacktestEngine} (books : engine₁.book = engine₂.book)
    (verdicts : Along (twinStep cfg) (SameVerdicts cfg) (engine₁, engine₂) replayed) :
    timeless (BacktestEngine.replay cfg engine₁ (seenBy Replayed.first replayed)) =
      timeless (BacktestEngine.replay cfg engine₂ (seenBy Replayed.second replayed)) := by
  induction replayed generalizing engine₁ engine₂ with
  | nil => rfl
  | cons r replayed ih =>
      have hr : r ∈ r :: replayed := List.mem_cons_self ..
      have hline := feedEvent_twin books (first r hr) (second r hr) verdicts.1
      have hrest := ih (fun r' hr' => first r' (List.mem_cons_of_mem r hr'))
        (fun r' hr' => second r' (List.mem_cons_of_mem r hr')) hline.1 verdicts.2
      exact congrArg₂ List.cons hline.2 hrest

theorem LaterClock.readAfter {clock : Replayed → Reading} {replayed : List Replayed}
    (later : LaterClock clock replayed) :
    ∀ r ∈ replayed, ∀ ts, recordedTs r.line = some ts → ReadAfter (clock r).eventNs ts := by
  intro r hr ts hts
  have hreading : (clock r).eventNs ∈ readings clock replayed :=
    List.mem_flatMap.mpr ⟨r, hr, List.mem_cons_self ..⟩
  exact ⟨later.later r hr ts hts _ hreading, (later.range _ hreading).2⟩

/-! ### Result -/

/-- Two replays under clocks that are later than every recorded timestamp return, line by line, the same
    crosses up to the time of detection, if at every line that runs a scan the two clocks give the same verdict
    on every pair of books that passes the guards that do not look at the clock. -/
theorem replays_agree (cfg : BacktestConfig) (replayed : List Replayed)
    (first : LaterClock Replayed.first replayed) (second : LaterClock Replayed.second replayed)
    (verdicts : Along (twinStep cfg) (SameVerdicts cfg) (.new cfg, .new cfg) replayed) :
    timeless (BacktestEngine.replay cfg (.new cfg) (seenBy Replayed.first replayed)) =
      timeless (BacktestEngine.replay cfg (.new cfg) (seenBy Replayed.second replayed)) :=
  replay_twin first.readAfter second.readAfter rfl verdicts

/-- Without an age limit and a rate limit the clock has no say. -/
theorem sameVerdicts_of_off {cfg : BacktestConfig} (noAge : cfg.maxAgeNs ≤ 0) (noRate : cfg.rateLimitNs ≤ 0)
    (engines : BacktestEngine × BacktestEngine) (r : Replayed) : SameVerdicts cfg engines r := by
  have hfree : ∀ memory now sv bv, ¬ HeldBack cfg.makeArb memory now sv bv := by
    rintro memory now sv bv (hold | hold | hlimited)
    · exact Int.not_lt.mpr noAge hold.1
    · exact Int.not_lt.mpr noAge hold.1
    · exact Int.not_lt.mpr noRate hlimited.1
  exact fun j _ _ _ sv bv _ => iff_of_false (hfree _ _ _ _) (hfree _ _ _ _)

/-- A snapshot of each of two venues that quote across each other, in two replays whose clocks differ at
    the scan of the second. -/
def crossedLines (scan₁ scan₂ : Int) : List Replayed :=
  [{ line := some (quoteFrame ⟨.okx, "BTC", "USDT"⟩ 300 400), first := ⟨1, 2⟩, second := ⟨1, 2⟩ },
    { line := some (quoteFrame ⟨.bybit, "BTC", "USDT"⟩ 100 200), first := ⟨3, scan₁⟩, second := ⟨3, scan₂⟩ }]

theorem laterClock_crossedLines {clock : Replayed → Reading} {scan₁ scan₂ last : Int}
    (seen : (crossedLines scan₁ scan₂).map clock = [⟨1, 2⟩, ⟨3, last⟩]) (late : 3 ≤ last)
    (range : InInt64 (last + 60 * 1000000000)) : LaterClock clock (crossedLines scan₁ scan₂) := by
  have hreadings : readings clock (crossedLines scan₁ scan₂) = [1, 2, 3, last] := by
    have hflat : readings clock (crossedLines scan₁ scan₂) =
        ((crossedLines scan₁ scan₂).map clock).flatMap fun now => [now.eventNs, now.scanNs] := by
      rw [readings, List.flatMap_map]
    rw [hflat, seen]
    rfl
  have hts : ∀ r ∈ crossedLines scan₁ scan₂, ∀ ts, recordedTs r.line = some ts → ts = 0 := by
    have hokx : recordedTs (some (quoteFrame ⟨.okx, "BTC", "USDT"⟩ 300 400)) = some 0 := by decide +kernel
    have hbybit : recordedTs (some (quoteFrame ⟨.bybit, "BTC", "USDT"⟩ 100 200)) = some 0 := by
      decide +kernel
    intro r hr ts hrecorded
    simp only [crossedLines, List.mem_cons, List.not_mem_nil, or_false] at hr
    rcases hr with rfl | rfl
    · exact (Option.some.inj (hokx.symm.trans hrecorded)).symm
    · exact (Option.some.inj (hbybit.symm.trans hrecorded)).symm
  refine ⟨?_, ?_, ?_⟩
  · rw [hreadings]
    simp only [List.pairwise_cons, List.mem_cons, List.not_mem_nil, or_false]
    grind
  · rw [hreadings]
    simp only [InInt64, List.mem_cons, List.not_mem_nil, or_false] at range ⊢
    grind
  · intro r hr ts hrecorded
    rw [hts r hr ts hrecorded, hreadings]
    simp only [List.mem_cons, List.not_mem_nil, or_false]
    grind

/-- With the guards off, replays a day apart return the same cross. -/
theorem replays_agree_guards_off :
    let cfg : BacktestConfig := { maxAgeNs := 0 }
    let replayed := crossedLines 4 86400000000000
    timeless (BacktestEngine.replay cfg (.new cfg) (seenBy Replayed.first replayed)) =
        timeless (BacktestEngine.replay cfg (.new cfg) (seenBy Replayed.second replayed)) ∧
      (BacktestEngine.replay cfg (.new cfg) (seenBy Replayed.first replayed)).map List.length = [0, 1] := by
  intro cfg replayed
  refine ⟨replays_agree cfg replayed (laterClock_crossedLines rfl (by decide) (by decide))
    (laterClock_crossedLines rfl (by decide) (by decide)) ?_, by decide +kernel⟩
  exact Along.of_always (fun r _ engines => sameVerdicts_of_off (by decide) (by decide) engines r) _

/-- As configured by default, a replay within five seconds of the recording returns a cross, and a later
    one does not. -/
theorem default_replays_differ :
    ∃ replayed, LaterClock Replayed.first replayed ∧ LaterClock Replayed.second replayed ∧
      timeless (BacktestEngine.replay {} (.new {}) (seenBy Replayed.first replayed)) ≠
        timeless (BacktestEngine.replay {} (.new {}) (seenBy Replayed.second replayed)) :=
  ⟨crossedLines 4 86400000000000, laterClock_crossedLines rfl (by decide) (by decide),
    laterClock_crossedLines rfl (by decide) (by decide), by decide +kernel⟩

end ZidaBot.Brain
