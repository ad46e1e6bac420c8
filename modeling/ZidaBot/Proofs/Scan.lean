/-
Module: ZidaBot.Proofs.Scan
Purpose: What a scan returns.  The two loops find candidates, each directed pair on its own, and offer them
  to the rate limiter one after the other; without a rate limit all of them are returned.
Trusted boundary: none
Main exports: buyDetections, sellDetections, candidates, offer, detections_eq, detections_unlimited,
  mem_candidates, mem_scan_iff
-/
import ZidaBot.Brain.ArbDetector
import ZidaBot.Library.Runs

namespace ZidaBot.Brain

section Candidates

variable {cfg : ArbDetectorConfig} {tsNow : Int} {venues : List VenueBook}

/-- What the inner loop finds at one buy book, if nothing is rate limited. -/
def buyDetections (cfg : ArbDetectorConfig) (tsNow : Int) (venues : List VenueBook) (si : Nat)
    (sv : VenueBook) (entry : VenueBook × Nat) : List Detection :=
  if entry.2 = si || !entry.1.synced || priceAnomaly cfg venues entry.1 then []
  else ((pairCross cfg tsNow sv entry.1).map (Detection.mk si entry.2)).toList

/-- What the outer loop finds at one sell book. -/
def sellDetections (cfg : ArbDetectorConfig) (tsNow : Int) (venues : List VenueBook)
    (entry : VenueBook × Nat) : List Detection :=
  if !entry.1.synced || priceAnomaly cfg venues entry.1 || entry.1.book.bestBid.priceTick == 0 then []
  else venues.zipIdx.flatMap (buyDetections cfg tsNow venues entry.2 entry.1)

/-- Everything the two loops find, if nothing is rate limited. -/
def candidates (cfg : ArbDetectorConfig) (tsNow : Int) (venues : List VenueBook) : List Detection :=
  (venues.take kMaxVenues).zipIdx.flatMap (sellDetections cfg tsNow (venues.take kMaxVenues))

/-- The text under which the limiter remembers a cross. -/
def limiterKey (cross : ArbCross) : String := cross.sellVenue ++ ":" ++ cross.buyVenue

/-- A candidate meets the limiter. -/
def offer (cfg : ArbDetectorConfig) (tsNow : Int) (acc : ArbDetector × List Detection)
    (found : Detection) : ArbDetector × List Detection :=
  match acc.1.checkRateLimit cfg (limiterKey found.cross) tsNow with
  | (d, false) => (d, acc.2)
  | (d, true) => (d.emit found.cross, acc.2 ++ [found])

/-- The venues of a cross are those of its two books. -/
theorem pairCross_venues {sv bv : VenueBook} {cross : ArbCross}
    (found : pairCross cfg tsNow sv bv = some cross) :
    cross.sellVenue = sv.venueName ∧ cross.buyVenue = bv.venueName := by
  rw [pairCross] at found
  dsimp only at found
  split at found
  · cases found
  · split at found
    · cases found
    · split at found
      · cases found
      · split at found
        · cases found
        · split at found
          · cases found
          · split at found
            · cases found
            · cases found
              exact ⟨rfl, rfl⟩

theorem scanBuy_eq (si : Nat) (sv : VenueBook) (acc : ArbDetector × List Detection)
    (entry : VenueBook × Nat) :
    scanBuy cfg tsNow venues si sv acc entry =
      (buyDetections cfg tsNow venues si sv entry).foldl (offer cfg tsNow) acc := by
  obtain ⟨bv, bi⟩ := entry
  rw [scanBuy, buyDetections]
  by_cases hsame : bi = si
  · simp [hsame]
  · cases hskip : (!bv.synced || priceAnomaly cfg venues bv) with
    | true => simp [hsame, hskip]
    | false =>
        rcases hcross : pairCross cfg tsNow sv bv with _ | cross
        · simp [hsame, hskip]
        · obtain ⟨hsell, hbuy⟩ := pairCross_venues hcross
          have hkey : limiterKey cross = sv.venueName ++ ":" ++ bv.venueName := by rw [limiterKey, hsell, hbuy]
          rcases hlimit : acc.1.checkRateLimit cfg (sv.venueName ++ ":" ++ bv.venueName) tsNow with ⟨d, _ | _⟩
          · simp [hsame, hskip, offer, hkey, hlimit]
          · simp [hsame, hskip, offer, hkey, hlimit]

theorem scanSell_eq (acc : ArbDetector × List Detection) (entry : VenueBook × Nat) :
    scanSell cfg tsNow venues acc entry =
      (sellDetections cfg tsNow venues entry).foldl (offer cfg tsNow) acc := by
  obtain ⟨sv, si⟩ := entry
  rw [scanSell, sellDetections]
  split
  · rfl
  · rw [List.foldl_flatMap]
    congr 1
    funext acc entry
    exact scanBuy_eq si sv acc entry

/-- A scan offers its candidates to the limiter, one after the other. -/
theorem detections_eq (d : ArbDetector) :
    detections cfg tsNow venues d = Runs.run (offer cfg tsNow) (d, []) (candidates cfg tsNow venues) := by
  rw [detections, candidates, Runs.run, List.foldl_flatMap]
  congr 1
  funext acc entry
  exact scanSell_eq acc entry

theorem scan_eq_offers (d : ArbDetector) :
    scan cfg tsNow venues d =
      let outcome := Runs.run (offer cfg tsNow) (d, []) (candidates cfg tsNow venues)
      (outcome.1, outcome.2.map Detection.cross) := by
  rw [← detections_eq]
  rfl

/-- What has passed the limiter was offered to it. -/
theorem mem_of_mem_offers {offered : List Detection} {acc : ArbDetector × List Detection} {found : Detection}
    (mem : found ∈ (Runs.run (offer cfg tsNow) acc offered).2) : found ∈ acc.2 ∨ found ∈ offered := by
  induction offered generalizing acc with
  | nil => exact Or.inl mem
  | cons candidate offered ih =>
      rcases ih mem with hacc | hlater
      · rw [offer] at hacc
        split at hacc
        · exact Or.inl hacc
        · rcases List.mem_append.mp hacc with hold | hnew
          · exact Or.inl hold
          · exact Or.inr (List.mem_singleton.mp hnew ▸ List.mem_cons_self ..)
      · exact Or.inr (List.mem_cons_of_mem candidate hlater)

/-- Without a rate limit the detections do not depend on the detector. -/
theorem detections_unlimited (unlimited : cfg.rateLimitNs ≤ 0) (d : ArbDetector) :
    (detections cfg tsNow venues d).2 = candidates cfg tsNow venues := by
  have hoffer : ∀ acc found, (offer cfg tsNow acc found).2 = acc.2 ++ [found] := by
    intro acc found
    simp [offer, ArbDetector.checkRateLimit, unlimited]
  rw [detections_eq, Runs.log_run Prod.snd (fun found => [found]) hoffer]
  simp

theorem mem_buyDetections {si : Nat} {sv : VenueBook} {entry : VenueBook × Nat} {found : Detection} :
    found ∈ buyDetections cfg tsNow venues si sv entry ↔
      entry.2 ≠ si ∧ entry.1.synced = true ∧ priceAnomaly cfg venues entry.1 = false ∧
        found.si = si ∧ found.bi = entry.2 ∧ pairCross cfg tsNow sv entry.1 = some found.cross := by
  rw [buyDetections]
  split
  · rename_i hskip
    refine iff_of_false List.not_mem_nil ?_
    rintro ⟨hne, hsynced, hnormal, -⟩
    simp [hne, hsynced, hnormal] at hskip
  · rename_i hpass
    simp only [Bool.or_eq_true, decide_eq_true_eq, Bool.not_eq_true', not_or, Bool.not_eq_false,
      Bool.not_eq_true] at hpass
    obtain ⟨⟨hne, hsynced⟩, hnormal⟩ := hpass
    rw [Option.mem_toList, Option.map_eq_some_iff]
    constructor
    · rintro ⟨cross, hcross, rfl⟩
      exact ⟨hne, hsynced, hnormal, rfl, rfl, hcross⟩
    · rintro ⟨-, -, -, hsi, hbi, hcross⟩
      exact ⟨found.cross, hcross, by rw [← hsi, ← hbi]⟩

theorem mem_sellDetections {entry : VenueBook × Nat} {found : Detection} :
    found ∈ sellDetections cfg tsNow venues entry ↔
      entry.1.synced = true ∧ priceAnomaly cfg venues entry.1 = false ∧
        entry.1.book.bestBid.priceTick ≠ 0 ∧
        ∃ buyer ∈ venues.zipIdx, found ∈ buyDetections cfg tsNow venues entry.2 entry.1 buyer := by
  rw [sellDetections]
  split
  · rename_i hskip
    refine iff_of_false List.not_mem_nil ?_
    rintro ⟨hsynced, hnormal, hbid, -⟩
    simp [hsynced, hnormal, hbid] at hskip
  · rename_i hpass
    simp only [Bool.or_eq_true, Bool.not_eq_true', beq_iff_eq, not_or, Bool.not_eq_false,
      Bool.not_eq_true] at hpass
    obtain ⟨⟨hsynced, hnormal⟩, hbid⟩ := hpass
    rw [List.mem_flatMap]
    exact ⟨fun h => ⟨hsynced, hnormal, hbid, h⟩, fun h => h.2.2.2⟩

/-- A pair with a cross has a bid to sell at. -/
theorem bestBid_ne_zero_of_pairCross {sv bv : VenueBook} {cross : ArbCross}
    (found : pairCross cfg tsNow sv bv = some cross) : sv.book.bestBid.priceTick ≠ 0 := by
  intro hempty
  simp [pairCross, hempty] at found

/-- The candidates are the crosses of the pairs of positions that pass the guards. -/
theorem mem_candidates {found : Detection} :
    found ∈ candidates cfg tsNow venues ↔
      ∃ sv bv, (venues.take kMaxVenues)[found.si]? = some sv ∧ (venues.take kMaxVenues)[found.bi]? = some bv ∧
        found.bi ≠ found.si ∧ sv.synced = true ∧ bv.synced = true ∧
        priceAnomaly cfg (venues.take kMaxVenues) sv = false ∧
        priceAnomaly cfg (venues.take kMaxVenues) bv = false ∧
        pairCross cfg tsNow sv bv = some found.cross := by
  rw [candidates, List.mem_flatMap]
  constructor
  · rintro ⟨⟨sv, si⟩, hseller, hfound⟩
    obtain ⟨hsell, hsellNormal, -, ⟨bv, bi⟩, hbuyer, hfound⟩ := mem_sellDetections.mp hfound
    obtain ⟨hne, hbuy, hbuyNormal, hsi, hbi, hcross⟩ := mem_buyDetections.mp hfound
    rw [hsi, hbi]
    exact ⟨sv, bv, List.mem_zipIdx_iff_getElem?.mp hseller, List.mem_zipIdx_iff_getElem?.mp hbuyer, hne,
      hsell, hbuy, hsellNormal, hbuyNormal, hcross⟩
  · rintro ⟨sv, bv, hseller, hbuyer, hne, hsell, hbuy, hsellNormal, hbuyNormal, hcross⟩
    refine ⟨(sv, found.si), List.mem_zipIdx_iff_getElem?.mpr hseller, mem_sellDetections.mpr ?_⟩
    refine ⟨hsell, hsellNormal, bestBid_ne_zero_of_pairCross hcross, (bv, found.bi), ?_, ?_⟩
    · exact List.mem_zipIdx_iff_getElem?.mpr hbuyer
    · exact mem_buyDetections.mpr ⟨hne, hbuy, hbuyNormal, rfl, rfl, hcross⟩

end Candidates

/-- Books of distinct venues have different names exactly at different places. -/
theorem venueName_ne_iff {venues : List VenueBook} (distinct : (venues.map VenueBook.venueName).Nodup)
    {i j : Nat} {sv bv : VenueBook} (seller : venues[i]? = some sv) (buyer : venues[j]? = some bv) :
    sv.venueName ≠ bv.venueName ↔ j ≠ i := by
  have hi : (venues.map VenueBook.venueName)[i]? = some sv.venueName := by simp [seller]
  have hj : (venues.map VenueBook.venueName)[j]? = some bv.venueName := by simp [buyer]
  have hlt := (List.getElem?_eq_some_iff.mp hj).1
  refine not_congr ⟨fun hname => ?_, fun hindex => ?_⟩
  · exact (List.getElem?_inj hlt distinct).mp (by rw [hi, hj, hname])
  · subst hindex
    exact Option.some.inj (hi.symm.trans hj)

/-- Without a rate limit and a deviation filter, a scan of at most sixteen synced books of distinct venues
    returns the crosses of the pairs of venues, and nothing else. -/
theorem mem_scan_iff {cfg : ArbDetectorConfig} {tsNow : Int} {venues : List VenueBook}
    (unlimited : cfg.rateLimitNs ≤ 0) (unfiltered : cfg.maxPriceDeviationPct ≤ 0)
    (few : venues.length ≤ kMaxVenues) (synced : ∀ vb ∈ venues, vb.synced = true)
    (distinct : (venues.map VenueBook.venueName).Nodup) {d : ArbDetector} {cross : ArbCross} :
    cross ∈ (scan cfg tsNow venues d).2 ↔
      ∃ sv ∈ venues, ∃ bv ∈ venues, sv.venueName ≠ bv.venueName ∧
        pairCross cfg tsNow sv bv = some cross := by
  have hnormal : ∀ vb, priceAnomaly cfg venues vb = false := by
    intro vb
    simp [priceAnomaly, Rat.not_lt.mpr unfiltered]
  have hscan : cross ∈ (scan cfg tsNow venues d).2 ↔
      ∃ found ∈ (detections cfg tsNow venues d).2, found.cross = cross := List.mem_map
  rw [hscan, detections_unlimited unlimited]
  constructor
  · rintro ⟨found, hfound, rfl⟩
    obtain ⟨sv, bv, hsv, hbv, hne, -, -, -, -, hcross⟩ := mem_candidates.mp hfound
    rw [List.take_of_length_le few] at hsv hbv
    exact ⟨sv, List.mem_of_getElem? hsv, bv, List.mem_of_getElem? hbv,
      (venueName_ne_iff distinct hsv hbv).mpr hne, hcross⟩
  · rintro ⟨sv, hsv, bv, hbv, hname, hcross⟩
    obtain ⟨si, hsi⟩ := List.mem_iff_getElem?.mp hsv
    obtain ⟨bi, hbi⟩ := List.mem_iff_getElem?.mp hbv
    refine ⟨⟨si, bi, cross⟩, mem_candidates.mpr ⟨sv, bv, ?_⟩, rfl⟩
    rw [List.take_of_length_le few]
    exact ⟨hsi, hbi, (venueName_ne_iff distinct hsi hbi).mp hname, synced sv hsv, synced bv hbv, hnormal sv,
      hnormal bv, hcross⟩

end ZidaBot.Brain
