/-
Module: ZidaBot.Proofs.ScanBuffers
Purpose: What an earlier scan has left in the arrays of a detector plays no part in the next one.  The filled
  part of `bids_buf_` is the list of bids of this scan, the cleared and marked `price_anomaly_buf_` says of
  every scanned position what the median says of its book, so the scan in arrays is the scan without them.
Trusted boundary: none
Main exports: fillBids_run, markAnomaly_run, priceSanity_eq, detectionsIn_eq,
  scanIn_returned, scanIn_detector
-/
import ZidaBot.Brain.ScanBuffers

namespace ZidaBot.Brain

/-- Writing behind the filled part extends it. -/
theorem take_set_succ {α : Type} {buf : List α} {n : Nat} (room : n < buf.length) (a : α) :
    (buf.set n a).take (n + 1) = buf.take n ++ [a] := by
  rw [List.take_add_one, List.take_set_of_le (Nat.le_refl n), List.getElem?_set_self room]
  rfl

/-- The loop fills the array with the bids of its books, behind what was filled before. -/
theorem fillBids_run {venues : List VenueBook} {buf : List Int} {count : Nat}
    (room : count + (syncedBids venues).length ≤ buf.length) :
    (venues.foldl fillBids (buf, count)).2 = count + (syncedBids venues).length ∧
      (venues.foldl fillBids (buf, count)).1.take (count + (syncedBids venues).length) =
        buf.take count ++ syncedBids venues := by
  induction venues generalizing buf count with
  | nil => simp [syncedBids]
  | cons v venues ih =>
      by_cases hbid : v.synced = true ∧ 0 < v.book.bestBid.priceTick
      · have hfill : fillBids (buf, count) v = (buf.set count v.book.bestBid.priceTick, count + 1) := by
          simp [fillBids, hbid.1, hbid.2]
        have hbids : syncedBids (v :: venues) = v.book.bestBid.priceTick :: syncedBids venues := by
          simp [syncedBids, hbid.1, hbid.2]
        rw [hbids, List.length_cons] at room ⊢
        have hroom : count + 1 + (syncedBids venues).length ≤
            (buf.set count v.book.bestBid.priceTick).length := by
          rw [List.length_set]
          omega
        have hrest := ih hroom
        rw [List.foldl_cons, hfill]
        rw [take_set_succ (by omega)] at hrest
        obtain ⟨hcount, htake⟩ := hrest
        refine ⟨by omega, ?_⟩
        rw [show count + ((syncedBids venues).length + 1) = count + 1 + (syncedBids venues).length by omega,
          htake, List.append_assoc]
        rfl
      · have hfill : fillBids (buf, count) v = (buf, count) := by
          cases hsynced : v.synced with
          | false => simp [fillBids, hsynced]
          | true =>
              have hneg : ¬ 0 < v.book.bestBid.priceTick := fun h => hbid ⟨hsynced, h⟩
              simp [fillBids, hsynced, hneg]
        have hbids : syncedBids (v :: venues) = syncedBids venues := by
          rw [syncedBids, List.filter_cons_of_neg, ← syncedBids]
          simpa using fun hsynced hpos => hbid ⟨hsynced, hpos⟩
        rw [hbids] at room ⊢
        rw [List.foldl_cons, hfill]
        exact ih room

/-- A marked position stays marked; the loop marks the positions of its anomalous books. -/
theorem markAnomaly_run {median threshold : ℚ} {entries : List (VenueBook × Nat)} {buf : List Bool} {i : Nat}
    (inBounds : i < buf.length) :
    (entries.foldl (markAnomaly median threshold) buf).getD i false =
      (buf.getD i false || entries.any fun entry => decide (entry.2 = i) && entry.1.synced &&
        decide (0 < entry.1.book.bestBid.priceTick) &&
          decide (threshold < |(entry.1.book.bestBid.priceTick : ℚ) - median|)) := by
  induction entries generalizing buf with
  | nil => simp
  | cons entry entries ih =>
      obtain ⟨v, k⟩ := entry
      have hbounds : i < (markAnomaly median threshold buf (v, k)).length := by
        rwa [length_markAnomaly]
      rw [List.foldl_cons, ih hbounds, List.any_cons, ← Bool.or_assoc]
      congr 1
      rw [markAnomaly]
      cases hsynced : v.synced with
      | false => simp
      | true =>
          by_cases hfar : 0 < v.book.bestBid.priceTick ∧
              threshold < |(v.book.bestBid.priceTick : ℚ) - median|
          · simp only [Bool.not_true, Bool.false_eq_true, if_false, hfar.1, hfar.2,
              decide_true, Bool.and_true]
            by_cases hk : k = i
            · subst hk
              simp [List.getD_eq_getElem?_getD, List.getElem?_set_self inBounds]
            · simp [List.getD_eq_getElem?_getD, List.getElem?_set_ne hk, hk]
          · have hnone : (decide (0 < v.book.bestBid.priceTick) &&
                decide (threshold < |(v.book.bestBid.priceTick : ℚ) - median|)) = false := by
              rw [← Bool.decide_and]
              simpa using hfar
            simp only [Bool.not_true, Bool.false_eq_true, if_false, if_neg hfar, Bool.and_assoc, hnone,
              Bool.and_false, Bool.or_false]

/-- The median of a filled array is the median of the bids in it. -/
theorem bufferMedian_eq {bidsBuf bids : List Int} (filled : bidsBuf.take bids.length = bids)
    (enough : 2 ≤ bids.length) : bufferMedian bidsBuf bids.length = medianBid bids := by
  have hread : ∀ i < bids.length,
      (bids.insertionSort (· ≤ ·) ++ bidsBuf.drop bids.length).getD i 0 =
        (bids.insertionSort (· ≤ ·)).getD i 0 := by
    intro i hi
    rw [List.getD_eq_getElem?_getD, List.getD_eq_getElem?_getD,
      List.getElem?_append_left (by rwa [List.length_insertionSort])]
  rw [bufferMedian, medianBid]
  simp only [filled]
  rw [hread _ (by omega), hread _ (by omega)]

/-- After the price sanity block the array says of each scanned position what the median says of its
    book, whatever the arrays held before. -/
theorem priceSanity_eq (cfg : ArbDetectorConfig) {venues : List VenueBook} (buffers : ScanBuffers)
    (few : venues.length ≤ kMaxVenues) {i : Nat} {v : VenueBook} (scanned : venues[i]? = some v) :
    (priceSanity cfg venues buffers).1.getD i false = priceAnomaly cfg venues v := by
  have hi : i < venues.length := (List.getElem?_eq_some_iff.mp scanned).1
  have hcleared : (buffers.priceAnomalyBuf.map fun _ => false).getD i false = false := by
    rw [List.getD_eq_getElem?_getD, List.getElem?_map]
    cases buffers.priceAnomalyBuf[i]? <;> rfl
  have hbids : (syncedBids venues).length ≤ venues.length := by
    rw [syncedBids, List.length_map]
    exact List.length_filter_le ..
  have hroom : 0 + (syncedBids venues).length ≤ buffers.bidsBuf.length := by
    rw [buffers.bids_size]
    omega
  obtain ⟨hcount, hfilled⟩ := fillBids_run hroom
  rw [Nat.zero_add] at hcount hfilled
  simp only [List.take_zero, List.nil_append] at hfilled
  simp only [priceSanity, priceAnomaly, hcount]
  by_cases hpct : 0 < cfg.maxPriceDeviationPct
  · by_cases henough : 2 ≤ (syncedBids venues).length
    · rw [if_pos hpct, if_pos henough, if_pos ⟨hpct, henough⟩, bufferMedian_eq hfilled henough,
        markAnomaly_run (by rw [List.length_map, buffers.anomaly_size]; omega), hcleared, Bool.false_or]
      -- the position occurs once, with its book
      rw [Bool.eq_iff_iff, List.any_eq_true]
      constructor
      · rintro ⟨⟨w, k⟩, hmem, hw⟩
        simp only [Bool.and_eq_true, decide_eq_true_eq] at hw
        obtain ⟨⟨⟨rfl, hsynced⟩, hpos⟩, hfar⟩ := hw
        have hw := List.mem_zipIdx_iff_getElem?.mp hmem
        obtain rfl : v = w := Option.some.inj (scanned.symm.trans hw)
        simp [hsynced, hpos, hfar]
      · intro hv
        refine ⟨(v, i), List.mem_zipIdx_iff_getElem?.mpr scanned, ?_⟩
        simpa using hv
    · rw [if_pos hpct, if_neg henough, if_neg fun h => henough h.2, hcleared]
  · rw [if_neg hpct, if_neg fun h => hpct h.1, hcleared]

/-- The scan in arrays is the scan, whatever the arrays held before. -/
theorem detectionsIn_eq (cfg : ArbDetectorConfig) (tsNow : Int) (venues : List VenueBook)
    (state : ArbDetector × ScanBuffers) :
    (detectionsIn cfg tsNow venues state).1 = detections cfg tsNow venues state.1 := by
  have hfew : (venues.take kMaxVenues).length ≤ kMaxVenues := List.length_take_le ..
  have hanomaly : ∀ {i v}, (venues.take kMaxVenues)[i]? = some v → _ := fun scanned =>
    priceSanity_eq cfg state.2 hfew scanned
  rw [detectionsIn, detections]
  dsimp only
  generalize venues.take kMaxVenues = scanned at hanomaly ⊢
  refine List.foldl_ext _ _ _ ?_
  rintro acc ⟨sv, si⟩ hseller
  have hsell := hanomaly (List.mem_zipIdx_iff_getElem?.mp hseller)
  have hinner : ∀ acc, scanned.zipIdx.foldl
        (scanBuyIn cfg tsNow (priceSanity cfg scanned state.2).1 si sv) acc =
      scanned.zipIdx.foldl (scanBuy cfg tsNow scanned si sv) acc := by
    intro acc
    refine List.foldl_ext _ _ _ ?_
    rintro acc ⟨bv, bi⟩ hbuyer
    have hbuy := hanomaly (List.mem_zipIdx_iff_getElem?.mp hbuyer)
    rw [scanBuyIn, scanBuy]
    simp only [hbuy]
    cases bv.synced <;> cases priceAnomaly cfg scanned bv <;> rfl
  rw [scanSellIn, scanSell]
  simp only [hsell, hinner]
  cases sv.synced <;> cases priceAnomaly cfg scanned sv <;> rfl

theorem scanIn_returned (cfg : ArbDetectorConfig) (tsNow : Int) (venues : List VenueBook)
    (state : ArbDetector × ScanBuffers) :
    (scanIn cfg tsNow venues state).1 = (scan cfg tsNow venues state.1).2 :=
  congrArg (fun outcome => outcome.2.map Detection.cross) (detectionsIn_eq cfg tsNow venues state)

theorem scanIn_detector (cfg : ArbDetectorConfig) (tsNow : Int) (venues : List VenueBook)
    (state : ArbDetector × ScanBuffers) :
    (scanIn cfg tsNow venues state).2.1 = (scan cfg tsNow venues state.1).1 :=
  congrArg Prod.fst (detectionsIn_eq cfg tsNow venues state)

end ZidaBot.Brain
