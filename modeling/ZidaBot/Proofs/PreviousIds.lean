/-
Module: ZidaBot.Proofs.PreviousIds
Purpose: How the adapters fill the link of an update to the one before it.  Where the venue sends no link it
  should be the id before the first, so that frames which follow each other chain.  Four adapters compute
  just that; the Binance adapter subtracts from the last id, which is the same only for a frame of one id.
Trusted boundary: none
Main exports: HasPrevId, Normalised, RightPrev, normalised_iff
-/
import ZidaBot.Proofs.Adapters
import ZidaBot.Proofs.Wire

namespace ZidaBot.Feed

/-- The frame carries the previous-id field of the venue. -/
def HasPrevId : VenueId → Json → Prop
  | .binance, j => j.get? "pu" ≠ none
  | .okx, j => ∃ d0, firstData j = some d0 ∧ d0.get? "prevSeqId" ≠ none
  | _, _ => False

/-- The link of an accepted frame is as it should be: the id before the first where the venue sends none, the
    same relation for OKX, and the last id of every accepted frame that ends right before this one. -/
structure Normalised (dump : Json → String) (venue : VenueId) (j : Json) (out : GenericIncrementalFormat) :
    Prop where
  derived : ¬ HasPrevId venue j → out.prevLast = out.firstSeq - 1
  okx : venue = .okx → out.firstSeq = out.prevLast + 1
  chained : ∀ j' out', readIncremental dump venue j' = .ok (some out') →
    out.firstSeq.toNat = out'.lastSeq.toNat + 1 → out.prevLast = out'.lastSeq

/-- A member read as a sequence id. -/
def idOf (j : Json) (key : String) : Option UInt64 := (j.get? key).bind fun v => v.getUInt64.toOption

/-- A Binance frame that starts with a positive id covers that id only, or `1` down to `0`, where it has no
    link, and links to the id before the first where it has one. -/
def RightPrev (venue : VenueId) (j : Json) : Prop :=
  venue = .binance → ∀ U u, idOf j "U" = some U → idOf j "u" = some u → 1 ≤ U →
    (j.get? "pu" = none → u = U ∨ (U = 1 ∧ u = 0)) ∧ ∀ pu, idOf j "pu" = some pu → pu = U - 1

/-!
### Ids

Ids are unsigned 64-bit numbers, so the id before zero wraps.
-/

theorem idBefore_eq {id : UInt64} (positive : 1 ≤ id) : idBefore id = id - 1 := by
  have hpos : 0 < id := by
    rw [UInt64.lt_iff_toNat_lt]
    rw [UInt64.le_iff_toNat_le] at positive
    exact positive
  rw [idBefore, if_pos hpos]

/-- The id before the first is the last id of a frame that ends there. -/
theorem sub_one_eq_of_succ {first last : UInt64} (follows : first.toNat = last.toNat + 1) :
    first - 1 = last := by
  have hone : (1 : UInt64) ≤ first := by
    rw [UInt64.le_iff_toNat_le]
    simp only [UInt64.reduceToNat]
    omega
  apply UInt64.toNat_inj.mp
  rw [UInt64.toNat_sub_of_le _ _ hone]
  simp only [UInt64.reduceToNat]
  omega

theorem eq_of_add_one_succ {prev last : UInt64} (follows : (prev + 1).toNat = last.toNat + 1) : prev = last := by
  rw [← sub_one_eq_of_succ follows]
  simp

/-- The ids before two ids agree where the first is positive. -/
theorem idBefore_eq_sub_one_iff {first last : UInt64} (positive : 1 ≤ first) :
    idBefore last = first - 1 ↔ last = first ∨ (first = 1 ∧ last = 0) := by
  have hfirst : 1 ≤ first.toNat := UInt64.le_iff_toNat_le.mp positive
  by_cases hlast : 1 ≤ last
  · have hlast' : 1 ≤ last.toNat := UInt64.le_iff_toNat_le.mp hlast
    rw [idBefore_eq hlast, ← UInt64.toNat_inj, UInt64.toNat_sub_of_le _ _ hlast,
      UInt64.toNat_sub_of_le _ _ positive, UInt64.toNat_one]
    constructor
    · intro hsame
      exact Or.inl (UInt64.toNat_inj.mp (by omega))
    · rintro (rfl | ⟨rfl, rfl⟩)
      · rfl
      · exact absurd hlast (by decide)
  · obtain rfl : last = 0 := by
      rw [UInt64.le_iff_toNat_le, UInt64.toNat_one] at hlast
      exact UInt64.toNat_inj.mp (by rw [UInt64.toNat_zero]; omega)
    rw [show idBefore 0 = 0 from rfl, ← UInt64.toNat_inj, UInt64.toNat_sub_of_le _ _ positive, UInt64.toNat_one,
      UInt64.toNat_zero]
    constructor
    · intro hzero
      exact Or.inr ⟨UInt64.toNat_inj.mp (by rw [UInt64.toNat_one]; omega), rfl⟩
    · rintro (rfl | ⟨rfl, -⟩)
      · exact absurd positive (by decide)
      · rfl

/-!
### The link of each venue

Four venues compute the link from the first id or read one that the venue sends, and are right on every
frame. Binance's is right on a frame exactly if `RightPrev` holds.
-/

section Links

variable {dump : Json → String} {j : Json} {out : GenericIncrementalFormat}

/-- A link computed from the first id is as it should be. -/
theorem normalised_of_idBefore {venue : VenueId} (other : venue ≠ .okx) (positive : 1 ≤ out.firstSeq)
    (link : out.prevLast = idBefore out.firstSeq) : Normalised dump venue j out := by
  rw [idBefore_eq positive] at link
  refine ⟨fun _ => link, fun h => absurd h other, ?_⟩
  intro j' out' _ hfollows
  rw [link, sub_one_eq_of_succ hfollows]

theorem normalised_okx (accepted : okxIncremental j = .ok (some out)) : Normalised dump .okx j out := by
  obtain ⟨-, d0, jPrev, prev, hd0, hprev, -, -, hfirst, -, -⟩ := okxIncremental_ok accepted
  refine ⟨?_, fun _ => hfirst, ?_⟩
  · intro hnone
    exact absurd ⟨d0, hd0, by rw [hprev]; exact Option.some_ne_none _⟩ hnone
  · intro j' out' _ hfollows
    rw [hfirst] at hfollows
    exact eq_of_add_one_succ hfollows

/-- A Binance frame of a single id. -/
def binanceSingle (id : UInt64) : Json :=
  .object [("e", .string "depthUpdate"), ("U", .int id.toNat), ("u", .int id.toNat), ("b", .array []),
    ("a", .array [])]

theorem readIncremental_binanceSingle (id : UInt64) :
    ∃ out', readIncremental dump .binance (binanceSingle id) = .ok (some out') ∧ out'.lastSeq = id := by
  refine ⟨_, rfl, ?_⟩
  exact ofInt_toNat id

/-- An object tells a missing member from one that is there. -/
theorem value_eq {α : Type} {get : Json → Except JsonError α} {key other : String} {default : α} {e : Json}
    (object : j.get? other = some e) :
    Json.value get j key default = (j.get? key).elim (.ok default) get := by
  cases j with
  | object fields => exact Json.value_object
  | null => cases object
  | bool b => cases object
  | int n => cases object
  | float q => cases object
  | string s => cases object
  | array items => cases object

theorem idOf_eq {key : String} {v : Json} {id : UInt64} (member : j.get? key = some v)
    (read : v.getUInt64 = .ok id) : idOf j key = some id := by
  rw [idOf, member, Option.bind_some, read]
  rfl

/-- A Binance frame has the right link exactly if it is the id before the first. -/
theorem rightPrev_iff (accepted : binanceIncremental j = .ok (some out)) (positive : 1 ≤ out.firstSeq) :
    RightPrev .binance j ↔ out.prevLast = out.firstSeq - 1 := by
  obtain ⟨e, jU, ju, b, a, he, -, hU, hu, -, -, hfirst, hlast, hprev, -, -⟩ := binanceIncremental_ok accepted
  have hidU := idOf_eq hU hfirst
  have hidu := idOf_eq hu hlast
  rw [value_eq he] at hprev
  cases hpu : j.get? "pu" with
  | none =>
      rw [hpu, Option.elim_none, Except.ok.injEq] at hprev
      have hnone : ∀ pu, idOf j "pu" = some pu → pu = out.firstSeq - 1 := by
        intro pu hid
        rw [idOf, hpu] at hid
        cases hid
      rw [← hprev, idBefore_eq_sub_one_iff positive]
      constructor
      · intro right
        exact (right rfl _ _ hidU hidu positive).1 hpu
      · intro hcovers _ U u hU' hu' _
        obtain rfl : out.firstSeq = U := Option.some.inj (hidU.symm.trans hU')
        obtain rfl : out.lastSeq = u := Option.some.inj (hidu.symm.trans hu')
        exact ⟨fun _ => hcovers, hnone⟩
  | some v =>
      rw [hpu, Option.elim_some] at hprev
      have hidpu := idOf_eq hpu hprev
      constructor
      · intro right
        exact (right rfl _ _ hidU hidu positive).2 _ hidpu
      · intro hlink _ U u hU' _ _
        obtain rfl : out.firstSeq = U := Option.some.inj (hidU.symm.trans hU')
        refine ⟨fun hnone => absurd (hpu.symm.trans hnone) (Option.some_ne_none v), fun pu hid => ?_⟩
        rw [← Option.some.inj (hidpu.symm.trans hid), hlink]

/-- The link of a Binance frame. -/
theorem normalised_binance_iff (accepted : binanceIncremental j = .ok (some out))
    (positive : 1 ≤ out.firstSeq) : Normalised dump .binance j out ↔ RightPrev .binance j := by
  rw [rightPrev_iff accepted positive]
  constructor
  · -- a frame of the id before the first ends right before this one
    intro normal
    obtain ⟨out', hread, hlast⟩ := @readIncremental_binanceSingle dump (out.firstSeq - 1)
    have hone : 1 ≤ out.firstSeq.toNat := UInt64.le_iff_toNat_le.mp positive
    rw [normal.chained _ _ hread, hlast]
    rw [hlast, UInt64.toNat_sub_of_le _ _ positive, UInt64.toNat_one]
    omega
  · intro hlink
    refine ⟨fun _ => hlink, fun h => absurd h (by decide), ?_⟩
    intro j' out' _ hfollows
    rw [hlink, sub_one_eq_of_succ hfollows]

end Links

/-- For each adapter and every accepted frame that starts with a positive id.  The link is the id before the
    first where the venue sends none, and it is the last id of every accepted frame that ends right before,
    if and only if the frame is not one of Binance, or covers one id without a link or has the right link. -/
theorem normalised_iff {dump : Json → String} {venue : VenueId} {j : Json} {out : GenericIncrementalFormat}
    (accepted : readIncremental dump venue j = .ok (some out)) (positive : 1 ≤ out.firstSeq) :
    Normalised dump venue j out ↔ RightPrev venue j := by
  have hother : ∀ v : VenueId, v ≠ .binance → RightPrev v j := fun v hv h => absurd h hv
  cases venue with
  | binance => exact normalised_binance_iff accepted positive
  | okx => exact iff_of_true (normalised_okx accepted) (hother _ (by decide))
  | bitget =>
      obtain ⟨-, -, -, hlink, -, -⟩ := bitgetIncremental_ok accepted
      exact iff_of_true (normalised_of_idBefore (by decide) positive hlink) (hother _ (by decide))
  | bybit =>
      obtain ⟨-, -, -, hlink, -, -⟩ := bybitIncremental_ok accepted
      exact iff_of_true (normalised_of_idBefore (by decide) positive hlink) (hother _ (by decide))
  | kucoin =>
      obtain ⟨-, -, -, -, -, -, hlink, -, -⟩ := kucoinIncremental_ok accepted
      exact iff_of_true (normalised_of_idBefore (by decide) positive hlink) (hother _ (by decide))

/-- A single-id frame of Bybit links to the id before. -/
theorem normalised_bybitDelta : Normalised (fun _ => "") .bybit bybitDelta bybitDeltaOutput :=
  (normalised_iff (rfl : readIncremental (fun _ => "") .bybit bybitDelta = .ok (some bybitDeltaOutput))
    (by decide)).mpr fun h => by cases h

/-- A Binance frame of the ids 5 to 7, without a link. -/
def binanceRange : Json :=
  .object [("e", .string "depthUpdate"), ("U", .int 5), ("u", .int 7), ("b", .array []), ("a", .array [])]

def binanceRangeOutput : GenericIncrementalFormat :=
  { firstSeq := 5, lastSeq := 7, prevLast := 6, tsRecvNs := 0, checksum := 0, bids := [], asks := [] }

def binanceFourOutput : GenericIncrementalFormat :=
  { firstSeq := 4, lastSeq := 4, prevLast := 3, tsRecvNs := 0, checksum := 0, bids := [], asks := [] }

/-- It links to 6, not to 4, although it follows the frame that ends with 4. -/
theorem prevLast_not_normalised :
    readIncremental (fun _ => "") .binance binanceRange = .ok (some binanceRangeOutput) ∧
    ¬ HasPrevId .binance binanceRange ∧ binanceRangeOutput.prevLast ≠ binanceRangeOutput.firstSeq - 1 ∧
    readIncremental (fun _ => "") .binance (binanceSingle 4) = .ok (some binanceFourOutput) ∧
    binanceRangeOutput.firstSeq.toNat = binanceFourOutput.lastSeq.toNat + 1 ∧
    binanceRangeOutput.prevLast ≠ binanceFourOutput.lastSeq :=
  ⟨rfl, fun h => h rfl, by decide, rfl, by decide, by decide⟩

end ZidaBot.Feed
