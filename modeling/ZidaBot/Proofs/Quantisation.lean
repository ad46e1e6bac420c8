/-
Module: ZidaBot.Proofs.Quantisation
Purpose: What scaling makes of the venues' decimal texts.  On a well-formed text whose scaled value fits
  into 64 bits the parser returns that value rounded down, so a quantity below a thousandth reads as a
  removal and prices that share their first two decimals share a level.  Beyond that a delta means what it
  says: it leaves the levels of all other ticks alone, up to the one a full side gives up.
Trusted boundary: none
Main exports: IsDecimal, Denotes, parseDecimalToScaled_eq_floor, mem_update_of_ne, mem_of_mem_update,
  quantisation_of_deltas
-/
import ZidaBot.Common.OrderBookUtils
import ZidaBot.Library.Decimals
import ZidaBot.Proofs.TopOfBook
import Mathlib.Data.List.TakeWhile
import Mathlib.Tactic.Linarith

namespace ZidaBot

open Decimals

/-!
### Well-formed texts

The parser splits a text at its first point. A numeral has at most one, so both parts are the digits they
should be.
-/

/-- A non-negative decimal numeral: digits, and possibly a point with further digits. -/
structure IsDecimal (text int frac : List Char) : Prop where
  shape : text = int ++ '.' :: frac ∨ (text = int ∧ frac = [])
  int_digits : ∀ c ∈ int, c.isDigit = true
  frac_digits : ∀ c ∈ frac, c.isDigit = true
  some_digit : int ≠ [] ∨ frac ≠ []

/-- The text is a non-negative decimal numeral for the number. -/
def Denotes (text : String) (number : ℚ) : Prop :=
  ∃ int frac, IsDecimal text.toList int frac ∧ number = decimalValue int frac

theorem ne_point_of_isDigit {c : Char} (digit : c.isDigit = true) : (c != '.') = true := by
  rw [bne_iff_ne]
  rintro rfl
  exact absurd digit (by decide)

section Split

variable {text int frac : List Char}

/-- The split at the first point finds what stands before it. -/
theorem takeWhile_point (shape : text = int ++ '.' :: frac ∨ (text = int ∧ frac = []))
    (before : ∀ c ∈ int, (c != '.') = true) : text.takeWhile (· != '.') = int := by
  rcases shape with rfl | ⟨rfl, -⟩
  · rw [List.takeWhile_append_of_pos before]
    simp
  · exact List.takeWhile_eq_self_iff.mpr before

/-- The split at the first point finds what stands behind it. -/
theorem drop_dropWhile_point (shape : text = int ++ '.' :: frac ∨ (text = int ∧ frac = []))
    (before : ∀ c ∈ int, (c != '.') = true) : (text.dropWhile (· != '.')).drop 1 = frac := by
  rcases shape with rfl | ⟨rfl, rfl⟩
  · rw [List.dropWhile_append_of_pos before]
    simp
  · rw [List.dropWhile_eq_nil_iff.mpr before]
    rfl

end Split

namespace IsDecimal

variable {text int frac : List Char}

theorem int_ne_point (decimal : IsDecimal text int frac) : ∀ c ∈ int, (c != '.') = true :=
  fun c hc => ne_point_of_isDigit (decimal.int_digits c hc)

theorem takeWhile_eq (decimal : IsDecimal text int frac) : text.takeWhile (· != '.') = int :=
  takeWhile_point decimal.shape decimal.int_ne_point

theorem dropWhile_eq (decimal : IsDecimal text int frac) : (text.dropWhile (· != '.')).drop 1 = frac :=
  drop_dropWhile_point decimal.shape decimal.int_ne_point

/-- A decimal text starts with a digit or the point, not with a sign. -/
theorem head?_ne_minus (decimal : IsDecimal text int frac) : (text.head? == some '-') = false := by
  have hdigit : ∀ c, c.isDigit = true → c ≠ '-' := by
    rintro c hc rfl
    exact absurd hc (by decide)
  cases int with
  | nil =>
      rcases decimal.shape with rfl | ⟨rfl, -⟩
      · rfl
      · rfl
  | cons c int =>
      have hc := hdigit c (decimal.int_digits c (List.mem_cons_self ..))
      rcases decimal.shape with rfl | ⟨rfl, -⟩
      · simpa using hc
      · simpa using hc

theorem ne_nil (decimal : IsDecimal text int frac) : text ≠ [] := by
  rintro rfl
  rcases decimal.shape with hshape | ⟨rfl, rfl⟩
  · simp at hshape
  · exact decimal.some_digit.elim (fun h => h rfl) fun h => h rfl

end IsDecimal

/-!
### The parser on well-formed texts

Each loop is an induction over its characters, from the value and the divisor it has reached. Together they
compute the floor of the scaled number, which is where the meaning of quantities and prices is lost.
-/

/-- A run of digits in range is read as its number. -/
theorem fromChars_of_digits {int : List Char} (digits : ∀ c ∈ int, c.isDigit = true) (nonempty : int ≠ [])
    (range : (Nat.ofDigitChars 10 int 0 : Int) < 2 ^ 63) :
    fromChars int = some (Nat.ofDigitChars 10 int 0 : Int) := by
  have hsign : (int.head? == some '-') = false := by
    cases int with
    | nil => rfl
    | cons c int =>
        have hc := digits c (List.mem_cons_self ..)
        have hne : c ≠ '-' := by
          rintro rfl
          exact absurd hc (by decide)
        simpa using hne
  have hrange : InInt64 (Nat.ofDigitChars 10 int 0 : Int) := ⟨by omega, range⟩
  have htake : int.takeWhile Char.isDigit = int := List.takeWhile_eq_self_iff.mpr digits
  simp only [fromChars, hsign, Bool.false_eq_true, if_false, htake, if_neg nonempty, if_pos hrange]

/-- The loop over the fraction reads as many digits as the scale has room for. -/
theorem fracLoop_eq {k : Nat} {frac : List Char} (digits : ∀ c ∈ frac, c.isDigit = true) (v i : Nat)
    (room : i ≤ k) :
    fracLoop (10 ^ k) frac v (10 ^ i) =
      .ok ((Nat.ofDigitChars 10 (frac.take (k - i)) v : Int), 10 ^ (i + (frac.take (k - i)).length)) := by
  induction frac generalizing v i with
  | nil => simp [fracLoop]
  | cons c frac ih =>
      rw [fracLoop]
      by_cases hfull : k ≤ i
      · obtain rfl : i = k := Nat.le_antisymm room hfull
        simp
      · have hlt : ¬ (10 : Int) ^ k ≤ 10 ^ i := by
          have hpow : (10 : Int) ^ i < 10 ^ k := pow_lt_pow_right₀ (by decide) (by omega)
          exact not_le.mpr hpow
        have hnext := ih (fun d hd => digits d (List.mem_cons_of_mem c hd))
          (10 * v + (c.toNat - '0'.toNat)) (i + 1) (by omega)
        have hvalue : (v : Int) * 10 + ((c.toNat - '0'.toNat : Nat) : Int) =
            ((10 * v + (c.toNat - '0'.toNat) : Nat) : Int) := by
          push_cast
          ring
        obtain ⟨n, hn⟩ : ∃ n, k - i = n + 1 := ⟨k - i - 1, by omega⟩
        rw [if_neg hlt, if_pos (digits c (List.mem_cons_self ..)), hvalue, ← pow_succ, hnext, hn,
          List.take_succ_cons, Nat.ofDigitChars_cons, List.length_cons]
        have hn' : k - (i + 1) = n := by omega
        rw [hn']
        congr 3
        omega

/-- The padding loop fills the fraction up to the scale. -/
theorem padLoop_eq {k fuel : Nat} (v : Int) (i : Nat) (room : i ≤ k) (enough : k - i ≤ fuel) :
    padLoop (10 ^ k) fuel v (10 ^ i) = v * 10 ^ (k - i) := by
  induction fuel generalizing v i with
  | zero =>
      have hzero : k - i = 0 := by omega
      simp [padLoop, hzero]
  | succ fuel ih =>
      rw [padLoop]
      by_cases hlt : i < k
      · have hpow : (10 : Int) ^ i < 10 ^ k := pow_lt_pow_right₀ (by decide) hlt
        obtain ⟨n, hn⟩ : ∃ n, k - i = n + 1 := ⟨k - i - 1, by omega⟩
        have hn' : k - (i + 1) = n := by omega
        rw [if_pos hpow, ← pow_succ, ih (v * 10) (i + 1) (by omega) (by omega), hn, hn']
        ring
      · obtain rfl : i = k := by omega
        simp

/-- The integer part of a well-formed text, which may be missing. -/
theorem IsDecimal.intVal_eq {text int frac : List Char} (decimal : IsDecimal text int frac)
    (range : (Nat.ofDigitChars 10 int 0 : Int) < 2 ^ 63) :
    (if int = [] then some 0 else fromChars int) = some (Nat.ofDigitChars 10 int 0 : Int) := by
  by_cases hempty : int = []
  · rw [if_pos hempty, hempty]
    rfl
  · rw [if_neg hempty]
    exact fromChars_of_digits decimal.int_digits hempty range

/-- The loop over the fraction, from its start. -/
theorem fracLoop_start (k : Nat) {frac : List Char} (digits : ∀ c ∈ frac, c.isDigit = true) :
    fracLoop (10 ^ k) frac 0 1 =
      .ok ((Nat.ofDigitChars 10 (frac.take k) 0 : Int), 10 ^ (frac.take k).length) := by
  have hloop := fracLoop_eq digits 0 0 (Nat.zero_le k)
  simpa using hloop

/-- The padding of what the loop over the fraction leaves. -/
theorem padLoop_start (k : Nat) (frac : List Char) :
    padLoop (10 ^ k) ((10 : Int) ^ k).toNat (Nat.ofDigitChars 10 (frac.take k) 0)
      (10 ^ (frac.take k).length) = (scaledFraction k frac : Int) := by
  have hfuel : ((10 : Int) ^ k).toNat = 10 ^ k := by
    have hcast : (10 : Int) ^ k = ((10 ^ k : Nat) : Int) := by push_cast; rfl
    rw [hcast, Int.toNat_natCast]
  have hk : k < 10 ^ k := Nat.lt_pow_self (by decide)
  rw [padLoop_eq _ _ (List.length_take_le k frac) (by omega), scaledFraction]
  push_cast
  rfl

/-- On a well-formed text whose scaled value fits into 64 bits, the parser rounds that value down. -/
theorem parseDecimalToScaled_eq_floor {text int frac : List Char} (decimal : IsDecimal text int frac)
    (k : Nat) (range : decimalValue int frac * 10 ^ k < 2 ^ 63) :
    parseDecimalToScaled text (10 ^ k) = .ok ⌊decimalValue int frac * 10 ^ k⌋ := by
  have hfloor := floor_decimalValue k int decimal.frac_digits
  -- the result and its two summands are in range
  have hbound : ((Nat.ofDigitChars 10 int 0 * 10 ^ k + scaledFraction k frac : Nat) : Int) < 2 ^ 63 := by
    rw [← hfloor, Int.floor_lt]
    push_cast
    exact range
  have hpower : 0 < 10 ^ k := by positivity
  have hint : Nat.ofDigitChars 10 int 0 ≤ Nat.ofDigitChars 10 int 0 * 10 ^ k :=
    Nat.le_mul_of_pos_right _ hpower
  have hintPart := decimal.intVal_eq (by omega)
  have hproduct : wrap64 ((Nat.ofDigitChars 10 int 0 : Int) * 10 ^ k) =
      ((Nat.ofDigitChars 10 int 0 * 10 ^ k : Nat) : Int) := by
    have hcast : (Nat.ofDigitChars 10 int 0 : Int) * 10 ^ k =
        ((Nat.ofDigitChars 10 int 0 * 10 ^ k : Nat) : Int) := by push_cast; rfl
    rw [hcast]
    exact wrap64_of_inInt64 ⟨by omega, by omega⟩
  have hsum : wrap64 (((Nat.ofDigitChars 10 int 0 * 10 ^ k : Nat) : Int) + (scaledFraction k frac : Int)) =
      ((Nat.ofDigitChars 10 int 0 * 10 ^ k + scaledFraction k frac : Nat) : Int) := by
    have hcast : ((Nat.ofDigitChars 10 int 0 * 10 ^ k : Nat) : Int) + (scaledFraction k frac : Int) =
        ((Nat.ofDigitChars 10 int 0 * 10 ^ k + scaledFraction k frac : Nat) : Int) := by push_cast; rfl
    rw [hcast]
    exact wrap64_of_inInt64 ⟨by omega, hbound⟩
  rw [hfloor]
  simp only [parseDecimalToScaled, if_neg decimal.ne_nil, decimal.head?_ne_minus, Bool.false_eq_true,
    if_false, decimal.takeWhile_eq, decimal.dropWhile_eq, hintPart, fracLoop_start k decimal.frac_digits,
    padLoop_start, hproduct, hsum]

/-- Ticks of a price and lots of a quantity: two and three decimals are kept. -/
theorem parsePriceToTicks_eq {text : String} {price : ℚ} (denotes : Denotes text price)
    (range : price * 100 < 2 ^ 63) : parsePriceToTicks text = .ok ⌊price * 100⌋ := by
  obtain ⟨int, frac, decimal, rfl⟩ := denotes
  have hscale : (100 : ℚ) = 10 ^ 2 := by norm_num
  rw [hscale] at range ⊢
  exact parseDecimalToScaled_eq_floor decimal 2 range

theorem parseQtyToLots_eq {text : String} {quantity : ℚ} (denotes : Denotes text quantity)
    (range : quantity * 1000 < 2 ^ 63) : parseQtyToLots text = .ok ⌊quantity * 1000⌋ := by
  obtain ⟨int, frac, decimal, rfl⟩ := denotes
  have hscale : (1000 : ℚ) = 10 ^ 3 := by norm_num
  rw [hscale] at range ⊢
  exact parseDecimalToScaled_eq_floor decimal 3 range

theorem Denotes.nonneg {text : String} {number : ℚ} (denotes : Denotes text number) : 0 ≤ number := by
  obtain ⟨int, frac, -, rfl⟩ := denotes
  exact decimalValue_nonneg int frac

/-- A non-negative quantity reads as zero exactly below a thousandth. -/
theorem floor_lots_eq_zero_iff {quantity : ℚ} (nonneg : 0 ≤ quantity) :
    ⌊quantity * 1000⌋ = 0 ↔ quantity < 1 / 1000 := by
  rw [Int.floor_eq_iff]
  constructor
  · rintro ⟨-, hlt⟩
    push_cast at hlt
    linarith
  · intro hlt
    constructor
    · push_cast
      positivity
    · push_cast
      linarith

/-!
### What a delta does to the levels of a side

An update touches the level of its own tick. It can cost another tick its level in one case only: a new
level is inserted into a full side, and the last one goes.
-/

namespace OrderBook

variable {book : OrderBook} {s : Side} {level l : Level}

/-- A removal takes no level of another tick. -/
theorem mem_removeFrom_of_ne {vec : List Level} {depth : Nat} {tick : Int} (valid : SideValid s depth vec)
    (member : l ∈ vec) (other : l.priceTick ≠ tick) : l ∈ removeFrom s vec tick := by
  obtain ⟨better, worse, rfl, -, -, hfind⟩ := exists_split valid.ascending tick
  rw [removeFrom_split hfind]
  cases worse with
  | nil => simpa using member
  | cons found rest =>
      dsimp only
      split
      · rename_i hsame
        have hne : l ≠ found := fun h => other (h ▸ hsame)
        simpa [hne] using member
      · exact member

/-- Levels of other ticks stay when one is placed, except for the last one of a full side that the new level is
    inserted into. -/
theorem mem_placeIn_of_ne {vec : List Level} {depth : Nat} (valid : SideValid s depth vec) (member : l ∈ vec)
    (other : l.priceTick ≠ level.priceTick) :
    l ∈ placeIn s depth vec level ∨
      (vec.length = depth ∧ vec.getLast? = some l ∧ (∀ l' ∈ vec, l'.priceTick ≠ level.priceTick) ∧
        level ∈ placeIn s depth vec level) := by
  have hlength := valid.length_le
  have hfinds := fun l' (hl' : l' ∈ vec) => lowerBound_finds valid.ascending hl'
  obtain ⟨better, worse, rfl, -, -, hfind⟩ := exists_split valid.ascending level.priceTick
  rw [placeIn_split hfind]
  cases worse with
  | nil =>
      left
      dsimp only
      split
      · simpa using Or.inl (by simpa using member)
      · simpa using member
  | cons found rest =>
      dsimp only
      split
      · rename_i hsame
        have hne : l ≠ found := fun h => other (h ▸ hsame)
        left
        simp only [List.mem_append, List.mem_cons] at member ⊢
        tauto
      · rename_i hnew
        split
        · left
          simp only [List.mem_append, List.mem_cons] at member ⊢
          tauto
        · -- the side is full: only its last level can go
          have hsplitLast : (better ++ level :: found :: rest).dropLast =
              better ++ level :: (found :: rest).dropLast := by
            rw [List.dropLast_append_of_ne_nil (by simp), List.dropLast_cons_of_ne_nil (by simp)]
          rw [hsplitLast]
          rcases List.mem_append.mp member with hbetter | hworse
          · exact Or.inl (List.mem_append_left _ hbetter)
          · rw [← List.dropLast_append_getLast (List.cons_ne_nil found rest)] at hworse
            rcases List.mem_append.mp hworse with hkept | hlast
            · exact Or.inl (List.mem_append_right _ (List.mem_cons_of_mem _ hkept))
            · refine Or.inr ⟨by omega, ?_, ?_, by simp⟩
              · rw [List.mem_singleton.mp hlast, List.getLast?_append_of_ne_nil _ (by simp),
                  List.getLast?_eq_some_getLast]
              · -- a level of that tick would stand where the search has found another one
                intro l' hl' hsame
                have hfound := hfinds l' hl'
                rw [hsame, hfind, List.getElem?_append_right (Nat.le_refl _), Nat.sub_self] at hfound
                exact hnew (Option.some.inj hfound ▸ hsame)

/-- Levels of other ticks stay, except for the last one of a full side that the new level is inserted into. -/
theorem mem_update_of_ne (valid : book.Valid) (member : l ∈ book.side s)
    (other : l.priceTick ≠ level.priceTick) :
    l ∈ (book.update s level).side s ∨
      ((book.side s).length = book.depth ∧ (book.side s).getLast? = some l ∧
        (∀ l' ∈ book.side s, l'.priceTick ≠ level.priceTick) ∧
        level ∈ (book.update s level).side s ∧ level.quantityLot ≠ 0) := by
  rw [update]
  split
  · rw [remove, side_setSide_self]
    exact Or.inl (mem_removeFrom_of_ne (valid s) member other)
  · rename_i hplaced
    rw [side_setSide_self]
    rcases mem_placeIn_of_ne (valid s) member other with hkept | ⟨hfull, hlast, hnew, hinserted⟩
    · exact Or.inl hkept
    · exact Or.inr ⟨hfull, hlast, hnew, hinserted, by simpa [Level.isEmpty] using hplaced⟩

/-- Every level of another tick was there before. -/
theorem mem_of_mem_update (member : l ∈ (book.update s level).side s)
    (other : l.priceTick ≠ level.priceTick) : l ∈ book.side s := by
  rw [update] at member
  split at member
  · rw [remove, side_setSide_self] at member
    exact mem_of_mem_removeFrom member
  · rw [side_setSide_self] at member
    rcases of_mem_placeIn member with hold | rfl | ⟨found, -, htick, rfl⟩
    · exact hold
    · exact absurd rfl other
    · exact absurd htick other

end OrderBook

/-!
### Result
-/

/-- What the texts of a delta come to.  Well-formed texts in range are accepted, and read rounded down to two
    decimals of price and three of quantity.  The lots are zero exactly for quantities below a thousandth,
    and two prices get the same tick exactly if they agree in two decimals.  On every book that operations
    can reach, a delta of at least a thousandth keeps the level of its price and gives it the new quantity;
    levels of prices that differ in two decimals are neither changed nor added, and none is lost but the
    last one of a full side, which the depth pushes out when the delta inserts a level that was not there. -/
theorem quantisation_of_deltas {px qt : String} {price quantity : ℚ} (pxDenotes : Denotes px price)
    (qtDenotes : Denotes qt quantity) (pxRange : price * 100 < 2 ^ 63)
    (qtRange : quantity * 1000 < 2 ^ 63) :
    ∃ level, levelFromTexts px qt = .ok level ∧
      level.priceTick = ⌊price * 100⌋ ∧ level.quantityLot = ⌊quantity * 1000⌋ ∧
      (level.quantityLot = 0 ↔ quantity < 1 / 1000) ∧
      (∀ px' price' tick', Denotes px' price' → price' * 100 < 2 ^ 63 →
        parsePriceToTicks px' = .ok tick' →
        (tick' = level.priceTick ↔ ⌊price' * 100⌋ = ⌊price * 100⌋)) ∧
      ∀ (depth : Nat) (depth_pos : 0 < depth) (ops : List BookOp) (s : Side),
        let book := Runs.run OrderBook.apply (OrderBook.empty depth depth_pos) ops
        let next := book.update s level
        (1 / 1000 ≤ quantity → ∀ l ∈ book.side s, l.priceTick = ⌊price * 100⌋ →
          { l with quantityLot := ⌊quantity * 1000⌋ } ∈ next.side s) ∧
        (∀ l ∈ book.side s, l.priceTick ≠ ⌊price * 100⌋ → l ∈ next.side s ∨
          ((book.side s).length = depth ∧ (book.side s).getLast? = some l ∧
            (∀ l' ∈ book.side s, l'.priceTick ≠ ⌊price * 100⌋) ∧ level ∈ next.side s ∧
            1 / 1000 ≤ quantity)) ∧
        (∀ l ∈ next.side s, l.priceTick ≠ ⌊price * 100⌋ → l ∈ book.side s) ∧
        ∀ s', s' ≠ s → next.side s' = book.side s' := by
  have hzero := floor_lots_eq_zero_iff qtDenotes.nonneg
  let level : Level :=
    { priceTick := ⌊price * 100⌋, quantityLot := ⌊quantity * 1000⌋, price := px, quantity := qt }
  refine ⟨level, ?_, rfl, rfl, hzero, ?_, ?_⟩
  · rw [levelFromTexts, parsePriceToTicks_eq pxDenotes pxRange, parseQtyToLots_eq qtDenotes qtRange]
    rfl
  · intro px' price' tick' hdenotes hrange hparse
    rw [parsePriceToTicks_eq hdenotes hrange] at hparse
    cases hparse
    rfl
  · intro depth depth_pos ops s book next
    have valid : book.Valid := OrderBook.valid_run depth depth_pos ops
    have hdepth : book.depth = depth := OrderBook.depth_run depth depth_pos ops
    refine ⟨?_, ?_, ?_, ?_⟩
    · intro hquantity l hl hsame
      have hresting : level.quantityLot ≠ 0 := fun h => absurd (hzero.mp h) (not_lt.mpr hquantity)
      exact valid.mem_update_of_resting hresting hl hsame
    · intro l hl hother
      have hother : l.priceTick ≠ level.priceTick := hother
      rcases OrderBook.mem_update_of_ne valid hl hother with
        hkept | ⟨hfull, hlast, hnew, hinserted, hresting⟩
      · exact Or.inl hkept
      · exact Or.inr ⟨hfull.trans hdepth, hlast, hnew, hinserted, not_lt.mp fun h => hresting (hzero.mpr h)⟩
    · intro l hl hother
      exact OrderBook.mem_of_mem_update hl hother
    · intro s' hs'
      exact OrderBook.side_update_of_ne hs' book level

theorem digit_values : '1'.toNat - '0'.toNat = 1 ∧ '2'.toNat - '0'.toNat = 2 := by decide

/-- A text of four decimals. -/
theorem denotes_ten_thousandth : Denotes "0.0001" (1 / 10000) :=
  ⟨['0'], ['0', '0', '0', '1'], ⟨by decide, List.all_eq_true.mp rfl, List.all_eq_true.mp rfl, by decide⟩,
    by norm_num [decimalValue, Nat.ofDigitChars, digit_values]⟩

/-- A text without a point. -/
theorem denotes_hundred : Denotes "100" 100 :=
  ⟨['1', '0', '0'], [], ⟨by decide, List.all_eq_true.mp rfl, List.all_eq_true.mp rfl, by decide⟩,
    by norm_num [decimalValue, Nat.ofDigitChars, digit_values]⟩

/-- A bid of one unit at 100. -/
def unitBid : List BookOp :=
  [.update .bid { priceTick := 10000, quantityLot := 1000, price := "100", quantity := "1" }]

/-- A second unit at the price of the bid replaces its quantity. -/
theorem quantisation_of_hundred :
    ∃ level, levelFromTexts "100" "100" = .ok level ∧
      { priceTick := 10000, quantityLot := 100000, price := "100", quantity := "1" } ∈
        ((Runs.run OrderBook.apply (OrderBook.empty 5 (by decide)) unitBid).update .bid level).bids := by
  obtain ⟨level, haccepted, -, -, -, -, hbook⟩ := quantisation_of_deltas denotes_hundred denotes_hundred
    (by norm_num) (by norm_num)
  refine ⟨level, haccepted, ?_⟩
  have hkeeps := (hbook 5 (by decide) unitBid .bid).1 (by norm_num)
    { priceTick := 10000, quantityLot := 1000, price := "100", quantity := "1" } (by decide)
    (by norm_num)
  norm_num at hkeeps
  exact hkeeps

/-- A delta of a positive quantity removes the bid, and two different prices share a tick. -/
theorem quantisation_loses_meaning :
    (Denotes "100" 100 ∧ Denotes "0.0001" (1 / 10000) ∧
      ∃ level, levelFromTexts "100" "0.0001" = .ok level ∧ level.quantityLot = 0 ∧
        (Runs.run OrderBook.apply (OrderBook.empty 5 (by decide)) unitBid).bids ≠ [] ∧
        ((Runs.run OrderBook.apply (OrderBook.empty 5 (by decide)) unitBid).update .bid level).bids = []) ∧
    (Denotes "0.001" (1 / 1000) ∧ Denotes "0.002" (2 / 1000) ∧
      parsePriceToTicks "0.001" = .ok 0 ∧ parsePriceToTicks "0.002" = .ok 0) := by
  refine ⟨⟨denotes_hundred, denotes_ten_thousandth,
    { priceTick := 10000, quantityLot := 0, price := "100", quantity := "0.0001" }, by decide, rfl,
    by decide, by decide⟩, ?_, ?_, by decide, by decide⟩
  · exact ⟨['0'], ['0', '0', '1'], ⟨by decide, List.all_eq_true.mp rfl, List.all_eq_true.mp rfl, by decide⟩,
      by norm_num [decimalValue, Nat.ofDigitChars, digit_values]⟩
  · exact ⟨['0'], ['0', '0', '2'], ⟨by decide, List.all_eq_true.mp rfl, List.all_eq_true.mp rfl, by decide⟩,
      by norm_num [decimalValue, Nat.ofDigitChars, digit_values]⟩

end ZidaBot
