/-
Module: ZidaBot.Proofs.VenueFees
Purpose: The fee table against the option text it is read from.  A token counts if a venue stands before its
  first colon and a decimal number behind it, and the last such token of a venue gives its fee.  The reader
  also takes a number from the front of a text that goes on, nan, infinity and hexadecimal numbers, and drops
  decimal numbers below the normal doubles; the table is right exactly if no such token has the last word.
Trusted boundary: none
Main exports: FeeText, TokenFee, ClaimedFee, Lenient, TooSmall, LastWordWhole, venueFees_iff
-/
import ZidaBot.Brain.BrainCmdLine
import ZidaBot.Proofs.DoubleTexts
import Mathlib.Data.List.DropRight

namespace ZidaBot.Brain

open Spans LastValue

/-!
### Tokens that count

What the option should mean, stated without the source: a venue, a colon and a decimal number with a finite
double.
-/

/-- From end to end a decimal number that is not negative and, as a double, finite. -/
def FeeText (text : List Char) (fee : ℚ) : Prop :=
  ∃ negative magnitude, DecimalText text negative magnitude ∧ magnitude < 2 ^ 1024 - 2 ^ 970 ∧
    fee = (if negative then -magnitude else magnitude) ∧ 0 ≤ fee

/-- The token is a venue, a colon and its fee, with white space around both. -/
def TokenFee (venue : String) (token : List Char) (fee : Double) : Prop :=
  ∃ name rest value, token = name ++ ':' :: rest ∧ ':' ∉ name ∧ venue ≠ "" ∧
    trimAsciiWhitespace name = venue.toList ∧ FeeText (trimAsciiWhitespace rest) value ∧
    fee = .finite value

/-- The fee of a venue is that of the last token that counts for it. -/
def ClaimedFee (s : String) (venue : String) (fee : Double) : Prop :=
  Last (TokenFee venue) (s.toList.splitOn ',') fee

/-!
### Tokens as the source takes them apart

Splitting at the first colon and trimming both parts finds the venue and the number of every token that
counts.
-/

/-- A trimmed text does not start with white space. -/
theorem stops_trim (text : List Char) : Stops isSpace (trimAsciiWhitespace text) := by
  intro c hc
  have hprefix : trimAsciiWhitespace text <+: text.dropWhile isSpace := List.rdropWhile_prefix _ _
  obtain ⟨rest, hrest⟩ := hprefix
  refine stops_dropWhile isSpace text c ?_
  rw [← hrest, List.head?_append, Option.mem_def.mp hc]
  rfl

theorem ofList_ne_empty {text : List Char} (nonempty : text ≠ []) : String.ofList text ≠ "" := by
  intro h
  exact nonempty (String.ofList_injective h)

theorem venueToken_iff {token text : List Char} {venue : String} :
    venueToken token = some (venue, text) ↔
      ∃ name rest, token = name ++ ':' :: rest ∧ ':' ∉ name ∧ venue ≠ "" ∧
        trimAsciiWhitespace name = venue.toList ∧ trimAsciiWhitespace rest = text ∧ text ≠ [] := by
  constructor
  · intro htoken
    have hsplit := List.takeWhile_append_dropWhile (p := (· != ':')) (l := token)
    have hstops := stops_dropWhile (· != ':') token
    unfold venueToken at htoken
    dsimp only at htoken
    split at htoken
    · cases htoken
    · rename_i c rest hdrop
      rw [hdrop] at hsplit hstops
      have hcolon : c = ':' := by simpa using stops_cons.mp hstops
      split at htoken
      · cases htoken
      · split at htoken
        · cases htoken
        · rename_i hparts
          cases htoken
          obtain ⟨hvenue, htext⟩ := not_or.mp hparts
          refine ⟨_, rest, hcolon ▸ hsplit.symm, ?_, ofList_ne_empty hvenue, ?_, rfl, htext⟩
          · intro hmem
            exact absurd (List.mem_takeWhile_imp hmem) (by simp)
          · exact String.toList_ofList.symm
  · rintro ⟨name, rest, rfl, hcolon, hvenue, hname, rfl, htext⟩
    have hbefore : ∀ c ∈ name, (c != ':') = true := by
      intro c hc
      exact bne_iff_ne.mpr fun h => hcolon (h ▸ hc)
    have hstops : Stops (· != ':') (':' :: rest) := stops_cons.mpr (by simp)
    have hnonempty : trimAsciiWhitespace name ≠ [] := by
      intro hempty
      rw [hempty] at hname
      exact hvenue (String.toList_eq_nil_iff.mp hname.symm)
    have hname_ne : name ≠ [] := by
      rintro rfl
      exact hnonempty rfl
    have hrest_ne : rest ≠ [] := by
      rintro rfl
      exact htext rfl
    rw [venueToken, takeWhile_span hbefore hstops, dropWhile_span hbefore hstops]
    simp only [hname_ne, hrest_ne, hnonempty, htext, or_self, if_false]
    rw [hname, String.ofList_toList]

theorem FeeText.ne_nil {text : List Char} {fee : ℚ} (counts : FeeText text fee) : text ≠ [] := by
  rintro rfl
  obtain ⟨negative, magnitude, hdecimal, -⟩ := counts
  have hscanned := congrArg Prod.snd (decimalText_iff.mp hdecimal)
  exact absurd hscanned (by simp [signedNumeral, scanSign, scanNumeral, startsWithWord, scanHex, scanDecimal,
    scanMantissa])

/-- A token that counts, as the source takes it apart. -/
theorem tokenFee_iff {venue : String} {token : List Char} {fee : Double} :
    TokenFee venue token fee ↔
      ∃ text value, venueToken token = some (venue, text) ∧ FeeText text value ∧ fee = .finite value := by
  constructor
  · rintro ⟨name, rest, value, htoken, hcolon, hvenue, hname, hfee, rfl⟩
    refine ⟨_, value, venueToken_iff.mpr ⟨name, rest, htoken, hcolon, hvenue, hname, rfl, hfee.ne_nil⟩, hfee, rfl⟩
  · rintro ⟨text, value, htoken, hfee, rfl⟩
    obtain ⟨name, rest, rfl, hcolon, hvenue, hname, rfl, -⟩ := venueToken_iff.mp htoken
    exact ⟨name, rest, value, rfl, hcolon, hvenue, hname, hfee, rfl⟩

theorem feeEntry_iff {venue : String} {token : List Char} {fee : Double} :
    feeEntry token = some (venue, fee) ↔
      ∃ text, venueToken token = some (venue, text) ∧ acceptedFee text = some fee := by
  rw [feeEntry]
  split
  · rename_i hnone
    simp [hnone]
  · rename_i venue' text htoken
    simp only [htoken, Option.map_eq_some_iff, Prod.mk.injEq, Option.some.injEq]
    constructor
    · rintro ⟨fee', hfee, rfl, rfl⟩
      exact ⟨text, ⟨rfl, rfl⟩, hfee⟩
    · rintro ⟨text', ⟨rfl, rfl⟩, hfee⟩
      exact ⟨fee, hfee, rfl, rfl⟩

/-!
### Fees that are taken

`std::stod` reads the longest number at the front. So more texts are taken than should be, and one kind that
should be is refused: numbers that are too small for a normal double.
-/

/-- The number at the front of the text is no decimal number, or the text goes on behind it, but a fee is
    taken from it. -/
def Lenient (text : List Char) : Prop :=
  acceptedFee text ≠ none ∧ ∀ magnitude, (signedNumeral text).2 ≠ some (.decimal magnitude [])

/-- A fee that is below the normal doubles and not exact, which `std::stod` reports as out of range. -/
def TooSmall (text : List Char) : Prop := ∃ fee, FeeText text fee ∧ outOfRange fee = true

theorem acceptedFee_iff {text : List Char} {fee : Double} :
    acceptedFee text = some fee ↔ stod text = .ok fee ∧ fee.isNegative = false := by
  rw [acceptedFee]
  cases hstod : stod text with
  | error err => simp
  | ok d =>
      dsimp only
      split
      · rename_i hnegative
        refine iff_of_false (by simp) ?_
        rintro ⟨hsame, hnot⟩
        rw [← Except.ok.inj hsame, hnegative] at hnot
        cases hnot
      · rename_i hnot
        simp only [Bool.not_eq_true] at hnot
        constructor
        · rintro ⟨rfl⟩
          exact ⟨rfl, hnot⟩
        · rintro ⟨hsame, -⟩
          exact congrArg some (Except.ok.inj hsame)

/-- A text has one fee. -/
theorem FeeText.unique {text : List Char} {fee fee' : ℚ} (counts : FeeText text fee)
    (counts' : FeeText text fee') : fee = fee' := by
  obtain ⟨negative, magnitude, hdecimal, -, rfl, -⟩ := counts
  obtain ⟨negative', magnitude', hdecimal', -, rfl, -⟩ := counts'
  have hsame := (decimalText_iff.mp hdecimal).symm.trans (decimalText_iff.mp hdecimal')
  cases hsame
  rfl

/-- A fee that is not negative is its magnitude. -/
theorem signed_eq_of_nonneg {negative : Bool} {magnitude : ℚ} (nonneg : 0 ≤ magnitude)
    (signed : 0 ≤ (if negative then -magnitude else magnitude)) :
    (if negative then -magnitude else magnitude) = magnitude := by
  cases negative with
  | false => rfl
  | true =>
      have hzero : magnitude = 0 := le_antisymm (by simpa using signed) nonneg
      simp [hzero]

/-- What is taken from a text that counts. -/
theorem FeeText.accepted {text : List Char} {fee : ℚ} (counts : FeeText text fee)
    (trimmed : Stops isSpace text) :
    acceptedFee text = if outOfRange fee then none else some (.finite fee) := by
  obtain ⟨negative, magnitude, hdecimal, -, hfee, hnonneg⟩ := counts
  have hsame : fee = magnitude :=
    hfee.trans (signed_eq_of_nonneg hdecimal.magnitude_nonneg (hfee ▸ hnonneg))
  have hstod : stod text = finiteDouble negative magnitude := by
    rw [stod_eq trimmed, decimalText_iff.mp hdecimal]
  rw [acceptedFee, hstod, finiteDouble, ← hfee, ← hsame]
  cases hout : outOfRange fee with
  | true => simp
  | false => simp [Double.isNegative, hnonneg]

/-- What is taken from a text that is a decimal number from end to end counts. -/
theorem feeText_of_accepted {text : List Char} {fee : Double} (accepted : acceptedFee text = some fee)
    (trimmed : Stops isSpace text) (whole : ¬ Lenient text) :
    ∃ value, FeeText text value ∧ fee = .finite value := by
  obtain ⟨hstod, hsign⟩ := acceptedFee_iff.mp accepted
  obtain ⟨magnitude, hnumeral⟩ : ∃ magnitude, (signedNumeral text).2 = some (.decimal magnitude []) := by
    by_contra hnone
    refine whole ⟨by simp [accepted], fun magnitude hmagnitude => hnone ⟨magnitude, hmagnitude⟩⟩
  have hscanned : signedNumeral text = ((signedNumeral text).1, some (.decimal magnitude [])) :=
    Prod.ext rfl hnumeral
  have hdecimal := decimalText_iff.mpr hscanned
  rw [stod_eq trimmed, hscanned] at hstod
  obtain ⟨hrange, rfl⟩ := finiteDouble_ok_iff.mp hstod
  refine ⟨_, ⟨_, magnitude, hdecimal, ?_, rfl, ?_⟩, rfl⟩
  · simp only [outOfRange, Bool.or_eq_false_iff, decide_eq_false_iff_not, not_le] at hrange
    exact hrange.1
  · simpa [Double.isNegative] using hsign

theorem Lenient.not_feeText {text : List Char} (lenient : Lenient text) (fee : ℚ) : ¬ FeeText text fee := by
  rintro ⟨negative, magnitude, hdecimal, -⟩
  exact lenient.2 magnitude (congrArg Prod.snd (decimalText_iff.mp hdecimal))

/-- No fee that is taken is out of range. -/
theorem inRange_of_accepted {text : List Char} {fee : ℚ} (accepted : acceptedFee text = some (.finite fee))
    (trimmed : Stops isSpace text) : outOfRange fee = false := by
  obtain ⟨hstod, hsign⟩ := acceptedFee_iff.mp accepted
  obtain ⟨numeral, magnitude, hscanned, hfinite, hrange, hfee⟩ := stod_finite_inv trimmed hstod
  have hnonneg : 0 ≤ fee := by simpa [Double.isNegative] using hsign
  rw [hfee] at hnonneg ⊢
  rwa [signed_eq_of_nonneg (magnitude_nonneg hscanned hfinite) hnonneg]

/-!
### The table
-/

/-- What the source enters for a venue. -/
def EnteredFee (venue : String) (token : List Char) (fee : Double) : Prop :=
  feeEntry token = some (venue, fee)

theorem functional_enteredFee (venue : String) : Functional (EnteredFee venue) := by
  intro token fee fee' hentry hentry'
  exact congrArg Prod.snd (Option.some.inj (hentry.symm.trans hentry'))

theorem functional_tokenFee (venue : String) : Functional (TokenFee venue) := by
  intro token fee fee' hcounts hcounts'
  obtain ⟨text, value, htoken, hfee, rfl⟩ := tokenFee_iff.mp hcounts
  obtain ⟨text', value', htoken', hfee', rfl⟩ := tokenFee_iff.mp hcounts'
  cases htoken.symm.trans htoken'
  rw [hfee.unique hfee']

theorem modifyHead_nil_append (pieces : List (List Char)) : pieces.modifyHead ([] ++ ·) = pieces := by
  cases pieces <;> rfl

/-- The tokens are the pieces between commas, but for an empty one at the end. -/
theorem getlines_eq (token text : List Char) :
    (text.splitOn ',').modifyHead (token ++ ·) = getlines token text ∨
      (text.splitOn ',').modifyHead (token ++ ·) = getlines token text ++ [[]] := by
  induction text generalizing token with
  | nil =>
      cases token with
      | nil => exact Or.inr rfl
      | cons c token => exact Or.inl (by simp [getlines])
  | cons c text ih =>
      rw [List.splitOn_cons_eq_if_modifyHead, getlines]
      by_cases hcomma : c = ','
      · have hih := ih []
        rw [modifyHead_nil_append] at hih
        simp only [hcomma, beq_self_eq_true, if_true, List.modifyHead_cons, List.append_nil, List.cons_append]
        exact hih.imp (congrArg (token :: ·)) (congrArg (token :: ·))
      · have hcomp : ((token ++ ·) ∘ List.cons c) = ((token ++ [c]) ++ ·) := by
          funext piece
          simp
        simp only [hcomma, beq_iff_eq, if_false, List.modifyHead_modifyHead, hcomp]
        exact ih (token ++ [c])

/-- An empty token says nothing. -/
theorem silent_nil (venue : String) : Silent (EnteredFee venue) [] := by
  intro fee hentry
  cases hentry

theorem last_getlines (venue : String) (text : List Char) (fee : Double) :
    Last (EnteredFee venue) (getlines [] text) fee ↔ Last (EnteredFee venue) (text.splitOn ',') fee := by
  have hsplit := getlines_eq [] text
  rw [modifyHead_nil_append] at hsplit
  rcases hsplit with hsame | hextra
  · rw [hsame]
  · rw [hextra, last_concat]
    exact ⟨fun h => Or.inr ⟨silent_nil venue, h⟩, fun h => (h.resolve_left (silent_nil venue fee)).2⟩

theorem lookup_parseVenueFees (s venue : String) (fee : Double) :
    (parseVenueFees s).lookup venue = some fee ↔ Last (EnteredFee venue) (s.toList.splitOn ',') fee := by
  rw [parseVenueFees, lookup_foldl_record]
  exact last_getlines venue s.toList fee

/-!
### Who has the last word

A later entry hides the earlier ones, so one wrong token does no harm as long as a later one settles the
fee.
-/

/-- The token names the venue, and its fee text is taken or should be. -/
def Carries (venue : String) (token : List Char) : Prop :=
  ∃ text, venueToken token = some (venue, text) ∧ (acceptedFee text ≠ none ∨ TooSmall text)

/-- The last token that carries a fee of a venue is not too small, and if it is taken leniently it repeats
    the fee of the last token that counts. -/
def LastWordWhole (s : String) : Prop :=
  ∀ venue before token after text, s.toList.splitOn ',' = before ++ token :: after →
    venueToken token = some (venue, text) → (∀ later ∈ after, ¬ Carries venue later) →
    ¬ TooSmall text ∧
      (Lenient text → ∃ fee, acceptedFee text = some (.finite fee) ∧
        Last (TokenFee venue) before (.finite fee))

theorem trimmed_of_venueToken {venue : String} {token text : List Char}
    (htoken : venueToken token = some (venue, text)) : Stops isSpace text := by
  obtain ⟨name, rest, -, -, -, -, rfl, -⟩ := venueToken_iff.mp htoken
  exact stops_trim rest

/-- The tokens that say nothing under either reading. -/
theorem silent_iff {venue : String} {token : List Char} :
    (Silent (EnteredFee venue) token ∧ Silent (TokenFee venue) token) ↔ ¬ Carries venue token := by
  constructor
  · rintro ⟨hentered, hcounts⟩ ⟨text, htoken, haccepted | ⟨fee, hfee, -⟩⟩
    · obtain ⟨fee, hfee⟩ := Option.ne_none_iff_exists'.mp haccepted
      exact hentered fee (feeEntry_iff.mpr ⟨text, htoken, hfee⟩)
    · exact hcounts _ (tokenFee_iff.mpr ⟨text, fee, htoken, hfee, rfl⟩)
  · intro hcarries
    constructor
    · intro fee hentry
      obtain ⟨text, htoken, hfee⟩ := feeEntry_iff.mp hentry
      exact hcarries ⟨text, htoken, Or.inl (by simp [hfee])⟩
    · intro fee hcounts
      obtain ⟨text, value, htoken, hfee, rfl⟩ := tokenFee_iff.mp hcounts
      have haccepted := hfee.accepted (trimmed_of_venueToken htoken)
      by_cases hout : outOfRange value = true
      · exact hcarries ⟨text, htoken, Or.inr ⟨value, hfee, hout⟩⟩
      · rw [if_neg hout] at haccepted
        exact hcarries ⟨text, htoken, Or.inl (by simp [haccepted])⟩

section Settling

variable {venue : String} {before : List (List Char)} {token text : List Char}

theorem silent_of_tooSmall (htoken : venueToken token = some (venue, text)) (small : TooSmall text) :
    Silent (EnteredFee venue) token := by
  intro fee hentry
  obtain ⟨value, hfee, hout⟩ := small
  obtain ⟨text', htoken', haccepted⟩ := feeEntry_iff.mp hentry
  cases htoken.symm.trans htoken'
  rw [hfee.accepted (trimmed_of_venueToken htoken), if_pos hout] at haccepted
  cases haccepted

theorem silent_of_lenient (htoken : venueToken token = some (venue, text)) (lenient : Lenient text) :
    Silent (TokenFee venue) token := by
  intro fee hcounts
  obtain ⟨text', value, htoken', hfee, -⟩ := tokenFee_iff.mp hcounts
  cases htoken.symm.trans htoken'
  exact lenient.not_feeText value hfee

/-- A fee that is too small stands in no table. -/
theorem not_settles_of_tooSmall (htoken : venueToken token = some (venue, text)) (small : TooSmall text) :
    ¬ Settles (EnteredFee venue) (TokenFee venue) before token := by
  have hsilent := silent_of_tooSmall htoken small
  rintro (⟨fee, hentry, -⟩ | ⟨fee, hentry, -⟩ | ⟨fee, hcounts, -, hlast⟩)
  · exact hsilent fee hentry
  · exact hsilent fee hentry
  · obtain ⟨value, hfee, hout⟩ := small
    have hsame : fee = .finite value :=
      functional_tokenFee venue token _ _ hcounts (tokenFee_iff.mpr ⟨text, value, htoken, hfee, rfl⟩)
    obtain ⟨earlier, -, hearlier⟩ := hlast.exists_mem
    obtain ⟨text', htoken', haccepted⟩ := feeEntry_iff.mp hearlier
    rw [hsame] at haccepted
    rw [inRange_of_accepted haccepted (trimmed_of_venueToken htoken')] at hout
    cases hout

/-- A lenient token settles the fee exactly if it repeats the one that counts. -/
theorem settles_of_lenient_iff (htoken : venueToken token = some (venue, text)) (lenient : Lenient text) :
    Settles (EnteredFee venue) (TokenFee venue) before token ↔
      ∃ fee, acceptedFee text = some (.finite fee) ∧ Last (TokenFee venue) before (.finite fee) := by
  have hsilent := silent_of_lenient htoken lenient
  constructor
  · rintro (⟨fee, -, hcounts⟩ | ⟨fee, hentry, -, hlast⟩ | ⟨fee, hcounts, -⟩)
    · exact absurd hcounts (hsilent fee)
    · obtain ⟨earlier, -, hearlier⟩ := hlast.exists_mem
      obtain ⟨-, value, -, -, rfl⟩ := tokenFee_iff.mp hearlier
      obtain ⟨text', htoken', haccepted⟩ := feeEntry_iff.mp hentry
      cases htoken.symm.trans htoken'
      exact ⟨value, haccepted, hlast⟩
    · exact absurd hcounts (hsilent fee)
  · rintro ⟨fee, haccepted, hlast⟩
    exact Or.inr (Or.inl ⟨_, feeEntry_iff.mpr ⟨text, htoken, haccepted⟩, hsilent, hlast⟩)

/-- Any other token settles it or says nothing. -/
theorem settles_of_whole (htoken : venueToken token = some (venue, text)) (small : ¬ TooSmall text)
    (whole : ¬ Lenient text) :
    (Silent (EnteredFee venue) token ∧ Silent (TokenFee venue) token) ∨
      Settles (EnteredFee venue) (TokenFee venue) before token := by
  cases haccepted : acceptedFee text with
  | none =>
      refine Or.inl (silent_iff.mpr ?_)
      rintro ⟨text', htoken', hcarried⟩
      cases htoken.symm.trans htoken'
      rcases hcarried with hsome | hsmall
      · exact hsome haccepted
      · exact small hsmall
  | some fee =>
      obtain ⟨value, hfee, rfl⟩ := feeText_of_accepted haccepted (trimmed_of_venueToken htoken) whole
      exact Or.inr (Or.inl ⟨_, feeEntry_iff.mpr ⟨text, htoken, haccepted⟩,
        tokenFee_iff.mpr ⟨text, value, htoken, hfee, rfl⟩⟩)

theorem settles_iff (htoken : venueToken token = some (venue, text)) :
    ((Silent (EnteredFee venue) token ∧ Silent (TokenFee venue) token) ∨
        Settles (EnteredFee venue) (TokenFee venue) before token) ↔
      ¬ TooSmall text ∧
        (Lenient text → ∃ fee, acceptedFee text = some (.finite fee) ∧
          Last (TokenFee venue) before (.finite fee)) := by
  constructor
  · rintro (hsilent | hsettles)
    · have hcarries := silent_iff.mp hsilent
      exact ⟨fun small => hcarries ⟨text, htoken, Or.inr small⟩,
        fun lenient => absurd ⟨text, htoken, Or.inl lenient.1⟩ hcarries⟩
    · exact ⟨fun small => not_settles_of_tooSmall htoken small hsettles,
        fun lenient => (settles_of_lenient_iff htoken lenient).mp hsettles⟩
  · rintro ⟨small, hrepeats⟩
    by_cases lenient : Lenient text
    · exact Or.inr ((settles_of_lenient_iff htoken lenient).mpr (hrepeats lenient))
    · exact settles_of_whole htoken small lenient

end Settling

/-!
### Result
-/

/-- The table gives every venue the fee of the last token that counts for it, and no other venue any, exactly
    if no lenient and no too small token has the last word on a venue, but for a lenient one that repeats
    what counts. -/
theorem venueFees_iff (s : String) :
    (∀ venue fee, (parseVenueFees s).lookup venue = some fee ↔ ClaimedFee s venue fee) ↔
      LastWordWhole s := by
  have hvenue : ∀ venue, (∀ fee, (parseVenueFees s).lookup venue = some fee ↔ ClaimedFee s venue fee) ↔
      LastSettles (EnteredFee venue) (TokenFee venue) (s.toList.splitOn ',') := by
    intro venue
    rw [← agree_iff (functional_enteredFee venue) (functional_tokenFee venue)]
    exact forall_congr' fun fee => by rw [lookup_parseVenueFees, ClaimedFee]
  constructor
  · intro hall venue before token after text hsplit htoken hlater
    have hsettles := (hvenue venue).mp (hall venue) before token after hsplit
      fun later hmem => silent_iff.mpr (hlater later hmem)
    exact (settles_iff htoken).mp hsettles
  · intro hwhole venue
    refine (hvenue venue).mpr ?_
    intro before token after hsplit hlater
    by_cases hcarries : ∃ text, venueToken token = some (venue, text)
    · obtain ⟨text, htoken⟩ := hcarries
      exact (settles_iff htoken).mpr (hwhole venue before token after text hsplit htoken
        fun later hmem => silent_iff.mp (hlater later hmem))
    · refine Or.inl (silent_iff.mpr ?_)
      rintro ⟨text, htoken, -⟩
      exact hcarries ⟨text, htoken⟩

example : (parseVenueFees " binance : 10 , okx: 8 ,bybit:-5,kucoin:abc,okx:").lookup "okx" = some (.finite 8) := by
  decide +kernel

/-- The decimal number at the front of `0.1%` does not reach to the end. -/
theorem not_feeText_percent (fee : ℚ) : ¬ FeeText ['0', '.', '1', '%'] fee := by
  rintro ⟨negative, magnitude, hdecimal, -⟩
  have hscanned : (signedNumeral ['0', '.', '1', '%']).2 =
      some (.decimal (Decimals.decimalValue ['0'] ['1'] * 10 ^ (0 : Int)) ['%']) := rfl
  rw [decimalText_iff.mp hdecimal] at hscanned
  cases hscanned

/-- A percent sign behind the number is passed over, and a tenth of a basis point is entered. -/
theorem trailing_characters_taken :
    (parseVenueFees "binance:0.1%").lookup "binance" = some (.finite (1 / 10)) ∧
      ¬ ∀ venue fee, (parseVenueFees "binance:0.1%").lookup venue = some fee ↔
        ClaimedFee "binance:0.1%" venue fee := by
  have hentered : (parseVenueFees "binance:0.1%").lookup "binance" = some (.finite (1 / 10)) := by
    decide +kernel
  refine ⟨hentered, ?_⟩
  intro hall
  have hclaimed : ClaimedFee "binance:0.1%" "binance" (.finite (1 / 10)) := (hall _ _).mp hentered
  obtain ⟨token, hmem, hcounts⟩ := hclaimed.exists_mem
  have hpieces : "binance:0.1%".toList.splitOn ',' = ["binance:0.1%".toList] := by decide
  rw [hpieces, List.mem_singleton] at hmem
  obtain ⟨text, value, htoken, hfee, -⟩ := tokenFee_iff.mp hcounts
  have htext : venueToken "binance:0.1%".toList = some ("binance", ['0', '.', '1', '%']) := by decide
  rw [hmem, htext] at htoken
  cases htoken
  exact not_feeText_percent value hfee

end ZidaBot.Brain
