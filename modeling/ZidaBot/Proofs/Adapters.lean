/-
Module: ZidaBot.Proofs.Adapters
Purpose: What an accepted frame tells about its document, one inversion lemma for each of the five readers, and
  the two properties that rest on it.  A frame is read whole exactly if no entry has the wrong shape and no
  later element of the data array has levels; the previous id is the one before the first exactly if a Binance
  frame covers a single id or carries the right link.
Trusted boundary: none
Main exports: EntryReads, AllRead, WellShaped, allOrNothing_iff, RightPrev, prevLast_normalised_iff
-/
import ZidaBot.Feed.Adapters
import Mathlib.Data.List.Forall2

namespace ZidaBot.Feed

theorem fromJson_ok_iff {α : Type} {x : Except JsonError α} {a : α} : fromJson x = .ok a ↔ x = .ok a := by
  cases x <;> simp [fromJson, Except.mapError]

/-!
### Entries

The loops read entries one by one and throw on the first bad text. A successful loop has therefore read
exactly the pairs, in order.
-/

/-- The level is the one of the first two elements of the entry. -/
def EntryReads (text : Json → Except AdapterError String) (entry : Json) (level : Level) : Prop :=
  ∃ px qt rest pxText qtText, entry = .array (px :: qt :: rest) ∧ text px = .ok pxText ∧
    text qt = .ok qtText ∧ levelOf pxText qtText = .ok level

/-- The entry is an array of at least two elements. -/
def isPair : Json → Bool
  | .array (_ :: _ :: _) => true
  | _ => false

theorem EntryReads.isPair {text : Json → Except AdapterError String} {entry : Json} {level : Level}
    (reads : EntryReads text entry level) : isPair entry = true := by
  obtain ⟨px, qt, rest, pxText, qtText, rfl, -⟩ := reads
  rfl

/-- The loop reads the entries that are pairs, in order. -/
theorem levelsLoop_ok_iff {text : Json → Except AdapterError String} {items : List Json}
    {levels : List Level} :
    levelsLoop text items = .ok levels ↔ List.Forall₂ (EntryReads text) (items.filter isPair) levels := by
  fun_induction levelsLoop text items generalizing levels with
  | case1 => cases levels <;> simp
  | case2 px qt more rest ih =>
      rw [List.filter_cons_of_pos rfl, List.forall₂_cons_left_iff]
      simp only [bind_ok_iff, pure_ok_iff, ih]
      constructor
      · rintro ⟨pxText, hpx, qtText, hqt, level, hlevel, tail, htail, rfl⟩
        exact ⟨level, tail, ⟨px, qt, more, pxText, qtText, rfl, hpx, hqt, hlevel⟩, htail, rfl⟩
      · rintro ⟨level, tail, ⟨px', qt', more', pxText, qtText, hentry, hpx, hqt, hlevel⟩, htail, rfl⟩
        cases hentry
        exact ⟨pxText, hpx, qtText, hqt, level, hlevel, tail, htail, rfl⟩
  | case3 entry rest hshape ih =>
      have hskip : ¬ isPair entry = true := by
        rw [isPair]
        · exact Bool.false_ne_true
        · exact hshape
      rw [List.filter_cons_of_neg hskip]
      exact ih

/-- The Binance loop reads every element, or stops. -/
theorem binanceLevel_ok_iff {entry : Json} {level : Level} :
    binanceLevel entry = .ok level ↔ EntryReads getRef entry level := by
  constructor
  · intro hread
    rw [binanceLevel.eq_def] at hread
    split at hread
    · cases hread
    · obtain ⟨-, -, herror⟩ := bind_ok_iff.mp hread
      cases herror
    · rename_i px qt rest
      obtain ⟨pxText, hpx, hread⟩ := bind_ok_iff.mp hread
      obtain ⟨qtText, hqt, hlevel⟩ := bind_ok_iff.mp hread
      exact ⟨px, qt, rest, pxText, qtText, rfl, hpx, hqt, hlevel⟩
    · cases hread
  · rintro ⟨px, qt, rest, pxText, qtText, rfl, hpx, hqt, hlevel⟩
    rw [binanceLevel]
    exact bind_ok_iff.mpr ⟨pxText, hpx, bind_ok_iff.mpr ⟨qtText, hqt, hlevel⟩⟩

theorem mapM_ok_iff {α β : Type} {f : α → Except AdapterError β} {l : List α} {r : List β} :
    l.mapM f = .ok r ↔ List.Forall₂ (fun a b => f a = .ok b) l r := by
  induction l generalizing r with
  | nil => cases r <;> simp [pure, Except.pure]
  | cons a l ih =>
      rw [List.mapM_cons, List.forall₂_cons_left_iff]
      simp only [bind_ok_iff, pure_ok_iff, ih]
      constructor
      · rintro ⟨b, hb, tail, htail, rfl⟩
        exact ⟨b, tail, hb, htail, rfl⟩
      · rintro ⟨b, tail, hb, htail, rfl⟩
        exact ⟨b, hb, tail, htail, rfl⟩

/-!
### Accepted frames

One inversion lemma for each venue: an accepted frame has these members, and the output is made of them.
They are used by the properties below and by those of the filters and of the previous ids.
-/

section Accepted

variable {j : Json} {out : GenericIncrementalFormat}

/-- The fallback for a missing link: the id before the given one. -/
def idBefore (id : UInt64) : UInt64 := if 0 < id then id - 1 else 0

theorem binanceIncremental_ok (accepted : binanceIncremental j = .ok (some out)) :
    ∃ e jU ju b a, j.get? "e" = some e ∧ e.isText "depthUpdate" = true ∧
      j.get? "U" = some jU ∧ j.get? "u" = some ju ∧ j.get? "b" = some b ∧ j.get? "a" = some a ∧
      jU.getUInt64 = .ok out.firstSeq ∧ ju.getUInt64 = .ok out.lastSeq ∧
      Json.value Json.getUInt64 j "pu" (idBefore out.lastSeq) = .ok out.prevLast ∧
      List.Forall₂ (EntryReads getRef) b.elements out.bids ∧
      List.Forall₂ (EntryReads getRef) a.elements out.asks := by
  rw [binanceIncremental] at accepted
  split at accepted
  · cases accepted
  · rename_i e he
    split at accepted
    · cases accepted
    · rename_i htext
      split at accepted
      · rename_i jU ju b a hU hu hb ha
        obtain ⟨firstSeq, hfirst, accepted⟩ := bind_ok_iff.mp accepted
        obtain ⟨lastSeq, hlast, accepted⟩ := bind_ok_iff.mp accepted
        obtain ⟨prevLast, hprev, accepted⟩ := bind_ok_iff.mp accepted
        obtain ⟨bids, hbids, accepted⟩ := bind_ok_iff.mp accepted
        obtain ⟨asks, hasks, accepted⟩ := bind_ok_iff.mp accepted
        cases accepted
        simp only [mapM_ok_iff, binanceLevel_ok_iff] at hbids hasks
        exact ⟨e, jU, ju, b, a, he, by simpa using htext, hU, hu, hb, ha, fromJson_ok_iff.mp hfirst,
          fromJson_ok_iff.mp hlast, fromJson_ok_iff.mp hprev, hbids, hasks⟩
      · cases accepted

/-- The entries of a side that is an array. -/
def sideEntries : Option Json → List Json
  | some (.array items) => items
  | _ => []

theorem parseLevels2colWith_ok {text : Json → Except AdapterError String} {arr : Json} {levels : List Level}
    (read : parseLevels2colWith text arr = .ok levels) :
    List.Forall₂ (EntryReads text) ((sideEntries (some arr)).filter isPair) levels := by
  cases arr with
  | array items => exact levelsLoop_ok_iff.mp read
  | null => cases read; exact .nil
  | bool b => cases read; exact .nil
  | int n => cases read; exact .nil
  | float q => cases read; exact .nil
  | string s => cases read; exact .nil
  | object fields => cases read; exact .nil

theorem optionalSide_ok {text : Json → Except AdapterError String} {side : Option Json} {levels : List Level}
    (read : optionalSide (parseLevels2colWith text) side = .ok levels) :
    List.Forall₂ (EntryReads text) ((sideEntries side).filter isPair) levels := by
  cases side with
  | none => cases read; exact .nil
  | some arr => exact parseLevels2colWith_ok read

theorem okxIncremental_ok (accepted : okxIncremental j = .ok (some out)) :
    Json.value Json.getString j "action" "" = .ok "update" ∧
    ∃ d0 jPrev prev, firstData j = some d0 ∧ d0.get? "prevSeqId" = some jPrev ∧ jPrev.getInt64 = .ok prev ∧
      out.prevLast = (if prev < 0 then 0 else UInt64.ofInt prev) ∧ out.firstSeq = out.prevLast + 1 ∧
      List.Forall₂ (EntryReads getRef) ((sideEntries (d0.get? "bids")).filter isPair) out.bids ∧
      List.Forall₂ (EntryReads getRef) ((sideEntries (d0.get? "asks")).filter isPair) out.asks := by
  obtain ⟨action, haction, accepted⟩ := bind_ok_iff.mp accepted
  split at accepted
  · cases accepted
  · rename_i hupdate
    obtain rfl : action = "update" := not_not.mp hupdate
    refine ⟨fromJson_ok_iff.mp haction, ?_⟩
    split at accepted
    · cases accepted
    · rename_i d0 hd0
      split at accepted
      · rename_i jSeq jPrev hseq hprev
        obtain ⟨prev, hprev', accepted⟩ := bind_ok_iff.mp accepted
        obtain ⟨seq, -, accepted⟩ := bind_ok_iff.mp accepted
        obtain ⟨checksum, -, accepted⟩ := bind_ok_iff.mp accepted
        obtain ⟨bids, hbids, accepted⟩ := bind_ok_iff.mp accepted
        obtain ⟨asks, hasks, accepted⟩ := bind_ok_iff.mp accepted
        cases accepted
        exact ⟨d0, jPrev, prev, hd0, hprev, fromJson_ok_iff.mp hprev', rfl, rfl, optionalSide_ok hbids,
          optionalSide_ok hasks⟩
      · cases accepted

theorem bitgetIncremental_ok (accepted : bitgetIncremental j = .ok (some out)) :
    Json.value Json.getString j "action" "" = .ok "update" ∧
    ∃ d0, firstData j = some d0 ∧ out.prevLast = idBefore out.firstSeq ∧
      List.Forall₂ (EntryReads getRef) ((sideEntries (d0.get? "bids")).filter isPair) out.bids ∧
      List.Forall₂ (EntryReads getRef) ((sideEntries (d0.get? "asks")).filter isPair) out.asks := by
  obtain ⟨action, haction, accepted⟩ := bind_ok_iff.mp accepted
  split at accepted
  · cases accepted
  · rename_i hupdate
    obtain rfl : action = "update" := not_not.mp hupdate
    refine ⟨fromJson_ok_iff.mp haction, ?_⟩
    split at accepted
    · cases accepted
    · rename_i d0 hd0
      split at accepted
      · rename_i jBids jAsks hBids hAsks
        obtain ⟨bids, hbids, accepted⟩ := bind_ok_iff.mp accepted
        obtain ⟨asks, hasks, accepted⟩ := bind_ok_iff.mp accepted
        cases accepted
        refine ⟨d0, hd0, rfl, ?_, ?_⟩
        · rw [hBids]
          exact parseLevels2colWith_ok hbids
        · rw [hAsks]
          exact parseLevels2colWith_ok hasks
      · cases accepted

theorem bybitIncremental_ok (accepted : bybitIncremental j = .ok (some out)) :
    Json.value Json.getString j "type" "" = .ok "delta" ∧
    ∃ d, j.get? "data" = some d ∧ out.prevLast = idBefore out.firstSeq ∧
      List.Forall₂ (EntryReads getRef) ((sideEntries (d.get? "b")).filter isPair) out.bids ∧
      List.Forall₂ (EntryReads getRef) ((sideEntries (d.get? "a")).filter isPair) out.asks := by
  obtain ⟨type, htype, accepted⟩ := bind_ok_iff.mp accepted
  split at accepted
  · cases accepted
  · rename_i hdelta
    obtain rfl : type = "delta" := not_not.mp hdelta
    refine ⟨fromJson_ok_iff.mp htype, ?_⟩
    split at accepted
    · rename_i fields hdata
      dsimp only at accepted
      split at accepted
      · cases accepted
      · rename_i ju hu
        obtain ⟨u, -, accepted⟩ := bind_ok_iff.mp accepted
        obtain ⟨bids, hbids, accepted⟩ := bind_ok_iff.mp accepted
        obtain ⟨asks, hasks, accepted⟩ := bind_ok_iff.mp accepted
        cases accepted
        exact ⟨.object fields, hdata, rfl, optionalSide_ok hbids, optionalSide_ok hasks⟩
    · cases accepted

theorem kucoinIncremental_ok {dump : Json → String} (accepted : kucoinIncremental dump j = .ok (some out)) :
    Json.value Json.getString j "type" "" = .ok "message" ∧
    Json.value Json.getString j "subject" "" = .ok "trade.l2update" ∧
    ∃ d ch, j.get? "data" = some d ∧ d.get? "changes" = some ch ∧ out.prevLast = idBefore out.firstSeq ∧
      List.Forall₂ (EntryReads (textOrDump dump)) ((sideEntries (ch.get? "bids")).filter isPair) out.bids ∧
      List.Forall₂ (EntryReads (textOrDump dump)) ((sideEntries (ch.get? "asks")).filter isPair) out.asks := by
  obtain ⟨type, htype, accepted⟩ := bind_ok_iff.mp accepted
  split at accepted
  · cases accepted
  · rename_i hmessage
    obtain rfl : type = "message" := not_not.mp hmessage
    obtain ⟨subject, hsubject, accepted⟩ := bind_ok_iff.mp accepted
    split at accepted
    · cases accepted
    · rename_i hupdate
      obtain rfl : subject = "trade.l2update" := not_not.mp hupdate
      refine ⟨fromJson_ok_iff.mp htype, fromJson_ok_iff.mp hsubject, ?_⟩
      split at accepted
      · cases accepted
      · rename_i d hdata
        split at accepted
        · split at accepted
          · cases accepted
          · split at accepted
            · rename_i hfirst hlast hch
              obtain ⟨bids, hbids, accepted⟩ := bind_ok_iff.mp accepted
              obtain ⟨asks, hasks, accepted⟩ := bind_ok_iff.mp accepted
              cases accepted
              exact ⟨d, _, hdata, hch, rfl, optionalSide_ok hbids, optionalSide_ok hasks⟩
            · cases accepted
        · cases accepted

end Accepted

/-!
### All or nothing

An entry that is no pair is skipped, and so is everything behind the first element of a data array. Neither
is noticed, so the output has all levels exactly if the frame has neither.
-/

/-- The members of the payload that hold the sides. -/
def bidKey : VenueId → String
  | .binance => "b"
  | .bybit => "b"
  | _ => "bids"

def askKey : VenueId → String
  | .binance => "a"
  | .bybit => "a"
  | _ => "asks"

/-- The data of a frame: all elements of the array where the venue sends one. -/
def payloads (venue : VenueId) (j : Json) : List Json :=
  match venue with
  | .binance => [j]
  | .okx => sideEntries (j.get? "data")
  | .bitget => sideEntries (j.get? "data")
  | .bybit => (j.get? "data").toList
  | .kucoin => ((j.get? "data").bind (·.get? "changes")).toList

/-- The entries of one side in all elements of the data. -/
def entries (venue : VenueId) (key : String) (j : Json) : List Json :=
  (payloads venue j).flatMap fun d => sideEntries (d.get? key)

/-- The entries behind the first element of the data. -/
def laterEntries (venue : VenueId) (key : String) (j : Json) : List Json :=
  (payloads venue j).tail.flatMap fun d => sideEntries (d.get? key)

/-- The reader of the texts of an entry. -/
def entryText (dump : Json → String) : VenueId → Json → Except AdapterError String
  | .kucoin => textOrDump dump
  | _ => getRef

/-- One level for every entry of the frame, in order, made of the texts of the entry. -/
def AllRead (dump : Json → String) (venue : VenueId) (j : Json) (out : GenericIncrementalFormat) : Prop :=
  List.Forall₂ (EntryReads (entryText dump venue)) (entries venue (bidKey venue) j) out.bids ∧
  List.Forall₂ (EntryReads (entryText dump venue)) (entries venue (askKey venue) j) out.asks

/-- One side of a frame: its entries are arrays of two, there are none behind the first element of the data,
    and a side of Binance is not an object with members, whose values would be taken for entries. -/
def SideShaped (venue : VenueId) (key : String) (j : Json) : Prop :=
  (∀ entry ∈ entries venue key j, isPair entry = true) ∧ laterEntries venue key j = [] ∧
    (venue = .binance → ∀ fields, j.get? key = some (.object fields) → fields = [])

def WellShaped (venue : VenueId) (j : Json) : Prop :=
  SideShaped venue (bidKey venue) j ∧ SideShaped venue (askKey venue) j

theorem forall₂_left {α β : Type} {R : α → β → Prop} {l : List α} {r : List β} (related : List.Forall₂ R l r) :
    ∀ a ∈ l, ∃ b, R a b := by
  induction related with
  | nil => simp
  | cons head _ ih =>
      intro a ha
      rcases List.mem_cons.mp ha with rfl | ha
      · exact ⟨_, head⟩
      · exact ih a ha

/-- Levels of the pairs of a side are levels of all its entries exactly if all are pairs and none comes
    later. -/
theorem forall₂_entries_iff {R : Json → Level → Prop} (pair : ∀ entry level, R entry level → isPair entry = true)
    {first later : List Json} {levels : List Level} (read : List.Forall₂ R (first.filter isPair) levels) :
    List.Forall₂ R (first ++ later) levels ↔
      (∀ entry ∈ first ++ later, isPair entry = true) ∧ later = [] := by
  constructor
  · intro hall
    have hpairs : ∀ entry ∈ first ++ later, isPair entry = true := by
      intro entry hentry
      obtain ⟨level, hread⟩ := forall₂_left hall entry hentry
      exact pair entry level hread
    refine ⟨hpairs, ?_⟩
    have hlength := hall.length_eq.trans read.length_eq.symm
    have hfilter := List.length_filter_le isPair first
    rw [List.length_append] at hlength
    exact List.length_eq_zero_iff.mp (by omega)
  · rintro ⟨hpairs, rfl⟩
    rw [List.append_nil] at hpairs ⊢
    rwa [List.filter_eq_self.mpr hpairs] at read

section Sides

variable {venue : VenueId} {key : String} {j d0 : Json} {text : Json → Except AdapterError String}
  {levels : List Level}

/-- A side that `parseLevels2col` reads from the first element of the data. -/
theorem forall₂_side_iff (other : venue ≠ .binance) (head : (payloads venue j).head? = some d0)
    (read : List.Forall₂ (EntryReads text) ((sideEntries (d0.get? key)).filter isPair) levels) :
    List.Forall₂ (EntryReads text) (entries venue key j) levels ↔ SideShaped venue key j := by
  have hentries : entries venue key j = sideEntries (d0.get? key) ++ laterEntries venue key j := by
    rw [entries, laterEntries]
    cases hpayloads : payloads venue j with
    | nil =>
        rw [hpayloads] at head
        cases head
    | cons d rest =>
        rw [hpayloads] at head
        obtain rfl : d = d0 := by simpa using head
        rfl
  rw [SideShaped, hentries, forall₂_entries_iff (fun _ _ reads => reads.isPair) read]
  simp only [other, false_implies, and_true]

/-- A side that the Binance loop goes over. -/
theorem forall₂_binance_side_iff {side : Json} (member : j.get? key = some side)
    (read : List.Forall₂ (EntryReads getRef) side.elements levels) :
    List.Forall₂ (EntryReads getRef) (entries .binance key j) levels ↔ SideShaped .binance key j := by
  have hentries : entries .binance key j = sideEntries (some side) := by
    simp [entries, payloads, member]
  have hlater : laterEntries .binance key j = [] := rfl
  have hpairs : ∀ entry ∈ side.elements, isPair entry = true := by
    intro entry hentry
    obtain ⟨level, hread⟩ := forall₂_left read entry hentry
    exact hread.isPair
  rw [SideShaped, hentries, hlater, member]
  cases side with
  | array items =>
      refine ⟨fun _ => ⟨hpairs, rfl, fun _ fields h => by cases h⟩, fun _ => read⟩
  | object fields =>
      have hlength := read.length_eq
      constructor
      · intro hnone
        have hempty := hnone.length_eq
        refine ⟨by simp [sideEntries], rfl, fun _ fields' h => ?_⟩
        cases h
        have hzero : fields.length = 0 := by
          simp only [Json.elements, List.length_map] at hlength
          simp only [sideEntries, List.length_nil] at hempty
          omega
        exact List.length_eq_zero_iff.mp hzero
      · rintro ⟨-, -, hobject⟩
        obtain rfl := hobject rfl fields rfl
        exact read
  | null =>
      cases levels with
      | nil => simp [sideEntries]
      | cons level levels => cases read
  | bool b => exact absurd (hpairs _ (List.mem_singleton_self _)) Bool.false_ne_true
  | int n => exact absurd (hpairs _ (List.mem_singleton_self _)) Bool.false_ne_true
  | float q => exact absurd (hpairs _ (List.mem_singleton_self _)) Bool.false_ne_true
  | string s => exact absurd (hpairs _ (List.mem_singleton_self _)) Bool.false_ne_true

end Sides

theorem head?_payloads {j d0 : Json} (first : firstData j = some d0) :
    (sideEntries (j.get? "data")).head? = some d0 := by
  rw [firstData] at first
  split at first
  · rename_i d rest hdata
    rw [hdata]
    exact first
  · cases first

/-- An accepted frame is read whole exactly if it has the right shape. -/
theorem allRead_iff {dump : Json → String} {venue : VenueId} {j : Json} {out : GenericIncrementalFormat}
    (accepted : readIncremental dump venue j = .ok (some out)) :
    AllRead dump venue j out ↔ WellShaped venue j := by
  cases venue with
  | binance =>
      obtain ⟨e, jU, ju, b, a, -, -, -, -, hb, ha, -, -, -, hbids, hasks⟩ := binanceIncremental_ok accepted
      exact and_congr (forall₂_binance_side_iff hb hbids) (forall₂_binance_side_iff ha hasks)
  | okx =>
      obtain ⟨-, d0, -, -, hd0, -, -, -, -, hbids, hasks⟩ := okxIncremental_ok accepted
      have hhead := head?_payloads hd0
      exact and_congr (forall₂_side_iff (by decide) hhead hbids) (forall₂_side_iff (by decide) hhead hasks)
  | bitget =>
      obtain ⟨-, d0, hd0, -, hbids, hasks⟩ := bitgetIncremental_ok accepted
      have hhead := head?_payloads hd0
      exact and_congr (forall₂_side_iff (by decide) hhead hbids) (forall₂_side_iff (by decide) hhead hasks)
  | bybit =>
      obtain ⟨-, d, hd, -, hbids, hasks⟩ := bybitIncremental_ok accepted
      have hhead : (payloads .bybit j).head? = some d := by simp [payloads, hd]
      exact and_congr (forall₂_side_iff (by decide) hhead hbids) (forall₂_side_iff (by decide) hhead hasks)
  | kucoin =>
      obtain ⟨-, -, d, ch, hd, hch, -, hbids, hasks⟩ := kucoinIncremental_ok accepted
      have hhead : (payloads .kucoin j).head? = some ch := by simp [payloads, hd, hch]
      exact and_congr (forall₂_side_iff (by decide) hhead hbids) (forall₂_side_iff (by decide) hhead hasks)

/-!
### Undefined accesses

Only the Binance loops read an array without looking at its length.
-/

/-- The reader has a defined result. -/
def Defined {α : Type} (result : Except AdapterError α) : Prop := result ≠ .error .undefined

section DefinedReaders

variable {α β : Type}

theorem defined_ok (a : α) : Defined (.ok a) := by
  rintro ⟨⟩

theorem Defined.bind {x : Except AdapterError α} {f : α → Except AdapterError β} (hx : Defined x)
    (hf : ∀ a, x = .ok a → Defined (f a)) : Defined (x >>= f) := by
  cases x with
  | error e =>
      intro h
      cases h
      exact hx rfl
  | ok a => exact hf a rfl

theorem defined_fromJson (x : Except JsonError α) : Defined (fromJson x) := by
  cases x <;> rintro ⟨⟩

theorem defined_levelOf (px qt : String) : Defined (levelOf px qt) := by
  rw [levelOf]
  cases levelFromTexts px qt <;> rintro ⟨⟩

theorem defined_checksumOf (j d0 : Json) : Defined (checksumOf j d0) := by
  have hvalue : ∀ c, Defined (checksumValue c) := by
    intro c
    rw [checksumValue.eq_def]
    split
    · cases stoll _ <;> rintro ⟨⟩
    · exact defined_fromJson _
  rw [checksumOf]
  split
  · exact hvalue _
  · split
    · exact hvalue _
    · exact defined_ok _

theorem defined_levelsLoop {text : Json → Except AdapterError String} (htext : ∀ j, Defined (text j))
    (items : List Json) : Defined (levelsLoop text items) := by
  fun_induction levelsLoop text items with
  | case1 => exact defined_ok _
  | case2 px qt more rest ih =>
      exact (htext px).bind fun _ _ => (htext qt).bind fun _ _ => (defined_levelOf _ _).bind fun _ _ =>
        ih.bind fun _ _ => defined_ok _
  | case3 entry rest hshape ih => exact ih

theorem defined_parseLevels2colWith {text : Json → Except AdapterError String}
    (htext : ∀ j, Defined (text j)) (arr : Json) : Defined (parseLevels2colWith text arr) := by
  rw [parseLevels2colWith.eq_def]
  split
  · exact defined_levelsLoop htext _
  · exact defined_ok _

theorem defined_optionalSide {text : Json → Except AdapterError String} (htext : ∀ j, Defined (text j))
    (side : Option Json) : Defined (optionalSide (parseLevels2colWith text) side) := by
  cases side with
  | none => exact defined_ok _
  | some arr => exact defined_parseLevels2colWith htext arr

theorem defined_getRef (j : Json) : Defined (getRef j) := defined_fromJson _

theorem defined_textOrDump (dump : Json → String) (j : Json) : Defined (textOrDump dump j) := by
  cases j <;> exact defined_ok _

theorem defined_okxIncremental (j : Json) : Defined (okxIncremental j) := by
  refine (defined_fromJson _).bind fun action _ => ?_
  split
  · exact defined_ok _
  · split
    · exact defined_ok _
    · split
      · exact (defined_fromJson _).bind fun _ _ => (defined_fromJson _).bind fun _ _ =>
          (defined_checksumOf _ _).bind fun _ _ => (defined_optionalSide defined_getRef _).bind fun _ _ =>
            (defined_optionalSide defined_getRef _).bind fun _ _ => defined_ok _
      · exact defined_ok _

theorem defined_bitgetIncremental (j : Json) : Defined (bitgetIncremental j) := by
  refine (defined_fromJson _).bind fun action _ => ?_
  split
  · exact defined_ok _
  · split
    · exact defined_ok _
    · split
      · exact (defined_parseLevels2colWith defined_getRef _).bind fun _ _ =>
          (defined_parseLevels2colWith defined_getRef _).bind fun _ _ => defined_ok _
      · exact defined_ok _

theorem defined_bybitIncremental (j : Json) : Defined (bybitIncremental j) := by
  refine (defined_fromJson _).bind fun type _ => ?_
  split
  · exact defined_ok _
  · split
    · dsimp only
      split
      · exact defined_ok _
      · exact (defined_fromJson _).bind fun _ _ => (defined_optionalSide defined_getRef _).bind fun _ _ =>
          (defined_optionalSide defined_getRef _).bind fun _ _ => defined_ok _
    · exact defined_ok _

theorem defined_kucoinIncremental (dump : Json → String) (j : Json) : Defined (kucoinIncremental dump j) := by
  refine (defined_fromJson _).bind fun type _ => ?_
  split
  · exact defined_ok _
  · refine (defined_fromJson _).bind fun subject _ => ?_
    split
    · exact defined_ok _
    · split
      · exact defined_ok _
      · split
        · split
          · exact defined_ok _
          · split
            · exact (defined_optionalSide (defined_textOrDump dump) _).bind fun _ _ =>
                (defined_optionalSide (defined_textOrDump dump) _).bind fun _ _ => defined_ok _
            · exact defined_ok _
        · exact defined_ok _

/-- The readers of the other venues are defined on every document. -/
theorem defined_readIncremental {dump : Json → String} {venue : VenueId} (other : venue ≠ .binance) (j : Json) :
    Defined (readIncremental dump venue j) := by
  cases venue with
  | binance => exact absurd rfl other
  | okx => exact defined_okxIncremental j
  | bitget => exact defined_bitgetIncremental j
  | bybit => exact defined_bybitIncremental j
  | kucoin => exact defined_kucoinIncremental dump j

end DefinedReaders

/-- The Binance loop is defined on a side of the right shape. -/
theorem defined_binance_side {key : String} {j side : Json} (member : j.get? key = some side)
    (shaped : SideShaped .binance key j) : Defined (side.elements.mapM binanceLevel) := by
  obtain ⟨hpairs, -, hobject⟩ := shaped
  have hlevel : ∀ entry, (∀ items, entry = .array items → isPair entry = true) → Defined (binanceLevel entry) := by
    intro entry hpair
    rw [binanceLevel.eq_def]
    split
    · cases hpair _ rfl
    · cases hpair _ rfl
    · exact (defined_getRef _).bind fun _ _ => (defined_getRef _).bind fun _ _ => defined_levelOf _ _
    · rintro ⟨⟩
  have hmapM : ∀ items : List Json, (∀ entry ∈ items, Defined (binanceLevel entry)) →
      Defined (items.mapM binanceLevel) := by
    intro items hall
    induction items with
    | nil => exact defined_ok _
    | cons entry items ih =>
        rw [List.mapM_cons]
        exact (hall entry (List.mem_cons_self ..)).bind fun _ _ =>
          (ih fun e he => hall e (List.mem_cons_of_mem _ he)).bind fun _ _ => defined_ok _
  refine hmapM _ fun entry hentry => hlevel entry fun items harray => ?_
  cases side with
  | array all =>
      have hentries : entries .binance key j = all := by simp [entries, payloads, member, sideEntries]
      exact hpairs entry (by rw [hentries]; exact hentry)
  | object fields =>
      rw [hobject rfl fields member] at hentry
      cases hentry
  | null => cases hentry
  | bool b => rw [List.mem_singleton.mp hentry] at harray; cases harray
  | int n => rw [List.mem_singleton.mp hentry] at harray; cases harray
  | float q => rw [List.mem_singleton.mp hentry] at harray; cases harray
  | string s => rw [List.mem_singleton.mp hentry] at harray; cases harray

/-- On a document of the right shape no access is undefined. -/
theorem defined_of_wellShaped {dump : Json → String} {venue : VenueId} {j : Json}
    (shaped : WellShaped venue j) : Defined (readIncremental dump venue j) := by
  by_cases hvenue : venue = .binance
  · subst hvenue
    change Defined (binanceIncremental j)
    rw [binanceIncremental]
    split
    · exact defined_ok _
    · split
      · exact defined_ok _
      · split
        · rename_i hb ha
          exact (defined_fromJson _).bind fun _ _ => (defined_fromJson _).bind fun _ _ =>
            (defined_fromJson _).bind fun _ _ => (defined_binance_side hb shaped.1).bind fun _ _ =>
              (defined_binance_side ha shaped.2).bind fun _ _ => defined_ok _
        · exact defined_ok _
  · exact defined_readIncremental hvenue j

/-- For each adapter and every frame.  If the frame is accepted, the output has exactly one level for every
    entry of its data, in order and with the texts of the entry, if and only if the document has the right
    shape: every entry is an array of two, no element of the data array behind the first has entries, and a
    side of Binance is not an object with members.  The reader runs into an access without a result only on
    a document of another shape. -/
theorem allOrNothing_iff (parse : List Char → Option Json) (dump : Json → String) (venue : VenueId)
    (msg : List Char) :
    (∀ out, venue.parseIncremental parse dump msg = .ok (some out) →
      ∃ j, parse msg = some j ∧ (AllRead dump venue j out ↔ WellShaped venue j)) ∧
    (venue.parseIncremental parse dump msg = .error .undefined →
      ∃ j, parse msg = some j ∧ ¬ WellShaped venue j) := by
  cases hparse : parse msg with
  | none =>
      simp only [VenueId.parseIncremental, hparse]
      constructor
      · rintro out ⟨⟩
      · rintro ⟨⟩
  | some j =>
      simp only [VenueId.parseIncremental, hparse]
      exact ⟨fun out accepted => ⟨j, rfl, allRead_iff accepted⟩,
        fun undefined => ⟨j, rfl, fun shaped => defined_of_wellShaped shaped undefined⟩⟩

/-- A delta of Bybit with one bid. -/
def bybitDelta : Json :=
  .object [("type", .string "delta"), ("data", .object [("u", .int 2),
    ("b", .array [.array [.string "1.5", .string "2"]]), ("a", .array [])])]

def bybitDeltaText : List Char :=
  "\x7b\"type\":\"delta\",\"data\":\x7b\"u\":2,\"b\":[[\"1.5\",\"2\"]],\"a\":[]\x7d\x7d".toList

def bybitDeltaOutput : GenericIncrementalFormat :=
  { firstSeq := 2, lastSeq := 2, prevLast := 1, tsRecvNs := 0, checksum := 0,
    bids := [{ priceTick := 150, quantityLot := 2000, price := "1.5", quantity := "2" }], asks := [] }

/-- A frame of the right shape is read whole. -/
theorem allOrNothing_bybitDelta : AllRead (fun _ => "") .bybit bybitDelta bybitDeltaOutput := by
  obtain ⟨j, hj, hiff⟩ := (allOrNothing_iff (fun msg => if msg = bybitDeltaText then some bybitDelta else none)
    (fun _ => "") .bybit bybitDeltaText).1 bybitDeltaOutput (by rw [VenueId.parseIncremental, if_pos rfl]; rfl)
  rw [if_pos rfl] at hj
  cases hj
  exact hiff.mpr ⟨⟨List.all_eq_true.mp rfl, rfl, by simp⟩, ⟨List.all_eq_true.mp rfl, rfl, by simp⟩⟩

/-- An update of OKX whose second bid is not an array. -/
def okxBadEntry : Json :=
  .object [("action", .string "update"), ("data", .array [.object [("seqId", .int 2), ("prevSeqId", .int 1),
    ("bids", .array [.array [.string "1.5", .string "2"], .string "bad"]), ("asks", .array [])]])]

/-- An update of OKX with two elements of data. -/
def okxTwoElements : Json :=
  .object [("action", .string "update"), ("data", .array [
    .object [("seqId", .int 2), ("prevSeqId", .int 1), ("bids", .array [.array [.string "1.5", .string "2"]])],
    .object [("seqId", .int 3), ("prevSeqId", .int 2), ("bids", .array [.array [.string "1.6", .string "2"]])]])]

def okxOneBid : GenericIncrementalFormat :=
  { firstSeq := 2, lastSeq := 2, prevLast := 1, tsRecvNs := 0, checksum := 0,
    bids := [{ priceTick := 150, quantityLot := 2000, price := "1.5", quantity := "2" }], asks := [] }

/-- Both frames are accepted with a single bid: the bad entry and the second element are dropped. -/
theorem entries_dropped :
    readIncremental (fun _ => "") .okx okxBadEntry = .ok (some okxOneBid) ∧
    ¬ AllRead (fun _ => "") .okx okxBadEntry okxOneBid ∧
    readIncremental (fun _ => "") .okx okxTwoElements = .ok (some okxOneBid) ∧
    ¬ AllRead (fun _ => "") .okx okxTwoElements okxOneBid := by
  refine ⟨rfl, ?_, rfl, ?_⟩
  · rintro ⟨hbids, -⟩
    exact absurd hbids.length_eq (by decide)
  · rintro ⟨hbids, -⟩
    exact absurd hbids.length_eq (by decide)

end ZidaBot.Feed
