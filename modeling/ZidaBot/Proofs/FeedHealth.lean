/-
Module: ZidaBot.Proofs.FeedHealth
Purpose: What events write into a venue book and when.  `EventCase` lists everything `on_event` can do to
  the book it has found; two of its cases stand out, a book state whose timestamp can be read and whose
  body cannot, and a status that reports the feed as synced.  From the list follow what a discarded event
  leaves behind and which event decides the health flag.
Trusted boundary: none
Main exports: EventCase, onEvent_cases, accepted, Intact, HalfWritten, discarded_event_intact_iff,
  markFor, lastMark, HealthLaw, feed_healthy_law_iff
-/
import ZidaBot.Proofs.OrderBookController
import ZidaBot.Proofs.UnifiedBook

namespace ZidaBot.Brain

open Json

/-!
### Everything an event can do to its book

`on_event` parses step by step, and writes the timestamp and the health flag between the steps. The list of
cases says for every event which of them was the last, and so what it has left behind.
-/

/-- A book state whose timestamp can be read while its sequence number or its levels cannot. -/
def HalfParsed (hdr : EventHeader) (j : Json) : Prop :=
  hdr.eventType = "book_state" ∧ (extractTsBookNs j).isOk = true ∧
    (parseBookStateAsSnapshot j).isOk = false

instance (hdr : EventHeader) (j : Json) : Decidable (HalfParsed hdr j) :=
  inferInstanceAs (Decidable (_ ∧ _))

/-- The event is of a known type and all its fields that are read can be parsed. -/
def accepted (hdr : EventHeader) (j : Json) : Bool :=
  if hdr.eventType = "snapshot" then (parseSnapshot j).isOk
  else if hdr.eventType = "incremental" then (parseIncremental j).isOk
  else if hdr.eventType = "book_state" then
    (extractTsBookNs j).isOk && (parseBookStateAsSnapshot j).isOk
  else if hdr.eventType = "status" then
    (value getString j "feed_state" "").isOk && (value getString j "reason" "").isOk
  else false

/-- The ways `on_event` ends for the book it has found. -/
inductive EventCase (now : Int) (hdr : EventHeader) (j : Json) (vb : VenueBook) :
    VenueBook × Bool → Prop where
  | data (tsBookNs : Int) (controller : OrderBookController) (type : hdr.eventType ≠ "status")
      (accepted : accepted hdr j = true) :
      EventCase now hdr j vb
        ({ vb with tsBookNs := tsBookNs, controller := controller, feedHealthy := true }, true)
  | disconnected (type : hdr.eventType = "status") (accepted : accepted hdr j = true)
      (state : value getString j "feed_state" "" = .ok "disconnected") :
      EventCase now hdr j vb
        ({ vb with feedHealthy := false, controller := vb.controller.resetBook, tsBookNs := 0 }, true)
  | transitional (feedState : String) (type : hdr.eventType = "status")
      (accepted : accepted hdr j = true) (state : value getString j "feed_state" "" = .ok feedState)
      (up : feedState ≠ "disconnected") :
      EventCase now hdr j vb ({ vb with feedHealthy := false }, true)
  | halfWritten (ts : Int) (half : HalfParsed hdr j) (stamped : extractTsBookNs j = .ok ts)
      (refused : accepted hdr j = false) :
      EventCase now hdr j vb
        ({ vb with tsBookNs := sanitizeTs now ts, feedHealthy := true }, false)
  | discarded (whole : ¬ HalfParsed hdr j) (refused : accepted hdr j = false) :
      EventCase now hdr j vb (vb, false)

@[simp] theorem isOk_ok {ε α : Type} (a : α) : (Except.ok a : Except ε α).isOk = true := rfl

@[simp] theorem isOk_error {ε α : Type} (err : ε) : (Except.error err : Except ε α).isOk = false := rfl

/-- Every event ends in one of these ways. -/
theorem onEvent_cases (now : Int) (hdr : EventHeader) (j : Json) (vb : VenueBook) :
    EventCase now hdr j vb (vb.onEvent now hdr j) := by
  have whole : hdr.eventType ≠ "book_state" → ¬ HalfParsed hdr j := fun hne half => hne half.1
  rw [VenueBook.onEvent]
  split
  · rename_i htype
    cases hparse : parseSnapshot j with
    | error err => exact .discarded (whole (by simp [htype])) (by simp [accepted, htype, hparse])
    | ok snap =>
        have hnone : venueBookConfig.checksumFn = none := rfl
        have haction : (vb.controller.onSnapshot venueBookConfig snap .wsAuthoritative).action = .none := by
          rw [OrderBookController.onSnapshot_of_no_checksum hnone]
          rfl
        dsimp only
        rw [haction]
        exact .data _ _ (by simp [htype]) (by simp [accepted, htype, hparse])
  · split
    · rename_i htype
      cases hparse : parseIncremental j with
      | error err => exact .discarded (whole (by simp [htype])) (by simp [accepted, htype, hparse])
      | ok inc => exact .data _ _ (by simp [htype]) (by simp [accepted, htype, hparse])
    · split
      · rename_i htype
        cases hts : extractTsBookNs j with
        | error err =>
            refine .discarded ?_ (by simp [accepted, htype, hts])
            rintro ⟨-, hok, -⟩
            simp [hts] at hok
        | ok ts =>
            cases hparse : parseBookStateAsSnapshot j with
            | error err =>
                exact .halfWritten ts ⟨htype, by simp [hts], by simp [hparse]⟩ hts
                  (by simp [accepted, htype, hts, hparse])
            | ok snap =>
                exact .data _ _ (by simp [htype]) (by simp [accepted, htype, hts, hparse])
      · rename_i hother
        split
        · rename_i htype
          cases hstate : value getString j "feed_state" "" with
          | error err => exact .discarded (whole hother) (by simp [accepted, htype, hstate])
          | ok feedState =>
              cases hreason : value getString j "reason" "" with
              | error err => exact .discarded (whole hother) (by simp [accepted, htype, hreason])
              | ok reason =>
                  have haccepted : accepted hdr j = true := by simp [accepted, htype, hstate, hreason]
                  dsimp only
                  split
                  · rename_i hdown
                    subst hdown
                    exact .disconnected htype haccepted hstate
                  · exact .transitional feedState htype haccepted hstate ‹_›
        · exact .discarded (whole hother) (by simp [accepted, *])

/-- Whether an event is discarded does not depend on the book. -/
theorem onEvent_accepted (now : Int) (hdr : EventHeader) (j : Json) (vb : VenueBook) :
    (vb.onEvent now hdr j).2 = accepted hdr j := by
  have hcase := onEvent_cases now hdr j vb
  generalize vb.onEvent now hdr j = result at hcase
  cases hcase with
  | data _ _ _ haccepted => exact haccepted.symm
  | disconnected _ haccepted => exact haccepted.symm
  | transitional _ _ haccepted => exact haccepted.symm
  | halfWritten _ _ _ hrefused => exact hrefused.symm
  | discarded _ hrefused => exact hrefused.symm

namespace UnifiedBook

variable {ub : UnifiedBook} {now : Int} {j : Json} {hdr : EventHeader}

/-- The book that `find_or_create_` returns is there. -/
theorem findOrCreate_found (ub : UnifiedBook) (venue symbol : String) :
    ∃ vb, (ub.findOrCreate venue symbol).1.books[(ub.findOrCreate venue symbol).2]? = some vb := by
  rw [findOrCreate]
  split
  · rename_i i hfind
    obtain ⟨hlt, -⟩ := List.findIdx?_eq_some_iff_getElem.mp hfind
    exact ⟨_, List.getElem?_eq_getElem hlt⟩
  · exact ⟨_, List.getElem?_concat_length⟩

/-- The venue of an accepted event is returned, the empty string for any other. -/
theorem onEvent_returned (routed : Routed j hdr) :
    (ub.onEvent now j).2 = if accepted hdr j then hdr.venue else "" := by
  have hheader : ¬ (hdr.venue = "" ∨ hdr.eventType = "") :=
    fun h => h.elim routed.venue routed.eventType
  obtain ⟨vb, hfound⟩ := findOrCreate_found ub hdr.venue hdr.symbol
  simp only [onEvent, routed.header, if_neg hheader, hfound]
  rw [onEvent_accepted]

/-- A routed event is discarded exactly if it is not accepted. -/
theorem onEvent_discarded_iff (routed : Routed j hdr) :
    (ub.onEvent now j).2 = "" ↔ accepted hdr j = false := by
  rw [onEvent_returned routed]
  cases accepted hdr j <;> simp [routed.venue]

/-!
### What a discarded event leaves behind

Discarded means that an empty string is returned. The two writes that can come before are the timestamp and
the flag of a book state, so an event is harmless unless it is such a book state and one of the two changes.
-/

/-- All registered books are as they were, and at most one book has been appended, which is not
    synced. -/
def Intact (before after : UnifiedBook) : Prop :=
  ∃ fresh : List VenueBook, after.books = before.books ++ fresh ∧ fresh.length ≤ 1 ∧
    ∀ vb ∈ fresh, vb.synced = false

/-- The timestamp of a book state that cannot be parsed further is about to overwrite another one, or its
    arrival to raise the health flag, in a registered book. -/
def HalfWritten (now : Int) (ub : UnifiedBook) (j : Json) : Prop :=
  ∃ hdr ts, Routed j hdr ∧ HalfParsed hdr j ∧ extractTsBookNs j = .ok ts ∧ headerKey hdr ∈ ub.keys ∧
    ((ub.bookAt (headerKey hdr)).tsBookNs ≠ sanitizeTs now ts ∨
      (ub.bookAt (headerKey hdr)).feedHealthy = false)

theorem intact_refl (ub : UnifiedBook) : Intact ub ub :=
  ⟨[], (List.append_nil _).symm, Nat.zero_le 1, fun _ h => absurd h List.not_mem_nil⟩

theorem Routed.unique {hdr' : EventHeader} (first : Routed j hdr) (second : Routed j hdr') :
    hdr' = hdr := by
  have heq := second.header.symm.trans first.header
  cases heq
  rfl

/-- A book that was found and has changed is not intact, one that has not changed is. -/
theorem intact_known_iff (routed : Routed j hdr) {before after : List VenueBook} {vb : VenueBook}
    (books : ub.books = before ++ vb :: after) (key : vb.key = headerKey hdr)
    (first : headerKey hdr ∉ before.map VenueBook.key) :
    Intact ub (ub.onEvent now j).1 ↔ (vb.onEvent now hdr j).1 = vb := by
  rw [onEvent_known routed books key first, Intact, books]
  constructor
  · rintro ⟨fresh, hbooks, -, -⟩
    have hlength : fresh.length = 0 := by
      have hlen := congrArg List.length hbooks
      simp at hlen
      exact List.length_eq_zero_iff.mpr hlen
    rw [List.length_eq_zero_iff.mp hlength, List.append_nil] at hbooks
    exact (List.cons.inj (List.append_cancel_left hbooks)).1
  · intro hsame
    rw [hsame]
    exact ⟨[], (List.append_nil _).symm, Nat.zero_le 1, fun _ h => absurd h List.not_mem_nil⟩

/-- What a discarded event makes of a fresh book is not synced. -/
theorem not_synced_of_discarded {vb : VenueBook} (refused : accepted hdr j = false)
    (idle : vb.controller.isSynced = false) : (vb.onEvent now hdr j).1.synced = false := by
  have hcase := onEvent_cases now hdr j vb
  generalize vb.onEvent now hdr j = result at hcase
  cases hcase with
  | data _ _ _ haccepted => simp [haccepted] at refused
  | disconnected _ haccepted => simp [haccepted] at refused
  | transitional _ _ haccepted => simp [haccepted] at refused
  | halfWritten ts => simp [VenueBook.synced, idle]
  | discarded => simp [VenueBook.synced, idle]

/-- A discarded event changes its book exactly if it is half parsed and the two members it writes differ. -/
theorem onEvent_eq_self_iff {vb : VenueBook} (refused : accepted hdr j = false) :
    (vb.onEvent now hdr j).1 = vb ↔ ∀ ts, HalfParsed hdr j → extractTsBookNs j = .ok ts →
      vb.tsBookNs = sanitizeTs now ts ∧ vb.feedHealthy = true := by
  have hcase := onEvent_cases now hdr j vb
  generalize vb.onEvent now hdr j = result at hcase
  cases hcase with
  | data _ _ _ haccepted => simp [haccepted] at refused
  | disconnected _ haccepted => simp [haccepted] at refused
  | transitional _ _ haccepted => simp [haccepted] at refused
  | halfWritten ts half stamped =>
      constructor
      · intro hsame ts' _ hts'
        obtain rfl : ts = ts' := by simpa [stamped] using hts'
        exact ⟨(congrArg VenueBook.tsBookNs hsame).symm, (congrArg VenueBook.feedHealthy hsame).symm⟩
      · intro hall
        obtain ⟨hts, hhealthy⟩ := hall ts half stamped
        rw [← hts, ← hhealthy]
  | discarded whole => exact iff_of_true rfl fun ts half => absurd half whole

/-- A discarded event leaves every registered book as it was, and appends at most one book that is not
    synced, exactly if it is not a half-parsed book state that writes into a registered book. -/
theorem discarded_event_intact_iff (now : Int) (ub : UnifiedBook) (j : Json)
    (discarded : (ub.onEvent now j).2 = "") :
    Intact ub (ub.onEvent now j).1 ↔ ¬ HalfWritten now ub j := by
  by_cases hrouted : ∃ hdr, Routed j hdr
  · obtain ⟨hdr, routed⟩ := hrouted
    have hrefused := (onEvent_discarded_iff routed).mp discarded
    by_cases hpresent : headerKey hdr ∈ ub.keys
    · obtain ⟨before, vb, after, hbooks, hkey, hfirst⟩ := exists_first hpresent
      have hbook := bookAt_of_split hbooks hkey hfirst
      rw [intact_known_iff routed hbooks hkey hfirst, onEvent_eq_self_iff hrefused]
      constructor
      · rintro hall ⟨hdr', ts, hrouted', half, hts, -, hdiffers⟩
        obtain rfl := routed.unique hrouted'
        obtain ⟨hsame, hhealthy⟩ := hall ts half hts
        rw [hbook] at hdiffers
        rcases hdiffers with hne | hlow
        · exact hne hsame
        · simp [hhealthy] at hlow
      · intro hnot ts half hts
        by_contra hdiffers
        refine hnot ⟨hdr, ts, routed, half, hts, hpresent, ?_⟩
        rw [hbook]
        by_cases hsame : vb.tsBookNs = sanitizeTs now ts
        · exact Or.inr (Bool.eq_false_iff.mpr fun hhealthy => hdiffers ⟨hsame, hhealthy⟩)
        · exact Or.inl hsame
    · -- the first event of a key only appends
      refine iff_of_true ?_ ?_
      · rw [onEvent_fresh routed hpresent]
        refine ⟨_, rfl, Nat.le_refl 1, ?_⟩
        intro vb hvb
        rw [List.mem_singleton.mp hvb]
        exact not_synced_of_discarded hrefused rfl
      · rintro ⟨hdr', ts, hrouted', -, -, hknown, -⟩
        obtain rfl := routed.unique hrouted'
        exact hpresent hknown
  · have hnone : ∀ hdr, ¬ Routed j hdr := fun hdr routed => hrouted ⟨hdr, routed⟩
    rw [onEvent_refused hnone]
    exact iff_of_true (intact_refl ub) fun ⟨hdr, _, routed, _⟩ => hnone hdr routed

end UnifiedBook

/-- A frame of one venue with given fields beside its header. -/
def frameOf (eventType : String) (fields : List (String × Json)) : Json :=
  .object ([("schema_version", .int 1), ("event_type", .string eventType),
    ("venue", .string "binance"), ("symbol", .string "BTCUSDT")] ++ fields)

/-- A book state without levels, stamped with 5. -/
def emptyCheckpoint : Json :=
  frameOf "book_state" [("ts_book_ns", .int 5), ("applied_seq", .int 7), ("bids", .array []),
    ("asks", .array [])]

/-- A brain that has one book, healthy and stamped with 5. -/
def healthyBrain : UnifiedBook := (UnifiedBook.new 5 (by decide)).step (0, emptyCheckpoint)

/-- An incremental without its arrays changes nothing. -/
theorem discarded_event_intact_arrayless :
    (healthyBrain.onEvent 0 (frameOf "incremental" [])).2 = "" ∧
      UnifiedBook.Intact healthyBrain (healthyBrain.onEvent 0 (frameOf "incremental" [])).1 := by
  have hdiscarded : (healthyBrain.onEvent 0 (frameOf "incremental" [])).2 = "" := by decide
  refine ⟨hdiscarded, (UnifiedBook.discarded_event_intact_iff 0 healthyBrain _ hdiscarded).mpr ?_⟩
  rintro ⟨hdr, ts, routed, half, -⟩
  have hheader : parseHeader (frameOf "incremental" []) =
      .ok ⟨1, "incremental", "binance", "BTCUSDT"⟩ := rfl
  have hsame := routed.header.symm.trans hheader
  cases hsame
  exact absurd half.1 (by decide)

/-- A book state with a timestamp and without its arrays. -/
def arraylessCheckpoint : Json := frameOf "book_state" [("ts_book_ns", .int 9)]

/-- The discarded frame overwrites the timestamp of the registered book. -/
theorem discarded_event_overwrites :
    (healthyBrain.onEvent 0 arraylessCheckpoint).2 = "" ∧
      ¬ UnifiedBook.Intact healthyBrain (healthyBrain.onEvent 0 arraylessCheckpoint).1 := by
  refine ⟨by decide, ?_⟩
  rintro ⟨fresh, hbooks, -, -⟩
  have hfirst : (healthyBrain.books ++ fresh).head? = healthyBrain.books.head? :=
    List.head?_append_of_ne_nil _ (by decide)
  rw [← hbooks] at hfirst
  exact absurd (congrArg (Option.map VenueBook.tsBookNs) hfirst) (by decide)

/-!
### The event that decides the health flag

The law is about the last event that says something about the feed. A status that reports `synced` is
written as if the feed were not healthy, so the law breaks exactly where one meets a healthy book.
-/

/-- What an accepted event says about the feed: data that it is live, a status other than `synced` that it
    is not. -/
def mark (hdr : EventHeader) (j : Json) : Option Bool :=
  if accepted hdr j then
    if hdr.eventType = "status" then
      if (value getString j "feed_state" "").toOption = some "synced" then none else some false
    else some true
  else none

/-- The mark of an event for the book of a key. -/
def markFor (key : String × String) (j : Json) : Option Bool :=
  match parseHeader j with
  | .error _ => none
  | .ok hdr =>
      if hdr.venue ≠ "" ∧ hdr.eventType ≠ "" ∧ UnifiedBook.headerKey hdr = key then mark hdr j else none

/-- The last mark of a key in a sequence of events. -/
def lastMark (key : String × String) (events : List (Int × Json)) : Option Bool :=
  (events.filterMap fun event => markFor key event.2).getLast?

/-- A book is healthy exactly if the last mark of its key is that of a data event. -/
def HealthLaw (ub : UnifiedBook) (events : List (Int × Json)) : Prop :=
  ∀ vb ∈ ub.venues, vb.feedHealthy = true ↔ lastMark vb.key events = some true

instance (ub : UnifiedBook) (events : List (Int × Json)) : Decidable (HealthLaw ub events) :=
  inferInstanceAs (Decidable (∀ vb ∈ ub.venues, _))

/-- An accepted status that reports the feed as synced. -/
def SyncedStatus (hdr : EventHeader) (j : Json) : Prop :=
  hdr.eventType = "status" ∧ accepted hdr j = true ∧ value getString j "feed_state" "" = .ok "synced"

/-- A status `synced` meets a book that is not healthy, a half-parsed book state one that is. -/
def RespectsHealth (ub : UnifiedBook) (event : Int × Json) : Prop :=
  ∀ hdr, UnifiedBook.Routed event.2 hdr →
    (SyncedStatus hdr event.2 → (ub.bookAt (UnifiedBook.headerKey hdr)).feedHealthy = false) ∧
    (HalfParsed hdr event.2 → (ub.bookAt (UnifiedBook.headerKey hdr)).feedHealthy = true)

theorem markFor_routed {j : Json} {hdr : EventHeader} (routed : UnifiedBook.Routed j hdr) :
    markFor (UnifiedBook.headerKey hdr) j = mark hdr j := by
  rw [markFor, routed.header]
  exact if_pos ⟨routed.venue, routed.eventType, rfl⟩

theorem markFor_other {j : Json} {key : String × String}
    (other : ∀ hdr, UnifiedBook.Routed j hdr → UnifiedBook.headerKey hdr ≠ key) : markFor key j = none := by
  rw [markFor]
  cases hparse : parseHeader j with
  | error err => rfl
  | ok hdr => exact if_neg fun h => other hdr ⟨hparse, h.1, h.2.1⟩ h.2.2

theorem lastMark_concat (key : String × String) (events : List (Int × Json)) (event : Int × Json) :
    lastMark key (events ++ [event]) = (markFor key event.2).or (lastMark key events) := by
  rw [lastMark, List.filterMap_append, lastMark]
  cases hmark : markFor key event.2 with
  | none => simp [hmark]
  | some mark => simp [hmark]

/-- What an event writes into the health flag against what it says. -/
theorem feedHealthy_onEvent (now : Int) (hdr : EventHeader) (j : Json) (vb : VenueBook) :
    (¬ SyncedStatus hdr j ∧ ¬ HalfParsed hdr j ∧
        (vb.onEvent now hdr j).1.feedHealthy = (mark hdr j).getD vb.feedHealthy) ∨
      (SyncedStatus hdr j ∧ ¬ HalfParsed hdr j ∧ mark hdr j = none ∧
        (vb.onEvent now hdr j).1.feedHealthy = false) ∨
      (¬ SyncedStatus hdr j ∧ HalfParsed hdr j ∧ mark hdr j = none ∧
        (vb.onEvent now hdr j).1.feedHealthy = true) := by
  have hcase := onEvent_cases now hdr j vb
  generalize vb.onEvent now hdr j = result at hcase
  have hwhole : accepted hdr j = true → ¬ HalfParsed hdr j := by
    rintro haccepted ⟨htype, hok, herror⟩
    simp [accepted, htype, herror] at haccepted
  cases hcase with
  | data tsBookNs controller htype haccepted =>
      exact Or.inl ⟨fun h => htype h.1, hwhole haccepted, by simp [mark, haccepted, htype]⟩
  | disconnected htype haccepted hstate =>
      refine Or.inl ⟨fun h => ?_, hwhole haccepted, ?_⟩
      · exact absurd (hstate.symm.trans h.2.2) (by simp)
      · simp [mark, haccepted, htype, hstate, Except.toOption]
  | transitional feedState htype haccepted hstate hup =>
      by_cases hsynced : feedState = "synced"
      · subst hsynced
        exact Or.inr (Or.inl ⟨⟨htype, haccepted, hstate⟩, hwhole haccepted,
          by simp [mark, haccepted, htype, hstate, Except.toOption], rfl⟩)
      · refine Or.inl ⟨fun h => ?_, hwhole haccepted, ?_⟩
        · exact absurd (hstate.symm.trans h.2.2) (by simpa using hsynced)
        · simp [mark, haccepted, htype, hstate, Except.toOption, hsynced]
  | halfWritten ts half hts hrefused =>
      exact Or.inr (Or.inr ⟨fun h => absurd h.2.1 (by simp [hrefused]), half,
        by simp [mark, hrefused], rfl⟩)
  | discarded whole hrefused =>
      exact Or.inl ⟨fun h => absurd h.2.1 (by simp [hrefused]), whole, by simp [mark, hrefused]⟩

namespace UnifiedBook

/-- The law for the book of every key, present or still to come. -/
def KeyedLaw (ub : UnifiedBook) (events : List (Int × Json)) : Prop :=
  ∀ key, (ub.bookAt key).feedHealthy = true ↔ lastMark key events = some true

/-- Keys are distinct, and a key without a book has no mark. -/
structure MarksKnown (ub : UnifiedBook) (events : List (Int × Json)) : Prop where
  distinct : ub.keys.Nodup
  unmarked : ∀ key, key ∉ ub.keys → lastMark key events = none

variable {ub : UnifiedBook} {events : List (Int × Json)} {event : Int × Json}

theorem MarksKnown.step (known : MarksKnown ub events) :
    MarksKnown (ub.step event) (events ++ [event]) := by
  constructor
  · exact keys_nodup_onEvent known.distinct
  · intro key habsent
    have hbefore : key ∉ ub.keys := fun h => habsent (keys_subset_onEvent ub event.1 event.2 h)
    have hother : ∀ hdr, Routed event.2 hdr → headerKey hdr ≠ key := by
      rintro hdr routed rfl
      exact habsent (mem_keys_onEvent routed)
    rw [lastMark_concat, markFor_other hother, known.unmarked key hbefore]
    rfl

/-- On distinct keys the two forms of the law say the same. -/
theorem healthLaw_iff (known : MarksKnown ub events) : HealthLaw ub events ↔ KeyedLaw ub events := by
  constructor
  · intro law key
    by_cases hpresent : key ∈ ub.keys
    · obtain ⟨vb, hvb, rfl⟩ := List.mem_map.mp hpresent
      rw [← eq_bookAt known.distinct hvb]
      exact law vb hvb
    · rw [bookAt_of_not_mem hpresent, known.unmarked key hpresent]
      exact iff_of_false (by simp [VenueBook.new]) (by simp)
  · intro law vb hvb
    have hkeyed := law vb.key
    rwa [← eq_bookAt known.distinct hvb] at hkeyed

/-- One event keeps the law exactly if it respects the health of its book. -/
theorem keyedLaw_step_iff (law : KeyedLaw ub events) :
    KeyedLaw (ub.step event) (events ++ [event]) ↔ RespectsHealth ub event := by
  have hothers : ∀ key, (∀ hdr, Routed event.2 hdr → headerKey hdr ≠ key) →
      (((ub.step event).bookAt key).feedHealthy = true ↔
        lastMark key (events ++ [event]) = some true) := by
    intro key hother
    have hsame : (ub.step event).bookAt key = ub.bookAt key := bookAt_onEvent_other hother
    rw [hsame, lastMark_concat, markFor_other hother]
    exact law key
  by_cases hrouted : ∃ hdr, Routed event.2 hdr
  · obtain ⟨hdr, routed⟩ := hrouted
    have hself : (ub.step event).bookAt (headerKey hdr) =
        ((ub.bookAt (headerKey hdr)).onEvent event.1 hdr event.2).1 := bookAt_onEvent_self routed
    have hbefore := law (headerKey hdr)
    -- only the book of the event's own key is at stake
    have hown : KeyedLaw (ub.step event) (events ++ [event]) ↔
        (((ub.bookAt (headerKey hdr)).onEvent event.1 hdr event.2).1.feedHealthy = true ↔
          (mark hdr event.2).or (lastMark (headerKey hdr) events) = some true) := by
      rw [← hself, ← markFor_routed routed, ← lastMark_concat]
      refine ⟨fun hlaw => hlaw (headerKey hdr), fun hlaw key => ?_⟩
      by_cases hkey : headerKey hdr = key
      · exact hkey ▸ hlaw
      · exact hothers key fun hdr' hrouted' => routed.unique hrouted' ▸ hkey
    have hrespects : RespectsHealth ub event ↔
        (SyncedStatus hdr event.2 → (ub.bookAt (headerKey hdr)).feedHealthy = false) ∧
        (HalfParsed hdr event.2 → (ub.bookAt (headerKey hdr)).feedHealthy = true) :=
      ⟨fun h => h hdr routed, fun h hdr' hrouted' => routed.unique hrouted' ▸ h⟩
    rw [hown, hrespects]
    rcases feedHealthy_onEvent event.1 hdr event.2 (ub.bookAt (headerKey hdr)) with
      ⟨hnotSynced, hwhole, hwrites⟩ | ⟨hsynced, hwhole, hmark, hwrites⟩ |
      ⟨hnotSynced, hhalf, hmark, hwrites⟩
    · refine iff_of_true ?_ ⟨fun h => absurd h hnotSynced, fun h => absurd h hwhole⟩
      rw [hwrites]
      cases mark hdr event.2 with
      | none => exact hbefore
      | some live => simp
    · rw [hwrites, hmark, Option.none_or, ← hbefore]
      simp [hsynced, hwhole]
    · rw [hwrites, hmark, Option.none_or, ← hbefore]
      simp [hnotSynced, hhalf]
  · refine iff_of_true (fun key => hothers key fun hdr routed => ?_) fun hdr routed => ?_
    · exact absurd ⟨hdr, routed⟩ hrouted
    · exact absurd ⟨hdr, routed⟩ hrouted

/-- A status `synced` that meets an unhealthy book changes no book's `synced`. -/
theorem synced_onEvent_of_respects (respects : RespectsHealth ub event) {hdr : EventHeader}
    (routed : Routed event.2 hdr) (status : SyncedStatus hdr event.2) (key : String × String) :
    ((ub.step event).bookAt key).synced = (ub.bookAt key).synced := by
  by_cases hkey : headerKey hdr = key
  · subst hkey
    have hself : (ub.step event).bookAt (headerKey hdr) =
        ((ub.bookAt (headerKey hdr)).onEvent event.1 hdr event.2).1 := bookAt_onEvent_self routed
    have hlow := (respects hdr routed).1 status
    rcases feedHealthy_onEvent event.1 hdr event.2 (ub.bookAt (headerKey hdr)) with
      ⟨hnot, -⟩ | ⟨-, -, -, hwrites⟩ | ⟨hnot, -⟩
    · exact absurd status hnot
    · rw [hself, VenueBook.synced, VenueBook.synced, hwrites, hlow]
      rfl
    · exact absurd status hnot
  · have hsame : (ub.step event).bookAt key = ub.bookAt key :=
      bookAt_onEvent_other fun hdr' hrouted' => routed.unique hrouted' ▸ hkey
    rw [hsame]

/-- The law of the health flag holds in every state a sequence of events passes, and no status `synced`
    changes any book's `synced`, exactly if every such status meets a book that is not healthy and every
    half-parsed book state one that is. -/
theorem feed_healthy_law_iff (depth : Nat) (depth_pos : 0 < depth) (events : List (Int × Json)) :
    ((∀ reached, reached <+: events →
        HealthLaw (Runs.run step (new depth depth_pos) reached) reached) ∧
      ∀ reached event hdr, reached ++ [event] <+: events → Routed event.2 hdr →
        SyncedStatus hdr event.2 → ∀ key,
          ((Runs.run step (new depth depth_pos) (reached ++ [event])).bookAt key).synced =
            ((Runs.run step (new depth depth_pos) reached).bookAt key).synced) ↔
    Runs.Along step RespectsHealth (new depth depth_pos) events := by
  have hlaw : (∀ reached, reached <+: events →
      HealthLaw (Runs.run step (new depth depth_pos) reached) reached) ↔
      Runs.Along step RespectsHealth (new depth depth_pos) events := by
    have htraced : Runs.Along (Runs.traced step) (fun state event => RespectsHealth state.1 event)
        (new depth depth_pos, []) events ↔
        Runs.Along step RespectsHealth (new depth depth_pos) events := Runs.along_traced
    have hkept : ∀ (state : UnifiedBook × List (Int × Json)) (event : Int × Json),
        MarksKnown state.1 state.2 → HealthLaw state.1 state.2 →
        MarksKnown (Runs.traced step state event).1 (Runs.traced step state event).2 :=
      fun _ _ known _ => known.step
    have hexact : ∀ (state : UnifiedBook × List (Int × Json)) (event : Int × Json),
        MarksKnown state.1 state.2 → HealthLaw state.1 state.2 →
        (HealthLaw (Runs.traced step state event).1 (Runs.traced step state event).2 ↔
          RespectsHealth state.1 event) := by
      intro state event known law
      rw [healthLaw_iff (hkept state event known law)]
      exact keyedLaw_step_iff ((healthLaw_iff known).mp law)
    have hstart : MarksKnown (new depth depth_pos) [] := ⟨List.nodup_nil, fun _ _ => rfl⟩
    have hempty : HealthLaw (new depth depth_pos) [] := fun vb hvb => absurd hvb List.not_mem_nil
    have hiff := Runs.Along.iff_of_step (s := (new depth depth_pos, [])) hkept hexact hstart hempty
      events
    simp only [Runs.run_traced, List.nil_append] at hiff
    rw [← htraced, ← hiff]
  rw [hlaw]
  refine ⟨And.left, fun along => ⟨along, ?_⟩⟩
  rintro reached event hdr ⟨rest, rfl⟩ routed status key
  have hrespects := (Runs.Along.append_iff.mp (Runs.Along.append_iff.mp along).1).2.1
  rw [Runs.run_append]
  exact synced_onEvent_of_respects hrespects routed status key

end UnifiedBook

/-- The publisher reports that it is synced. -/
def syncedReport : Json := frameOf "status" [("feed_state", .string "synced")]

/-- The report comes before the data. -/
def reportFirst : List (Int × Json) := [(0, syncedReport), (0, emptyCheckpoint)]

/-- The report comes after the data, as the publisher sends it. -/
def reportLast : List (Int × Json) := [(0, emptyCheckpoint), (0, syncedReport)]

/-- A report that meets a fresh book leaves the law in force. -/
theorem feed_healthy_law_report_first :
    HealthLaw (Runs.run UnifiedBook.step (UnifiedBook.new 5 (by decide)) reportFirst) reportFirst := by
  apply ((UnifiedBook.feed_healthy_law_iff 5 (by decide) reportFirst).mpr _).1 _ (List.prefix_refl _)
  refine ⟨?_, ?_, trivial⟩
  · intro hdr routed
    have hheader : parseHeader syncedReport = .ok ⟨1, "status", "binance", "BTCUSDT"⟩ := rfl
    have hsame := routed.header.symm.trans hheader
    cases hsame
    exact ⟨fun _ => rfl, fun half => absurd half.1 (by decide)⟩
  · intro hdr routed
    have hheader : parseHeader emptyCheckpoint = .ok ⟨1, "book_state", "binance", "BTCUSDT"⟩ := rfl
    have hsame := routed.header.symm.trans hheader
    cases hsame
    exact ⟨fun status => absurd status.1 (by decide), fun half => absurd half.2.2 (by decide)⟩

/-- The report takes a synced book out of use, although nothing but data was said about its feed. -/
theorem feed_healthy_law_broken :
    (Runs.run UnifiedBook.step (UnifiedBook.new 5 (by decide)) [(0, emptyCheckpoint)]).syncedCount = 1 ∧
      (Runs.run UnifiedBook.step (UnifiedBook.new 5 (by decide)) reportLast).syncedCount = 0 ∧
      ¬ HealthLaw (Runs.run UnifiedBook.step (UnifiedBook.new 5 (by decide)) reportLast) reportLast :=
  ⟨by decide, by decide, by decide⟩

end ZidaBot.Brain
