/-
Module: ZidaBot.Proofs.UnifiedBook
Purpose: Routing.  An event with a valid header reaches exactly one book: the first one of its key, or a
  fresh one at the end.  From the two spec lemmas follow the keys of the books after any run: they are
  pairwise distinct and all of them come from events.
Trusted boundary: none
Main exports: onEvent_fresh, onEvent_known, onEvent_refused, KeysFrom, keysFrom_run, bookAt,
  bookAt_onEvent_self, bookAt_onEvent_other
-/
import ZidaBot.Brain.UnifiedBook
import ZidaBot.Library.Runs
import Mathlib.Data.List.Nodup

namespace ZidaBot.Brain

/-- Whatever an event does to a book, it keeps its key. -/
@[simp] theorem VenueBook.key_onEvent (now : Int) (hdr : EventHeader) (j : Json) (vb : VenueBook) :
    (vb.onEvent now hdr j).1.key = vb.key := by
  rw [VenueBook.onEvent]
  split
  · split <;> rfl
  · split
    · split <;> rfl
    · split
      · split
        · rfl
        · dsimp only
          split <;> rfl
      · split
        · split
          · split <;> rfl
          · rfl
        · rfl

/-!
### What an event does to the controller of its book

One equation for each type of event. Later modules never unfold `on_event`.
-/

section Controller

variable {now : Int} {hdr : EventHeader} {j : Json} {vb : VenueBook}

theorem VenueBook.onEvent_snapshot (type : hdr.eventType = "snapshot") {snap : GenericSnapshotFormat}
    (parsed : parseSnapshot j = .ok snap) :
    (vb.onEvent now hdr j).1.controller =
      (vb.controller.onSnapshot venueBookConfig snap .wsAuthoritative).1 := by
  simp [VenueBook.onEvent, type, parsed]

theorem VenueBook.onEvent_incremental (type : hdr.eventType = "incremental")
    {inc : GenericIncrementalFormat} (parsed : parseIncremental j = .ok inc) :
    (vb.onEvent now hdr j).1.controller = (vb.controller.onIncrement venueBookConfig inc).1 := by
  simp [VenueBook.onEvent, type, parsed]

theorem VenueBook.onEvent_bookState (type : hdr.eventType = "book_state") {ts : Int}
    {snap : GenericSnapshotFormat} (stamped : extractTsBookNs j = .ok ts)
    (parsed : parseBookStateAsSnapshot j = .ok snap) :
    (vb.onEvent now hdr j).1.controller =
      (vb.controller.onSnapshot venueBookConfig snap .wsAuthoritative).1 := by
  simp [VenueBook.onEvent, type, stamped, parsed]

/-- A book state marks the feed as healthy. -/
theorem VenueBook.feedHealthy_of_bookState (type : hdr.eventType = "book_state") {ts : Int}
    (stamped : extractTsBookNs j = .ok ts) : (vb.onEvent now hdr j).1.feedHealthy = true := by
  simp only [VenueBook.onEvent, type, stamped]
  cases parseBookStateAsSnapshot j <;> rfl

theorem VenueBook.onEvent_status (type : hdr.eventType = "status") {feedState reason : String}
    (state : Json.value Json.getString j "feed_state" "" = .ok feedState)
    (why : Json.value Json.getString j "reason" "" = .ok reason) :
    (vb.onEvent now hdr j).1.controller =
      if feedState = "disconnected" then vb.controller.resetBook else vb.controller := by
  rw [VenueBook.onEvent, if_neg (by simp [type]), if_neg (by simp [type]), if_neg (by simp [type]),
    if_pos type, state, why]
  dsimp only
  split <;> rfl

/-- Whatever a status says, the feed is not healthy after it. -/
theorem VenueBook.feedHealthy_of_status (type : hdr.eventType = "status") {feedState reason : String}
    (state : Json.value Json.getString j "feed_state" "" = .ok feedState)
    (why : Json.value Json.getString j "reason" "" = .ok reason) :
    (vb.onEvent now hdr j).1.feedHealthy = false := by
  rw [VenueBook.onEvent, if_neg (by simp [type]), if_neg (by simp [type]), if_neg (by simp [type]),
    if_pos type, state, why]
  dsimp only
  split <;> rfl

end Controller

@[simp] theorem VenueBook.key_new (venue symbol : String) (depth : Nat) (depth_pos : 0 < depth) :
    (VenueBook.new venue symbol depth depth_pos).key = (venue, symbol) := rfl

namespace UnifiedBook

variable {ub : UnifiedBook} {now : Int} {j : Json} {hdr : EventHeader}

/-- The key an event is routed by. -/
def headerKey (hdr : EventHeader) : String × String := (hdr.venue, hdr.symbol)

/-- The keys of the books, in order. -/
def keys (ub : UnifiedBook) : List (String × String) := ub.books.map VenueBook.key

/-- The header is accepted and names a venue and a type. -/
structure Routed (j : Json) (hdr : EventHeader) : Prop where
  header : parseHeader j = .ok hdr
  venue : hdr.venue ≠ ""
  eventType : hdr.eventType ≠ ""

theorem key_beq_iff (vb : VenueBook) (hdr : EventHeader) :
    (vb.venueName == hdr.venue && vb.symbol == hdr.symbol) = true ↔ vb.key = headerKey hdr := by
  simp [VenueBook.key, headerKey]

/-- An event without a usable header changes nothing. -/
theorem onEvent_refused (refused : ∀ hdr, ¬ Routed j hdr) : ub.onEvent now j = (ub, "") := by
  rw [onEvent]
  cases hparse : parseHeader j with
  | error e => rfl
  | ok hdr =>
      have hempty : hdr.venue = "" ∨ hdr.eventType = "" := by
        by_contra hnot
        rw [not_or] at hnot
        exact refused hdr ⟨hparse, hnot.1, hnot.2⟩
      simp [hempty]

theorem findIdx?_of_not_mem (absent : headerKey hdr ∉ ub.keys) :
    ub.books.findIdx? (fun vb => vb.venueName == hdr.venue && vb.symbol == hdr.symbol) = none := by
  rw [List.findIdx?_eq_none_iff]
  intro vb hvb
  by_contra hkey
  have hkey := (key_beq_iff vb hdr).mp (by simpa using hkey)
  exact absent (hkey ▸ List.mem_map_of_mem hvb)

/-- The first event of a key appends a book. -/
theorem onEvent_fresh (routed : Routed j hdr) (absent : headerKey hdr ∉ ub.keys) :
    (ub.onEvent now j).1 =
      { ub with
        books := ub.books ++
          [((VenueBook.new hdr.venue hdr.symbol ub.depth ub.depth_pos).onEvent now hdr j).1] } := by
  simp only [onEvent, routed.header, routed.venue, routed.eventType, or_self, if_false, findOrCreate,
    findIdx?_of_not_mem absent]
  simp

/-- A later event of a key changes the book of that key and no other. -/
theorem onEvent_known (routed : Routed j hdr) {before after : List VenueBook} {vb : VenueBook}
    (books : ub.books = before ++ vb :: after) (key : vb.key = headerKey hdr)
    (first : headerKey hdr ∉ before.map VenueBook.key) :
    (ub.onEvent now j).1 = { ub with books := before ++ (vb.onEvent now hdr j).1 :: after } := by
  have hfind : ub.books.findIdx?
      (fun vb => vb.venueName == hdr.venue && vb.symbol == hdr.symbol) = some before.length := by
    rw [books, List.findIdx?_append]
    have hbefore : before.findIdx?
        (fun vb => vb.venueName == hdr.venue && vb.symbol == hdr.symbol) = none := by
      rw [List.findIdx?_eq_none_iff]
      intro vb' hvb'
      by_contra hkey
      have hkey := (key_beq_iff vb' hdr).mp (by simpa using hkey)
      exact first (hkey ▸ List.mem_map_of_mem hvb')
    rw [hbefore, List.findIdx?_cons, (key_beq_iff vb hdr).mpr key]
    simp
  simp only [onEvent, routed.header, routed.venue, routed.eventType, or_self, if_false, findOrCreate,
    hfind]
  simp [books]

/-- A key that is present splits the books at its first occurrence. -/
theorem exists_first (present : headerKey hdr ∈ ub.keys) :
    ∃ before vb after, ub.books = before ++ vb :: after ∧ vb.key = headerKey hdr ∧
      headerKey hdr ∉ before.map VenueBook.key := by
  obtain ⟨ks, ks', hsplit, hfirst⟩ := List.eq_append_cons_of_mem present
  obtain ⟨before, rest, hbooks, hbefore, hrest⟩ := List.map_eq_append_iff.mp hsplit
  obtain ⟨vb, after, rfl, hvb, -⟩ := List.map_eq_cons_iff.mp hrest
  exact ⟨before, vb, after, hbooks, hvb, hbefore ▸ hfirst⟩

/-- The keys after one event: the same, or one more that was not there. -/
theorem keys_onEvent (ub : UnifiedBook) (now : Int) (j : Json) :
    (ub.onEvent now j).1.keys = ub.keys ∨
      ∃ hdr, Routed j hdr ∧ headerKey hdr ∉ ub.keys ∧
        (ub.onEvent now j).1.keys = ub.keys ++ [headerKey hdr] := by
  by_cases hrouted : ∃ hdr, Routed j hdr
  · obtain ⟨hdr, routed⟩ := hrouted
    by_cases hpresent : headerKey hdr ∈ ub.keys
    · obtain ⟨before, vb, after, hbooks, hkey, hfirst⟩ := exists_first hpresent
      left
      rw [onEvent_known routed hbooks hkey hfirst]
      simp [keys, hbooks]
    · right
      refine ⟨hdr, routed, hpresent, ?_⟩
      rw [onEvent_fresh routed hpresent]
      simp [keys, headerKey]
  · left
    rw [onEvent_refused fun hdr routed => hrouted ⟨hdr, routed⟩]

/-- A book stays. -/
theorem keys_subset_onEvent (ub : UnifiedBook) (now : Int) (j : Json) :
    ub.keys ⊆ (ub.onEvent now j).1.keys := by
  rcases keys_onEvent ub now j with hsame | ⟨hdr, -, -, hkeys⟩
  · rw [hsame]
    exact List.Subset.refl _
  · rw [hkeys]
    exact List.subset_append_left _ _

/-- After an event there is a book of its key. -/
theorem mem_keys_onEvent (routed : Routed j hdr) : headerKey hdr ∈ (ub.onEvent now j).1.keys := by
  by_cases hpresent : headerKey hdr ∈ ub.keys
  · exact keys_subset_onEvent ub now j hpresent
  · rw [onEvent_fresh routed hpresent]
    simp [keys, headerKey]

/-- No event opens a second book of a key. -/
theorem keys_nodup_onEvent (nodup : ub.keys.Nodup) : (ub.onEvent now j).1.keys.Nodup := by
  rcases keys_onEvent ub now j with hsame | ⟨hdr, -, habsent, hkeys⟩
  · exact hsame ▸ nodup
  · rw [hkeys, ← List.concat_eq_append]
    exact List.Nodup.concat habsent nodup

/-- Keys are pairwise distinct and each is one of `allowed`. -/
structure KeysFrom (allowed : String × String → Prop) (ub : UnifiedBook) : Prop where
  nodup : ub.keys.Nodup
  origin : ∀ key ∈ ub.keys, allowed key

/-- Every routed event of the run has an allowed key. -/
def RoutedTo (allowed : String × String → Prop) (j : Json) : Prop :=
  ∀ hdr, Routed j hdr → allowed (headerKey hdr)

theorem KeysFrom.step {allowed : String × String → Prop} (inv : KeysFrom allowed ub)
    {event : Int × Json} (routed : RoutedTo allowed event.2) : KeysFrom allowed (ub.step event) := by
  refine ⟨keys_nodup_onEvent inv.nodup, ?_⟩
  rcases keys_onEvent ub event.1 event.2 with hsame | ⟨hdr, hrouted, -, hkeys⟩
  · exact hsame ▸ inv.origin
  · have hkeys : (ub.step event).keys = ub.keys ++ [headerKey hdr] := hkeys
    rw [hkeys]
    intro key hkey
    rcases List.mem_append.mp hkey with hold | hnew
    · exact inv.origin key hold
    · exact List.mem_singleton.mp hnew ▸ routed hdr hrouted

/-- The keys after every run of allowed events. -/
theorem keysFrom_run {allowed : String × String → Prop} (depth : Nat) (depth_pos : 0 < depth)
    {events : List (Int × Json)} (routed : ∀ event ∈ events, RoutedTo allowed event.2) :
    KeysFrom allowed (Runs.run step (new depth depth_pos) events) := by
  have along : Runs.Along step (fun _ event => RoutedTo allowed event.2) (new depth depth_pos) events :=
    Runs.along_of_forall routed _
  exact along.invariant (fun _ _ inv hevent => inv.step hevent)
    ⟨List.nodup_nil, fun key hkey => absurd hkey List.not_mem_nil⟩

/-!
### The book of a key

`bookAt` is total: a key without an entry has the book that its first event would create. An event changes
the value at its own key and at no other, which is all that is needed about several venues.
-/

/-- The book of a key, or the one that its first event would create. -/
def bookAt (ub : UnifiedBook) (key : String × String) : VenueBook :=
  (ub.books.find? fun vb => vb.key == key).getD (VenueBook.new key.1 key.2 ub.depth ub.depth_pos)

theorem bookAt_of_not_mem {key : String × String} (absent : key ∉ ub.keys) :
    ub.bookAt key = VenueBook.new key.1 key.2 ub.depth ub.depth_pos := by
  have hfind : ub.books.find? (fun vb => vb.key == key) = none := by
    rw [List.find?_eq_none]
    intro vb hvb hkey
    exact absent (List.mem_map.mpr ⟨vb, hvb, eq_of_beq hkey⟩)
  rw [bookAt, hfind, Option.getD_none]

theorem bookAt_of_split {key : String × String} {before after : List VenueBook} {vb : VenueBook}
    (books : ub.books = before ++ vb :: after) (own : vb.key = key)
    (first : key ∉ before.map VenueBook.key) : ub.bookAt key = vb := by
  have hbefore : before.find? (fun vb => vb.key == key) = none := by
    rw [List.find?_eq_none]
    intro vb' hvb' hkey
    exact first (List.mem_map.mpr ⟨vb', hvb', eq_of_beq hkey⟩)
  rw [bookAt, books, List.find?_append, hbefore, List.find?_cons_of_pos (by simp [own])]
  rfl

/-- The book of a routed event is there once the event is processed. -/
theorem bookAt_mem_onEvent (routed : Routed j hdr) :
    (ub.onEvent now j).1.bookAt (headerKey hdr) ∈ (ub.onEvent now j).1.books := by
  obtain ⟨before, vb, after, hbooks, hkey, hfirst⟩ := exists_first (mem_keys_onEvent routed)
  rw [bookAt_of_split hbooks hkey hfirst, hbooks]
  exact List.mem_append_right before (List.mem_cons_self ..)

/-- The books of distinct keys are found under their keys. -/
theorem eq_bookAt (distinct : ub.keys.Nodup) {vb : VenueBook} (member : vb ∈ ub.books) :
    vb = ub.bookAt vb.key := by
  obtain ⟨before, after, hbooks⟩ := List.append_of_mem member
  refine (bookAt_of_split hbooks rfl ?_).symm
  rw [keys, hbooks, List.map_append, List.map_cons, List.nodup_append] at distinct
  exact fun hmember => distinct.2.2 _ hmember _ (List.mem_cons_self ..) rfl

/-- An event changes the book of its own key as `on_event` says. -/
theorem bookAt_onEvent_self (routed : Routed j hdr) :
    (ub.onEvent now j).1.bookAt (headerKey hdr) = ((ub.bookAt (headerKey hdr)).onEvent now hdr j).1 := by
  by_cases hpresent : headerKey hdr ∈ ub.keys
  · obtain ⟨before, vb, after, hbooks, hkey, hfirst⟩ := exists_first hpresent
    rw [bookAt_of_split hbooks hkey hfirst, onEvent_known routed hbooks hkey hfirst]
    exact bookAt_of_split rfl ((VenueBook.key_onEvent now hdr j vb).trans hkey) hfirst
  · rw [bookAt_of_not_mem hpresent, onEvent_fresh routed hpresent]
    exact bookAt_of_split rfl (VenueBook.key_onEvent now hdr j _) hpresent

/-- An event leaves the books of other keys alone. -/
theorem bookAt_onEvent_other {key : String × String} (other : ∀ hdr, Routed j hdr → headerKey hdr ≠ key) :
    (ub.onEvent now j).1.bookAt key = ub.bookAt key := by
  by_cases hrouted : ∃ hdr, Routed j hdr
  · obtain ⟨hdr, routed⟩ := hrouted
    have hskip : ∀ (vb : VenueBook) (rest : List VenueBook), vb.key = headerKey hdr →
        (vb :: rest).find? (fun vb => vb.key == key) = rest.find? fun vb => vb.key == key := by
      intro vb rest hvb
      apply List.find?_cons_of_neg
      exact fun hbeq => other hdr routed (hvb.symm.trans (eq_of_beq hbeq))
    by_cases hpresent : headerKey hdr ∈ ub.keys
    · obtain ⟨before, vb, after, hbooks, hkey, hfirst⟩ := exists_first hpresent
      have hchanged := (VenueBook.key_onEvent now hdr j vb).trans hkey
      rw [onEvent_known routed hbooks hkey hfirst, bookAt, bookAt, hbooks, List.find?_append,
        List.find?_append, hskip vb after hkey, hskip _ after hchanged]
    · have hcreated := VenueBook.key_onEvent now hdr j
        (VenueBook.new hdr.venue hdr.symbol ub.depth ub.depth_pos)
      rw [onEvent_fresh routed hpresent, bookAt, bookAt, List.find?_append, hskip _ [] hcreated,
        List.find?_nil, Option.or_none]
  · rw [onEvent_refused fun hdr routed => hrouted ⟨hdr, routed⟩]

end UnifiedBook

end ZidaBot.Brain
