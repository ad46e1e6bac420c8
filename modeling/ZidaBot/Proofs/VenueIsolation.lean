/-
Module: ZidaBot.Proofs.VenueIsolation
Purpose: Venues do not interfere.  The book of a (venue, symbol) pair, or its absence, is a view of the
  brain's books that only the events of that pair change, so after any run it is what those events alone
  have made of it.
Trusted boundary: none
Main exports: eventKey, ofKey, findBook, venues_isolated
-/
import ZidaBot.Proofs.UnifiedBook

namespace ZidaBot.Brain.UnifiedBook

open Runs

/-- The key an event is routed by; none if it is discarded before a book is looked up. -/
def eventKey (j : Json) : Option (String × String) :=
  match parseHeader j with
  | .error _ => none
  | .ok hdr => if hdr.venue = "" ∨ hdr.eventType = "" then none else some (headerKey hdr)

/-- The event, with its clock reading, belongs to the stream of a key. -/
def ofKey (key : String × String) (event : Int × Json) : Bool := eventKey event.2 == some key

/-- The entry of `venues()` for a key. -/
def findBook (ub : UnifiedBook) (key : String × String) : Option VenueBook :=
  ub.venues.find? fun vb => vb.key == key

theorem eventKey_eq_some_iff {j : Json} {key : String × String} :
    eventKey j = some key ↔ ∃ hdr, Routed j hdr ∧ headerKey hdr = key := by
  constructor
  · intro hkey
    rw [eventKey] at hkey
    split at hkey
    · cases hkey
    · rename_i hdr hparse
      split at hkey
      · cases hkey
      · rename_i hnamed
        rw [not_or] at hnamed
        exact ⟨hdr, ⟨hparse, hnamed.1, hnamed.2⟩, Option.some.inj hkey⟩
  · rintro ⟨hdr, routed, rfl⟩
    simp [eventKey, routed.header, routed.venue, routed.eventType]

theorem ofKey_iff {key : String × String} {event : Int × Json} :
    ofKey key event = true ↔ ∃ hdr, Routed event.2 hdr ∧ headerKey hdr = key := by
  rw [ofKey, beq_iff_eq, eventKey_eq_some_iff]

theorem not_ofKey {key : String × String} {event : Int × Json} (other : ofKey key event = false) :
    ∀ hdr, Routed event.2 hdr → headerKey hdr ≠ key := by
  intro hdr routed hkey
  rw [ofKey_iff.mpr ⟨hdr, routed, hkey⟩] at other
  cases other

/-!
### Presence and contents as views

Whether there is a book of a key, and what it is, are views of the state that the events of other keys do
not change; the run of a view is the run of its own events.
-/

/-- An event of another key does not create the book. -/
theorem mem_keys_onEvent_other {ub : UnifiedBook} {now : Int} {j : Json} {key : String × String}
    (other : ∀ hdr, Routed j hdr → headerKey hdr ≠ key) :
    key ∈ (ub.onEvent now j).1.keys ↔ key ∈ ub.keys := by
  rcases keys_onEvent ub now j with hsame | ⟨hdr, routed, -, hkeys⟩
  · rw [hsame]
  · rw [hkeys, List.mem_append, List.mem_singleton]
    exact or_iff_left (other hdr routed).symm

/-- What an event of its own key makes of a book. -/
def ownStep (vb : VenueBook) (event : Int × Json) : VenueBook :=
  match parseHeader event.2 with
  | .error _ => vb
  | .ok hdr => (vb.onEvent event.1 hdr event.2).1

theorem bookAt_run (ub : UnifiedBook) (key : String × String) (events : List (Int × Json)) :
    (run step ub events).bookAt key = (run step ub (events.filter (ofKey key))).bookAt key := by
  refine view_run_filter (fun ub : UnifiedBook => ub.bookAt key) ownStep ?_ ?_ ub events
  · intro ub event hown
    obtain ⟨hdr, routed, rfl⟩ := ofKey_iff.mp hown
    rw [ownStep, routed.header]
    exact bookAt_onEvent_self routed
  · intro ub event hother
    exact bookAt_onEvent_other (not_ofKey hother)

theorem mem_keys_run (ub : UnifiedBook) (key : String × String) (events : List (Int × Json)) :
    key ∈ (run step ub events).keys ↔ key ∈ (run step ub (events.filter (ofKey key))).keys := by
  have hself : ∀ (ub : UnifiedBook) (event : Int × Json), ofKey key event = true →
      (key ∈ (ub.step event).keys) = True := by
    intro ub event hown
    obtain ⟨hdr, routed, rfl⟩ := ofKey_iff.mp hown
    exact eq_true (mem_keys_onEvent routed)
  have hother : ∀ (ub : UnifiedBook) (event : Int × Json), ofKey key event = false →
      (key ∈ (ub.step event).keys) = (key ∈ ub.keys) := by
    intro ub event hother
    exact propext (mem_keys_onEvent_other (not_ofKey hother))
  have hview := view_run_filter (fun ub : UnifiedBook => key ∈ ub.keys) (fun _ _ => True) hself hother ub
    events
  exact iff_of_eq hview

theorem findBook_eq (ub : UnifiedBook) (key : String × String) :
    ub.findBook key = if key ∈ ub.keys then some (ub.bookAt key) else none := by
  cases hfind : ub.findBook key with
  | none =>
      have habsent : key ∉ ub.keys := by
        intro hmember
        obtain ⟨vb, hvb, hkey⟩ := List.mem_map.mp hmember
        exact List.find?_eq_none.mp hfind vb hvb (by simp [hkey])
      rw [if_neg habsent]
  | some vb =>
      have hbook : ub.books.find? (fun vb => vb.key == key) = some vb := hfind
      have hkey : (vb.key == key) = true := by simpa using List.find?_some hbook
      have hpresent : key ∈ ub.keys :=
        List.mem_map.mpr ⟨vb, List.mem_of_find?_eq_some hbook, eq_of_beq hkey⟩
      rw [if_pos hpresent, bookAt, hbook, Option.getD_some]

theorem findBook_run (ub : UnifiedBook) (key : String × String) (events : List (Int × Json)) :
    (run step ub events).findBook key = (run step ub (events.filter (ofKey key))).findBook key := by
  rw [findBook_eq, findBook_eq, bookAt_run]
  simp only [mem_keys_run ub key events]

/-! ### Result -/

/-- After every sequence of events the keys of `venues()` are pairwise distinct, and the entry of each key
    (controller, timestamp and health flag) is that of a run of the key's own events; hence it is the same
    after any sequence with the same streams, however they are interleaved. -/
theorem venues_isolated (depth : Nat) (depth_pos : 0 < depth) (events : List (Int × Json)) :
    ((run step (new depth depth_pos) events).venues.map VenueBook.key).Nodup ∧
      (∀ key, (run step (new depth depth_pos) events).findBook key =
        (run step (new depth depth_pos) (events.filter (ofKey key))).findBook key) ∧
      ∀ interleaved : List (Int × Json),
        (∀ key, interleaved.filter (ofKey key) = events.filter (ofKey key)) →
        ∀ key, (run step (new depth depth_pos) interleaved).findBook key =
          (run step (new depth depth_pos) events).findBook key := by
  refine ⟨?_, fun key => findBook_run _ key events, ?_⟩
  · have hkeys : KeysFrom (fun _ => True) (run step (new depth depth_pos) events) :=
      keysFrom_run depth depth_pos fun _ _ _ _ => trivial
    exact hkeys.nodup
  · intro interleaved hstreams key
    rw [findBook_run _ key interleaved, hstreams key, findBook_run _ key events]

/-- Two venues, an event of unknown type and one without a venue, in two orders. -/
theorem venues_isolated_two_orders :
    let event (venue eventType : String) : Json := .object [
      ("schema_version", .int 1), ("event_type", .string eventType), ("venue", .string venue),
      ("symbol", .string "BTC/USDT"), ("feed_state", .string "disconnected")]
    let events : List (Int × Json) :=
      [(1, event "okx" "status"), (2, event "" "status"), (3, event "bybit" "hello"),
        (4, event "okx" "status")]
    let interleaved : List (Int × Json) :=
      [(3, event "bybit" "hello"), (1, event "okx" "status"), (4, event "okx" "status")]
    0 < 5 ∧ ((run step (new 5 (by decide)) events).findBook ("bybit", "BTC/USDT")).isSome ∧
      ∀ key, (run step (new 5 (by decide)) interleaved).findBook key =
        (run step (new 5 (by decide)) events).findBook key := by
  intro event events interleaved
  refine ⟨by decide, by decide, ?_⟩
  refine (venues_isolated 5 (by decide) events).2.2 interleaved ?_
  have hokx : eventKey (event "okx" "status") = some ("okx", "BTC/USDT") := by decide
  have hbybit : eventKey (event "bybit" "hello") = some ("bybit", "BTC/USDT") := by decide
  have hnone : eventKey (event "" "status") = none := by decide
  intro key
  simp only [events, interleaved, List.filter_cons, List.filter_nil, ofKey, hokx, hbybit, hnone]
  by_cases hkey : key = ("okx", "BTC/USDT")
  · rw [hkey]
    rfl
  · have hother : (some ("okx", "BTC/USDT") == some key) = false :=
      beq_eq_false_iff_ne.mpr fun h => hkey (Option.some.inj h).symm
    simp [hother]

end ZidaBot.Brain.UnifiedBook
