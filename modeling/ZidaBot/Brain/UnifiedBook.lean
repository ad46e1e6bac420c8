/-
Module: ZidaBot.Brain.UnifiedBook
Purpose: The brain's books of `brain/src/brain/UnifiedBook.cpp`: one controller per (venue, symbol), found
  by linear search, and the routing of events to it.  The clock reading of an event is an argument.  An
  exception caught in the middle of an event leaves the writes made before it.
Trusted boundary: human-reviewed model
Main exports: VenueBook, VenueBook.synced, UnifiedBook, sanitizeTs, UnifiedBook.findOrCreate,
  VenueBook.onEvent, UnifiedBook.onEvent, UnifiedBook.syncedCount
-/
import ZidaBot.Brain.JsonParsers

namespace ZidaBot.Brain

open Json

/-- The controller settings of every venue book: gaps are tolerated since the brain joins mid-stream, and
    no checksum is verified since the PoP has done so. -/
def venueBookConfig : ControllerConfig := { allowSeqGap := true }

/-- The book of one (venue, symbol) pair. -/
structure VenueBook where
  venueName : String
  symbol : String
  controller : OrderBookController
  tsBookNs : Int
  feedHealthy : Bool
deriving DecidableEq

namespace VenueBook

/-- A venue book as constructed. -/
def new (venue symbol : String) (depth : Nat) (depth_pos : 0 < depth) : VenueBook :=
  { venueName := venue, symbol := symbol, controller := OrderBookController.new depth depth_pos,
    tsBookNs := 0, feedHealthy := false }

/-- `synced`. -/
def synced (vb : VenueBook) : Bool := vb.feedHealthy && vb.controller.isSynced

/-- `book`. -/
def book (vb : VenueBook) : OrderBook := vb.controller.book

end VenueBook

/-- `sanitize_ts`: a timestamp more than 60 s ahead of the clock is clamped to it; an old one is only
    logged. -/
def sanitizeTs (now ts : Int) : Int :=
  if ts > wrap64 (now + 60 * 1000000000) then now else ts

/-- The lookup key of a book. -/
def VenueBook.key (vb : VenueBook) : String × String := (vb.venueName, vb.symbol)

/-- The body of `on_event` for the book that was found; `false` where the event is discarded.  The caller
    passes the header it has parsed. -/
def VenueBook.onEvent (now : Int) (hdr : EventHeader) (j : Json) (vb : VenueBook) : VenueBook × Bool :=
  if hdr.eventType = "snapshot" then
    match parseSnapshot j with
    | .error _ => (vb, false)
    | .ok snap =>
        let outcome := vb.controller.onSnapshot venueBookConfig snap .wsAuthoritative
        ({ vb with
            tsBookNs := sanitizeTs now snap.tsRecvNs
            controller := outcome.1
            feedHealthy := outcome.action == .none }, true)
  else if hdr.eventType = "incremental" then
    match parseIncremental j with
    | .error _ => (vb, false)
    | .ok inc =>
        let outcome := vb.controller.onIncrement venueBookConfig inc
        ({ vb with
            tsBookNs := sanitizeTs now inc.tsRecvNs
            controller := outcome.1
            feedHealthy := true }, true)
  else if hdr.eventType = "book_state" then
    match extractTsBookNs j with
    | .error _ => (vb, false)
    | .ok ts =>
        -- the timestamp and the health flag are written before the levels are parsed
        let vb := { vb with tsBookNs := sanitizeTs now ts, feedHealthy := true }
        match parseBookStateAsSnapshot j with
        | .error _ => (vb, false)
        | .ok snap =>
            let outcome := vb.controller.onSnapshot venueBookConfig snap .wsAuthoritative
            ({ vb with controller := outcome.1 }, true)
  else if hdr.eventType = "status" then
    match value getString j "feed_state" "", value getString j "reason" "" with
    | .ok feedState, .ok _ =>
        if feedState = "disconnected" then
          ({ vb with feedHealthy := false, controller := vb.controller.resetBook, tsBookNs := 0 }, true)
        else ({ vb with feedHealthy := false }, true)
    | _, _ => (vb, false)
  else (vb, false)

/-- All books of the brain, in order of their first event. -/
structure UnifiedBook where
  depth : Nat
  books : List VenueBook
  depth_pos : 0 < depth

instance : DecidableEq UnifiedBook := fun first second =>
  decidable_of_iff (first.depth = second.depth ∧ first.books = second.books) (by
    cases first
    cases second
    simp)

namespace UnifiedBook

/-- Without books. -/
def new (depth : Nat) (depth_pos : 0 < depth) : UnifiedBook :=
  { depth := depth, books := [], depth_pos := depth_pos }

/-- `venues`. -/
def venues (ub : UnifiedBook) : List VenueBook := ub.books

/-- `find_or_create_`: the books, with a fresh one at the end if there was none, and the position. -/
def findOrCreate (ub : UnifiedBook) (venue symbol : String) : UnifiedBook × Nat :=
  match ub.books.findIdx? (fun vb => vb.venueName == venue && vb.symbol == symbol) with
  | some i => (ub, i)
  | none =>
      ({ ub with books := ub.books ++ [VenueBook.new venue symbol ub.depth ub.depth_pos] },
        ub.books.length)

/-- `on_event`: the books and the returned venue name, empty for a discarded event. -/
def onEvent (now : Int) (ub : UnifiedBook) (j : Json) : UnifiedBook × String :=
  match parseHeader j with
  | .error _ => (ub, "")
  | .ok hdr =>
      if hdr.venue = "" ∨ hdr.eventType = "" then (ub, "")
      else
        let (ub, i) := ub.findOrCreate hdr.venue hdr.symbol
        match ub.books[i]? with
        | none => (ub, "")
        | some vb =>
            let (vb, accepted) := vb.onEvent now hdr j
            ({ ub with books := ub.books.set i vb }, if accepted then hdr.venue else "")

/-- `synced_count`. -/
def syncedCount (ub : UnifiedBook) : Nat := ub.books.countP VenueBook.synced

/-- One event with the clock reading at its processing. -/
def step (ub : UnifiedBook) (event : Int × Json) : UnifiedBook := (ub.onEvent event.1 event.2).1

end UnifiedBook

end ZidaBot.Brain
