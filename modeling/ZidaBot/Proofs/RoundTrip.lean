/-
Module: ZidaBot.Proofs.RoundTrip
Purpose: Both encoders against the one decoder.  The publisher and the file sink build the same objects;
  the brain's parsers give back every field of a snapshot or an incremental over the whole ranges of their
  integers, provided every level passes the rule of `parse_level`, and refuse the event as a whole if one
  level does not.
Trusted boundary: none
Main exports: Level.Rule, Level.InRange, GenericSnapshotFormat.InRange, GenericIncrementalFormat.InRange,
  parseLevels_refused, RoundTrips, wire_round_trip
-/
import ZidaBot.Feed.FilePersistSink
import ZidaBot.Proofs.Wire

namespace ZidaBot

/-- The rule of `parse_level`. -/
def Level.Rule (lvl : Level) : Prop := 0 ≤ lvl.quantityLot ∧ (0 < lvl.quantityLot → 0 < lvl.priceTick)

instance (lvl : Level) : Decidable lvl.Rule := inferInstanceAs (Decidable (_ ∧ _))

/-- Tick and lot are values of their C++ type. -/
def Level.InRange (lvl : Level) : Prop := InInt64 lvl.priceTick ∧ InInt64 lvl.quantityLot

instance (lvl : Level) : Decidable lvl.InRange := inferInstanceAs (Decidable (_ ∧ _))

theorem Level.InRange.acceptable {lvl : Level} (range : lvl.InRange) (rule : lvl.Rule) : lvl.Acceptable :=
  ⟨range.1, range.2, rule.1, rule.2⟩

/-- The signed integers of a snapshot are values of their C++ type. -/
structure GenericSnapshotFormat.InRange (snap : GenericSnapshotFormat) : Prop where
  tsRecvNs : InInt64 snap.tsRecvNs
  checksum : InInt64 snap.checksum
  levels : ∀ lvl ∈ snap.bids ++ snap.asks, lvl.InRange

/-- Those of an incremental. -/
structure GenericIncrementalFormat.InRange (inc : GenericIncrementalFormat) : Prop where
  tsRecvNs : InInt64 inc.tsRecvNs
  checksum : InInt64 inc.checksum
  levels : ∀ lvl ∈ inc.bids ++ inc.asks, lvl.InRange

namespace Feed

open Brain Json

/-!
### Levels that are refused

The parser throws at the first bad level, and the exception takes the event with it. Both directions of the
round trip are in the two cases: all levels are read back, or the side is refused.
-/

theorem parseLevel_refused {lvl : Level} (range : lvl.InRange) (broken : ¬ lvl.Rule) :
    ∃ e, parseLevel (levelToJson lvl) = .error e := by
  by_cases hlot : lvl.quantityLot < 0
  · refine ⟨.runtime ("parse_level: negative quantityLot=" ++ toString lvl.quantityLot), ?_⟩
    simp [parseLevel, levelToJson, List.lookup_cons, getInt64, getString, wrap64_of_inInt64 range.1,
      wrap64_of_inInt64 range.2, hlot, bind, Except.bind, throw, throwThe, MonadExceptOf.throw]
  · have htick : 0 < lvl.quantityLot ∧ lvl.priceTick ≤ 0 := by
      by_contra hnot
      refine broken ⟨Int.not_lt.mp hlot, fun hpos => ?_⟩
      by_contra hneg
      exact hnot ⟨hpos, Int.not_lt.mp hneg⟩
    refine ⟨.runtime ("parse_level: non-positive priceTick=" ++ toString lvl.priceTick ++
      " on resting level (quantityLot=" ++ toString lvl.quantityLot ++ ")"), ?_⟩
    simp [parseLevel, levelToJson, List.lookup_cons, getInt64, getString, wrap64_of_inInt64 range.1,
      wrap64_of_inInt64 range.2, hlot, htick, bind, Except.bind, throw, throwThe, MonadExceptOf.throw]

/-- One level that breaks the rule refuses the whole side. -/
theorem parseLevels_refused {levels : List Level} (range : ∀ lvl ∈ levels, lvl.InRange)
    (broken : ∃ lvl ∈ levels, ¬ lvl.Rule) : ∃ e, parseLevels (levelsToJson levels) = .error e := by
  rw [levelsToJson, parseLevels]
  induction levels with
  | nil =>
      obtain ⟨lvl, hlvl, -⟩ := broken
      cases hlvl
  | cons lvl levels ih =>
      have hrange := range lvl (List.mem_cons_self ..)
      rw [List.map_cons, List.mapM_cons]
      by_cases hrule : lvl.Rule
      · obtain ⟨other, hother, hbroken⟩ := broken
        have htail : other ∈ levels := by
          rcases List.mem_cons.mp hother with rfl | htail
          · exact absurd hrule hbroken
          · exact htail
        obtain ⟨e, he⟩ := ih (fun l hl => range l (List.mem_cons_of_mem lvl hl)) ⟨other, htail, hbroken⟩
        refine ⟨e, ?_⟩
        rw [parseLevel_levelToJson (hrange.acceptable hrule), he]
        rfl
      · obtain ⟨e, he⟩ := parseLevel_refused hrange hrule
        refine ⟨e, ?_⟩
        rw [he]
        rfl

/-- Levels in range are parsed back, or refused. -/
theorem parseLevels_cases {levels : List Level} (range : ∀ lvl ∈ levels, lvl.InRange) :
    ((∀ lvl ∈ levels, lvl.Rule) ∧ parseLevels (levelsToJson levels) = .ok levels) ∨
      (∃ lvl ∈ levels, ¬ lvl.Rule) ∧ ∃ e, parseLevels (levelsToJson levels) = .error e := by
  by_cases hrule : ∀ lvl ∈ levels, lvl.Rule
  · exact Or.inl ⟨hrule, parseLevels_levelsToJson fun lvl hlvl =>
      (range lvl hlvl).acceptable (hrule lvl hlvl)⟩
  · have hbroken : ∃ lvl ∈ levels, ¬ lvl.Rule := by
      simpa only [not_forall, exists_prop] using hrule
    exact Or.inr ⟨hbroken, parseLevels_refused range hbroken⟩

/-! ### Messages -/

/-- A frame round-trips: the header is accepted, the parser returns the message if all its levels pass the
    rule, and fails if one does not. -/
def RoundTrips {α : Type} (parse : Json → Except JsonError α) (eventType venue symbol : String)
    (levels : List Level) (message : α) (frame : Json) : Prop :=
  parseHeader frame =
      .ok { schemaVersion := 1, eventType := eventType, venue := venue, symbol := symbol } ∧
    ((∀ lvl ∈ levels, lvl.Rule) → parse frame = .ok message) ∧
    ((∃ lvl ∈ levels, ¬ lvl.Rule) → ∃ e, parse frame = .error e)

theorem allAcceptable_of_rule {bids asks : List Level} (range : ∀ lvl ∈ bids ++ asks, lvl.InRange)
    (rule : ∀ lvl ∈ bids ++ asks, lvl.Rule) : AllAcceptable bids asks := by
  have hok : ∀ lvl ∈ bids ++ asks, lvl.Acceptable := fun lvl hlvl =>
    (range lvl hlvl).acceptable (rule lvl hlvl)
  exact ⟨fun lvl hlvl => hok lvl (List.mem_append_left asks hlvl),
    fun lvl hlvl => hok lvl (List.mem_append_right bids hlvl)⟩

/-- Of two sides with a level that breaks the rule, the first is refused, or it is read and the second is
    refused. -/
theorem parseLevels_sides_refused {bids asks : List Level} (range : ∀ lvl ∈ bids ++ asks, lvl.InRange)
    (broken : ∃ lvl ∈ bids ++ asks, ¬ lvl.Rule) :
    (∃ e, parseLevels (levelsToJson bids) = .error e) ∨
      parseLevels (levelsToJson bids) = .ok bids ∧ ∃ e, parseLevels (levelsToJson asks) = .error e := by
  have hbids : ∀ lvl ∈ bids, lvl.InRange := fun lvl hlvl => range lvl (List.mem_append_left asks hlvl)
  have hasks : ∀ lvl ∈ asks, lvl.InRange := fun lvl hlvl => range lvl (List.mem_append_right bids hlvl)
  rcases parseLevels_cases hbids with ⟨hrule, hread⟩ | ⟨-, hrefused⟩
  · obtain ⟨lvl, hlvl, hbroken⟩ := broken
    have hask : lvl ∈ asks := by
      rcases List.mem_append.mp hlvl with hbid | hask
      · exact absurd (hrule lvl hbid) hbroken
      · exact hask
    exact Or.inr ⟨hread, parseLevels_refused hasks ⟨lvl, hask, hbroken⟩⟩
  · exact Or.inl hrefused

theorem snapshot_roundTrips {snap : GenericSnapshotFormat} (range : snap.InRange) (stamp : Stamp)
    (source : String) :
    RoundTrips parseSnapshot "snapshot" stamp.venue stamp.symbol (snap.bids ++ snap.asks) snap
      ((PubEvent.snapshot snap source).toJson stamp) := by
  refine ⟨parseHeader_toJson stamp (.snapshot snap source), fun hrule => ?_, fun hbroken => ?_⟩
  · rw [parseSnapshot_toJson (allAcceptable_of_rule range.levels hrule), wrap64_of_inInt64 range.tsRecvNs,
      wrap64_of_inInt64 range.checksum]
  · rcases parseLevels_sides_refused range.levels hbroken with ⟨e, hbids⟩ | ⟨hbids, e, hasks⟩
    · refine ⟨e, ?_⟩
      simp [parseSnapshot, PubEvent.toJson, List.lookup_cons, getUInt64, getInt64, hbids, bind, Except.bind]
    · refine ⟨e, ?_⟩
      simp [parseSnapshot, PubEvent.toJson, List.lookup_cons, getUInt64, getInt64, hbids, hasks, bind,
        Except.bind]

theorem incremental_roundTrips {inc : GenericIncrementalFormat} (range : inc.InRange) (stamp : Stamp)
    (source : String) :
    RoundTrips parseIncremental "incremental" stamp.venue stamp.symbol (inc.bids ++ inc.asks) inc
      ((PubEvent.incremental inc source).toJson stamp) := by
  refine ⟨parseHeader_toJson stamp (.incremental inc source), fun hrule => ?_, fun hbroken => ?_⟩
  · rw [parseIncremental_toJson (allAcceptable_of_rule range.levels hrule),
      wrap64_of_inInt64 range.tsRecvNs, wrap64_of_inInt64 range.checksum]
  · rcases parseLevels_sides_refused range.levels hbroken with ⟨e, hbids⟩ | ⟨hbids, e, hasks⟩
    · refine ⟨e, ?_⟩
      simp [parseIncremental, PubEvent.toJson, List.lookup_cons, getUInt64, getInt64, hbids, bind, Except.bind]
    · refine ⟨e, ?_⟩
      simp [parseIncremental, PubEvent.toJson, List.lookup_cons, getUInt64, getInt64, hbids, hasks, bind,
        Except.bind]

/-!
### The file sink

Publisher and file sink build their objects separately. That the objects are equal saves proving the round
trip twice.
-/

/-- The two encoders build the same object for a snapshot. -/
theorem snapshotRecord_eq (stamp : Stamp) (snap : GenericSnapshotFormat) (source : String) :
    FilePersistSink.snapshotRecord stamp snap source = (PubEvent.snapshot snap source).toJson stamp := rfl

/-- And for an incremental. -/
theorem incrementalRecord_eq (stamp : Stamp) (inc : GenericIncrementalFormat) (source : String) :
    FilePersistSink.incrementalRecord stamp inc source = (PubEvent.incremental inc source).toJson stamp :=
  rfl

/-- The line of a record is the last of the queue. -/
theorem FilePersistSink.write_last (s : FilePersistSink) (nowNs : Int) (record : Stamp → Json) :
    (s.write nowNs record).writeQueue.getLast? = some (record (s.stamp nowNs)) := by
  rw [FilePersistSink.write, FilePersistSink.enqueueLine, List.getLast?_append]
  rfl

/-! ### Result -/

/-- What the publisher sends and what the file sink queues for a snapshot or an incremental, whatever the
    venue, symbol and source, is read back field by field, or refused for a level that breaks the rule. -/
theorem wire_round_trip (stamp : Stamp) (source : String) (sink : FilePersistSink) (nowNs : Int)
    (snap : GenericSnapshotFormat) (snapRange : snap.InRange)
    (inc : GenericIncrementalFormat) (incRange : inc.InRange) :
    RoundTrips parseSnapshot "snapshot" stamp.venue stamp.symbol (snap.bids ++ snap.asks) snap
        ((PubEvent.snapshot snap source).toJson stamp) ∧
      RoundTrips parseIncremental "incremental" stamp.venue stamp.symbol (inc.bids ++ inc.asks) inc
        ((PubEvent.incremental inc source).toJson stamp) ∧
      (∃ line, (sink.writeSnapshot nowNs snap source).writeQueue.getLast? = some line ∧
        RoundTrips parseSnapshot "snapshot" sink.venue sink.symbol (snap.bids ++ snap.asks) snap line) ∧
      ∃ line, (sink.writeIncremental nowNs inc source).writeQueue.getLast? = some line ∧
        RoundTrips parseIncremental "incremental" sink.venue sink.symbol (inc.bids ++ inc.asks) inc
          line := by
  refine ⟨snapshot_roundTrips snapRange stamp source, incremental_roundTrips incRange stamp source,
    ⟨_, sink.write_last nowNs _, ?_⟩, ⟨_, sink.write_last nowNs _, ?_⟩⟩
  · rw [snapshotRecord_eq]
    exact snapshot_roundTrips snapRange (sink.stamp nowNs) source
  · rw [incrementalRecord_eq]
    exact incremental_roundTrips incRange (sink.stamp nowNs) source

/-- A sequence number above 2^63, a negative checksum, a removal at tick 0 and an empty side survive; a
    resting level at tick 0 does not. -/
theorem wire_round_trip_extremes :
    let gone : Level := { priceTick := 0, quantityLot := 0, price := "0", quantity := "0" }
    let resting : Level := { gone with quantityLot := 5 }
    let snap : GenericSnapshotFormat :=
      { lastUpdateId := 18446744073709551615, tsRecvNs := -1, checksum := -2147483648,
        bids := [gone], asks := [] }
    let inc : GenericIncrementalFormat :=
      { firstSeq := 9223372036854775808, lastSeq := 9223372036854775809,
        prevLast := 9223372036854775807, tsRecvNs := 9223372036854775807, checksum := -1,
        bids := [], asks := [gone, resting] }
    let stamp : Stamp := { venue := "okx", symbol := "BTC-USDT", persistSeq := 1, nowNs := 7 }
    snap.InRange ∧ inc.InRange ∧
      parseSnapshot ((PubEvent.snapshot snap "ws").toJson stamp) = .ok snap ∧
      ∃ e, parseIncremental ((PubEvent.incremental inc "ws").toJson stamp) = .error e := by
  intro gone resting snap inc stamp
  have hsnap : snap.InRange := ⟨by decide, by decide, by decide⟩
  have hinc : inc.InRange := ⟨by decide, by decide, by decide⟩
  have htrip := wire_round_trip stamp "ws" { venue := "okx", symbol := "BTC-USDT" } 7 snap hsnap inc hinc
  exact ⟨hsnap, hinc, htrip.1.2.1 (by decide), htrip.2.1.2.2 (by decide)⟩

end Feed

end ZidaBot
