/-
Module: ZidaBot.Proofs.Wire
Purpose: What the brain reads back from the frames of the publisher.  Integers of their C++ width, strings
  and levels that `parse_level` admits survive the trip; a book state comes back as a snapshot.
Trusted boundary: none
Main exports: Level.Acceptable, parseHeader_toJson, parseLevels_levelsToJson, parseSnapshot_toJson,
  parseIncremental_toJson, parseBookState_toJson
-/
import ZidaBot.Brain.JsonParsers
import ZidaBot.Feed.WsPublishSink

namespace ZidaBot

/-- A level of 64-bit numbers that passes the checks of `parse_level`. -/
structure Level.Acceptable (lvl : Level) : Prop where
  tick_range : InInt64 lvl.priceTick
  lot_range : InInt64 lvl.quantityLot
  lot_nonneg : 0 ≤ lvl.quantityLot
  tick_pos : 0 < lvl.quantityLot → 0 < lvl.priceTick

instance (lvl : Level) : Decidable lvl.Acceptable :=
  decidable_of_iff
    (InInt64 lvl.priceTick ∧ InInt64 lvl.quantityLot ∧ 0 ≤ lvl.quantityLot ∧
      (0 < lvl.quantityLot → 0 < lvl.priceTick))
    ⟨fun ⟨tick, lot, nonneg, pos⟩ => ⟨tick, lot, nonneg, pos⟩,
      fun ⟨tick, lot, nonneg, pos⟩ => ⟨tick, lot, nonneg, pos⟩⟩

/-- Acceptability looks at the two numbers only. -/
theorem Level.Acceptable.congr {lvl lvl' : Level} (ok : lvl.Acceptable)
    (tick : lvl'.priceTick = lvl.priceTick) (lot : lvl'.quantityLot = lvl.quantityLot) :
    lvl'.Acceptable :=
  ⟨tick ▸ ok.tick_range, lot ▸ ok.lot_range, lot ▸ ok.lot_nonneg, fun h => tick ▸ ok.tick_pos (lot ▸ h)⟩

/-- All levels of a message are acceptable. -/
def AllAcceptable (bids asks : List Level) : Prop :=
  (∀ lvl ∈ bids, lvl.Acceptable) ∧ ∀ lvl ∈ asks, lvl.Acceptable

instance (bids asks : List Level) : Decidable (AllAcceptable bids asks) :=
  inferInstanceAs (Decidable (_ ∧ _))

namespace Feed

open Brain Json

@[simp] theorem ofInt_toNat (n : UInt64) : UInt64.ofInt (n.toNat : Int) = n := by
  have hlt := n.toNat_lt
  have hmod : ((n.toNat : Int) % (2 ^ 64 : Int)).toNat = n.toNat := by omega
  rw [UInt64.ofInt, hmod, UInt64.ofNat_toNat]

/-- The event type a frame carries. -/
def PubEvent.eventType : PubEvent → String
  | .status .. => "status"
  | .snapshot .. => "snapshot"
  | .incremental .. => "incremental"
  | .bookState .. => "book_state"

theorem PubEvent.eventType_ne_empty (e : PubEvent) : e.eventType ≠ "" := by
  cases e <;> simp [PubEvent.eventType]

/-- The header of every frame is accepted. -/
theorem parseHeader_toJson (stamp : Stamp) (e : PubEvent) :
    parseHeader (e.toJson stamp) =
      .ok { schemaVersion := 1, eventType := e.eventType, venue := stamp.venue,
            symbol := stamp.symbol } := by
  cases e <;> rfl

theorem parseLevel_levelToJson {lvl : Level} (ok : lvl.Acceptable) :
    parseLevel (levelToJson lvl) = .ok lvl := by
  have hlot : ¬ lvl.quantityLot < 0 := Int.not_lt.mpr ok.lot_nonneg
  have htick : ¬ (0 < lvl.quantityLot ∧ lvl.priceTick ≤ 0) :=
    fun h => absurd (ok.tick_pos h.1) (Int.not_lt.mpr h.2)
  simp [parseLevel, levelToJson, List.lookup_cons, getInt64, getString, wrap64_of_inInt64 ok.tick_range,
    wrap64_of_inInt64 ok.lot_range, hlot, htick, bind, Except.bind, pure, Except.pure]

theorem parseLevels_levelsToJson {levels : List Level} (ok : ∀ lvl ∈ levels, lvl.Acceptable) :
    parseLevels (levelsToJson levels) = .ok levels := by
  rw [levelsToJson, parseLevels]
  induction levels with
  | nil => rfl
  | cons lvl levels ih =>
      have htail := ih fun l hl => ok l (List.mem_cons_of_mem lvl hl)
      simp only [List.map_cons, List.mapM_cons, htail,
        parseLevel_levelToJson (ok lvl (List.mem_cons_self ..))]
      rfl

/-- A snapshot comes back as it was, its timestamp and checksum as 64-bit numbers. -/
theorem parseSnapshot_toJson {snap : GenericSnapshotFormat} (ok : AllAcceptable snap.bids snap.asks)
    (stamp : Stamp) (source : String) :
    parseSnapshot ((PubEvent.snapshot snap source).toJson stamp) =
      .ok { snap with tsRecvNs := wrap64 snap.tsRecvNs, checksum := wrap64 snap.checksum } := by
  simp [parseSnapshot, PubEvent.toJson, List.lookup_cons, getUInt64, getInt64,
    parseLevels_levelsToJson ok.1, parseLevels_levelsToJson ok.2, bind, Except.bind, pure, Except.pure]

/-- An incremental comes back as it was, its timestamp and checksum as 64-bit numbers. -/
theorem parseIncremental_toJson {inc : GenericIncrementalFormat} (ok : AllAcceptable inc.bids inc.asks)
    (stamp : Stamp) (source : String) :
    parseIncremental ((PubEvent.incremental inc source).toJson stamp) =
      .ok { inc with tsRecvNs := wrap64 inc.tsRecvNs, checksum := wrap64 inc.checksum } := by
  simp [parseIncremental, PubEvent.toJson, List.lookup_cons, getUInt64, getInt64,
    parseLevels_levelsToJson ok.1, parseLevels_levelsToJson ok.2, bind, Except.bind, pure, Except.pure]

/-- The levels of a book state, as the sink reads them through the book's pointers. -/
def bookStateLevels (book : OrderBook) (topN : Nat) (s : Side) : List Level :=
  pointedLevels book s 0 topN

/-- A book state comes back as a snapshot of the published levels. -/
theorem parseBookState_toJson {book : OrderBook} {topN : Nat}
    (ok : AllAcceptable (bookStateLevels book topN .bid) (bookStateLevels book topN .ask))
    (stamp : Stamp) (appliedSeq : UInt64) (source : String) (tsBookNs : Int) :
    parseBookStateAsSnapshot ((PubEvent.bookState book appliedSeq topN source tsBookNs).toJson stamp) =
      .ok { lastUpdateId := appliedSeq, tsRecvNs := wrap64 tsBookNs, checksum := 0,
            bids := bookStateLevels book topN .bid, asks := bookStateLevels book topN .ask } := by
  have hbids := parseLevels_levelsToJson ok.1
  have hasks := parseLevels_levelsToJson ok.2
  simp only [bookStateLevels] at hbids hasks
  simp [parseBookStateAsSnapshot, PubEvent.toJson, List.lookup_cons, getUInt64, getInt64, levelsFromBook,
    bookStateLevels, hbids, hasks, bind, Except.bind, pure, Except.pure]

theorem extractTsBookNs_toJson (stamp : Stamp) (book : OrderBook) (appliedSeq : UInt64) (topN : Nat)
    (source : String) (tsBookNs : Int) :
    extractTsBookNs ((PubEvent.bookState book appliedSeq topN source tsBookNs).toJson stamp) =
      .ok (wrap64 tsBookNs) := rfl

end Feed

end ZidaBot
