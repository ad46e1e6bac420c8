/-
Module: ZidaBot.Brain.JsonParsers
Purpose: The deserializers of `brain/include/brain/JsonParsers.hpp`: the event header and the three kinds
  of book events.  A parser throws what the JSON library throws, or its own `runtime_error`.
Trusted boundary: human-reviewed model
Main exports: EventHeader, parseHeader, parseLevel, parseLevels, parseSnapshot, parseIncremental,
  parseBookStateAsSnapshot, extractTsBookNs
-/
import ZidaBot.Common.Json
import ZidaBot.Common.OrderBookController

namespace ZidaBot.Brain

open Json

/-- The fields every event carries. -/
structure EventHeader where
  schemaVersion : Int
  eventType : String
  venue : String
  symbol : String
deriving DecidableEq, Repr

/-- `parse_header`: only schema version 1 is understood. -/
def parseHeader (j : Json) : Except JsonError EventHeader := do
  let schemaVersion ← value getInt j "schema_version" 0
  if schemaVersion ≠ 1 then
    throw (.runtime ("unsupported schema_version: " ++ toString schemaVersion))
  let eventType ← value getString j "event_type" ""
  let venue ← value getString j "venue" ""
  let symbol ← value getString j "symbol" ""
  return { schemaVersion, eventType, venue, symbol }

/-- `parse_level`: a negative quantity, or a resting level without a positive price, is refused. -/
def parseLevel (lvl : Json) : Except JsonError Level := do
  let priceTick ← value getInt64 lvl "priceTick" 0
  let quantityLot ← value getInt64 lvl "quantityLot" 0
  let price ← value getString lvl "price" ""
  let quantity ← value getString lvl "quantity" ""
  if quantityLot < 0 then
    throw (.runtime ("parse_level: negative quantityLot=" ++ toString quantityLot))
  if quantityLot > 0 ∧ priceTick ≤ 0 then
    throw (.runtime ("parse_level: non-positive priceTick=" ++ toString priceTick ++
      " on resting level (quantityLot=" ++ toString quantityLot ++ ")"))
  return { priceTick, quantityLot, price, quantity }

/-- `parse_levels`: what is not an array has no levels. -/
def parseLevels : Json → Except JsonError (List Level)
  | .array items => items.mapM parseLevel
  | _ => .ok []

/-- `parse_snapshot`. -/
def parseSnapshot (j : Json) : Except JsonError GenericSnapshotFormat := do
  let lastUpdateId ← value getUInt64 j "seq_last" 0
  let tsRecvNs ← value getInt64 j "ts_recv_ns" 0
  let checksum ← value getInt64 j "checksum" 0
  let bids ← parseLevels (← j.atKey "bids")
  let asks ← parseLevels (← j.atKey "asks")
  return { lastUpdateId, tsRecvNs, checksum, bids, asks }

/-- `parse_incremental`. -/
def parseIncremental (j : Json) : Except JsonError GenericIncrementalFormat := do
  let firstSeq ← value getUInt64 j "seq_first" 0
  let lastSeq ← value getUInt64 j "seq_last" 0
  let prevLast ← value getUInt64 j "prev_last" 0
  let tsRecvNs ← value getInt64 j "ts_recv_ns" 0
  let checksum ← value getInt64 j "checksum" 0
  let bids ← parseLevels (← j.atKey "bids")
  let asks ← parseLevels (← j.atKey "asks")
  return { firstSeq, lastSeq, prevLast, tsRecvNs, checksum, bids, asks }

/-- `parse_book_state_as_snapshot`: the checkpoint carries no checksum. -/
def parseBookStateAsSnapshot (j : Json) : Except JsonError GenericSnapshotFormat := do
  let lastUpdateId ← value getUInt64 j "applied_seq" 0
  let tsRecvNs ← value getInt64 j "ts_book_ns" 0
  let bids ← parseLevels (← j.atKey "bids")
  let asks ← parseLevels (← j.atKey "asks")
  return { lastUpdateId, tsRecvNs, checksum := 0, bids, asks }

/-- `extract_ts_book_ns`. -/
def extractTsBookNs (j : Json) : Except JsonError Int :=
  value getInt64 j "ts_book_ns" 0

end ZidaBot.Brain
