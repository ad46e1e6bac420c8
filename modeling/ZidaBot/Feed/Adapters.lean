/-
Module: ZidaBot.Feed.Adapters
Purpose: The parse hooks of the five adapters (`feed/src/md/adapters/*.cpp`) on the frames of the stream, with
  the substring filters in front of them.  The JSON library is not part of the repository: `parse` stands for
  `json::parse` without exceptions, `none` where the document is discarded, and `dump` for the text of a
  value.  A frame is accepted with an output, rejected by `false`, or a reader throws; reading past the end
  of an array with `operator[]`, which the Binance adapter can do, is undefined and kept apart.
Trusted boundary: human-reviewed model
Main exports: AdapterError, asU64, jsonToU64Flexible, parseLevels2colWith, readIncremental,
  readWsSnapshot, VenueId.parseIncremental, VenueId.parseWsSnapshot, VenueId.isIncremental, VenueId.isSnapshot
-/
import ZidaBot.Common.NumberTexts
import ZidaBot.Common.OrderBookController
import ZidaBot.Common.OrderBookUtils
import ZidaBot.Feed.Venue

namespace ZidaBot

/-- The member of an object; `contains` asks whether there is one. -/
def Json.get? (j : Json) (key : String) : Option Json :=
  match j with
  | .object fields => fields.lookup key
  | _ => none

/-- What a range-based `for` goes over: the elements of an array, the values of an object in the order the
    library holds them, nothing for null, and any other value itself. -/
def Json.elements : Json → List Json
  | .null => []
  | .array items => items
  | .object fields => fields.map Prod.snd
  | j => [j]

/-- Comparison of a value with a text. -/
def Json.isText (j : Json) (text : String) : Bool :=
  match j with
  | .string s => s == text
  | _ => false

end ZidaBot

namespace ZidaBot.Feed

/-- What a reader throws: an exception of the JSON library, `std::invalid_argument` with its text or
    `std::out_of_range` of a number reader; or an access with no defined result. -/
inductive AdapterError where
  | json (e : JsonError)
  | invalidArgument (what : String)
  | number (e : NumberError)
  | undefined
deriving DecidableEq, Repr

/-- A call into the JSON library. -/
def fromJson {α : Type} (result : Except JsonError α) : Except AdapterError α := result.mapError .json

/-!
### Sequence ids and checksums
-/

/-- `as_u64` of the KuCoin adapter; `none` is `false`. -/
def asU64 : Json → Option UInt64
  | .string s =>
      let text := s.toList
      if text = [] ∨ text.head? = some '-' then none
      else
        match stoull text with
        | .error _ => none
        | .ok (v, pos) => if pos ≠ text.length then none else some v
  | .int n => if 0 ≤ n then some (UInt64.ofInt n) else none
  | _ => none

/-- `json_to_u64_flexible`; `none` is `false`. -/
def jsonToU64Flexible : Json → Option UInt64
  | .int n => if 0 ≤ n then some (UInt64.ofInt n) else none
  | .string s =>
      match stoull s.toList with
      | .error _ => none
      | .ok (v, _) => some v
  | _ => none

/-- `json_to_i64_flexible`; `none` is `false`. -/
def jsonToI64Flexible : Json → Option Int
  | .int n => some (wrap64 n)
  | .string s => (stoll s.toList).toOption
  | _ => none

/-- `is_num_or_str`. -/
def isNumOrStr : Json → Bool
  | .int _ => true
  | .string _ => true
  | _ => false

/-- The value of a checksum field, which may be a text. -/
def checksumValue : Json → Except AdapterError Int
  | .string s => (stoll s.toList).mapError .number
  | j => fromJson j.getInt64

/-- The checksum of the payload, else of the frame, else zero. -/
def checksumOf (j d0 : Json) : Except AdapterError Int :=
  match d0.get? "checksum" with
  | some c => checksumValue c
  | none =>
      match j.get? "checksum" with
      | some c => checksumValue c
      | none => .ok 0

/-!
### Levels
-/

/-- The level of a price and a quantity text; a malformed text throws. -/
def levelOf (px qt : String) : Except AdapterError Level := (levelFromTexts px qt).mapError .invalidArgument

/-- `get_ref<const std::string &>`. -/
def getRef (j : Json) : Except AdapterError String := fromJson j.getString

/-- The text of a price or size of KuCoin, which need not be a string. -/
def textOrDump (dump : Json → String) : Json → Except AdapterError String
  | .string s => .ok s
  | j => .ok (dump j)

/-- The loop of the functions `parseLevels2col`, over the reader of one text.  An entry that is not an array of
    two is skipped. -/
def levelsLoop (text : Json → Except AdapterError String) : List Json → Except AdapterError (List Level)
  | [] => .ok []
  | .array (px :: qt :: _) :: rest => do
      let px ← text px
      let qt ← text qt
      let level ← levelOf px qt
      let levels ← levelsLoop text rest
      return level :: levels
  | _ :: rest => levelsLoop text rest

/-- `parseLevels2col`; a side that is not an array has no levels. -/
def parseLevels2colWith (text : Json → Except AdapterError String) : Json → Except AdapterError (List Level)
  | .array items => levelsLoop text items
  | _ => .ok []

/-- `parseLevels2col` of the OKX and Bitget adapters and `parseLevels2col_bybit`, which have one body. -/
def parseLevels2col : Json → Except AdapterError (List Level) := parseLevels2colWith getRef

/-- `parseLevels2col` of the KuCoin adapter. -/
def kucoinParseLevels2col (dump : Json → String) : Json → Except AdapterError (List Level) :=
  parseLevels2colWith (textOrDump dump)

/-- A side that need not be there. -/
def optionalSide (levels : Json → Except AdapterError (List Level)) (side : Option Json) :
    Except AdapterError (List Level) :=
  match side with
  | some arr => levels arr
  | none => .ok []

/-- One round of the Binance loops.  `operator[]` throws on anything but an array, and has no bounds check. -/
def binanceLevel : Json → Except AdapterError Level
  | .array [] => .error .undefined
  | .array [px] => do
      let _ ← getRef px
      .error .undefined
  | .array (px :: qt :: _) => do
      let px ← getRef px
      let qt ← getRef qt
      levelOf px qt
  | _ => .error (.json .typeError)

/-!
### Incremental updates

Each reader is the body of `parseIncremental` behind `json::parse`.  `value` throws on a frame that is no
object and on a member that is no text; `contains` does not.
-/

/-- `BinanceAdapter::parseIncremental`. -/
def binanceIncremental (j : Json) : Except AdapterError (Option GenericIncrementalFormat) :=
  match j.get? "e" with
  | none => .ok none
  | some e =>
      if e.isText "depthUpdate" = false then .ok none
      else
        match j.get? "U", j.get? "u", j.get? "b", j.get? "a" with
        | some jU, some ju, some b, some a => do
            let firstSeq ← fromJson jU.getUInt64
            let lastSeq ← fromJson ju.getUInt64
            let fallbackPrev := if 0 < lastSeq then lastSeq - 1 else 0
            let prevLast ← fromJson (Json.value Json.getUInt64 j "pu" fallbackPrev)
            let bids ← b.elements.mapM binanceLevel
            let asks ← a.elements.mapM binanceLevel
            return some
              { firstSeq := firstSeq, lastSeq := lastSeq, prevLast := prevLast, tsRecvNs := 0, checksum := 0,
                bids := bids, asks := asks }
        | _, _, _, _ => .ok none

/-- The first element of the data array of OKX and Bitget; `none` where the adapter returns `false`. -/
def firstData (j : Json) : Option Json :=
  match j.get? "data" with
  | some (.array (d0 :: _)) => some d0
  | _ => none

/-- `OKXAdapter::parseIncremental`. -/
def okxIncremental (j : Json) : Except AdapterError (Option GenericIncrementalFormat) := do
  let action ← fromJson (Json.value Json.getString j "action" "")
  if action ≠ "update" then return none
  match firstData j with
  | none => return none
  | some d0 =>
      match d0.get? "seqId", d0.get? "prevSeqId" with
      | some jSeq, some jPrev => do
          let prev ← fromJson jPrev.getInt64
          let seq ← fromJson jSeq.getUInt64
          let prevLast : UInt64 := if prev < 0 then 0 else UInt64.ofInt prev
          let checksum ← checksumOf j d0
          let bids ← optionalSide parseLevels2col (d0.get? "bids")
          let asks ← optionalSide parseLevels2col (d0.get? "asks")
          return some
            { firstSeq := prevLast + 1, lastSeq := seq, prevLast := prevLast, tsRecvNs := 0,
              checksum := checksum, bids := bids, asks := asks }
      | _, _ => return none

/-- `BitgetAdapter::parseIncremental`; an unreadable sequence id or checksum stays zero. -/
def bitgetIncremental (j : Json) : Except AdapterError (Option GenericIncrementalFormat) := do
  let action ← fromJson (Json.value Json.getString j "action" "")
  if action ≠ "update" then return none
  match firstData j with
  | none => return none
  | some d0 =>
      match d0.get? "bids", d0.get? "asks" with
      | some jBids, some jAsks => do
          let seq := ((d0.get? "seq").bind jsonToU64Flexible).getD 0
          let checksum := ((d0.get? "checksum").bind jsonToI64Flexible).getD 0
          let bids ← parseLevels2col jBids
          let asks ← parseLevels2col jAsks
          return some
            { firstSeq := seq, lastSeq := seq, prevLast := if 0 < seq then seq - 1 else 0, tsRecvNs := 0,
              checksum := checksum, bids := bids, asks := asks }
      | _, _ => return none

/-- `BybitAdapter::parseIncremental`. -/
def bybitIncremental (j : Json) : Except AdapterError (Option GenericIncrementalFormat) := do
  let type ← fromJson (Json.value Json.getString j "type" "")
  if type ≠ "delta" then return none
  match j.get? "data" with
  | some (.object fields) =>
      let d := Json.object fields
      match d.get? "u" with
      | none => return none
      | some ju => do
          let u ← fromJson ju.getUInt64
          let bids ← optionalSide parseLevels2col (d.get? "b")
          let asks ← optionalSide parseLevels2col (d.get? "a")
          return some
            { firstSeq := u, lastSeq := u, prevLast := if 0 < u then u - 1 else 0, tsRecvNs := 0,
              checksum := 0, bids := bids, asks := asks }
  | _ => return none

/-- `KucoinAdapter::parseIncremental`. -/
def kucoinIncremental (dump : Json → String) (j : Json) :
    Except AdapterError (Option GenericIncrementalFormat) := do
  let type ← fromJson (Json.value Json.getString j "type" "")
  if type ≠ "message" then return none
  let subject ← fromJson (Json.value Json.getString j "subject" "")
  if subject ≠ "trade.l2update" then return none
  match j.get? "data" with
  | none => return none
  | some d =>
      match d.get? "sequenceStart", d.get? "sequenceEnd" with
      | some jStart, some jEnd =>
          if isNumOrStr jStart = false ∨ isNumOrStr jEnd = false then return none
          match asU64 jStart, asU64 jEnd, d.get? "changes" with
          | some firstSeq, some lastSeq, some ch => do
              let bids ← optionalSide (kucoinParseLevels2col dump) (ch.get? "bids")
              let asks ← optionalSide (kucoinParseLevels2col dump) (ch.get? "asks")
              return some
                { firstSeq := firstSeq, lastSeq := lastSeq,
                  prevLast := if 0 < firstSeq then firstSeq - 1 else 0, tsRecvNs := 0, checksum := 0,
                  bids := bids, asks := asks }
          | _, _, _ => return none
      | _, _ => return none

/-- The reader of each venue on a parsed frame. -/
def readIncremental (dump : Json → String) :
    VenueId → Json → Except AdapterError (Option GenericIncrementalFormat)
  | .binance => binanceIncremental
  | .okx => okxIncremental
  | .bitget => bitgetIncremental
  | .bybit => bybitIncremental
  | .kucoin => kucoinIncremental dump

/-!
### Snapshots on the stream
-/

/-- `OKXAdapter::parseWsSnapshot`. -/
def okxWsSnapshot (j : Json) : Except AdapterError (Option GenericSnapshotFormat) := do
  let action ← fromJson (Json.value Json.getString j "action" "")
  if action ≠ "snapshot" then return none
  match firstData j with
  | none => return none
  | some d0 =>
      match d0.get? "seqId" with
      | none => return none
      | some jSeq => do
          let seq ← fromJson jSeq.getUInt64
          let checksum ← checksumOf j d0
          let bids ← optionalSide parseLevels2col (d0.get? "bids")
          let asks ← optionalSide parseLevels2col (d0.get? "asks")
          return some { lastUpdateId := seq, tsRecvNs := 0, checksum := checksum, bids := bids, asks := asks }

/-- `BitgetAdapter::parseWsSnapshot`. -/
def bitgetWsSnapshot (j : Json) : Except AdapterError (Option GenericSnapshotFormat) := do
  let action ← fromJson (Json.value Json.getString j "action" "")
  if action ≠ "snapshot" then return none
  match firstData j with
  | none => return none
  | some d0 =>
      match d0.get? "bids", d0.get? "asks" with
      | some jBids, some jAsks => do
          let seq := ((d0.get? "seq").bind jsonToU64Flexible).getD 0
          let checksum ← checksumOf j d0
          let bids ← parseLevels2col jBids
          let asks ← parseLevels2col jAsks
          return some { lastUpdateId := seq, tsRecvNs := 0, checksum := checksum, bids := bids, asks := asks }
      | _, _ => return none

/-- `BybitAdapter::parseWsSnapshot`. -/
def bybitWsSnapshot (j : Json) : Except AdapterError (Option GenericSnapshotFormat) := do
  let type ← fromJson (Json.value Json.getString j "type" "")
  if type ≠ "snapshot" then return none
  match j.get? "data" with
  | some (.object fields) =>
      let d := Json.object fields
      match d.get? "u" with
      | none => return none
      | some ju => do
          let u ← fromJson ju.getUInt64
          let bids ← optionalSide parseLevels2col (d.get? "b")
          let asks ← optionalSide parseLevels2col (d.get? "a")
          return some { lastUpdateId := u, tsRecvNs := 0, checksum := 0, bids := bids, asks := asks }
  | _ => return none

/-- The snapshot reader of each venue; Binance and KuCoin have none on the stream. -/
def readWsSnapshot : VenueId → Json → Except AdapterError (Option GenericSnapshotFormat)
  | .binance, _ => .ok none
  | .okx, j => okxWsSnapshot j
  | .bitget, j => bitgetWsSnapshot j
  | .bybit, j => bybitWsSnapshot j
  | .kucoin, _ => .ok none

/-!
### The hooks on frames
-/

/-- `std::string_view::find` has a position as its result. -/
def found (literal : String) : List Char → Bool
  | [] => literal.toList.isEmpty
  | c :: rest => literal.toList.isPrefixOf (c :: rest) || found literal rest

section Hooks

variable (parse : List Char → Option Json) (dump : Json → String)

/-- `parseIncremental` of each adapter; a frame that is no JSON is rejected. -/
def VenueId.parseIncremental (venue : VenueId) (msg : List Char) :
    Except AdapterError (Option GenericIncrementalFormat) :=
  match parse msg with
  | none => .ok none
  | some j => readIncremental dump venue j

/-- `parseWsSnapshot` of each adapter. -/
def VenueId.parseWsSnapshot (venue : VenueId) (msg : List Char) :
    Except AdapterError (Option GenericSnapshotFormat) :=
  match parse msg with
  | none => .ok none
  | some j => readWsSnapshot venue j

end Hooks

/-- `looksLikeOKXBooks` and `looksLikeBitgetBooks`, which have one body. -/
def looksLikeBooks (msg : List Char) : Bool := found "\"channel\":\"books" msg && found "\"data\"" msg

/-- `isIncremental` of each adapter. -/
def VenueId.isIncremental : VenueId → List Char → Bool
  | .binance, msg => found "depthUpdate" msg
  | .okx, msg => looksLikeBooks msg && found "\"action\":\"update\"" msg
  | .bitget, msg => looksLikeBooks msg && found "\"action\":\"update\"" msg
  | .bybit, msg => found "\"type\":\"delta\"" msg
  | .kucoin, msg =>
      found "\"type\":\"message\"" msg && found "\"subject\":\"trade.l2update\"" msg &&
        found "\"/market/level2:" msg

/-- `isSnapshot` of each adapter. -/
def VenueId.isSnapshot : VenueId → List Char → Bool
  | .binance, _ => false
  | .okx, msg => looksLikeBooks msg && found "\"action\":\"snapshot\"" msg
  | .bitget, msg => looksLikeBooks msg && found "\"action\":\"snapshot\"" msg
  | .bybit, msg => found "\"type\":\"snapshot\"" msg
  | .kucoin, _ => false

end ZidaBot.Feed
