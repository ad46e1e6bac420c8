/-
Module: ZidaBot.Proofs.Prefilter
Purpose: The substring filters in front of the parsers.  They look for members written without white space
  around the colon and without escapes, and those of OKX, Bitget and KuCoin also for the channel, which the
  parsers do not check.  On frames written so and sent on the channel no frame that the parser accepts is
  filtered out, whatever the order of its members; other spellings of an accepted document are.
  Of the JSON library this rests on one fact of the grammar: each member of a document, at any depth, stands
  in the text as its key, a colon with white space around it, and its value.
Trusted boundary: none
Main exports: Spells, Member, Writes, ReadsJson, Tight, OnChannel, prefilter_keeps
-/
import ZidaBot.Proofs.Adapters

namespace ZidaBot.Feed

/-!
### Texts of JSON documents

Of the library's parser only what it must have found in a text is used, `ReadsJson`, which any parser of the
JSON grammar satisfies. Strings may be spelled with escapes; that a key or a value can be spelled
differently from what the filters look for is the point.
-/

/-- White space between tokens. -/
def isBlank (c : Char) : Bool := c == ' ' || c == '\t' || c == '\n' || c == '\r'

/-- The escapes of one character. -/
def simpleEscapes : List (Char × Char) :=
  [('"', '"'), ('\\', '\\'), ('/', '/'), ('b', '\x08'), ('f', '\x0c'), ('n', '\n'), ('r', '\r'), ('t', '\t')]

/-- The number of four hexadecimal digits. -/
def hexValue (digits : List Char) : Option Nat :=
  digits.foldlM (fun n c =>
    if c.isDigit then some (16 * n + (c.toNat - '0'.toNat))
    else if 'a' ≤ c ∧ c ≤ 'f' then some (16 * n + (c.toNat - 'a'.toNat + 10))
    else if 'A' ≤ c ∧ c ≤ 'F' then some (16 * n + (c.toNat - 'A'.toNat + 10))
    else none) 0

/-- What stands between the quotes of a string, and the string: characters stand for themselves or are
    escaped, those beyond the basic plane by a surrogate pair. -/
inductive Spells : List Char → List Char → Prop where
  | nil : Spells [] []
  | plain {c : Char} {raw s : List Char} (notQuote : c ≠ '"') (notEscape : c ≠ '\\') (rest : Spells raw s) :
      Spells (c :: raw) (c :: s)
  | simple {e c : Char} {raw s : List Char} (escape : (e, c) ∈ simpleEscapes) (rest : Spells raw s) :
      Spells ('\\' :: e :: raw) (c :: s)
  | unicode {digits : List Char} {n : Nat} {raw s : List Char} (four : digits.length = 4)
      (value : hexValue digits = some n) (rest : Spells raw s) :
      Spells ('\\' :: 'u' :: (digits ++ raw)) (Char.ofNat n :: s)
  | surrogates {high low : List Char} {m n : Nat} {raw s : List Char} (four : high.length = 4)
      (four' : low.length = 4) (highValue : hexValue high = some (0xD800 + m))
      (lowValue : hexValue low = some (0xDC00 + n)) (rest : Spells raw s) :
      Spells ('\\' :: 'u' :: (high ++ '\\' :: 'u' :: (low ++ raw)))
        (Char.ofNat (0x10000 + 0x400 * m + n) :: s)

/-- A string token. -/
def quoted (raw : List Char) : List Char := '"' :: (raw ++ ['"'])

/-- The document has the member, itself or inside one of its values. -/
inductive Member : Json → String → Json → Prop where
  | here {fields : List (String × Json)} {key : String} {v : Json} (lookup : fields.lookup key = some v) :
      Member (.object fields) key v
  | inField {fields : List (String × Json)} {k key : String} {inner v : Json}
      (lookup : fields.lookup k = some inner) (member : Member inner key v) : Member (.object fields) key v
  | inItem {items : List Json} {item : Json} {key : String} {v : Json} (mem : item ∈ items)
      (member : Member item key v) : Member (.array items) key v

/-- The text has the member: its key, the colon between white space, and its value. -/
def Writes (msg : List Char) (key : String) (v : Json) : Prop :=
  ∃ before rawKey gap gap' value after,
    msg = before ++ (quoted rawKey ++ (gap ++ ':' :: (gap' ++ (value ++ after)))) ∧
    Spells rawKey key.toList ∧ (∀ c ∈ gap, isBlank c = true) ∧ (∀ c ∈ gap', isBlank c = true) ∧
    ∀ s, v = .string s → ∃ raw, value = quoted raw ∧ Spells raw s.toList

/-- The parser accepts only texts in which the members of the document are written. -/
def ReadsJson (parse : List Char → Option Json) : Prop :=
  ∀ msg j, parse msg = some j → ∀ key v, Member j key v → Writes msg key v

/-!
### The conditions on a frame
-/

/-- No white space next to a colon, and no escapes. -/
structure Tight (msg : List Char) : Prop where
  no_escape : '\\' ∉ msg
  no_gap : ∀ c, isBlank c = true → ¬ [c, ':'] <:+: msg ∧ ¬ [':', c] <:+: msg

/-- The frame names the channel that the filter asks for. -/
def OnChannel : VenueId → Json → Prop
  | .okx, j => ∃ channel, Member j "channel" (.string channel) ∧ "books".toList <+: channel.toList
  | .bitget, j => ∃ channel, Member j "channel" (.string channel) ∧ "books".toList <+: channel.toList
  | .kucoin, j => ∃ key topic, Member j key (.string topic) ∧ "/market/level2:".toList <+: topic.toList
  | _, _ => True

/-!
### From the document to the literals

A literal of a filter is part of a member as it stands in the text. Without escapes and gaps the member has
one spelling, and the literal is found.
-/

theorem found_iff {literal : String} {msg : List Char} :
    found literal msg = true ↔ literal.toList <:+: msg := by
  induction msg with
  | nil => simp [found]
  | cons c msg ih =>
      rw [found, Bool.or_eq_true, ih, List.isPrefixOf_iff_prefix, List.infix_cons_iff]

/-- Without escapes a string is spelled by itself. -/
theorem Spells.eq_of_no_escape {raw s : List Char} (spells : Spells raw s) (plain : '\\' ∉ raw) : raw = s := by
  induction spells with
  | nil => rfl
  | plain _ _ _ ih => rw [ih fun h => plain (List.mem_cons_of_mem _ h)]
  | simple => exact absurd (List.mem_cons_self ..) plain
  | unicode => exact absurd (List.mem_cons_self ..) plain
  | surrogates => exact absurd (List.mem_cons_self ..) plain

section Literals

variable {msg : List Char} {key : String}

/-- The key of a member stands in a tight frame. -/
theorem infix_key {v : Json} (tight : Tight msg) (writes : Writes msg key v) :
    quoted key.toList <:+: msg := by
  obtain ⟨before, rawKey, gap, gap', value, after, hmsg, hkey, -⟩ := writes
  have hplain : '\\' ∉ rawKey := by
    intro hmem
    refine tight.no_escape ?_
    rw [hmsg, quoted]
    simp [hmem]
  rw [← hkey.eq_of_no_escape hplain]
  exact ⟨before, gap ++ ':' :: (gap' ++ (value ++ after)), by rw [hmsg, List.append_assoc]⟩

/-- A member with a text stands in a tight frame as the filters write it. -/
theorem infix_member {s : String} (tight : Tight msg) (writes : Writes msg key (.string s)) :
    quoted key.toList ++ ':' :: quoted s.toList <:+: msg := by
  obtain ⟨before, rawKey, gap, gap', value, after, hmsg, hkey, hgap, hgap', hvalue⟩ := writes
  obtain ⟨raw, rfl, hraw⟩ := hvalue s rfl
  have hplainKey : '\\' ∉ rawKey := by
    intro hmem
    refine tight.no_escape ?_
    rw [hmsg, quoted]
    simp [hmem]
  have hplain : '\\' ∉ raw := by
    intro hmem
    refine tight.no_escape ?_
    rw [hmsg, quoted, quoted]
    simp [hmem]
  -- white space before or behind the colon would stand next to it
  have hbefore : gap = [] := by
    rcases List.eq_nil_or_concat gap with hnil | ⟨init, c, rfl⟩
    · exact hnil
    · refine absurd ?_ (tight.no_gap c (hgap c (by simp))).1
      exact ⟨before ++ (quoted rawKey ++ init), gap' ++ (quoted raw ++ after), by rw [hmsg]; simp⟩
  have hbehind : gap' = [] := by
    cases gap' with
    | nil => rfl
    | cons c rest =>
        refine absurd ?_ (tight.no_gap c (hgap' c (by simp))).2
        exact ⟨before ++ (quoted rawKey ++ gap), rest ++ (quoted raw ++ after), by rw [hmsg]; simp⟩
  rw [← hkey.eq_of_no_escape hplainKey, ← hraw.eq_of_no_escape hplain]
  exact ⟨before, after, by rw [hmsg, hbefore, hbehind]; simp⟩

end Literals

/-!
### What the accepted documents contain

A parser that accepts has found certain members with certain texts: a text that differs from the default of
`value` was there.
-/

section Members

variable {j : Json} {key : String}

theorem member_of_get? {v : Json} (member : j.get? key = some v) : Member j key v := by
  cases j with
  | object fields => exact .here member
  | null => cases member
  | bool b => cases member
  | int n => cases member
  | float q => cases member
  | string s => cases member
  | array items => cases member

/-- A text that is not the default comes from the member. -/
theorem member_of_value {s : String} (read : Json.value Json.getString j key "" = .ok s) (set : s ≠ "") :
    Member j key (.string s) := by
  cases j with
  | object fields =>
      rw [Json.value_object] at read
      cases hlookup : fields.lookup key with
      | none =>
          rw [hlookup] at read
          cases read
          exact absurd rfl set
      | some v =>
          rw [hlookup, Option.elim_some] at read
          cases v with
          | string t =>
              cases read
              exact .here hlookup
          | null => cases read
          | bool b => cases read
          | int n => cases read
          | float q => cases read
          | array items => cases read
          | object fields => cases read
  | null => cases read
  | bool b => cases read
  | int n => cases read
  | float q => cases read
  | string s => cases read
  | array items => cases read

theorem member_data_of_firstData {d0 : Json} (first : firstData j = some d0) : ∃ v, Member j "data" v := by
  rw [firstData] at first
  split at first
  · rename_i hdata
    exact ⟨_, member_of_get? hdata⟩
  · cases first

theorem member_of_isText {e : Json} {text : String} (member : j.get? key = some e) (same : e.isText text = true) :
    Member j key (.string text) := by
  cases e with
  | string s =>
      have hs : s = text := by simpa [Json.isText] using same
      exact hs ▸ member_of_get? member
  | null => cases same
  | bool b => cases same
  | int n => cases same
  | float q => cases same
  | array items => cases same
  | object fields => cases same

end Members

section Snapshots

variable {j : Json} {out : GenericSnapshotFormat}

theorem okxWsSnapshot_ok (accepted : okxWsSnapshot j = .ok (some out)) :
    Member j "action" (.string "snapshot") ∧ ∃ v, Member j "data" v := by
  obtain ⟨action, haction, accepted⟩ := bind_ok_iff.mp accepted
  split at accepted
  · cases accepted
  · rename_i hsnapshot
    obtain rfl : action = "snapshot" := not_not.mp hsnapshot
    refine ⟨member_of_value (fromJson_ok_iff.mp haction) (by decide), ?_⟩
    split at accepted
    · cases accepted
    · rename_i hd0
      exact member_data_of_firstData hd0

theorem bitgetWsSnapshot_ok (accepted : bitgetWsSnapshot j = .ok (some out)) :
    Member j "action" (.string "snapshot") ∧ ∃ v, Member j "data" v := by
  obtain ⟨action, haction, accepted⟩ := bind_ok_iff.mp accepted
  split at accepted
  · cases accepted
  · rename_i hsnapshot
    obtain rfl : action = "snapshot" := not_not.mp hsnapshot
    refine ⟨member_of_value (fromJson_ok_iff.mp haction) (by decide), ?_⟩
    split at accepted
    · cases accepted
    · rename_i hd0
      exact member_data_of_firstData hd0

theorem bybitWsSnapshot_ok (accepted : bybitWsSnapshot j = .ok (some out)) :
    Member j "type" (.string "snapshot") := by
  obtain ⟨type, htype, accepted⟩ := bind_ok_iff.mp accepted
  split at accepted
  · cases accepted
  · rename_i hsnapshot
    obtain rfl : type = "snapshot" := not_not.mp hsnapshot
    exact member_of_value (fromJson_ok_iff.mp htype) (by decide)

end Snapshots

/-!
### The filters
-/

section Filters

variable {parse : List Char → Option Json} {dump : Json → String} {msg : List Char} {j : Json}

/-- A member with a text is found. -/
theorem found_member (reads : ReadsJson parse) (parsed : parse msg = some j) (tight : Tight msg)
    {literal key s : String} (member : Member j key (.string s))
    (spelled : literal.toList <+: quoted key.toList ++ ':' :: quoted s.toList) : found literal msg = true :=
  found_iff.mpr (spelled.isInfix.trans (infix_member tight (reads msg j parsed key _ member)))

/-- The key of a member is found. -/
theorem found_key (reads : ReadsJson parse) (parsed : parse msg = some j) (tight : Tight msg)
    {literal key : String} {v : Json} (member : Member j key v) (spelled : literal.toList = quoted key.toList) :
    found literal msg = true :=
  found_iff.mpr (spelled ▸ infix_key tight (reads msg j parsed key v member))

/-- The text of a member is found by itself. -/
theorem found_text (reads : ReadsJson parse) (parsed : parse msg = some j) (tight : Tight msg)
    {literal key s : String} (member : Member j key (.string s))
    (spelled : literal.toList <:+: quoted s.toList) : found literal msg = true := by
  have hquoted : quoted s.toList <:+: quoted key.toList ++ ':' :: quoted s.toList :=
    ⟨quoted key.toList ++ [':'], [], by simp⟩
  exact found_iff.mpr ((spelled.trans hquoted).trans (infix_member tight (reads msg j parsed key _ member)))

/-- The filter of OKX and Bitget finds the channel and the data. -/
theorem looksLikeBooks_of_channel (reads : ReadsJson parse) (parsed : parse msg = some j) (tight : Tight msg)
    {channel : String} (member : Member j "channel" (.string channel))
    (books : "books".toList <+: channel.toList) {v : Json} (data : Member j "data" v) :
    looksLikeBooks msg = true := by
  obtain ⟨rest, hrest⟩ := books
  rw [looksLikeBooks, Bool.and_eq_true]
  constructor
  · refine found_member reads parsed tight member ⟨rest ++ ['"'], ?_⟩
    rw [← hrest]
    simp [quoted]
  · exact found_key reads parsed tight data (by decide)

/-- The filter of increments lets accepted frames pass. -/
theorem isIncremental_of_accepted (reads : ReadsJson parse) (parsed : parse msg = some j) (tight : Tight msg)
    {venue : VenueId} (channel : OnChannel venue j) {out : GenericIncrementalFormat}
    (accepted : readIncremental dump venue j = .ok (some out)) : venue.isIncremental msg = true := by
  cases venue with
  | binance =>
      obtain ⟨e, jU, ju, b, a, he, htext, -⟩ := binanceIncremental_ok accepted
      exact found_text reads parsed tight (member_of_isText he htext) ⟨['"'], ['"'], by decide⟩
  | okx =>
      obtain ⟨haction, d0, -, -, hd0, -⟩ := okxIncremental_ok accepted
      obtain ⟨channel, hchannel, hbooks⟩ := channel
      obtain ⟨v, hdata⟩ := member_data_of_firstData hd0
      rw [VenueId.isIncremental, looksLikeBooks_of_channel reads parsed tight hchannel hbooks hdata, Bool.true_and]
      exact found_member reads parsed tight (member_of_value haction (by decide)) ⟨[], by decide⟩
  | bitget =>
      obtain ⟨haction, d0, hd0, -⟩ := bitgetIncremental_ok accepted
      obtain ⟨channel, hchannel, hbooks⟩ := channel
      obtain ⟨v, hdata⟩ := member_data_of_firstData hd0
      rw [VenueId.isIncremental, looksLikeBooks_of_channel reads parsed tight hchannel hbooks hdata, Bool.true_and]
      exact found_member reads parsed tight (member_of_value haction (by decide)) ⟨[], by decide⟩
  | bybit =>
      obtain ⟨htype, -⟩ := bybitIncremental_ok accepted
      exact found_member reads parsed tight (member_of_value htype (by decide)) ⟨[], by decide⟩
  | kucoin =>
      obtain ⟨htype, hsubject, -⟩ := kucoinIncremental_ok accepted
      obtain ⟨key, topic, htopic, rest, hrest⟩ := channel
      have hlevel2 : "\"/market/level2:".toList <:+: quoted topic.toList :=
        ⟨[], rest ++ ['"'], by rw [← hrest]; simp [quoted]⟩
      rw [VenueId.isIncremental, Bool.and_eq_true, Bool.and_eq_true]
      refine ⟨⟨?_, ?_⟩, ?_⟩
      · exact found_member reads parsed tight (member_of_value htype (by decide)) ⟨[], by decide⟩
      · exact found_member reads parsed tight (member_of_value hsubject (by decide)) ⟨[], by decide⟩
      · exact found_text reads parsed tight htopic hlevel2

/-- The filter of snapshots lets accepted frames pass. -/
theorem isSnapshot_of_accepted (reads : ReadsJson parse) (parsed : parse msg = some j) (tight : Tight msg)
    {venue : VenueId} (channel : OnChannel venue j) {out : GenericSnapshotFormat}
    (accepted : readWsSnapshot venue j = .ok (some out)) : venue.isSnapshot msg = true := by
  cases venue with
  | binance => cases accepted
  | okx =>
      obtain ⟨haction, v, hdata⟩ := okxWsSnapshot_ok accepted
      obtain ⟨channel, hchannel, hbooks⟩ := channel
      rw [VenueId.isSnapshot, looksLikeBooks_of_channel reads parsed tight hchannel hbooks hdata, Bool.true_and]
      exact found_member reads parsed tight haction ⟨[], by decide⟩
  | bitget =>
      obtain ⟨haction, v, hdata⟩ := bitgetWsSnapshot_ok accepted
      obtain ⟨channel, hchannel, hbooks⟩ := channel
      rw [VenueId.isSnapshot, looksLikeBooks_of_channel reads parsed tight hchannel hbooks hdata, Bool.true_and]
      exact found_member reads parsed tight haction ⟨[], by decide⟩
  | bybit => exact found_member reads parsed tight (bybitWsSnapshot_ok accepted) ⟨[], by decide⟩
  | kucoin => cases accepted

end Filters

/-- For each adapter and every frame with no white space next to a colon and no escapes that, for OKX, Bitget
    and KuCoin, names the channel: what the parser accepts the filter lets pass, increments and snapshots
    alike, whatever the order of the members. -/
theorem prefilter_keeps {parse : List Char → Option Json} (reads : ReadsJson parse) (dump : Json → String)
    (venue : VenueId) {msg : List Char} (tight : Tight msg)
    (channel : ∀ j, parse msg = some j → OnChannel venue j) :
    (∀ out, venue.parseIncremental parse dump msg = .ok (some out) → venue.isIncremental msg = true) ∧
    ∀ out, venue.parseWsSnapshot parse msg = .ok (some out) → venue.isSnapshot msg = true := by
  cases hparse : parse msg with
  | none =>
      simp only [VenueId.parseIncremental, VenueId.parseWsSnapshot, hparse]
      constructor
      · rintro out ⟨⟩
      · rintro out ⟨⟩
  | some j =>
      simp only [VenueId.parseIncremental, VenueId.parseWsSnapshot, hparse]
      exact ⟨fun out accepted => isIncremental_of_accepted reads hparse tight (channel j hparse) accepted,
        fun out accepted => isSnapshot_of_accepted reads hparse tight (channel j hparse) accepted⟩

/-!
### Two texts of one document

The frames of the examples are small enough for their members to be listed, so a parser that knows a single
text is seen to read JSON.
-/

/-- A parser that knows one text. -/
def parseOnly (text : List Char) (j : Json) (msg : List Char) : Option Json :=
  if msg = text then some j else none

/-- A delta of Bybit without levels. -/
def emptyDelta : Json := .object [("data", .object [("u", .int 2)]), ("type", .string "delta")]

def emptyDeltaText : List Char := "\x7b\"data\":\x7b\"u\":2\x7d,\"type\":\"delta\"\x7d".toList

/-- The same with a blank behind a colon. -/
def spacedDeltaText : List Char := "\x7b\"data\":\x7b\"u\":2\x7d,\"type\": \"delta\"\x7d".toList

theorem spells_self {s : List Char} (noQuote : '"' ∉ s) (noEscape : '\\' ∉ s) : Spells s s := by
  induction s with
  | nil => exact .nil
  | cons c s ih =>
      refine .plain ?_ ?_ (ih (fun h => noQuote (List.mem_cons_of_mem _ h))
        fun h => noEscape (List.mem_cons_of_mem _ h))
      · rintro rfl
        exact noQuote (List.mem_cons_self ..)
      · rintro rfl
        exact noEscape (List.mem_cons_self ..)

theorem mem_of_lookup {fields : List (String × Json)} {key : String} {v : Json}
    (lookup : fields.lookup key = some v) : (key, v) ∈ fields := by
  obtain ⟨before, after, rfl, -⟩ := List.lookup_eq_some_iff.mp lookup
  simp

/-- A member of an object is one of its fields or inside one. -/
theorem Member.of_object {fields : List (String × Json)} {key : String} {v : Json}
    (member : Member (.object fields) key v) :
    (key, v) ∈ fields ∨ ∃ field ∈ fields, Member field.2 key v := by
  cases member with
  | here lookup => exact Or.inl (mem_of_lookup lookup)
  | inField lookup inner => exact Or.inr ⟨_, mem_of_lookup lookup, inner⟩

theorem Member.of_array {items : List Json} {key : String} {v : Json} (member : Member (.array items) key v) :
    ∃ item ∈ items, Member item key v := by
  cases member with
  | inItem mem inner => exact ⟨_, mem, inner⟩

theorem not_member_int {n : Int} {key : String} {v : Json} : ¬ Member (.int n) key v := by
  rintro ⟨⟩

theorem not_member_string {s key : String} {v : Json} : ¬ Member (.string s) key v := by
  rintro ⟨⟩

/-- The members of the delta. -/
theorem member_emptyDelta {key : String} {v : Json} (member : Member emptyDelta key v) :
    (key = "data" ∧ v = .object [("u", .int 2)]) ∨ (key = "type" ∧ v = .string "delta") ∨
      (key = "u" ∧ v = .int 2) := by
  have htop := member.of_object
  simp only [List.mem_cons, Prod.mk.injEq, List.not_mem_nil, or_false, exists_eq_or_imp, exists_eq_left,
    not_member_string] at htop
  rcases htop with (hdata | htype) | hinner
  · exact Or.inl hdata
  · exact Or.inr (Or.inl htype)
  · have hu := hinner.of_object
    simp only [List.mem_cons, Prod.mk.injEq, List.not_mem_nil, or_false, exists_eq_left, not_member_int] at hu
    exact Or.inr (Or.inr hu)

theorem readsJson_parseOnly {text : List Char} {j : Json}
    (written : ∀ key v, Member j key v → Writes text key v) : ReadsJson (parseOnly text j) := by
  intro msg j' parsed key v member
  rw [parseOnly] at parsed
  split at parsed
  · rename_i hmsg
    cases parsed
    exact hmsg ▸ written key v member
  · cases parsed

section Written

variable {msg : List Char} {key : String}

/-- A member whose value is no text, written without white space. -/
theorem writes_value {v : Json} (before value : List Char)
    (written : msg = before ++ (quoted key.toList ++ ':' :: value)) (noQuote : '"' ∉ key.toList)
    (noEscape : '\\' ∉ key.toList) (noText : ∀ s, v ≠ .string s) : Writes msg key v :=
  ⟨before, _, [], [], [], value, written, spells_self noQuote noEscape, by simp, by simp,
    fun s h => absurd h (noText s)⟩

/-- A member with a text, written with some blanks behind the colon. -/
theorem writes_text {s : String} (before : List Char) (blanks : Nat) (after : List Char)
    (written : msg =
      before ++ (quoted key.toList ++ ':' :: (List.replicate blanks ' ' ++ (quoted s.toList ++ after))))
    (noQuote : '"' ∉ key.toList ∧ '"' ∉ s.toList) (noEscape : '\\' ∉ key.toList ∧ '\\' ∉ s.toList) :
    Writes msg key (.string s) := by
  refine ⟨before, _, [], List.replicate blanks ' ', quoted s.toList, after, written,
    spells_self noQuote.1 noEscape.1, by simp, ?_, ?_⟩
  · intro c hc
    rw [List.eq_of_mem_replicate hc]
    rfl
  · rintro t ⟨⟩
    exact ⟨_, rfl, spells_self noQuote.2 noEscape.2⟩

end Written

/-- The members of the delta stand in both of its texts. -/
theorem writes_emptyDelta {key : String} {v : Json} (member : Member emptyDelta key v) :
    Writes emptyDeltaText key v ∧ Writes spacedDeltaText key v := by
  rcases member_emptyDelta member with ⟨rfl, rfl⟩ | ⟨rfl, rfl⟩ | ⟨rfl, rfl⟩
  · constructor
    · exact writes_value "\x7b".toList "\x7b\"u\":2\x7d,\"type\":\"delta\"\x7d".toList (by decide) (by decide)
        (by decide) (by simp)
    · exact writes_value "\x7b".toList "\x7b\"u\":2\x7d,\"type\": \"delta\"\x7d".toList (by decide) (by decide)
        (by decide) (by simp)
  · constructor
    · exact writes_text "\x7b\"data\":\x7b\"u\":2\x7d,".toList 0 "\x7d".toList (by decide) (by decide) (by decide)
    · exact writes_text "\x7b\"data\":\x7b\"u\":2\x7d,".toList 1 "\x7d".toList (by decide) (by decide) (by decide)
  · constructor
    · exact writes_value "\x7b\"data\":\x7b".toList "2\x7d,\"type\":\"delta\"\x7d".toList (by decide) (by decide)
        (by decide) (by simp)
    · exact writes_value "\x7b\"data\":\x7b".toList "2\x7d,\"type\": \"delta\"\x7d".toList (by decide)
        (by decide) (by decide) (by simp)

/-- No character of the text is white space, and none an escape. -/
theorem tight_of_all {msg : List Char} (all : msg.all (fun c => c != '\\' && !isBlank c) = true) : Tight msg := by
  have hall := List.all_eq_true.mp all
  refine ⟨fun hmem => absurd (hall _ hmem) (by decide), fun c hblank => ⟨?_, ?_⟩⟩
  · rintro ⟨before, after, rfl⟩
    simpa [hblank] using hall c (by simp)
  · rintro ⟨before, after, rfl⟩
    simpa [hblank] using hall c (by simp)

/-- An update of OKX without levels, which names its channel. -/
def okxUpdate : Json :=
  .object [("arg", .object [("channel", .string "books")]), ("action", .string "update"),
    ("data", .array [.object [("seqId", .int 2), ("prevSeqId", .int 1)]])]

def okxUpdateText : List Char :=
  ("\x7b\"arg\":\x7b\"channel\":\"books\"\x7d,\"action\":\"update\"," ++
    "\"data\":[\x7b\"seqId\":2,\"prevSeqId\":1\x7d]\x7d").toList

/-- The members of the update. -/
theorem member_okxUpdate {key : String} {v : Json} (member : Member okxUpdate key v) :
    (key = "arg" ∧ v = .object [("channel", .string "books")]) ∨
      (key = "action" ∧ v = .string "update") ∨
      (key = "data" ∧ v = .array [.object [("seqId", .int 2), ("prevSeqId", .int 1)]]) ∨
      (key = "channel" ∧ v = .string "books") ∨
      (key = "seqId" ∧ v = .int 2) ∨ (key = "prevSeqId" ∧ v = .int 1) := by
  have htop := member.of_object
  simp only [List.mem_cons, Prod.mk.injEq, List.not_mem_nil, or_false, exists_eq_or_imp, exists_eq_left,
    not_member_string, false_or] at htop
  rcases htop with (harg | haction | hdata) | hinArg | hinData
  · exact Or.inl harg
  · exact Or.inr (Or.inl haction)
  · exact Or.inr (Or.inr (Or.inl hdata))
  · have hchannel := hinArg.of_object
    simp only [List.mem_cons, Prod.mk.injEq, List.not_mem_nil, or_false, exists_eq_left, not_member_string]
      at hchannel
    exact Or.inr (Or.inr (Or.inr (Or.inl hchannel)))
  · obtain ⟨item, hitem, hinItem⟩ := hinData.of_array
    obtain rfl := List.mem_singleton.mp hitem
    have hids := hinItem.of_object
    simp only [List.mem_cons, Prod.mk.injEq, List.not_mem_nil, or_false, exists_eq_or_imp, exists_eq_left,
      not_member_int, or_self] at hids
    exact Or.inr (Or.inr (Or.inr (Or.inr hids)))

/-- The members of the update stand in its text. -/
theorem writes_okxUpdate {key : String} {v : Json} (member : Member okxUpdate key v) :
    Writes okxUpdateText key v := by
  -- the offsets are where the key begins and the value ends, or the colon of a value that is no text
  rcases member_okxUpdate member with
    ⟨rfl, rfl⟩ | ⟨rfl, rfl⟩ | ⟨rfl, rfl⟩ | ⟨rfl, rfl⟩ | ⟨rfl, rfl⟩ | ⟨rfl, rfl⟩
  · exact writes_value (okxUpdateText.take 1) (okxUpdateText.drop 7) (by decide) (by decide) (by decide) (by simp)
  · exact writes_text (okxUpdateText.take 27) 0 (okxUpdateText.drop 44) (by decide) (by decide) (by decide)
  · exact writes_value (okxUpdateText.take 45) (okxUpdateText.drop 52) (by decide) (by decide) (by decide)
      (by simp)
  · exact writes_text (okxUpdateText.take 8) 0 (okxUpdateText.drop 25) (by decide) (by decide) (by decide)
  · exact writes_value (okxUpdateText.take 54) (okxUpdateText.drop 62) (by decide) (by decide) (by decide)
      (by simp)
  · exact writes_value (okxUpdateText.take 64) (okxUpdateText.drop 76) (by decide) (by decide) (by decide)
      (by simp)

def emptyOutput : GenericIncrementalFormat :=
  { firstSeq := 2, lastSeq := 2, prevLast := 1, tsRecvNs := 0, checksum := 0, bids := [], asks := [] }

/-- A delta of Bybit with its type behind the data, and an update of OKX on its channel, pass. -/
theorem prefilter_keeps_two_frames :
    VenueId.isIncremental .bybit emptyDeltaText = true ∧ VenueId.isIncremental .okx okxUpdateText = true := by
  constructor
  · refine (prefilter_keeps (readsJson_parseOnly fun key v member => (writes_emptyDelta member).1) (fun _ => "")
      .bybit (tight_of_all (by decide)) fun _ _ => trivial).1 emptyOutput ?_
    rw [VenueId.parseIncremental, parseOnly, if_pos rfl]
    rfl
  · refine (prefilter_keeps (readsJson_parseOnly fun key v member => writes_okxUpdate member) (fun _ => "")
      .okx (tight_of_all (by decide)) ?_).1 emptyOutput ?_
    · intro j parsed
      rw [parseOnly, if_pos rfl] at parsed
      obtain rfl := Option.some.inj parsed
      exact ⟨"books", .inField (k := "arg") rfl (.here rfl), List.prefix_refl _⟩
    · rw [VenueId.parseIncremental, parseOnly, if_pos rfl]
      rfl

/-- An update of OKX that does not name its channel. -/
def okxNoChannel : Json :=
  .object [("action", .string "update"), ("data", .array [.object [("seqId", .int 2), ("prevSeqId", .int 1)]])]

def okxNoChannelText : List Char :=
  "\x7b\"action\":\"update\",\"data\":[\x7b\"seqId\":2,\"prevSeqId\":1\x7d]\x7d".toList

/-- A blank behind a colon, and a frame without its channel: the parser accepts, the filter does not. -/
theorem prefilter_drops_accepted :
    ReadsJson (parseOnly spacedDeltaText emptyDelta) ∧
    VenueId.parseIncremental (parseOnly spacedDeltaText emptyDelta) (fun _ => "") .bybit spacedDeltaText =
      .ok (some emptyOutput) ∧
    VenueId.isIncremental .bybit spacedDeltaText = false ∧
    VenueId.parseIncremental (parseOnly okxNoChannelText okxNoChannel) (fun _ => "") .okx okxNoChannelText =
      .ok (some emptyOutput) ∧
    VenueId.isIncremental .okx okxNoChannelText = false := by
  refine ⟨readsJson_parseOnly fun key v member => (writes_emptyDelta member).2, ?_, by decide, ?_, by decide⟩
  · rw [VenueId.parseIncremental, parseOnly, if_pos rfl]
    rfl
  · rw [VenueId.parseIncremental, parseOnly, if_pos rfl]
    rfl

end ZidaBot.Feed
