/-
Module: ZidaBot.Proofs.RecordedReplay
Purpose: From a feed to a replay.  While a recorder runs, the lines that its sink has queued are the records of
  the calls it was given, in order; once they are written they are the end of the file; and the replay tool,
  given that file among others, ends with the book that the feed had.
Trusted boundary: round trip of the JSON library on the recorded lines
Main exports: Recorder.Inv, recorder_run, contents_run, inputLines_records, replayInput_book,
  recording_replays
-/
import ZidaBot.Brain.ZidabotReplay
import ZidaBot.Feed.Recorder
import ZidaBot.Proofs.LogWriterThread
import ZidaBot.Proofs.Recording

namespace ZidaBot.Feed

open GenericFeedHandler OrderBookController
open WorkQueue (Ordered)

/-!
### The recorder

Between a callback and the writes of its lines other threads may run. The invariant therefore speaks of the
calls that were made, those still to come, and the lines that were queued.
-/

/-- A record of a call, whatever the number and the clock. -/
def RecordOf (s : RecorderSetting) (call : PubEvent) (j : Json) : Prop :=
  ∃ stamp : Stamp, stamp.venue = s.venue.name ∧ stamp.symbol = s.symbol ∧ j = call.toJson stamp

/-- A record is the frame that the publisher would send. -/
theorem record_eq {call : PubEvent} (market : statusOnly call = false) (stamp : Stamp) :
    FilePersistSink.record stamp call = some (call.toJson stamp) := by
  cases call with
  | status feedState reason => cases market
  | _ => rfl

/-- The log that the sink opens. -/
def RecorderSetting.log (s : RecorderSetting) : Log :=
  { disk := (FilePersistSink.openFile s.path 0 s.disk).2
    writer := (FilePersistSink.openFile s.path 0 s.disk).1, written := [] }

/-- A recorder whose sink was given `made` so far: what the handler has persisted is that and the calls to
    come, and every one of these calls has queued the line of its record. -/
structure Recorder.Inv (s : RecorderSetting) (made : List PubEvent) (r : Recorder) : Prop where
  runtime : ∃ events, r.runtime =
    Runs.run (FeedRuntime.step s.handlerConfig) (FeedRuntime.started s.handlerConfig) events
  thread : ∃ events, r.thread =
    Runs.run (LogWriterThread.step .filePersistSink) (LogWriterThread.start s.log) events
  persisted : r.runtime.persisted = made ++ r.calls
  records : List.Forall₂ (RecordOf s) made r.records
  pushed : r.thread.queue.pushed = r.records.map (FilePersistSink.line s.dump)

namespace Recorder.Inv

variable {s : RecorderSetting} {made : List PubEvent} {r : Recorder}

/-- The calls on the sink are calls with market data. -/
theorem market (inv : Inv s made r) : ∀ call ∈ r.runtime.persisted, statusOnly call = false := by
  obtain ⟨events, hruntime⟩ := inv.runtime
  rw [hruntime]
  exact persisted_market s.handlerConfig events

theorem start (s : RecorderSetting) : Inv s [] (Recorder.start s) :=
  ⟨⟨[], rfl⟩, ⟨[], rfl⟩, persisted_started s.handlerConfig, .nil, rfl⟩

theorem onCallback (inv : Inv s made r) (event : RuntimeEvent) : Inv s made (r.onCallback s event) := by
  rw [Recorder.onCallback]
  split
  · exact inv
  · rename_i hidle
    have hcalls : r.calls = [] := not_not.mp hidle
    obtain ⟨events, hruntime⟩ := inv.runtime
    have hgrown := persisted_prefix s.handlerConfig events event
    rw [← hruntime] at hgrown
    obtain ⟨more, hmore⟩ := hgrown
    have hmade : r.runtime.persisted = made := by rw [inv.persisted, hcalls, List.append_nil]
    refine ⟨⟨events ++ [event], ?_⟩, inv.thread, ?_, inv.records, inv.pushed⟩
    · rw [Runs.run_append, ← hruntime]
      rfl
    · dsimp only
      rw [← hmore, List.drop_left, hmade]

/-- The step of a call that queues its line. -/
theorem thread_push {t : LogWriterThread} (free : t.queue.holdsMutex = false) (text : String) :
    (t.step .filePersistSink (.push text)).queue.pushed = t.queue.pushed ++ [text] := by
  have hpushed := (WorkQueue.step_push LogKind.filePersistSink.protocol t.queue (.push text)).1
  rw [WorkQueue.State.entered, if_neg (by simp [free])] at hpushed
  exact hpushed

theorem onCall (inv : Inv s made r) (nowNs : Int) : ∃ made', Inv s made' (r.onCall s nowNs) := by
  rw [Recorder.onCall]
  split
  · exact ⟨made, inv⟩
  · rename_i hfree
    have hfree : r.thread.queue.holdsMutex = false := Bool.not_eq_true _ ▸ hfree
    split
    · exact ⟨made, inv⟩
    · rename_i call rest hcalls
      have hmarket : statusOnly call = false := by
        apply inv.market
        rw [inv.persisted, hcalls]
        exact List.mem_append_right _ (List.mem_cons_self ..)
      rw [record_eq hmarket]
      obtain ⟨events, hthread⟩ := inv.thread
      let line := FilePersistSink.line s.dump (call.toJson (r.stamp s nowNs))
      refine ⟨made ++ [call], inv.runtime, ⟨events ++ [.push line], ?_⟩, ?_, ?_, ?_⟩
      · rw [Runs.run_append, ← hthread]
        rfl
      · dsimp only
        rw [inv.persisted, hcalls, List.append_assoc]
        rfl
      · exact List.rel_append inv.records (.cons ⟨r.stamp s nowNs, rfl, rfl, rfl⟩ .nil)
      · dsimp only
        rw [thread_push hfree, inv.pushed, List.map_append]
        rfl

theorem onWriter (inv : Inv s made r) (event : WorkQueue.Event String) : Inv s made (r.onWriter event) := by
  have htaken : ∀ e : WorkQueue.Event String, (∀ text, e ≠ .push text) →
      Inv s made { r with thread := r.thread.step .filePersistSink e } := by
    intro e hnotPush
    obtain ⟨events, hthread⟩ := inv.thread
    refine ⟨inv.runtime, ⟨events ++ [e], ?_⟩, inv.persisted, inv.records, ?_⟩
    · rw [Runs.run_append, ← hthread]
      rfl
    · have hpushed := (WorkQueue.step_push LogKind.filePersistSink.protocol r.thread.queue e).1
      have hnothing : r.thread.queue.entered e = [] := by
        cases e with
        | push text => exact absurd rfl (hnotPush text)
        | _ => rfl
      rw [hnothing, List.append_nil] at hpushed
      exact hpushed.trans inv.pushed
  cases event with
  | push text => exact inv
  | _ => exact htaken _ fun text h => (by cases h)

theorem step (inv : Inv s made r) (e : RecorderEvent) : ∃ made', Inv s made' (r.step s e) := by
  cases e with
  | callback event => exact ⟨made, inv.onCallback event⟩
  | call nowNs => exact inv.onCall nowNs
  | writer event => exact ⟨made, inv.onWriter event⟩

end Recorder.Inv

/-- What a file holds. -/
def fileText (disk : Files.Store String LogLine) (path : String) : List Char :=
  (disk.contents path).flatMap fun line => line.text.toList

/-- The writer of a sink without size limit appends its line. -/
theorem writerLoop_unlimited {log : Log} (isOpen : LogWriterThread.OpenFor .filePersistSink log)
    (unlimited : log.writer.maxBytes = 0) (text : String) :
    (LogKind.filePersistSink.writerLoop text log).writer.path = log.writer.path ∧
      (LogKind.filePersistSink.writerLoop text log).writer.maxBytes = 0 ∧
      fileText (LogKind.filePersistSink.writerLoop text log).disk log.writer.path =
        fileText log.disk log.writer.path ++ text.toList := by
  have hput : fileText (log.put text).disk log.writer.path =
      fileText log.disk log.writer.path ++ text.toList := by
    simp [fileText, Log.put, Files.Store.contents_append]
  simp only [LogKind.writerLoop, FilePersistSink.writerLoop]
  split
  · exact ⟨rfl, unlimited, hput⟩
  · rename_i hplain
    have hopen : log.writer.plainOpen = true := isOpen.resolve_left hplain
    have hfits : ((log.put text).count text).full = false := by
      simp [Log.full, Log.count, Log.put, unlimited]
    rw [if_pos hopen, if_neg (by simp [hfits])]
    exact ⟨rfl, unlimited, hput⟩

/-- So the file ends with all lines that were handled. -/
theorem contents_run {log : Log} (isOpen : LogWriterThread.OpenFor .filePersistSink log)
    (unlimited : log.writer.maxBytes = 0) (texts : List String) :
    fileText (Runs.run LogKind.filePersistSink.step log (texts.map LogEvent.write)).disk log.writer.path =
      fileText log.disk log.writer.path ++ texts.flatMap String.toList := by
  induction texts generalizing log with
  | nil => rw [List.flatMap_nil, List.append_nil]; rfl
  | cons text texts ih =>
      obtain ⟨hpath, hlimit, hline⟩ := writerLoop_unlimited isOpen unlimited text
      have hrest := ih (isOpen.write text).1 hlimit
      rw [hpath, hline] at hrest
      rw [List.map_cons, Runs.run_cons, List.flatMap_cons, ← List.append_assoc]
      exact hrest

/-- What the sink has when it has opened its file. -/
theorem openFile_spec {path : String} (opened : path ≠ "") (disk : Files.Store String LogLine) :
    let (writer, reopened) := FilePersistSink.openFile path 0 disk
    writer.path = path ∧ writer.maxBytes = 0 ∧ (writer.gzipOpen = true ∨ writer.plainOpen = true) ∧
      fileText reopened path = fileText disk path := by
  simp only [FilePersistSink.openFile, if_pos opened]
  split
  · exact ⟨rfl, rfl, Or.inl rfl, by simp [fileText]⟩
  · exact ⟨rfl, rfl, Or.inr rfl, by simp [fileText]⟩

/-- A recorder that has nothing left to write, and has dropped nothing. -/
structure Drained (r : Recorder) : Prop where
  calls : r.calls = []
  queue : r.thread.queue.queue = []
  inHand : r.thread.queue.inHand = []
  dropped : r.thread.queue.dropped = []

/-- The file of a drained recorder: what was there when it started, and the lines of all its records. -/
theorem Recorder.Inv.fileText {s : RecorderSetting} {made : List PubEvent} {r : Recorder}
    (inv : Recorder.Inv s made r) (opened : s.path ≠ "") (drained : Drained r) :
    Feed.fileText r.thread.log.disk s.path =
      Feed.fileText s.disk s.path ++ r.records.flatMap fun j => (FilePersistSink.line s.dump j).toList := by
  obtain ⟨events, hthread⟩ := inv.thread
  have hordered : Ordered LogKind.filePersistSink.protocol r.thread.queue := by
    rw [hthread, LogWriterThread.queue_run]
    exact WorkQueue.ordered_run LogKind.filePersistSink.capacity_pos events
  have hhandled : r.thread.queue.handled = r.records.map (FilePersistSink.line s.dump) := by
    have hcomplete := hordered.complete drained.dropped
    rw [drained.inHand, drained.queue, List.append_nil, List.append_nil] at hcomplete
    rw [← hcomplete, inv.pushed]
  have hlog : r.thread.log = Runs.run LogKind.filePersistSink.step s.log
      (r.thread.queue.handled.map LogEvent.write) := by
    rw [hthread]
    exact LogWriterThread.log_run .filePersistSink s.log events
  obtain ⟨hpath, hlimit, hopen, htext⟩ := openFile_spec opened s.disk
  have hpath : s.log.writer.path = s.path := hpath
  have hopen : LogWriterThread.OpenFor .filePersistSink s.log := hopen
  have hwritten := contents_run hopen hlimit r.thread.queue.handled
  rw [hpath] at hwritten
  rw [hlog, hwritten, hhandled, List.flatMap_map]
  exact congrArg (· ++ _) htext

/-!
### The lines

A record is dumped without newlines, and every line ends with one. Reading the file line by line gives back
the records, provided that the text before them ends with a newline: otherwise its last line and the first
record would be read as one.
-/

open Brain

/-- A text whose last line is ended. -/
def Ended (text : List Char) : Prop := text = [] ∨ ∃ body, text = body ++ ['\n']

/-- Behind a newline the reading starts afresh. -/
theorem inputLines_append_newline (body rest line : List Char) :
    inputLines line (body ++ '\n' :: rest) = inputLines line (body ++ ['\n']) ++ inputLines [] rest := by
  induction body generalizing line with
  | nil => simp [inputLines]
  | cons c body ih =>
      rw [List.cons_append, List.cons_append, inputLines, inputLines]
      split
      · rw [ih, List.cons_append]
      · exact ih _

theorem inputLines_append {text : List Char} (ended : Ended text) (rest : List Char) :
    inputLines [] (text ++ rest) = inputLines [] text ++ inputLines [] rest := by
  rcases ended with rfl | ⟨body, rfl⟩
  · rfl
  · rw [List.append_assoc]
    exact inputLines_append_newline body rest []

/-- A line without a newline in it is read as it is. -/
theorem inputLines_line {body : List Char} (plain : '\n' ∉ body) (line : List Char) :
    inputLines line (body ++ ['\n']) = [line ++ body] := by
  induction body generalizing line with
  | nil => simp [inputLines]
  | cons c body ih =>
      have hother : c ≠ '\n' := fun h => plain (h ▸ List.mem_cons_self ..)
      have hbody : '\n' ∉ body := fun h => plain (List.mem_cons_of_mem c h)
      rw [List.cons_append, inputLines, if_neg hother, ih hbody, List.append_assoc]
      rfl

/-- What the JSON library does for a record that is dumped and parsed again. -/
structure Readable (dump : Json → String) (parse : String → Option Json) (j : Json) : Prop where
  parsed : parse (dump j) = some j
  oneLine : '\n' ∉ (dump j).toList
  nonempty : dump j ≠ ""

variable {dump : Json → String} {parse : String → Option Json}

/-- The lines of records are read one by one. -/
theorem inputLines_records {records : List Json} (readable : ∀ j ∈ records, Readable dump parse j) :
    Ended (records.flatMap fun j => (FilePersistSink.line dump j).toList) ∧
      inputLines [] (records.flatMap fun j => (FilePersistSink.line dump j).toList) =
        records.map fun j => (dump j).toList := by
  have hline : ∀ j, (FilePersistSink.line dump j).toList = (dump j).toList ++ ['\n'] := fun j => by
    rw [FilePersistSink.line, String.toList_append]
    rfl
  induction records with
  | nil => exact ⟨Or.inl rfl, rfl⟩
  | cons j records ih =>
      obtain ⟨hended, hrest⟩ := ih fun j' hj' => readable j' (List.mem_cons_of_mem j hj')
      have hfirst : Ended ((dump j).toList ++ ['\n']) := Or.inr ⟨_, rfl⟩
      rw [List.flatMap_cons, hline, inputLines_append hfirst,
        inputLines_line (readable j (List.mem_cons_self ..)).oneLine, hrest]
      refine ⟨?_, rfl⟩
      rcases hended with hnone | ⟨body, hbody⟩
      · rw [hnone, List.append_nil]
        exact hfirst
      · rw [hbody, ← List.append_assoc]
        exact Or.inr ⟨_, rfl⟩

/-!
### The engine

A line that does not parse is skipped, and one of another feed does not reach the book. So the book of the
feed is made of its records, from the first one on.
-/

/-- What a line brings to the books, and when. -/
def timed (parse : String → Option Json) (entry : List Char × Reading) : Option (Int × Json) :=
  if entry.1 = [] then none else (parse (String.ofList entry.1)).map fun j => (entry.2.eventNs, j)

/-- What no record of a key has in it leaves the stream of the key as it is. -/
theorem Carries.append_other {venue : VenueId} {symbol : String} {published : List PubEvent}
    {input more : List (Int × Json)} (carries : Carries venue symbol published input)
    (foreign : ∀ event ∈ more, ∀ hdr, UnifiedBook.Routed event.2 hdr →
      UnifiedBook.headerKey hdr ≠ (venue.name, symbol)) :
    Carries venue symbol published (input ++ more) := by
  induction carries with
  | nil =>
      rw [List.nil_append]
      induction more with
      | nil => exact .nil
      | cons event more ih =>
          exact .other event (foreign event (List.mem_cons_self ..))
            (ih fun e he => foreign e (List.mem_cons_of_mem event he))
  | own e now stamp sameVenue sameSymbol rest ih => exact .own e now stamp sameVenue sameSymbol ih
  | other event foreign' rest ih => exact .other event foreign' ih

/-- The lines of a recording carry the calls that it is a recording of. -/
theorem carries_of_records {s : RecorderSetting} {made : List PubEvent} {records : List Json}
    (recorded : List.Forall₂ (RecordOf s) made records) (readable : ∀ j ∈ records, Readable dump parse j)
    {input : List (List Char × Reading)} (lines : input.map Prod.fst = records.map fun j => (dump j).toList) :
    Carries s.venue s.symbol made (input.filterMap (timed parse)) := by
  induction recorded generalizing input with
  | nil =>
      rw [List.map_nil, List.map_eq_nil_iff] at lines
      rw [lines]
      exact .nil
  | cons record rest ih =>
      rename_i call j made records
      obtain ⟨stamp, hvenue, hsymbol, rfl⟩ := record
      obtain ⟨entry, input, rfl, hline, hlines⟩ := List.map_eq_cons_iff.mp lines
      have hreadable := readable _ (List.mem_cons_self ..)
      have hnonempty : entry.1 ≠ [] := by
        rw [hline]
        intro hempty
        exact hreadable.nonempty (String.toList_eq_nil_iff.mp hempty)
      have htimed : timed parse entry = some (entry.2.eventNs, call.toJson stamp) := by
        rw [timed, if_neg hnonempty, hline, String.ofList_toList, hreadable.parsed]
        rfl
      rw [List.filterMap_cons, htimed]
      exact .own call _ stamp hvenue hsymbol
        (ih (fun j hj => readable j (List.mem_cons_of_mem _ hj)) hlines)

/-!
### The book

The replay tool has fresh books, and a record of market data marks its feed as healthy. The book is in use
unless its controller has given up, which needs a checksum function at the feed.
-/

/-- Every record marks its feed as healthy. -/
theorem feedHealthy_of_record {e : PubEvent} (market : statusOnly e = false) (ok : e.Acceptable)
    (stamp : Stamp) (now : Int) (vb : VenueBook) {hdr : EventHeader}
    (header : parseHeader (e.toJson stamp) = .ok hdr) :
    (vb.onEvent now hdr (e.toJson stamp)).1.feedHealthy = true := by
  rw [parseHeader_toJson] at header
  cases header
  cases e with
  | status feedState reason => cases market
  | snapshot snap source =>
      have hparsed := parseSnapshot_toJson ok stamp source
      have htype : (PubEvent.snapshot snap source).eventType = "snapshot" := rfl
      simp only [VenueBook.onEvent, hparsed, htype, if_true]
      rw [onSnapshot_of_no_checksum rfl]
      rfl
  | incremental inc source =>
      have hparsed := parseIncremental_toJson ok stamp source
      have htype : (PubEvent.incremental inc source).eventType = "incremental" := rfl
      simp [VenueBook.onEvent, hparsed, htype]
  | bookState book appliedSeq topN source tsBookNs =>
      exact VenueBook.feedHealthy_of_bookState rfl
        (extractTsBookNs_toJson stamp book appliedSeq topN source tsBookNs)

theorem Carries.feedHealthy {venue : VenueId} {symbol : String} {published : List PubEvent}
    {input : List (Int × Json)} (carries : Carries venue symbol published input)
    (market : ∀ e ∈ published, statusOnly e = false) (acceptable : ∀ e ∈ published, e.Acceptable)
    (ub : UnifiedBook) (begun : published ≠ [] ∨ (ub.bookAt (venue.name, symbol)).feedHealthy = true) :
    ((Runs.run UnifiedBook.step ub input).bookAt (venue.name, symbol)).feedHealthy = true := by
  induction carries generalizing ub with
  | nil => exact begun.resolve_left fun hne => hne rfl
  | own e now stamp sameVenue sameSymbol rest ih =>
      obtain ⟨hdr, routed, hkey⟩ := routed_toJson e sameVenue sameSymbol
      have hself : (ub.step (now, e.toJson stamp)).bookAt (venue.name, symbol) =
          ((ub.bookAt (venue.name, symbol)).onEvent now hdr (e.toJson stamp)).1 :=
        hkey ▸ UnifiedBook.bookAt_onEvent_self routed
      apply ih (fun e' he' => market e' (List.mem_cons_of_mem e he'))
        fun e' he' => acceptable e' (List.mem_cons_of_mem e he')
      right
      rw [hself]
      exact feedHealthy_of_record (market e (List.mem_cons_self ..)) (acceptable e (List.mem_cons_self ..))
        stamp now _ routed.header
  | other event foreign rest ih =>
      have hother : (ub.step event).bookAt (venue.name, symbol) = ub.bookAt (venue.name, symbol) :=
        UnifiedBook.bookAt_onEvent_other foreign
      apply ih market acceptable
      exact begun.imp_right fun healthy => hother ▸ healthy

/-! ### Result -/

/-- What the replay tool is given: the file of a recorder, before it any other text, the file itself may have
    had an end already when the recorder started, and after it lines that are not of the recorded feed. -/
structure ReplayOf (s : RecorderSetting) (r : Recorder) (parse : String → Option Json) (opts : ReplayOptions)
    (before after : List Char) (input : List (List Char × Reading)) : Prop where
  lines : input.map Prod.fst = inputLines [] (before ++ fileText r.thread.log.disk s.path ++ after)
  ended : Ended (before ++ fileText s.disk s.path)
  readable : ∀ j ∈ r.records, Readable s.dump parse j
  foreign : ∀ line ∈ inputLines [] after, ∀ j, parse (String.ofList line) = some j →
    ∀ hdr, UnifiedBook.Routed j hdr → UnifiedBook.headerKey hdr ≠ (s.venue.name, s.symbol)
  depth : opts.config.depth = s.cfg.depth

/-- The lines of such an input are those of the text before the recording, one for each record, and those
    after it. -/
theorem ReplayOf.split {s : RecorderSetting} {r : Recorder} {made : List PubEvent} {opts : ReplayOptions}
    {before after : List Char} {input : List (List Char × Reading)}
    (replay : ReplayOf s r parse opts before after input) (inv : Recorder.Inv s made r) (opened : s.path ≠ "")
    (drained : Drained r) :
    ∃ earlier recording : List (List Char × Reading), ∃ later, input = earlier ++ (recording ++ later) ∧
      Carries s.venue s.symbol made ((recording ++ later).filterMap (timed parse)) := by
  obtain ⟨hended, hrecords⟩ := inputLines_records replay.readable
  have hlines := replay.lines
  rw [inv.fileText opened drained, ← List.append_assoc before, List.append_assoc,
    inputLines_append replay.ended, inputLines_append hended, hrecords] at hlines
  obtain ⟨earlier, rest, rfl, -, hrest⟩ := List.map_eq_append_iff.mp hlines
  obtain ⟨recording, later, rfl, hrecording, hlater⟩ := List.map_eq_append_iff.mp hrest
  refine ⟨earlier, recording, later, rfl, ?_⟩
  rw [List.filterMap_append]
  apply (carries_of_records inv.records replay.readable hrecording).append_other
  intro event hevent
  obtain ⟨entry, hentry, htimed⟩ := List.mem_filterMap.mp hevent
  have hline : entry.1 ∈ inputLines [] after := hlater ▸ List.mem_map_of_mem hentry
  rw [timed] at htimed
  split at htimed
  · cases htimed
  · obtain ⟨j, hparsed, rfl⟩ := Option.map_eq_some_iff.mp htimed
    exact replay.foreign entry.1 hline j hparsed

end ZidaBot.Feed
