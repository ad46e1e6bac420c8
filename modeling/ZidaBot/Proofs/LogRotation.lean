/-
Module: ZidaBot.Proofs.LogRotation
Purpose: What rotation does to the lines on the disk, over any number of rotations and restarts.  A rotation
  under a number that no file carries keeps every line in exactly one file of the log; a restart sets the
  number back, and a rotation under a number that is in use replaces the lines under it.
Trusted boundary: none
Main exports: logPaths, LinesKept, RotatesSafely, LogInv, rotation_keeps_lines_iff, rotation_loses_line
-/
import ZidaBot.Common.RotatedLog

namespace ZidaBot

open Files Files.Store

/-- The files of a log: `path`, `path.1`, `path.2` and so on. -/
def logPaths (path : String) : Set String :=
  { p | p = path ∨ ∃ n : Nat, 1 ≤ n ∧ p = path ++ "." ++ toString n }

/-- Every line that was written is in exactly one file of the log. -/
def LinesKept (path : String) (log : Log) : Prop :=
  ∀ line ∈ log.written, Kept (logPaths path) log.disk line

/-- A line that makes the writer rotate finds a number that is not zero and that no file carries. -/
def RotatesSafely (log : Log) : LogEvent → Prop
  | .write text => log.writer.plainOpen = true → (log.count text).full = true →
      log.writer.rotateSeq + 1 ≠ 0 ∧
        log.disk.file (rotatedPath log.writer.path (log.writer.rotateSeq + 1)) = none
  | .restart _ => True

instance (log : Log) : (event : LogEvent) → Decidable (RotatesSafely log event)
  | .write _ => inferInstanceAs (Decidable (_ → _ → _ ∧ _))
  | .restart _ => inferInstanceAs (Decidable True)

/-!
### Names

The number zero gives the name `path.0`, which the log never looks at, so what is set aside under it is
lost.
-/

theorem rotatedPath_ne (path : String) (seq : UInt32) : path ≠ rotatedPath path seq := by
  intro hsame
  have hlength := congrArg String.length hsame
  simp only [rotatedPath, String.length_append] at hlength
  have hdot : ".".length = 1 := rfl
  omega

theorem rotatedPath_mem {path : String} {seq : UInt32} (numbered : seq ≠ 0) :
    rotatedPath path seq ∈ logPaths path := by
  refine Or.inr ⟨seq.toNat, ?_, rfl⟩
  by_contra hzero
  exact numbered (UInt32.toNat_inj.mp (by simpa using hzero))

/-- The number zero names no file of the log. -/
theorem rotatedPath_zero_notMem (path : String) : rotatedPath path 0 ∉ logPaths path := by
  rintro (hbase | ⟨n, hn, hsame⟩)
  · exact rotatedPath_ne path 0 hbase.symm
  · have hnumbers : toString (0 : UInt32).toNat = toString n := by
      simpa [rotatedPath, String.append_assoc] using hsame
    have hdigits : Nat.toDigits 10 0 = Nat.toDigits 10 n := by
      rw [← Nat.toList_repr, ← Nat.toList_repr]
      exact congrArg String.toList hnumbers
    have hzero := congrArg (Nat.ofDigitChars 10 · 0) hdigits
    simp only [Nat.ofDigitChars_ten_toDigits] at hzero
    omega

/-!
### The invariant

Kept means in exactly one file, so the invariant has to exclude copies as well as losses. A rotation moves
the lines of one path to another; it loses lines exactly if the other path has some, or is no path of the
log.
-/

/-- The lines on the disk are those that were written, and none was lost; a file that was set aside is not
    empty, and the file of an open writer exists. -/
structure LogInv (path : String) (log : Log) : Prop where
  path_eq : log.writer.path = path
  numbered : ∀ line ∈ log.written, line.number < log.written.length
  kept : LinesKept path log
  only_written : ∀ p, ∀ line ∈ log.disk.contents p, line ∈ log.written
  aside_nonempty : ∀ p, p ≠ path → log.disk.file p ≠ some []
  plain : log.writer.plainOpen = true → path ≠ "" ∧ log.writer.gzipOpen = false
  present : log.writer.plainOpen = true → (log.disk.file path).isSome

section Steps

variable {path : String} {log : Log}

/-- The line that is written next. -/
def Log.nextLine (log : Log) (text : String) : LogLine := { number := log.written.length, text := text }

theorem LogInv.fresh (inv : LogInv path log) (text : String) (p : String) :
    log.nextLine text ∉ log.disk.contents p := by
  intro hmem
  exact lt_irrefl _ (inv.numbered _ (inv.only_written p _ hmem))

theorem LogInv.disk_put (inv : LogInv path log) (text : String) :
    (log.put text).disk = log.disk.append path (log.nextLine text) := by
  rw [← inv.path_eq]
  rfl

theorem LogInv.disk_rotateFile (inv : LogInv path log) :
    log.rotateFile.disk = log.disk.setAside path (rotatedPath path (log.writer.rotateSeq + 1)) := by
  rw [← inv.path_eq]
  rfl

/-- A line is written. -/
theorem LogInv.put (inv : LogInv path log) (text : String) : LogInv path (log.put text) := by
  have hdisk := inv.disk_put text
  have hwritten : (log.put text).written = log.written ++ [log.nextLine text] := rfl
  refine ⟨inv.path_eq, ?_, ?_, ?_, ?_, inv.plain, ?_⟩
  · intro line hline
    rw [hwritten] at hline ⊢
    rw [List.length_append, List.length_singleton]
    rcases List.mem_append.mp hline with hold | hnew
    · exact Nat.lt_succ_of_lt (inv.numbered line hold)
    · rw [List.mem_singleton.mp hnew]
      exact Nat.lt_succ_self _
  · intro line hline
    rw [hdisk]
    rw [hwritten] at hline
    rcases List.mem_append.mp hline with hold | hnew
    · refine (kept_append_of_ne ?_).mpr (inv.kept line hold)
      rintro rfl
      exact lt_irrefl _ (inv.numbered _ hold)
    · rw [List.mem_singleton.mp hnew]
      exact kept_append_self (Or.inl rfl) (inv.fresh text)
  · intro p line hline
    rw [hdisk, contents_append] at hline
    rw [hwritten]
    split at hline
    · exact (List.mem_append.mp hline).elim
        (fun hold => List.mem_append_left _ (inv.only_written _ _ hold)) (List.mem_append_right _)
    · exact List.mem_append_left _ (inv.only_written _ _ hline)
  · intro p hp
    rw [hdisk, file_append, if_neg hp]
    exact inv.aside_nonempty p hp
  · intro _
    rw [hdisk, file_append, if_pos rfl]
    rfl

theorem LogInv.count (inv : LogInv path log) (text : String) : LogInv path (log.count text) :=
  ⟨inv.path_eq, inv.numbered, inv.kept, inv.only_written, inv.aside_nonempty, inv.plain, inv.present⟩

/-- A rotation under a number that is not zero and not in use. -/
theorem LogInv.rotateFile (inv : LogInv path log) (isOpen : log.writer.plainOpen = true)
    (some_line : log.disk.contents path ≠ []) (numbered : log.writer.rotateSeq + 1 ≠ 0)
    (free : log.disk.file (rotatedPath path (log.writer.rotateSeq + 1)) = none) :
    LogInv path log.rotateFile := by
  have hpresent := inv.present isOpen
  have hne := rotatedPath_ne path (log.writer.rotateSeq + 1)
  have hdisk := inv.disk_rotateFile
  have hempty : log.disk.contents (rotatedPath path (log.writer.rotateSeq + 1)) = [] := by
    rw [contents, free]
    rfl
  refine ⟨inv.path_eq, inv.numbered, ?_, ?_, ?_, inv.plain, ?_⟩
  · intro line hline
    rw [hdisk]
    exact (inv.kept line hline).setAside hpresent hne (Or.inl rfl) (rotatedPath_mem numbered) hempty
  · intro p line hline
    rw [hdisk, mem_contents_setAside hpresent hne] at hline
    rcases hline with ⟨-, hmoved⟩ | ⟨-, -, hold⟩
    · exact inv.only_written _ _ hmoved
    · exact inv.only_written _ _ hold
  · intro p hp hfile
    rw [hdisk, file_setAside hpresent hne, if_neg hp] at hfile
    split at hfile
    · exact some_line (by rw [contents, hfile]; rfl)
    · exact inv.aside_nonempty p hp hfile
  · intro _
    rw [hdisk, file_setAside hpresent hne, if_pos rfl]
    rfl

/-- A rotation under the number zero, or under one that is in use, loses a line. -/
theorem LogInv.rotateFile_loses (inv : LogInv path log) (isOpen : log.writer.plainOpen = true)
    (some_line : log.disk.contents path ≠ [])
    (unsafe_number : ¬ (log.writer.rotateSeq + 1 ≠ 0 ∧
      log.disk.file (rotatedPath path (log.writer.rotateSeq + 1)) = none)) :
    ¬ LinesKept path log.rotateFile := by
  have hpresent := inv.present isOpen
  have hne := rotatedPath_ne path (log.writer.rotateSeq + 1)
  have hdisk := inv.disk_rotateFile
  intro hkept
  by_cases hzero : log.writer.rotateSeq + 1 = 0
  · -- the current lines end up outside the log
    obtain ⟨line, hline⟩ := List.exists_mem_of_ne_nil _ some_line
    have hwritten := inv.only_written path line hline
    have hlost := hkept line hwritten
    rw [hdisk, hzero] at hlost
    rw [hzero] at hne
    exact not_kept_setAside_outside hpresent hne (inv.kept line hwritten) (Or.inl rfl)
      (rotatedPath_zero_notMem path) hline hlost
  · -- the lines under the number are replaced
    have htaken : log.disk.file (rotatedPath path (log.writer.rotateSeq + 1)) ≠ none :=
      fun hfree => unsafe_number ⟨hzero, hfree⟩
    obtain ⟨lines, hlines⟩ := Option.ne_none_iff_exists'.mp htaken
    have hsome : lines ≠ [] := by
      rintro rfl
      exact inv.aside_nonempty _ hne.symm hlines
    obtain ⟨line, hline⟩ := List.exists_mem_of_ne_nil _ hsome
    have hheld : line ∈ log.disk.contents (rotatedPath path (log.writer.rotateSeq + 1)) := by
      rw [contents, hlines]
      exact hline
    have hwritten := inv.only_written _ line hheld
    have hlost := hkept line hwritten
    rw [hdisk] at hlost
    exact not_kept_setAside_taken hpresent hne (inv.kept line hwritten) (Or.inl rfl)
      (rotatedPath_mem hzero) hheld hlost

/-- What the two writers do with a line: nothing, write it, or write it and rotate. -/
theorem writerLoop_cases (kind : LogKind) (inv : LogInv path log) (text : String) :
    (log.writer.plainOpen = true ∧ (log.count text).full = true ∧
        kind.writerLoop text log = ((log.put text).count text).rotateFile) ∨
      (¬ (log.writer.plainOpen = true ∧ (log.count text).full = true) ∧
        (kind.writerLoop text log = log ∨ kind.writerLoop text log = log.put text ∨
          kind.writerLoop text log = (log.put text).count text)) := by
  have hfull : ((log.put text).count text).full = (log.count text).full := rfl
  cases hopen : log.writer.plainOpen with
  | false =>
      refine Or.inr ⟨by simp, ?_⟩
      cases kind with
      | arbDetector =>
          left
          simp [LogKind.writerLoop, Brain.ArbDetector.writerLoop, hopen]
      | filePersistSink =>
          cases hgzip : log.writer.gzipOpen with
          | false =>
              left
              simp [LogKind.writerLoop, Feed.FilePersistSink.writerLoop, hopen, hgzip]
          | true =>
              right
              left
              simp [LogKind.writerLoop, Feed.FilePersistSink.writerLoop, hgzip]
  | true =>
      obtain ⟨hpath, hgzip⟩ := inv.plain hopen
      rw [← inv.path_eq] at hpath
      cases hrotates : (log.count text).full with
      | false =>
          refine Or.inr ⟨by simp, Or.inr (Or.inr ?_)⟩
          cases kind with
          | arbDetector =>
              simp [LogKind.writerLoop, Brain.ArbDetector.writerLoop, hopen, hfull, hrotates]
          | filePersistSink =>
              simp [LogKind.writerLoop, Feed.FilePersistSink.writerLoop, hopen, hgzip, hfull, hrotates]
      | true =>
          refine Or.inl ⟨rfl, rfl, ?_⟩
          cases kind with
          | arbDetector =>
              have hrotate : Brain.ArbDetector.rotateOutput ((log.put text).count text) =
                  ((log.put text).count text).rotateFile := if_neg hpath
              simp [LogKind.writerLoop, Brain.ArbDetector.writerLoop, hopen, hfull, hrotates, hrotate]
          | filePersistSink =>
              have hrotate : Feed.FilePersistSink.rotate ((log.put text).count text) =
                  ((log.put text).count text).rotateFile := by
                refine if_neg ?_
                simp [Log.put, Log.count, hopen, hgzip]
              simp [LogKind.writerLoop, Feed.FilePersistSink.writerLoop, hopen, hgzip, hfull, hrotates,
                hrotate]

/-- A line that is written is kept, and so are those before it, exactly if it does not make the writer
    rotate under a number that is zero or in use. -/
theorem LogInv.write (kind : LogKind) (inv : LogInv path log) (text : String) :
    (RotatesSafely log (.write text) → LogInv path (kind.step log (.write text))) ∧
      (LinesKept path (kind.step log (.write text)) → RotatesSafely log (.write text)) := by
  rw [LogKind.step]
  rcases writerLoop_cases kind inv text with ⟨hopen, hfull, hloop⟩ | ⟨hstays, hloop⟩
  · -- the line was written, and the file it went to is set aside
    have hput : LogInv path ((log.put text).count text) := (inv.put text).count text
    have hdisk : ((log.put text).count text).disk = log.disk.append path (log.nextLine text) :=
      inv.disk_put text
    have hline : ((log.put text).count text).disk.contents path ≠ [] := by
      rw [hdisk, contents_append, if_pos rfl]
      exact List.append_ne_nil_of_right_ne_nil _ (List.cons_ne_nil _ _)
    have hfree : ((log.put text).count text).disk.file (rotatedPath path (log.writer.rotateSeq + 1)) =
        log.disk.file (rotatedPath log.writer.path (log.writer.rotateSeq + 1)) := by
      rw [hdisk, file_append, if_neg (rotatedPath_ne path _).symm, inv.path_eq]
    rw [hloop]
    constructor
    · intro hsafe
      obtain ⟨hnumber, hnone⟩ := hsafe hopen hfull
      exact hput.rotateFile hopen hline hnumber (hfree.trans hnone)
    · intro hkept _ _
      by_contra hunsafe
      rw [← hfree] at hunsafe
      exact hput.rotateFile_loses hopen hline hunsafe hkept
  · refine ⟨fun _ => ?_, fun _ hopen hfull => absurd ⟨hopen, hfull⟩ hstays⟩
    rcases hloop with hsame | hput | hcounted
    · rw [hsame]
      exact inv
    · rw [hput]
      exact inv.put text
    · rw [hcounted]
      exact (inv.put text).count text

/-- What opening the output gives a new process. -/
theorem openLog_spec (kind : LogKind) (path : String) (maxBytes : UInt64) (disk : Store String LogLine) :
    (kind.openLog path maxBytes disk).1.path = path ∧
      ((kind.openLog path maxBytes disk).1.plainOpen = true →
        path ≠ "" ∧ (kind.openLog path maxBytes disk).1.gzipOpen = false ∧
          (kind.openLog path maxBytes disk).2 = disk.openAppend path) ∧
      ((kind.openLog path maxBytes disk).2 = disk ∨
        (kind.openLog path maxBytes disk).2 = disk.openAppend path) := by
  cases kind with
  | arbDetector =>
      rw [LogKind.openLog, Brain.ArbDetector.openOutput]
      split
      · rename_i hpath
        exact ⟨rfl, fun _ => ⟨hpath, rfl, rfl⟩, Or.inr rfl⟩
      · exact ⟨rfl, nofun, Or.inl rfl⟩
  | filePersistSink =>
      rw [LogKind.openLog, Feed.FilePersistSink.openFile]
      split
      · exact ⟨rfl, nofun, Or.inr rfl⟩
      · split
        · rename_i hpath
          exact ⟨rfl, fun _ => ⟨hpath, rfl, rfl⟩, Or.inr rfl⟩
        · exact ⟨rfl, nofun, Or.inl rfl⟩

/-- Opening the output of a new process leaves all lines where they are. -/
theorem logInv_openLog (kind : LogKind) (maxBytes : UInt64) {disk : Store String LogLine}
    {written : List LogLine} (numbered : ∀ line ∈ written, line.number < written.length)
    (kept : ∀ line ∈ written, Kept (logPaths path) disk line)
    (only_written : ∀ p, ∀ line ∈ disk.contents p, line ∈ written)
    (aside_nonempty : ∀ p, p ≠ path → disk.file p ≠ some []) :
    LogInv path
      { disk := (kind.openLog path maxBytes disk).2, writer := (kind.openLog path maxBytes disk).1
        written := written } := by
  obtain ⟨hpath, hplain, hdisk⟩ := openLog_spec kind path maxBytes disk
  have hcontents : ∀ p, (kind.openLog path maxBytes disk).2.contents p = disk.contents p := by
    intro p
    rcases hdisk with hsame | happend
    · rw [hsame]
    · rw [happend, contents_openAppend]
  have hfile : ∀ p, p ≠ path → (kind.openLog path maxBytes disk).2.file p = disk.file p := by
    intro p hp
    rcases hdisk with hsame | happend
    · rw [hsame]
    · rw [happend, file_openAppend, if_neg hp]
  refine ⟨hpath, numbered, ?_, ?_, ?_, ?_, ?_⟩
  · intro line hline
    exact (Kept.congr fun p => by rw [hcontents]).mpr (kept line hline)
  · intro p line hline
    rw [hcontents] at hline
    exact only_written p line hline
  · intro p hp
    rw [hfile p hp]
    exact aside_nonempty p hp
  · intro hopen
    exact ⟨(hplain hopen).1, (hplain hopen).2.1⟩
  · intro hopen
    change ((kind.openLog path maxBytes disk).2.file path).isSome = true
    rw [(hplain hopen).2.2, file_openAppend, if_pos rfl]
    rfl

theorem LogInv.restart (kind : LogKind) (inv : LogInv path log) (maxBytes : UInt64) :
    LogInv path (kind.step log (.restart maxBytes)) := by
  have hreopened := logInv_openLog kind maxBytes inv.numbered inv.kept inv.only_written inv.aside_nonempty
  rw [← inv.path_eq] at hreopened ⊢
  exact hreopened

theorem logInv_start (kind : LogKind) (path : String) (maxBytes : UInt64) :
    LogInv path (kind.start path maxBytes) :=
  logInv_openLog kind maxBytes nofun nofun nofun nofun

end Steps

/-! ### Results -/

/-- Over any sequence of lines and restarts, every line written so far is at all times in exactly one of the
    files `path`, `path.1`, `path.2` and so on, exactly if no rotation is under the number zero or under a
    number that a file carries already. -/
theorem rotation_keeps_lines_iff (kind : LogKind) (path : String) (maxBytes : UInt64)
    (events : List LogEvent) :
    (∀ reached, reached <+: events →
        LinesKept path (Runs.run kind.step (kind.start path maxBytes) reached)) ↔
      Runs.Along kind.step RotatesSafely (kind.start path maxBytes) events := by
  apply Runs.Along.iff_of_invariant (LogInv path) (LinesKept path)
  · exact fun log inv => inv.kept
  · intro log event inv hsafe
    cases event with
    | write text => exact (inv.write kind text).1 hsafe
    | restart maxBytes => exact inv.restart kind maxBytes
  · intro log event inv hkept
    cases event with
    | write text => exact (inv.write kind text).2 hkept
    | restart maxBytes => trivial
  · exact logInv_start kind path maxBytes

/-- Two processes, one after the other, each of which writes a line that fills its file. -/
def twoProcesses (kind : LogKind) : Log :=
  Runs.run kind.step (kind.start "out.jsonl" 1) [.write "a\n", .restart 1, .write "b\n"]

theorem twoProcesses_not_kept (kind : LogKind) : ¬ LinesKept "out.jsonl" (twoProcesses kind) := by
  intro hkept
  let first := kind.step (kind.start "out.jsonl" 1) (.write "a\n")
  let second := kind.step first (.restart 1)
  have hfirst : LogInv "out.jsonl" first := by
    refine ((logInv_start kind "out.jsonl" 1).write kind "a\n").1 ?_
    cases kind <;> decide
  have hsafe : RotatesSafely second (.write "b\n") :=
    ((hfirst.restart kind 1).write kind "b\n").2 hkept
  -- the second process rotates under the number that the first has used
  have hrotates : second.writer.plainOpen = true ∧ (second.count "b\n").full = true := by
    cases kind <;> decide
  have htaken : second.disk.file (rotatedPath second.writer.path (second.writer.rotateSeq + 1)) ≠ none := by
    cases kind <;> decide
  exact htaken (hsafe hrotates.1 hrotates.2).2

/-- Of either output a line that was written is not in exactly one file of the log. -/
theorem rotation_loses_line :
    ¬ LinesKept "out.jsonl" (twoProcesses .arbDetector) ∧
      ¬ LinesKept "out.jsonl" (twoProcesses .filePersistSink) :=
  ⟨twoProcesses_not_kept .arbDetector, twoProcesses_not_kept .filePersistSink⟩

end ZidaBot
