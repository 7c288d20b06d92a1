import EapAccel.Foundations.Act
import EapAccel.Foundations.Numerals
import EapAccel.Foundations.Store
import EapAccel.Session

/-!
# The reporter

`proxy/report.py`: every finished authentication is written to a JSON file of its own and printed
as a block. A record that cannot be written is not an error of the proxy: the block has the
`OSError` instead of the path, and the next record is written as if nothing had been.

Abstractly the directory is a log: calls of `report` add entries to it, one file each, and no call
touches the file of another (`Reporter.Logs`). What the files are called makes it so: a name has
the number of its record, and the number can be read off the name (`number_of_fileName`).
-/

set_option autoImplicit false

namespace EapAccel

open Foundations

/-! ## File names -/

/-- The local time, as `time.strftime` takes it. -/
structure LocalTime where
  year : ℕ
  month : ℕ
  day : ℕ
  hour : ℕ
  minute : ℕ
  second : ℕ
  deriving DecidableEq, Repr

/-- `"%Y%m%d"`. -/
def LocalTime.date (time : LocalTime) : List Char :=
  padded 4 time.year ++ padded 2 time.month ++ padded 2 time.day

/-- `"%H%M%S"`. -/
def LocalTime.clock (time : LocalTime) : List Char :=
  padded 2 time.hour ++ padded 2 time.minute ++ padded 2 time.second

/-- `time.strftime("%Y%m%d-%H%M%S")`. -/
def LocalTime.strftime (time : LocalTime) : List Char := time.date ++ '-' :: time.clock

/-- The value of `"mode"` in a summary. -/
def Mode.text : Mode → String
  | .reassemble => "reassemble"
  | .passthrough => "passthrough"

/-- The value of `"result"` in a summary, as `str.format` writes it. -/
def resultText : Option Verdict → String
  | some .accept => "accept"
  | some .reject => "reject"
  | none => "None"

/-- `"{ts}-{seq:03d}-{mode}-{result}.json"`. -/
def fileName (ts : LocalTime) (seq : ℕ) (mode : Mode) (result : Option Verdict) : String :=
  String.ofList (ts.strftime ++ '-' :: (padded 3 seq ++
    '-' :: (mode.text.toList ++ '-' :: ((resultText result).toList ++ ".json".toList))))

/-- `os.path.join`. -/
def osPathJoin (directory name : String) : String :=
  if name.toList.head? = some '/' then name
  else if directory = "" ∨ directory.toList.getLast? = some '/' then directory ++ name
  else directory ++ "/" ++ name

theorem dash_notMem_date (ts : LocalTime) : '-' ∉ ts.date :=
  sep_notMem_append
    (sep_notMem_append (sep_notMem_padded rfl 4 ts.year) (sep_notMem_padded rfl 2 ts.month))
    (sep_notMem_padded rfl 2 ts.day)

theorem dash_notMem_clock (ts : LocalTime) : '-' ∉ ts.clock :=
  sep_notMem_append
    (sep_notMem_append (sep_notMem_padded rfl 2 ts.hour) (sep_notMem_padded rfl 2 ts.minute))
    (sep_notMem_padded rfl 2 ts.second)

/-- The fields of a file name. -/
theorem toList_fileName (ts : LocalTime) (seq : ℕ) (mode : Mode) (result : Option Verdict) :
    (fileName ts seq mode result).toList =
      ts.date ++ '-' :: (ts.clock ++ '-' :: (padded 3 seq ++
        '-' :: (mode.text.toList ++ '-' :: ((resultText result).toList ++ ".json".toList)))) := by
  rw [fileName, String.toList_ofList, LocalTime.strftime, List.append_assoc, List.cons_append]

/-- **The number of a record can be read off the name of its file.** -/
theorem number_of_fileName {ts ts' : LocalTime} {seq seq' : ℕ} {mode mode' : Mode}
    {result result' : Option Verdict}
    (same : fileName ts seq mode result = fileName ts' seq' mode' result') : seq = seq' := by
  have fields := congrArg String.toList same
  rw [toList_fileName, toList_fileName] at fields
  obtain ⟨_, fields⟩ := fields_injective (dash_notMem_date ts) (dash_notMem_date ts') fields
  obtain ⟨_, fields⟩ := fields_injective (dash_notMem_clock ts) (dash_notMem_clock ts') fields
  obtain ⟨numbers, _⟩ := fields_injective (sep_notMem_padded rfl 3 seq)
    (sep_notMem_padded rfl 3 seq') fields
  exact padded_injective numbers

/-- A file name begins with a digit, so it is not an absolute path. -/
theorem head_fileName (ts : LocalTime) (seq : ℕ) (mode : Mode) (result : Option Verdict) :
    (fileName ts seq mode result).toList.head? ≠ some '/' := by
  rw [toList_fileName, LocalTime.date, List.append_assoc, List.append_assoc]
  have digits : padded 4 ts.year ≠ [] := padded_ne_nil 4 ts.year
  rw [List.head?_append_of_ne_nil _ digits]
  intro slash
  exact sep_notMem_padded rfl 4 ts.year (List.mem_of_mem_head? slash)

/-- Files in one directory have paths of their own. -/
theorem osPathJoin_injective {directory name name' : String}
    (relative : name.toList.head? ≠ some '/') (relative' : name'.toList.head? ≠ some '/')
    (same : osPathJoin directory name = osPathJoin directory name') : name = name' := by
  rw [osPathJoin, osPathJoin, if_neg relative, if_neg relative'] at same
  by_cases closed : directory = "" ∨ directory.toList.getLast? = some '/'
  · rw [if_pos closed, if_pos closed] at same
    exact (String.append_right_inj directory).mp same
  · rw [if_neg closed, if_neg closed] at same
    exact (String.append_right_inj (directory ++ "/")).mp same

/-! ## The reporter -/

/-- The record that is written: the summary, with the time of writing. -/
structure Record where
  timestamp : String
  summary : Session.Summary
  deriving DecidableEq

/-- The surroundings of one call of `report`: the time, and where the system raises an `OSError`,
its text. -/
structure Desk where
  /-- `datetime.now(timezone.utc).isoformat(timespec="seconds")`. -/
  timestamp : String
  localTime : LocalTime
  /-- `os.makedirs` and `open`. -/
  makedirs : Except String Unit := .ok ()
  opened : Except String Unit := .ok ()
  /-- Writing and closing the file: how many characters have got into it when that raises. -/
  closed : Except (ℕ × String) Unit := .ok ()
  /-- `_print_block`. -/
  printBlock : Session.Summary → Option String → Option String → Except Raised Unit :=
    fun _ _ _ => .ok ()

/-- `Reporter`, and the files there are. Nothing but the reporter changes them. -/
structure Reporter where
  outputDir : String
  seq : ℕ := 0
  files : String → Option String

/-- What of a text gets into a file. -/
def Desk.reaching (desk : Desk) (text : String) : String :=
  match desk.closed with
  | .ok () => text
  | .error (count, _) => String.ofList (text.toList.take count)

section

variable (dump : Record → String) (desk : Desk) (summary : Session.Summary)

/-- `_write_json`. The text of a record is `dump record`. -/
def writeJson : Act String Reporter String := do
  Act.lift desk.makedirs
  Act.modify fun reporter => { reporter with seq := reporter.seq + 1 }
  let reporter ← Act.read
  let fname := fileName desk.localTime reporter.seq summary.mode summary.result
  let path := osPathJoin reporter.outputDir fname
  Act.lift desk.opened
  let text := desk.reaching (dump ⟨desk.timestamp, summary⟩ ++ "\n")
  Act.modify fun reporter => { reporter with files := Function.update reporter.files path (some text) }
  Act.lift (desk.closed.mapError Prod.snd)
  return path

/-- `report`. -/
def report : Act Raised Reporter (Option String) := fun reporter =>
  match writeJson dump desk summary reporter with
  | (.ok path, reporter) => (do
      desk.printBlock summary (some path) none
      return some path, reporter)
  | (.error error, reporter) => (do
      desk.printBlock summary none (some error)
      return none, reporter)

end

/-- The reporter after some calls. -/
def reportAll (dump : Record → String) (calls : List (Desk × Session.Summary))
    (reporter : Reporter) : Reporter :=
  calls.foldl (fun reporter call => (report dump call.1 call.2 reporter).2) reporter

/-- The path of the file that the `n`-th call wrote, if all of it got out. -/
def wrote (dump : Record → String) (calls : List (Desk × Session.Summary)) (reporter : Reporter)
    (n : ℕ) : Option String :=
  calls[n]?.bind fun call =>
    (writeJson dump call.1 call.2 (reportAll dump (calls.take n) reporter)).1.toOption

/-! ## The directory as a log -/

/-- The path of a file with a number. -/
def Reporter.Numbered (reporter : Reporter) (seq : ℕ) (path : String) : Prop :=
  ∃ ts mode result, path = osPathJoin reporter.outputDir (fileName ts seq mode result)

/-- **Files with different numbers are different files.** -/
theorem Reporter.Numbered.unique {reporter : Reporter} {seq seq' : ℕ} {path : String}
    (numbered : reporter.Numbered seq path) (numbered' : reporter.Numbered seq' path) :
    seq = seq' := by
  obtain ⟨ts, mode, result, named⟩ := numbered
  obtain ⟨ts', mode', result', named'⟩ := numbered'
  have same := osPathJoin_injective (head_fileName ts seq mode result)
    (head_fileName ts' seq' mode' result') (named.symm.trans named')
  exact number_of_fileName same

/-- The directory has the entries of a log on top of what was there before: each in a file of its
own, whose number has been given out. -/
structure Reporter.Logs (start : Reporter) (entries : List (String × String))
    (reporter : Reporter) : Prop where
  outputDir : reporter.outputDir = start.outputDir
  seq : start.seq ≤ reporter.seq
  files : reporter.files = written entries start.files
  distinct : (entries.map Prod.fst).Nodup
  numbered : ∀ path ∈ entries.map Prod.fst, ∃ seq, start.seq < seq ∧ seq ≤ reporter.seq ∧
    start.Numbered seq path

variable {dump : Record → String} {desk : Desk} {summary : Session.Summary}

/-- The reporter when a number has been given out. -/
def Reporter.numbering (reporter : Reporter) : Reporter := { reporter with seq := reporter.seq + 1 }

/-- The path of the next file. -/
def Reporter.nextPath (reporter : Reporter) (desk : Desk) (summary : Session.Summary) : String :=
  osPathJoin reporter.outputDir
    (fileName desk.localTime (reporter.seq + 1) summary.mode summary.result)

/-- What is written of a record. -/
def Desk.text (desk : Desk) (dump : Record → String) (summary : Session.Summary) : String :=
  dump ⟨desk.timestamp, summary⟩ ++ "\n"

/-- The reporter when something has been written to the next file. -/
def Reporter.filing (reporter : Reporter) (path text : String) : Reporter :=
  { reporter.numbering with files := Function.update reporter.files path (some text) }

/-- **What `_write_json` can do**: nothing, give out a number, or write to the file of the next
number. It returns only when all of the record is in it. -/
theorem writeJson_cases (dump : Record → String) (desk : Desk) (summary : Session.Summary)
    (reporter : Reporter) :
    (∃ error, writeJson dump desk summary reporter = (.error error, reporter)) ∨
      (∃ error, writeJson dump desk summary reporter = (.error error, reporter.numbering)) ∨
      (∃ error text, writeJson dump desk summary reporter =
        (.error error, reporter.filing (reporter.nextPath desk summary) text)) ∨
      writeJson dump desk summary reporter = (.ok (reporter.nextPath desk summary),
        reporter.filing (reporter.nextPath desk summary) (desk.text dump summary)) := by
  rcases made : desk.makedirs with error | _
  · refine .inl ⟨error, ?_⟩
    rw [writeJson, made]
    rfl
  rcases opened : desk.opened with error | _
  · refine .inr (.inl ⟨error, ?_⟩)
    rw [writeJson, made, opened]
    rfl
  refine .inr (.inr ?_)
  rcases closed : desk.closed with ⟨count, error⟩ | _
  · refine .inl ⟨error, desk.reaching (desk.text dump summary), ?_⟩
    rw [writeJson, made, opened, closed]
    rfl
  · refine .inr ?_
    have whole : desk.reaching (desk.text dump summary) = desk.text dump summary := by
      rw [Desk.reaching, closed]
    rw [writeJson, made, opened, closed, ← whole]
    rfl

theorem report_reporter (reporter : Reporter) :
    (report dump desk summary reporter).2 = (writeJson dump desk summary reporter).2 := by
  rw [report]
  rcases writeJson dump desk summary reporter with ⟨error | path, reporter'⟩
  · rfl
  · rfl

theorem Reporter.logs_refl (start : Reporter) : start.Logs [] start := by
  refine ⟨rfl, le_rfl, rfl, List.nodup_nil, ?_⟩
  intro path member
  cases member

/-- Giving out a number changes no file. -/
theorem Reporter.Logs.numbering {start reporter : Reporter} {entries : List (String × String)}
    (logs : start.Logs entries reporter) : start.Logs entries reporter.numbering := by
  refine ⟨logs.outputDir, Nat.le_succ_of_le logs.seq, logs.files, logs.distinct, ?_⟩
  intro path member
  obtain ⟨seq, above, below, named⟩ := logs.numbered path member
  exact ⟨seq, above, Nat.le_succ_of_le below, named⟩

/-- The next path has the next number. -/
theorem Reporter.Logs.numbered_next {start reporter : Reporter} {entries : List (String × String)}
    (logs : start.Logs entries reporter) (desk : Desk) (summary : Session.Summary) :
    start.Numbered (reporter.seq + 1) (reporter.nextPath desk summary) := by
  refine ⟨desk.localTime, summary.mode, summary.result, ?_⟩
  rw [Reporter.nextPath, logs.outputDir]

/-- **Writing to a file with the next number adds an entry.** -/
theorem Reporter.Logs.filing {start reporter : Reporter} {entries : List (String × String)}
    (logs : start.Logs entries reporter) {path : String}
    (next : start.Numbered (reporter.seq + 1) path) (text : String) :
    start.Logs (entries ++ [(path, text)]) (reporter.filing path text) := by
  refine ⟨logs.outputDir, Nat.le_succ_of_le logs.seq, ?_, ?_, ?_⟩
  · rw [written_concat, ← logs.files]
    rfl
  · rw [List.map_append, List.map_singleton, List.nodup_append]
    refine ⟨logs.distinct, List.nodup_singleton _, ?_⟩
    intro old member new single
    rw [List.mem_singleton.mp single]
    rintro rfl
    -- An old file has a number that was given out before.
    obtain ⟨seq, _, below, named⟩ := logs.numbered old member
    exact absurd (next.unique named) (Nat.ne_of_gt (Nat.lt_succ_of_le below))
  · intro other member
    rw [List.map_append, List.map_singleton] at member
    rcases List.mem_append.mp member with old | new
    · exact logs.numbering.numbered other old
    · rw [List.mem_singleton.mp new]
      exact ⟨reporter.seq + 1, Nat.lt_succ_of_le logs.seq, le_rfl, next⟩

/-- **One call adds at most one entry**, the whole record where a path is returned. -/
theorem Reporter.Logs.report {start reporter : Reporter} {entries : List (String × String)}
    (logs : start.Logs entries reporter) (dump : Record → String) (desk : Desk)
    (summary : Session.Summary) :
    ∃ new, start.Logs (entries ++ new) (report dump desk summary reporter).2 ∧
      reporter.seq ≤ (EapAccel.report dump desk summary reporter).2.seq ∧
      ∀ path, (writeJson dump desk summary reporter).1 = .ok path →
        (path, desk.text dump summary) ∈ new ∧ start.Numbered (reporter.seq + 1) path ∧
          (EapAccel.report dump desk summary reporter).2.seq = reporter.seq + 1 := by
  have next := logs.numbered_next desk summary
  rw [report_reporter]
  rcases writeJson_cases dump desk summary reporter with
    ⟨error, does⟩ | ⟨error, does⟩ | ⟨error, text, does⟩ | does
  · rw [does]
    refine ⟨[], ?_, le_rfl, ?_⟩
    · rw [List.append_nil]
      exact logs
    · intro path returned
      cases returned
  · rw [does]
    refine ⟨[], ?_, Nat.le_succ reporter.seq, ?_⟩
    · rw [List.append_nil]
      exact logs.numbering
    · intro path returned
      cases returned
  · rw [does]
    refine ⟨_, logs.filing next text, Nat.le_succ reporter.seq, ?_⟩
    intro path returned
    cases returned
  · rw [does]
    refine ⟨_, logs.filing next _, Nat.le_succ reporter.seq, ?_⟩
    intro path returned
    rw [← Except.ok.inj returned]
    exact ⟨List.mem_singleton_self _, next, rfl⟩

/-- **Any calls add entries.** -/
theorem Reporter.Logs.reportAll {start : Reporter} (dump : Record → String)
    (calls : List (Desk × Session.Summary)) : ∀ {reporter : Reporter}
    {entries : List (String × String)}, start.Logs entries reporter →
      ∃ new, start.Logs (entries ++ new) (reportAll dump calls reporter) ∧
        reporter.seq ≤ (EapAccel.reportAll dump calls reporter).seq := by
  induction calls with
  | nil =>
      intro reporter entries logs
      refine ⟨[], ?_, le_rfl⟩
      rw [List.append_nil]
      exact logs
  | cons call calls ih =>
      intro reporter entries logs
      obtain ⟨first, logged, grows, _⟩ := logs.report dump call.1 call.2
      obtain ⟨later, ended, grew⟩ := ih logged
      rw [List.append_assoc] at ended
      exact ⟨first ++ later, ended, grows.trans grew⟩

/-! ## What is kept -/

/-- The calls up to one of them, that one, and those after it. -/
theorem reportAll_split {calls : List (Desk × Session.Summary)} {n : ℕ}
    {call : Desk × Session.Summary} (there : calls[n]? = some call) (dump : Record → String)
    (reporter : Reporter) :
    reportAll dump calls reporter = reportAll dump (calls.drop (n + 1))
      (report dump call.1 call.2 (reportAll dump (calls.take n) reporter)).2 := by
  obtain ⟨bound, rfl⟩ := List.getElem?_eq_some_iff.mp there
  have split : calls = calls.take n ++ calls[n] :: calls.drop (n + 1) := by
    rw [List.getElem_cons_drop, List.take_append_drop]
  conv_lhs => rw [split]
  rw [EapAccel.reportAll, List.foldl_append]
  rfl

/-- The call whose record was written whole. -/
theorem call_of_wrote {calls : List (Desk × Session.Summary)} {reporter : Reporter} {n : ℕ}
    {path : String} (returned : wrote dump calls reporter n = some path) :
    ∃ desk summary, calls[n]? = some (desk, summary) ∧
      (writeJson dump desk summary (reportAll dump (calls.take n) reporter)).1 = .ok path := by
  obtain ⟨⟨desk, summary⟩, there, wrote⟩ := Option.bind_eq_some_iff.mp returned
  refine ⟨desk, summary, there, ?_⟩
  rcases outcome :
      (writeJson dump desk summary (reportAll dump (calls.take n) reporter)).1 with e | path'
  · rw [outcome] at wrote
    cases wrote
  · rw [outcome] at wrote
    cases wrote
    rfl

/-- What was written whole has the next number, which is never given out again. -/
theorem numbered_of_wrote {calls : List (Desk × Session.Summary)} {reporter : Reporter} {n : ℕ}
    {path : String} (returned : wrote dump calls reporter n = some path) :
    reporter.Numbered ((reportAll dump (calls.take n) reporter).seq + 1) path ∧
      ∀ k, n < k → (reportAll dump (calls.take n) reporter).seq + 1 ≤
        (reportAll dump (calls.take k) reporter).seq := by
  obtain ⟨desk, summary, there, wrote⟩ := call_of_wrote returned
  obtain ⟨_, logs, _⟩ := (Reporter.logs_refl reporter).reportAll dump (calls.take n)
  obtain ⟨_, logged, _, whole⟩ := logs.report dump desk summary
  obtain ⟨_, named, next⟩ := whole path wrote
  refine ⟨named, ?_⟩
  intro k later
  have within : (calls.take k)[n]? = some (desk, summary) := by
    rw [List.getElem?_take_of_lt later]
    exact there
  obtain ⟨_, _, grows⟩ := logged.reportAll dump ((calls.take k).drop (n + 1))
  rw [reportAll_split within, List.take_take, Nat.min_eq_left later.le, ← next]
  exact grows

/-- What was written whole is there after all calls. -/
theorem kept_of_wrote {calls : List (Desk × Session.Summary)} {reporter : Reporter} {n : ℕ}
    {path : String} (returned : wrote dump calls reporter n = some path) :
    ∃ desk summary, calls[n]? = some (desk, summary) ∧
      (reportAll dump calls reporter).files path = some (desk.text dump summary) := by
  obtain ⟨desk, summary, there, wrote⟩ := call_of_wrote returned
  obtain ⟨old, logs, _⟩ := (Reporter.logs_refl reporter).reportAll dump (calls.take n)
  obtain ⟨new, logged, _, whole⟩ := logs.report dump desk summary
  obtain ⟨more, ended, _⟩ := logged.reportAll dump (calls.drop (n + 1))
  refine ⟨desk, summary, there, ?_⟩
  rw [reportAll_split there, ended.files]
  have member : (path, desk.text dump summary) ∈ [] ++ old ++ new ++ more :=
    List.mem_append_left more (List.mem_append_right _ (whole path wrote).1)
  exact written_of_mem reporter.files ended.distinct member

/-- No two calls wrote the same file. -/
theorem wrote_unique {calls : List (Desk × Session.Summary)} {reporter : Reporter} {m n : ℕ}
    {path : String} (first : wrote dump calls reporter m = some path)
    (second : wrote dump calls reporter n = some path) : m = n := by
  obtain ⟨named, later⟩ := numbered_of_wrote first
  obtain ⟨named', later'⟩ := numbered_of_wrote second
  have same := named.unique named'
  rcases lt_trichotomy m n with before | here | after
  · have grown := later n before
    omega
  · exact here
  · have grown := later' m after
    omega

/-- **Records are kept.** Over any calls of `report`, whatever the system refuses and wherever
writing breaks off: every record that was written whole is in a file of its own to the end, and no
file changes but those with numbers that these calls gave out. -/
theorem records_kept (dump : Record → String) (calls : List (Desk × Session.Summary))
    (reporter : Reporter) :
    (∀ n path, wrote dump calls reporter n = some path →
      ∃ desk summary, calls[n]? = some (desk, summary) ∧
        (reportAll dump calls reporter).files path =
          some (dump ⟨desk.timestamp, summary⟩ ++ "\n")) ∧
      (∀ m n path, wrote dump calls reporter m = some path →
        wrote dump calls reporter n = some path → m = n) ∧
      ∀ path, (reportAll dump calls reporter).files path ≠ reporter.files path →
        ∃ seq, reporter.seq < seq ∧ seq ≤ (reportAll dump calls reporter).seq ∧
          reporter.Numbered seq path := by
  refine ⟨fun n path => kept_of_wrote, fun m n path => wrote_unique, ?_⟩
  intro path changed
  obtain ⟨entries, logs, _⟩ := (Reporter.logs_refl reporter).reportAll dump calls
  apply logs.numbered path
  by_contra other
  rw [logs.files] at changed
  exact changed (written_of_notMem reporter.files other)

end EapAccel
