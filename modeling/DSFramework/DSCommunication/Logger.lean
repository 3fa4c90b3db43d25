import Mathlib.Data.List.Forall2
import Mathlib.Data.List.TakeWhile

/-!
# The logger

What the consumer of `Logger` makes of the records that it takes from the queue. A record for the
console is printed at once, as a C string. One for the file is kept in the buffer of a `LogDumpTask`
until the buffer is full; then the buffer is dumped, and the record that has found it full is lost.
What the buffer holds in the end the destructor dumps.

`written` says what of the records for the file gets there. `output_iff` says when the two outputs
are what they should be.
-/

namespace DSFramework.DSCommunication

/-- `Log::LogLv`. -/
inductive LogLv where
  | debugs
  | info
  | warn
  | errors
  | unknown
  deriving DecidableEq, Repr

/-- `Log`. -/
structure Log where
  lv : LogLv
  time : String
  threadID : String
  content : String
  fileName : String
  functionName : String
  line : Int
  srcDetail : Bool
  toConsole : Bool
  deriving DecidableEq, Repr

/-- `kDefaultMaxLogCount`. -/
def kDefaultMaxLogCount : Nat := 10

namespace Log

/-- `level_str`. -/
def levelStr : LogLv → String
  | .debugs => "DEBUGS"
  | .info => "INFO"
  | .warn => "WARN"
  | .errors => "ERRORS"
  | .unknown => "UNKNOWN"

/-- `color_code`. -/
def colorCode : LogLv → String
  | .debugs => "\x1b[36m"
  | .info => "\x1b[32m"
  | .warn => "\x1b[33m"
  | .errors => "\x1b[31m"
  | .unknown => "\x1b[37m"

/-- `GetColorTextLogLv`. -/
def getColorTextLogLv (lv : LogLv) : String :=
  colorCode lv ++ "[" ++ levelStr lv ++ "] " ++ "\x1b[0m"

/-- `GetDefaultTextLogLv`. -/
def getDefaultTextLogLv (lv : LogLv) : String := "[" ++ levelStr lv ++ "] "

/-- The fields of a record that its text shows. -/
def shown (log : Log) : List String :=
  if log.srcDetail then [log.time, log.threadID, log.content, log.fileName, log.functionName]
  else [log.time, log.threadID, log.content]

/-- Both `ToString`s behind the level: every field behind a blank, and the line. -/
def text (level : String) (log : Log) : String :=
  if log.srcDetail then
    level ++ " " ++ log.time ++ " " ++ log.threadID ++ " " ++ log.content ++ " " ++
      log.fileName ++ " " ++ log.functionName ++ " " ++ toString log.line ++ "\n"
  else level ++ " " ++ log.time ++ " " ++ log.threadID ++ " " ++ log.content ++ "\n"

/-- No field that the text shows has a null character in it. -/
def plain (log : Log) : Bool := log.shown.all fun s => !s.toList.contains '\x00'

end Log

/-- `LogDumpTask::ToString`. -/
def LogDumpTask.toString (log : Log) : String := log.text (Log.getDefaultTextLogLv log.lv)

/-- What `std::cout << s.c_str()` prints of `s`. -/
def cStr (s : String) : String := String.ofList (s.toList.takeWhile (· != '\x00'))

/-- The logger without its queue: the buffer of `m_dumpTask`, the log file and the console. -/
structure Logger where
  maxLogCount : Nat
  dumpLogs : List Log
  file : String
  console : String
  deriving DecidableEq, Repr

namespace Logger

/-- `Logger::ToString`. -/
def toString (log : Log) : String := log.text (Log.getColorTextLogLv log.lv)

/-- A logger as constructed, with what is in the file and on the console already. -/
def new (file console : String) : Logger :=
  { maxLogCount := kDefaultMaxLogCount
    dumpLogs := []
    file := file
    console := console }

/-- `LogDumpTask::Dump`, where the file can be opened or not. -/
def dump (opens : Bool) (v : Logger) : Logger :=
  if v.dumpLogs.isEmpty then v
  else { v with
    file := if opens then v.file ++ String.join (v.dumpLogs.map LogDumpTask.toString) else v.file
    dumpLogs := [] }

/-- What the loop of the consumer does with a record. A full buffer is dumped and replaced; the
record is not added to the new one. -/
def consume (opens : Bool) (v : Logger) (log : Log) : Logger :=
  if log.toConsole then { v with console := v.console ++ cStr (toString log) }
  else if v.dumpLogs.length < v.maxLogCount then { v with dumpLogs := v.dumpLogs ++ [log] }
  else { v.dump opens with dumpLogs := [] }

/-- The records are consumed one by one, and the destructor dumps the buffer. -/
def consumeAll (opens : Bool) (logs : List Log) (v : Logger) : Logger :=
  (logs.foldl (consume opens) v).dump opens

/-- What is written to the file for each of its records, with so many in the buffer before. -/
def written (max : Nat) : Nat → List Log → List String
  | _, [] => []
  | n, log :: logs =>
    if n < max then LogDumpTask.toString log :: written max (n + 1) logs
    else "" :: written max 0 logs

/-! ## Texts -/

/-- Nothing or something has been taken from `s`. -/
def Shortens (s' s : String) : Prop := s' = s ∨ s'.length < s.length

theorem length_join_le {l l' : List String} (h : List.Forall₂ Shortens l' l) :
    (String.join l').length ≤ (String.join l).length := by
  induction h with
  | nil => exact Nat.le_refl _
  | cons hs _ ih =>
    rw [String.join_cons, String.join_cons, String.length_append, String.length_append]
    rcases hs with rfl | hlt
    · exact Nat.add_le_add_left ih _
    · exact Nat.add_le_add (Nat.le_of_lt hlt) ih

/-- Where something is missing, the whole is another. -/
theorem eq_of_join_eq {l l' : List String} (h : List.Forall₂ Shortens l' l)
    (heq : String.join l' = String.join l) : l' = l := by
  induction h with
  | nil => rfl
  | @cons s' s t' t hs ht ih =>
    rw [String.join_cons, String.join_cons] at heq
    have hlength := congrArg String.length heq
    rw [String.length_append, String.length_append] at hlength
    have hle := length_join_le ht
    rcases hs with rfl | hlt
    · rw [ih ((String.append_right_inj s').mp heq)]
    · omega

/-- A C string ends before the first null character. -/
theorem shortens_cStr (s : String) : Shortens (cStr s) s := by
  rcases Nat.lt_or_ge (cStr s).length s.length with hlt | hge
  · exact .inr hlt
  · left
    have hbegin : s.toList.takeWhile (· != '\x00') <+: s.toList := List.takeWhile_prefix _
    have hlength : s.toList.length ≤ (s.toList.takeWhile (· != '\x00')).length := by
      rw [cStr, String.length_ofList] at hge
      exact hge
    rw [cStr, hbegin.eq_of_length_le hlength, String.ofList_toList]

theorem cStr_eq_iff (s : String) : cStr s = s ↔ '\x00' ∉ s.toList := by
  rw [cStr, ← String.toList_inj, String.toList_ofList, List.takeWhile_eq_self_iff]
  constructor
  · intro hall hmem
    exact absurd rfl (bne_iff_ne.mp (hall _ hmem))
  · rintro hnot c hmem
    refine bne_iff_ne.mpr ?_
    rintro rfl
    exact hnot hmem

/-- A number is printed without a null character. -/
theorem null_notMem_repr (n : Int) : '\x00' ∉ n.repr.toList := by
  have hnat : ∀ m : Nat, '\x00' ∉ m.repr.toList := by
    intro m hmem
    rw [Nat.toList_repr] at hmem
    cases Nat.isDigit_of_mem_toDigits (by decide) (by decide) hmem
  cases n with
  | ofNat m => exact hnat m
  | negSucc m =>
    rw [Int.repr, String.toList_append, List.mem_append, not_or]
    exact ⟨by decide, hnat m.succ⟩

/-- The text has a null character in it exactly when one of the fields has. -/
theorem null_notMem_text {level : String} (hlevel : '\x00' ∉ level.toList) (log : Log) :
    '\x00' ∉ (log.text level).toList ↔ log.plain = true := by
  have hline := null_notMem_repr log.line
  unfold Log.text Log.plain Log.shown
  cases log.srcDetail with
  | true => simp [hlevel, hline]
  | false => simp [hlevel]

theorem null_notMem_getColorTextLogLv (lv : LogLv) :
    '\x00' ∉ (Log.getColorTextLogLv lv).toList := by
  cases lv <;> decide

/-- A record without null characters is printed in full, and no other is. -/
theorem cStr_toString_iff (log : Log) : cStr (toString log) = toString log ↔ log.plain = true :=
  (cStr_eq_iff _).trans (null_notMem_text (null_notMem_getColorTextLogLv log.lv) log)

/-- Every text ends with a line feed. -/
theorem toString_ne_empty (log : Log) : LogDumpTask.toString log ≠ "" := by
  have hlength : 0 < (LogDumpTask.toString log).length := by
    unfold LogDumpTask.toString Log.text
    split <;> rw [String.length_append] <;> exact Nat.lt_add_left _ (by decide)
  intro hempty
  rw [hempty] at hlength
  exact absurd hlength (Nat.lt_irrefl 0)

/-! ## What is written -/

section Written

variable {opens : Bool} {v : Logger} {max n : Nat} {log : Log} {logs : List Log}

theorem shortens_written : ∀ (n : Nat) (logs : List Log),
    List.Forall₂ Shortens (written max n logs) (logs.map LogDumpTask.toString)
  | _, [] => .nil
  | n, log :: logs => by
    rw [written]
    split
    · exact .cons (.inl rfl) (shortens_written (n + 1) logs)
    · refine .cons (.inr ?_) (shortens_written 0 logs)
      exact Nat.pos_of_ne_zero fun hzero =>
        toString_ne_empty log (String.length_eq_zero_iff.mp hzero)

/-- Everything is written exactly when the records fit into the buffer. -/
theorem written_eq_iff (hn : n ≤ max) :
    written max n logs = logs.map LogDumpTask.toString ↔ n + logs.length ≤ max := by
  induction logs generalizing n with
  | nil => exact iff_of_true rfl hn
  | cons log logs ih =>
    rw [written, List.length_cons, List.map_cons]
    split
    case isTrue hlt =>
      rw [List.cons_inj_right, ih hlt]
      omega
    case isFalse hfull =>
      constructor
      · intro heq
        exact absurd (List.cons.inj heq).1.symm (toString_ne_empty log)
      · intro hle
        omega

/-- The records for the file. -/
def fileBound (logs : List Log) : List Log := logs.filter fun log => !log.toConsole

/-- The records for the console. -/
def consoleBound (logs : List Log) : List Log := logs.filter Log.toConsole

/-- What is in the file and in the buffer. -/
def filed (v : Logger) : String :=
  v.file ++ String.join (v.dumpLogs.map LogDumpTask.toString)

/-- A dump moves the buffer to the file, and does nothing else. -/
theorem dump_eq (v : Logger) : v.dump true = { v with file := v.filed, dumpLogs := [] } := by
  unfold dump filed
  cases hlogs : v.dumpLogs with
  | nil =>
    rw [List.isEmpty_nil, if_pos rfl, List.map_nil, String.join_nil, String.append_empty, ← hlogs]
  | cons => rfl

/-- A record for the console is printed at once. -/
theorem consume_console (h : log.toConsole = true) :
    consume opens v log = { v with console := v.console ++ cStr (toString log) } := by
  rw [consume, if_pos h]

/-- A record that finds room is buffered. -/
theorem consume_room (h : log.toConsole = false) (hroom : v.dumpLogs.length < v.maxLogCount) :
    consume opens v log = { v with dumpLogs := v.dumpLogs ++ [log] } := by
  rw [consume, h, if_neg Bool.false_ne_true, if_pos hroom]

/-- A record that finds none empties the buffer, and is lost. -/
theorem consume_full (h : log.toConsole = false) (hfull : ¬ v.dumpLogs.length < v.maxLogCount) :
    consume true v log = { v with file := v.filed, dumpLogs := [] } := by
  rw [consume, h, if_neg Bool.false_ne_true, if_neg hfull, dump_eq]

/-- What a run of the loop makes of the records. -/
theorem foldl_consume (v : Logger) (logs : List Log) :
    (logs.foldl (consume true) v).filed =
        v.filed ++ String.join (written v.maxLogCount v.dumpLogs.length (fileBound logs)) ∧
      (logs.foldl (consume true) v).console =
        v.console ++ String.join ((consoleBound logs).map fun log => cStr (toString log)) := by
  induction logs generalizing v with
  | nil =>
    constructor
    · exact (String.append_empty).symm
    · exact (String.append_empty).symm
  | cons log logs ih =>
    obtain ⟨hfiled, hconsole⟩ := ih (consume true v log)
    rw [List.foldl_cons, hfiled, hconsole]
    cases hlog : log.toConsole with
    | true =>
      have hfile : fileBound (log :: logs) = fileBound logs := by
        rw [fileBound, List.filter_cons_of_neg (by rw [hlog]; exact Bool.false_ne_true), fileBound]
      have hprint : consoleBound (log :: logs) = log :: consoleBound logs :=
        List.filter_cons_of_pos hlog
      rw [consume_console hlog, hfile, hprint]
      refine ⟨rfl, ?_⟩
      rw [List.map_cons, String.join_cons, String.append_assoc]
    | false =>
      have hfile : fileBound (log :: logs) = log :: fileBound logs :=
        List.filter_cons_of_pos (by rw [hlog]; rfl)
      have hprint : consoleBound (log :: logs) = consoleBound logs :=
        List.filter_cons_of_neg (by rw [hlog]; exact Bool.false_ne_true)
      rw [hfile, hprint, written]
      split
      case isTrue hroom =>
        rw [consume_room hlog hroom]
        refine ⟨?_, rfl⟩
        rw [filed, filed, List.map_append, String.join_append, List.length_append,
          String.join_cons, List.map_singleton, String.join_cons, String.join_nil,
          String.append_empty, String.append_assoc, String.append_assoc, String.append_assoc]
        rfl
      case isFalse hfull =>
        rw [consume_full hlog hfull]
        refine ⟨?_, rfl⟩
        rw [filed, List.map_nil, String.join_nil, String.append_empty, String.join_cons,
          String.empty_append]
        rfl

/-- What the file and the console have in the end. -/
theorem consumeAll_eq (file console : String) (logs : List Log) :
    ((new file console).consumeAll true logs).file =
        file ++ String.join (written kDefaultMaxLogCount 0 (fileBound logs)) ∧
      ((new file console).consumeAll true logs).console =
        console ++ String.join ((consoleBound logs).map fun log => cStr (toString log)) := by
  obtain ⟨hfiled, hconsole⟩ := foldl_consume (new file console) logs
  rw [consumeAll, dump_eq]
  refine ⟨hfiled.trans ?_, hconsole⟩
  rw [filed, new, List.map_nil, String.join_nil, String.append_empty]
  rfl

end Written

/-- THE OUTPUTS: for all records, the text appended to the file is that of every record for the
file, once and in order, and the text printed that of every record for the console, exactly when
there are no more records for the file than the buffer holds, and no record for the console shows a
null character. -/
theorem output_iff (file console : String) (logs : List Log) :
    (((new file console).consumeAll true logs).file =
        file ++ String.join ((fileBound logs).map LogDumpTask.toString) ∧
      ((new file console).consumeAll true logs).console =
        console ++ String.join ((consoleBound logs).map toString)) ↔
    (fileBound logs).length ≤ kDefaultMaxLogCount ∧
      ∀ log ∈ consoleBound logs, log.plain = true := by
  obtain ⟨hfile, hconsole⟩ := consumeAll_eq file console logs
  rw [hfile, hconsole, String.append_right_inj, String.append_right_inj]
  refine and_congr ?_ ?_
  · have hwritten : written kDefaultMaxLogCount 0 (fileBound logs) =
        (fileBound logs).map LogDumpTask.toString ↔
          0 + (fileBound logs).length ≤ kDefaultMaxLogCount := written_eq_iff (Nat.zero_le _)
    rw [Nat.zero_add] at hwritten
    rw [← hwritten]
    exact ⟨eq_of_join_eq (shortens_written 0 _), congrArg _⟩
  · have hcut : List.Forall₂ Shortens ((consoleBound logs).map fun log => cStr (toString log))
        ((consoleBound logs).map toString) := by
      rw [List.forall₂_map_left_iff, List.forall₂_map_right_iff]
      exact List.forall₂_same.mpr fun log _ => shortens_cStr (toString log)
    constructor
    · intro heq log hmem
      have hsame := List.map_inj_left.mp (eq_of_join_eq hcut heq) log hmem
      exact (cStr_toString_iff log).mp hsame
    · intro hplain
      exact congrArg _ (List.map_congr_left fun log hmem =>
        (cStr_toString_iff log).mpr (hplain log hmem))

/-- A record for the file. -/
def sampleLog : Log :=
  { lv := .info
    time := "now"
    threadID := "1"
    content := "a"
    fileName := ""
    functionName := ""
    line := 0
    srcDetail := false
    toConsole := false }

/-- Of eleven records for the file the last is lost. -/
theorem lost_of_full :
    ((new "" "").consumeAll true (List.replicate 11 sampleLog)).file =
        String.join (List.replicate 10 (LogDumpTask.toString sampleLog)) ∧
      ((new "" "").consumeAll true (List.replicate 11 sampleLog)).file ≠
        String.join ((fileBound (List.replicate 11 sampleLog)).map LogDumpTask.toString) := by
  decide

end Logger

end DSFramework.DSCommunication
