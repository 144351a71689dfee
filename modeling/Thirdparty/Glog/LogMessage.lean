import Thirdparty.Core.CharArray

/-!
# `Glog.LogMessage` — the FATAL path of `logging.cc`

One `LogMessage` from its constructor to the call of the failure-message hook: `LogMessage::Init`, the
streaming of its text, `LogMessage::Flush`, `LogMessage::SendToLog` and `LogMessage::RecordCrashReason`, over
the static data they share. The message is one of `LOG(...)` or `CHECK(...)`, so its `send_method_` is
`SendToLog`; destinations other than the crash data (log files, stderr, email, sinks) are left out here.

A `const char*` that may be NULL is an `Option`; `crash_reason.message` always points into
`fatal_msg_buf_exclusive`, so it is kept as an offset into that buffer.

## Contents
- `Settings`: the flags this path reads, and `exit_on_dfatal`.
- `LogMessageData` and `LogMessageData.init` / `LogMessageData.write`: prefix and text.
- `Statics`, `chooseData`: the exclusive and the shared data, and who gets which.
- `LogMessageData.appendNewline`, `recordCrashReason`, `sendToLog`, `flush`.
-/

namespace Thirdparty.Glog

/-- `LogSeverity`. -/
inductive LogSeverity where
  | INFO | WARNING | ERROR | FATAL
  deriving DecidableEq, Repr

/-- The `int` behind a severity. -/
def LogSeverity.toInt : LogSeverity → Int
  | .INFO => 0
  | .WARNING => 1
  | .ERROR => 2
  | .FATAL => 3

/-- `LogSeverityNames`. -/
def logSeverityName : LogSeverity → Bytes
  | .INFO => lit "INFO"
  | .WARNING => lit "WARNING"
  | .ERROR => lit "ERROR"
  | .FATAL => lit "FATAL"

/-- The flags read on this path, and the static `exit_on_dfatal`; constant during a run. -/
structure Settings where
  logPrefix : Bool := true
  minloglevel : Int := 0
  logStripSourcePath : Bool := false
  logBacktraceAt : Bytes := []
  exitOnDfatal : Bool := true

/-- `__FILE__` and `__LINE__` of the logging statement. -/
structure CallSite where
  file : Bytes
  line : Int
  deriving DecidableEq, Repr

/-- What `Init` reads from the system: local time, thread id, and the stack trace of the call. -/
structure Context where
  tmMon : Int
  tmMday : Int
  tmHour : Int
  tmMin : Int
  tmSec : Int
  usecs : Int
  tid : Nat
  stacktrace : Bytes

/-- `LogMessage::kMaxLogMessageLen`. -/
def kMaxLogMessageLen : Nat := 30000

/-- `kNoLogPrefix`, a line number that suppresses the prefix. -/
def kNoLogPrefix : Int := -1

/-- The bytes of a message buffer, `char[kMaxLogMessageLen+1]`. -/
abbrev bufSize : Nat := kMaxLogMessageLen + 1

/-- `const_basename`: the part of the path after the last `/`. -/
def constBasename (filepath : Bytes) : Bytes :=
  (filepath.reverse.takeWhile (· ≠ 47)).reverse

/-- `UnifySourcePath`. -/
def unifySourcePath (cfg : Settings) (filepath : Bytes) : Bytes :=
  if cfg.logStripSourcePath then constBasename filepath else filepath

/-! ## `LogMessageData` and the text of a message -/

/-- `LogMessage::LogMessageData`. `message_text_` is the array under `stream_`. -/
structure LogMessageData where
  stream : FixedStream bufSize
  severity : LogSeverity
  line : Int
  numPrefixChars : Nat
  numCharsToLog : Nat
  numCharsToSyslog : Nat
  basename : Option Bytes
  fullname : Option Bytes
  hasBeenFlushed : Bool
  firstFatal : Bool

/-- The data of a message that was never constructed: zeroed fields over an empty stream. -/
def LogMessageData.initial : LogMessageData where
  stream := FixedStream.blank kMaxLogMessageLen (Nat.le_succ _)
  severity := .INFO
  line := 0
  numPrefixChars := 0
  numCharsToLog := 0
  numCharsToSyslog := 0
  basename := none
  fullname := none
  hasBeenFlushed := false
  firstFatal := false

/-- The prefix as `Init` streams it: `I1018 16:07:15.123456  5678 path:1153] `. -/
def linePrefix (ctx : Context) (severity : LogSeverity) (basename : Bytes) (line : Int) : Bytes :=
  (logSeverityName severity).take 1
    ++ setw 2 48 (decimal (1 + ctx.tmMon)) ++ setw 2 48 (decimal ctx.tmMday)
    ++ lit " "
    ++ setw 2 48 (decimal ctx.tmHour) ++ lit ":"
    ++ setw 2 48 (decimal ctx.tmMin) ++ lit ":"
    ++ setw 2 48 (decimal ctx.tmSec) ++ lit "."
    ++ setw 6 48 (decimal ctx.usecs)
    ++ lit " "
    ++ setw 5 blank (decimal ctx.tid)
    ++ lit " "
    ++ basename ++ lit ":" ++ decimal line ++ lit "] "

/-- What `Init` streams before it takes `num_prefix_chars_`. -/
def prefixText (cfg : Settings) (ctx : Context) (site : CallSite) (severity : LogSeverity) : Bytes :=
  if cfg.logPrefix && site.line != kNoLogPrefix then
    linePrefix ctx severity (unifySourcePath cfg site.file) site.line
  else []

/-- What `Init` streams after it took `num_prefix_chars_`: a stack trace, when `--log_backtrace_at` names
    this call site (compared through a `char fileline[128]`). -/
def backtraceText (cfg : Settings) (ctx : Context) (site : CallSite) : Bytes :=
  let fileline := (unifySourcePath cfg site.file ++ lit ":" ++ decimal site.line).take 127
  if !cfg.logBacktraceAt.isEmpty && cStr cfg.logBacktraceAt == fileline then
    lit " (stacktrace:\n" ++ ctx.stacktrace ++ lit ") "
  else []

/-- `LogMessage::Init` after the choice of the data. -/
def LogMessageData.init (cfg : Settings) (ctx : Context) (site : CallSite) (severity : LogSeverity)
    (d : LogMessageData) : LogMessageData :=
  let prefixed := d.stream.write (prefixText cfg ctx site severity)
  { d with
    severity := severity
    line := site.line
    numCharsToLog := 0
    numCharsToSyslog := 0
    basename := some (unifySourcePath cfg site.file)
    fullname := some site.file
    hasBeenFlushed := false
    numPrefixChars := prefixed.pcount
    stream := prefixed.write (backtraceText cfg ctx site) }

/-- `stream() << text`. -/
def LogMessageData.write (text : Bytes) (d : LogMessageData) : LogMessageData :=
  { d with stream := d.stream.write text }

/-- How many values a `size_t` has. -/
abbrev sizeRange : Nat := UInt64.size

/-- `a - b` on `size_t`. -/
def sizeSub (a b : Nat) : Nat := (a + sizeRange - b) % sizeRange

theorem sizeSub_of_le {a b : Nat} (ha : a < sizeRange) (h : b ≤ a) : sizeSub a b = a - b := by
  unfold sizeSub
  rw [show a + sizeRange - b = (a - b) + sizeRange by omega, Nat.add_mod_right]
  exact Nat.mod_eq_of_lt (by omega)

/-- The newline `Flush` appends to a text: none when the text ends in one. -/
def missingNewline (text : Bytes) : Bytes := if text.getLast? = some newline then [] else [newline]

/-- The part of `LogMessage::Flush` before it takes `log_mutex`: count the characters, and append a newline
    one past them unless the last one is a newline already. `none` when an index it computes,
    `num_chars_to_log_-1` for the test or `num_chars_to_log_` for the store, is outside the buffer. -/
def LogMessageData.appendNewline (d : LogMessageData) : Option LogMessageData := do
  let numCharsToLog := d.stream.pcount
  let counted := { d with
    numCharsToLog := numCharsToLog
    numCharsToSyslog := sizeSub numCharsToLog d.numPrefixChars }
  let last ← d.stream.buf.load? (sizeSub numCharsToLog 1)
  if last ≠ newline then
    let buf ← d.stream.buf.store? numCharsToLog newline
    some { counted with
      stream := { d.stream with buf := buf }
      numCharsToLog := numCharsToLog + 1 }
  else some counted

/-! ## The static data -/

/-- The fields of `CrashReason` that the hook receives; `message` is an offset into
    `fatal_msg_buf_exclusive`. -/
structure CrashReason where
  filename : Option Bytes
  lineNumber : Int
  message : Option Nat
  deriving DecidableEq, Repr

/-- `CrashReason()`: NULL, 0, NULL. -/
def CrashReason.initial : CrashReason := ⟨none, 0, none⟩

/-- Which data a message works on. -/
inductive DataRef where
  | exclusive
  | shared
  | allocated (d : LogMessageData)

/-- The statics of `logging.cc` on this path. -/
structure Statics where
  fatalMsgExclusive : Bool
  fatalMsgDataExclusive : LogMessageData
  fatalMsgDataShared : LogMessageData
  crashReason : CrashReason
  fatalMessage : Bytes

/-- The statics before `main`. -/
def Statics.initial : Statics where
  fatalMsgExclusive := true
  fatalMsgDataExclusive := .initial
  fatalMsgDataShared := .initial
  crashReason := .initial
  fatalMessage := []

/-- `*data_`. -/
def Statics.data (s : Statics) : DataRef → LogMessageData
  | .exclusive => s.fatalMsgDataExclusive
  | .shared => s.fatalMsgDataShared
  | .allocated d => d

/-- An update of `*data_`; allocated data travels with its reference. -/
def Statics.modify (s : Statics) (f : LogMessageData → LogMessageData) : DataRef → Statics × DataRef
  | .exclusive => ({ s with fatalMsgDataExclusive := f s.fatalMsgDataExclusive }, .exclusive)
  | .shared => ({ s with fatalMsgDataShared := f s.fatalMsgDataShared }, .shared)
  | .allocated d => (s, .allocated (f d))

/-- `LogMessage::Init`'s choice of the data, under `fatal_msg_lock`. -/
def chooseData (cfg : Settings) (severity : LogSeverity) (s : Statics) : Statics × DataRef :=
  if severity ≠ .FATAL || !cfg.exitOnDfatal then
    (s, .allocated { LogMessageData.initial with firstFatal := false })
  else if s.fatalMsgExclusive then
    ({ s with
        fatalMsgExclusive := false
        fatalMsgDataExclusive := { s.fatalMsgDataExclusive with firstFatal := true } }, .exclusive)
  else
    ({ s with fatalMsgDataShared := { s.fatalMsgDataShared with firstFatal := false } }, .shared)

/-- `LogMessage::RecordCrashReason`. -/
def recordCrashReason (s : Statics) : CrashReason where
  filename := s.fatalMsgDataExclusive.fullname
  lineNumber := s.fatalMsgDataExclusive.line
  message := some s.fatalMsgDataExclusive.numPrefixChars

/-- How far a flush got. -/
inductive FlushOutcome where
  /-- `Flush` returned to its caller. -/
  | returned (s : Statics)
  /-- `Flush` used an index outside the message's buffer. -/
  | outOfBounds
  /-- A FATAL message: `SendToLog` has released `log_mutex`; the hook and `Fail()` come next. -/
  | unlocked (s : Statics)

/-- `LogMessage::SendToLog` up to `log_mutex.Unlock()`. `fatal_message` keeps the first 255 bytes of the first
    FATAL message for `ReprintFatalMessage`. -/
def sendToLog (cfg : Settings) (s : Statics) (r : DataRef) : FlushOutcome :=
  let d := s.data r
  if d.severity = .FATAL && cfg.exitOnDfatal then
    if d.firstFatal then
      .unlocked { s with
        crashReason := recordCrashReason s
        fatalMessage := d.stream.buf.toList.take (min d.numCharsToLog 255) }
    else .unlocked s
  else .returned s

/-- `Flush` has nothing to do: flushed before, or below `--minloglevel`. -/
def suppressed (cfg : Settings) (d : LogMessageData) : Bool :=
  d.hasBeenFlushed || d.severity.toInt < cfg.minloglevel

/-- `LogMessage::Flush`, through the call of `send_method_`. -/
def flush (cfg : Settings) (s : Statics) (r : DataRef) : FlushOutcome :=
  if suppressed cfg (s.data r) then .returned s
  else
    match (s.data r).appendNewline with
    | none => .outOfBounds
    | some d' => sendToLog cfg (s.modify (fun _ => d') r).1 (s.modify (fun _ => d') r).2

section Outcomes

variable {cfg : Settings} {s : Statics} {r : DataRef}

/-- The first FATAL message records the crash reason on its way. -/
theorem sendToLog_first (hexit : cfg.exitOnDfatal = true) (hsev : (s.data r).severity = .FATAL)
    (hfirst : (s.data r).firstFatal = true) :
    sendToLog cfg s r
      = .unlocked { s with
          crashReason := recordCrashReason s
          fatalMessage := (s.data r).stream.buf.toList.take (min (s.data r).numCharsToLog 255) } := by
  simp [sendToLog, hexit, hsev, hfirst]

/-- Any other FATAL message leaves the statics alone. -/
theorem sendToLog_later (hexit : cfg.exitOnDfatal = true) (hsev : (s.data r).severity = .FATAL)
    (hfirst : (s.data r).firstFatal = false) : sendToLog cfg s r = .unlocked s := by
  simp [sendToLog, hexit, hsev, hfirst]

/-- A message that is not FATAL only goes to the destinations. -/
theorem sendToLog_nonfatal (hsev : (s.data r).severity ≠ .FATAL) : sendToLog cfg s r = .returned s := by
  simp [sendToLog, hsev]

theorem flush_suppressed (h : suppressed cfg (s.data r) = true) : flush cfg s r = .returned s := by
  simp [flush, h]

theorem flush_outOfBounds (h : suppressed cfg (s.data r) = false)
    (happ : (s.data r).appendNewline = none) : flush cfg s r = .outOfBounds := by
  simp [flush, h, happ]

theorem flush_sends (h : suppressed cfg (s.data r) = false) {d' : LogMessageData}
    (happ : (s.data r).appendNewline = some d') :
    flush cfg s r = sendToLog cfg (s.modify (fun _ => d') r).1 (s.modify (fun _ => d') r).2 := by
  simp [flush, h, happ]

end Outcomes

/-! ## A message to try things on -/

/-- The place of `server/main.cc`, line 42. -/
def sampleSite : CallSite := ⟨lit "server/main.cc", 42⟩

/-- October 18, 16:07:15.123456, thread 5678. -/
def sampleContext : Context := ⟨9, 18, 16, 7, 15, 123456, 5678, []⟩

end Thirdparty.Glog
