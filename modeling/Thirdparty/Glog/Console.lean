import Thirdparty.Core.Interrupt
import Thirdparty.Glog.RawLogging

/-!
# `Glog.Console` — coloured log output of several threads on one terminal

`RawLog__` writes its line to stderr without a lock, `SendToLog` calls `WriteToStderr` under `log_mutex`; both put a
colour in front of the text and take it back after it, each by a `write` of its own. The first `SendToLog` before
`InitGoogleLogging` writes a yellow notice in front of its message, and that of a FATAL message ends with a line that is
written after `log_mutex` was released. Every write is taken to be complete and atomic.

The model has the ANSI variant of `SetConsoleTextColor`. `Fail()` of a FATAL message ends the process, and then the
run ends where it is, or a failure function leaves by a jump. The flags and `IsGoogleLoggingInitialized()` do not
change during a run. Left out is what other code writes to stderr: sinks, the hook, the failure function with
`ReprintFatalMessage`, and the errors of a log file that cannot be created.

## Contents
- `ConsoleWrite`, `setConsoleTextColor`, `writeToStderr`, `maybeLogToStderr`: the writes.
- `sendToStderr`, `rawLog`: the writes of `SendToLog` and of `RawLog__`.
- `LogStatement`, `ConsoleCall`, `consoleCalls`: what the threads execute, and the calls that it makes.
- `ConsoleCall.toCall`: the calls as `Writers.Call`s.
-/

namespace Thirdparty.Glog

open Writers

/-- The flags that decide what goes to stderr. -/
structure ConsoleSettings extends Settings where
  logtostderr : Bool := false
  alsologtostderr : Bool := false
  stderrthreshold : Int := 2
  /-- `IsGoogleLoggingInitialized()` -/
  initialized : Bool := true
  /-- `isatty(STDOUT_FILENO)` -/
  stdoutIsTty : Bool := true

/-- The colours in use. -/
inductive Colour where
  | yellow | red
  deriving DecidableEq, Repr

/-- One write to stderr. A text stands with the severity it is logged with, if any. -/
inductive ConsoleWrite where
  | setColour (colour : Colour)
  | text (severity : Option LogSeverity) (line : Bytes)
  | recover
  deriving DecidableEq, Repr

/-- The escape sequence of a colour; 27 is ESC. -/
def Colour.sequence : Colour → Bytes
  | .yellow => 27 :: lit "[1;33;40m"
  | .red => 27 :: lit "[1;31;40m"

/-- The bytes of a write. -/
def ConsoleWrite.payload : ConsoleWrite → Bytes
  | .setColour colour => colour.sequence
  | .text _ line => line
  | .recover => 27 :: lit "[0m"

/-- The colour of a severity. -/
def LogSeverity.colour : LogSeverity → Option Colour
  | .INFO => none
  | .WARNING => some .yellow
  | .ERROR => some .red
  | .FATAL => some .red

/-- `SetConsoleTextColor`: the write it makes, if any; then it returns true. -/
def setConsoleTextColor (cfg : ConsoleSettings) (severity : LogSeverity) : Option Colour :=
  if cfg.stdoutIsTty then severity.colour else none

/-- The writes of `SetConsoleTextColor`, of a text, and of `RecoverConsoleTextColor` if the colour was set. -/
def colouredWrites (cfg : ConsoleSettings) (severity : LogSeverity) (line : Bytes) : List ConsoleWrite :=
  match setConsoleTextColor cfg severity with
  | some colour => [.setColour colour, .text severity line, .recover]
  | none => [.text severity line]

/-- `WriteToStderr`. -/
def writeToStderr (cfg : ConsoleSettings) (severity : LogSeverity) (message : Bytes) : List ConsoleWrite :=
  colouredWrites cfg severity message

/-- `LogDestination::MaybeLogToStderr`. -/
def maybeLogToStderr (cfg : ConsoleSettings) (severity : LogSeverity) (message : Bytes) : List ConsoleWrite :=
  if severity.toInt ≥ cfg.stderrthreshold || cfg.alsologtostderr then writeToStderr cfg severity message else []

/-- The notice that `SendToLog` writes once. -/
def loggingBeforeInit : Bytes := lit "WARNING: Logging before InitGoogleLogging() is written to STDERR\n"

/-- What `LogMessage::SendToLog` writes to stderr under `log_mutex`; it has the static
    `already_warned_before_initgoogle`. -/
def sendToStderr (cfg : ConsoleSettings) (alreadyWarned : Bool) (severity : LogSeverity) (message : Bytes) :
    List ConsoleWrite :=
  (if !alreadyWarned && !cfg.initialized then writeToStderr cfg .WARNING loggingBeforeInit else []) ++
    if cfg.logtostderr || !cfg.initialized then writeToStderr cfg severity message
    else maybeLogToStderr cfg severity message

/-- The writes of `RawLog__`. -/
def rawLog (cfg : ConsoleSettings) (ctx : Context) (site : CallSite) (severity : LogSeverity) (message : Bytes) :
    List ConsoleWrite :=
  if !(cfg.logtostderr || severity.toInt ≥ cfg.stderrthreshold || cfg.alsologtostderr || !cfg.initialized) then []
  else colouredWrites cfg severity (rawLine (rawPrefix cfg.toSettings ctx site severity) message)

/-- What `SendToLog` of a FATAL message writes after it has released `log_mutex`. -/
def checkFailure : Bytes := lit "*** Check failure stack trace: ***\n"

/-- A statement that logs: `RAW_LOG` with its message, or `LOG` with what is in the stream when it is flushed. -/
inductive LogStatement where
  | raw (ctx : Context) (site : CallSite) (severity : LogSeverity) (message : Bytes)
  | log (severity : LogSeverity) (text : Bytes)

/-- A piece of a statement that writes to stderr under one lock, or under none. -/
inductive ConsoleCall where
  /-- `RawLog__`. -/
  | rawLog (ctx : Context) (site : CallSite) (severity : LogSeverity) (message : Bytes)
  /-- `SendToLog`, until `log_mutex` is released. -/
  | sendToLog (severity : LogSeverity) (text : Bytes)
  /-- The write of `checkFailure`. -/
  | stackTraceLine

/-- The message as `SendToLog` finds it: `Flush` has appended a newline if there was none. -/
def flushedText (text : Bytes) : Bytes := text ++ missingNewline text

/-- The calls of a statement. `Flush` gives up below `--minloglevel`, which `RawLog__` does not read. -/
def LogStatement.calls (cfg : ConsoleSettings) : LogStatement → List ConsoleCall
  | raw ctx site severity message => [.rawLog ctx site severity message]
  | log severity text =>
    if severity.toInt < cfg.minloglevel then []
    else .sendToLog severity text ::
      if severity = .FATAL && cfg.exitOnDfatal then [.stackTraceLine] else []

namespace ConsoleCall

/-- The severity that the call takes its colour from. -/
def severity : ConsoleCall → Option LogSeverity
  | rawLog _ _ severity _ => severity
  | sendToLog severity _ => severity
  | stackTraceLine => none

/-- The calls under `log_mutex`. -/
def isSend : ConsoleCall → Bool
  | sendToLog .. => true
  | _ => false

/-- The text of the call, if it is not suppressed. -/
def line (cfg : ConsoleSettings) : ConsoleCall → Bytes
  | rawLog ctx site severity message => rawLine (rawPrefix cfg.toSettings ctx site severity) message
  | sendToLog _ text => flushedText text
  | stackTraceLine => checkFailure

/-- Does the text go to stderr? -/
def shown (cfg : ConsoleSettings) : ConsoleCall → Bool
  | rawLog _ _ severity _ | sendToLog severity _ =>
    cfg.logtostderr || severity.toInt ≥ cfg.stderrthreshold || cfg.alsologtostderr || !cfg.initialized
  | stackTraceLine => true

/-- The call in terms of `Writers`: the shared data are `already_warned_before_initgoogle`. -/
def toCall (cfg : ConsoleSettings) : ConsoleCall → Call Bool ConsoleWrite
  | rawLog ctx site severity message => ⟨false, fun _ => Glog.rawLog cfg ctx site severity message, id⟩
  | sendToLog severity text =>
    ⟨true, fun alreadyWarned => sendToStderr cfg alreadyWarned severity (flushedText text),
      fun alreadyWarned => alreadyWarned || !cfg.initialized⟩
  | stackTraceLine => ⟨false, fun _ => [.text none checkFailure], id⟩

/-- The colour that the text of the call is to be shown in; none for the default colour. -/
def colour (cfg : ConsoleSettings) (c : ConsoleCall) : Option Colour := c.severity.bind (setConsoleTextColor cfg)

/-- The call changes the colour for its text. -/
def coloured (cfg : ConsoleSettings) (c : ConsoleCall) : Bool := c.shown cfg && (c.colour cfg).isSome

/-- The call puts something out. -/
def visible (cfg : ConsoleSettings) (c : ConsoleCall) : Bool :=
  c.shown cfg && ((c.colour cfg).isSome || !(c.line cfg).isEmpty)

end ConsoleCall

variable {T : Type*}

/-- The calls of a thread. -/
def consoleCalls (cfg : ConsoleSettings) (P : T → List LogStatement) (t : T) : List ConsoleCall :=
  (P t).flatMap (LogStatement.calls cfg)

/-- The same, in terms of `Writers`. -/
def programs (cfg : ConsoleSettings) (P : T → List LogStatement) (t : T) : List (Call Bool ConsoleWrite) :=
  (consoleCalls cfg P t).map (ConsoleCall.toCall cfg)

/-- Does the write put something out? -/
def ConsoleWrite.loud (w : ConsoleWrite) : Bool := !w.payload.isEmpty

/-- One step of one of the threads. -/
def consoleStep [DecidableEq T] (cfg : ConsoleSettings) (P : T → List LogStatement) :
    State T Bool ConsoleWrite → T × Act → Option (State T Bool ConsoleWrite) :=
  step (programs cfg P) ConsoleWrite.loud

/-- Before any thread has logged: `already_warned_before_initgoogle` is false. -/
def consoleInitial (T : Type*) : State T Bool ConsoleWrite := State.initial T ConsoleWrite false

end Thirdparty.Glog
