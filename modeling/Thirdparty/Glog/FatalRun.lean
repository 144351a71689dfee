import Thirdparty.Core.Trace
import Thirdparty.Glog.LogMessage
import Mathlib.Logic.Function.Basic

/-!
# `Glog.FatalRun` — FATAL messages of several threads

Threads construct, fill and flush `LogMessage` objects against the statics of `logging.cc`, in any interleaving. A
thread's live messages form a stack: the operands of a `LOG` statement may log themselves, and so may the hook and
the code that `WaitForSinks` waits for.

The atomic steps are the ones the locks make: the choice of the data (under `fatal_msg_lock`), `Flush` through
`SendToLog` up to `log_mutex.Unlock()` (under `log_mutex`), and the call of `g_logging_failure_message_hooker` with
the fields of `crash_reason`, which no lock protects. `Fail()` does not return: the process aborts, and then the run
ends where it is, or a failure function leaves by a jump, and the thread goes on without the messages it jumped
over. An index that `Flush` computes outside a buffer is undefined behaviour; a run is continued there as if the
test for the newline had been passed over, since nothing here depends on the text.

## Contents
- `Frame`, `RunState`, `Move`, `fatalStep`: the system.
- `Event`: what a run did, in order; `RunState.history`.
-/

namespace Thirdparty.Glog

/-- Where a message is in its life. -/
inductive Phase where
  /-- The data is chosen, the rest of `Init` is to come. -/
  | constructing
  /-- Constructed; its operands are being streamed. -/
  | streaming
  /-- `SendToLog` has released `log_mutex`; the hook is to be called. -/
  | unlocked
  /-- The hook was called; `Fail()` is next. -/
  | hooked
  deriving DecidableEq, Repr

/-- A live `LogMessage` object. -/
structure Frame where
  site : CallSite
  severity : LogSeverity
  data : DataRef
  phase : Phase

/-- Does the reference lead to `fatal_msg_data_exclusive_`? -/
def DataRef.isExclusive : DataRef → Bool
  | .exclusive => true
  | .shared => false
  | .allocated _ => false

/-- What a run did. -/
inductive Event where
  /-- The message at `site` obtained the exclusive data. -/
  | obtained (site : CallSite)
  /-- `RecordCrashReason` filled `crash_reason`. -/
  | recorded
  /-- A FATAL message, on the exclusive data or not, went through `SendToLog` to `log_mutex.Unlock()`. -/
  | unlocked (exclusive : Bool)
  /-- Such a message called the hook. -/
  | hook (exclusive : Bool) (args : CrashReason)
  deriving DecidableEq, Repr

/-- A state of the system. -/
structure RunState (T : Type*) where
  statics : Statics
  stack : T → List Frame
  history : List Event

/-- Before the first message. -/
def RunState.initial (T : Type*) : RunState T := ⟨.initial, fun _ => [], []⟩

/-- A move of one thread. -/
inductive Move where
  /-- A constructor runs `Init` to the end of its locked part. -/
  | construct (site : CallSite) (severity : LogSeverity)
  /-- The rest of `Init`. -/
  | fill (ctx : Context)
  /-- `stream() << text`. -/
  | write (text : Bytes)
  /-- The destructor runs `Flush`. -/
  | flush
  /-- The call of the hook. -/
  | hook
  /-- `Fail()`: a jump over the failing message and `n` enclosing ones. -/
  | fail (n : Nat)

/-- `Flush` with the undefined case passed over. -/
def flushOn (cfg : Settings) (s : Statics) (r : DataRef) : FlushOutcome :=
  match flush cfg s r with
  | .outOfBounds => sendToLog cfg s r
  | outcome => outcome

variable {T : Type*} [DecidableEq T]

/-- Thread `t`'s stack becomes `stack`, the statics `statics`, and `events` happened. -/
def RunState.next (s : RunState T) (t : T) (statics : Statics) (stack : List Frame)
    (events : List Event) : RunState T :=
  ⟨statics, Function.update s.stack t stack, s.history ++ events⟩

/-- One step of the system. -/
def fatalStep (cfg : Settings) (s : RunState T) : T × Move → Option (RunState T)
  | (t, .construct site severity) =>
    if (s.stack t).head?.any (·.phase = .constructing) then none
    else
      let (statics, data) := chooseData cfg severity s.statics
      some (s.next t statics (⟨site, severity, data, .constructing⟩ :: s.stack t)
        (if data.isExclusive then [.obtained site] else []))
  | (t, .fill ctx) =>
    match s.stack t with
    | ⟨site, severity, data, .constructing⟩ :: rest =>
      let (statics, data) := s.statics.modify (LogMessageData.init cfg ctx site severity) data
      some (s.next t statics (⟨site, severity, data, .streaming⟩ :: rest) [])
    | _ => none
  | (t, .write text) =>
    match s.stack t with
    | ⟨site, severity, data, .streaming⟩ :: rest =>
      let (statics, data) := s.statics.modify (LogMessageData.write text) data
      some (s.next t statics (⟨site, severity, data, .streaming⟩ :: rest) [])
    | _ => none
  | (t, .flush) =>
    match s.stack t with
    | ⟨site, severity, data, .streaming⟩ :: rest =>
      match flushOn cfg s.statics data with
      | .returned statics => some (s.next t statics rest [])
      | .outOfBounds => none
      | .unlocked statics =>
        some (s.next t statics (⟨site, severity, data, .unlocked⟩ :: rest)
          ((if (s.statics.data data).firstFatal then [.recorded] else [])
            ++ [.unlocked data.isExclusive]))
    | _ => none
  | (t, .hook) =>
    match s.stack t with
    | ⟨site, severity, data, .unlocked⟩ :: rest =>
      some (s.next t s.statics (⟨site, severity, data, .hooked⟩ :: rest)
        [.hook data.isExclusive s.statics.crashReason])
    | _ => none
  | (t, .fail n) =>
    match s.stack t with
    | ⟨_, _, _, .hooked⟩ :: rest => some (s.next t s.statics (rest.drop n) [])
    | _ => none

end Thirdparty.Glog
