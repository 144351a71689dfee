import Thirdparty.Glog.LogMessage
import Mathlib.Algebra.Group.Nat.Defs

/-!
# `Glog.LogFile` — the log file of one severity

`LogFileObject` of `logging.cc`: a file that is made when the first message comes, given up when it is too long or when
the process id has changed, and flushed now and then. What the system answers to a call of `Write` comes in a
`WriteEnv`. The symbolic links, the texts on standard error and `posix_fadvise` are left out; the files that an object
has closed stay in its state, since they stay on the disk.

## Contents
- `LogFlags`, `Machine`, `WriteEnv`, `LogFile`, `LogFileObject`.
- `rollover`, `ready`, `output`: the three parts of `LogFileObject.write`.
- `rollover_cases`, `ready_cases`, `output_cases`: what the parts do.
- `text`: the messages in the files; `write_text`, `write_good`.
- `off_write`, `statics_write`: what a call leaves as it is.
-/

namespace Thirdparty.Glog

/-! ## Data -/

/-- The fields of `struct tm` that are printed. -/
structure Tm where
  tmYear : Int
  tmMon : Int
  tmMday : Int
  tmHour : Int
  tmMin : Int
  tmSec : Int

/-- The flags that the file objects read. -/
structure LogFlags where
  maxLogSize : Int := 1800
  stopLoggingIfFullDisk : Bool := false
  logbuflevel : Int := 0
  logbufsecs : Int := 30
  logtostderr : Bool := false

/-- `MaxLogSize`. -/
def LogFlags.maxSize (flags : LogFlags) : Nat := if flags.maxLogSize > 0 then flags.maxLogSize.toNat else 1

/-- The same in bytes. -/
def LogFlags.maxBytes (flags : LogFlags) : Nat := flags.maxSize * 2 ^ 20

/-- The machine, the user and the program, and `GetLoggingDirectories`, which always finds one. -/
structure Machine where
  hostname : Bytes
  userName : Bytes
  programInvocationShortName : Bytes
  loggingDirectories : List Bytes
  loggingDirectories_ne : loggingDirectories ≠ []

/-- `LogDestination::hostname`. -/
def Machine.shownHostname (machine : Machine) : Bytes :=
  if machine.hostname.isEmpty then lit "(unknown)" else machine.hostname

/-- What the system answers to one call of `Write`. -/
structure WriteEnv where
  /-- `getpid`. -/
  pid : Int
  /-- `localtime_r` of the timestamp. -/
  tm : Tm
  /-- Whether `open` and `fdopen` give a file for a name. -/
  creates : Bytes → Bool
  /-- How many bytes `fwrite` takes of the header. -/
  headerTaken : Nat
  /-- How many bytes `fwrite` takes of the message. -/
  taken : Nat
  /-- `errno == ENOSPC` behind it. -/
  noSpace : Bool
  /-- `CycleClock_Now`, in `Write`. -/
  now : Int
  /-- `CycleClock_Now`, in `FlushUnlocked`. -/
  flushNow : Int

/-- The statics `stop_writing` and `g_main_thread_pid`. -/
structure LogFileStatics where
  stopWriting : Bool
  mainThreadPid : Int

/-- `PidHasChanged`. -/
def LogFileStatics.pidHasChanged (statics : LogFileStatics) (pid : Int) : LogFileStatics × Bool :=
  if statics.mainThreadPid = pid then (statics, false) else ({ statics with mainThreadPid := pid }, true)

/-- A file: its name, what was written to it, and how many bytes of that were flushed. -/
structure LogFile where
  name : Bytes
  header : Bytes
  body : Bytes
  flushed : Nat

/-- The bytes of a file. -/
def LogFile.contents (f : LogFile) : Bytes := f.header ++ f.body

/-- `fflush`. -/
def LogFile.fflush (f : LogFile) : LogFile := { f with flushed := f.contents.length }

/-- `LogFileObject`, with the files it has closed. -/
structure LogFileObject where
  baseFilenameSelected : Bool
  baseFilename : Bytes
  filenameExtension : Bytes
  file : Option LogFile
  severity : LogSeverity
  bytesSinceFlush : UInt32
  fileLength : UInt32
  rolloverAttempt : UInt32
  nextFlushTime : Int
  closed : List LogFile

/-- `kRolloverAttemptFrequency`. -/
def kRolloverAttemptFrequency : UInt32 := 0x20

/-- `time_pid_string`. -/
def timePidString (tm : Tm) (pid : Int) : Bytes :=
  decimal (1900 + tm.tmYear)
    ++ setw 2 48 (decimal (1 + tm.tmMon))
    ++ setw 2 48 (decimal tm.tmMday)
    ++ lit "-"
    ++ setw 2 48 (decimal tm.tmHour)
    ++ setw 2 48 (decimal tm.tmMin)
    ++ setw 2 48 (decimal tm.tmSec)
    ++ lit "."
    ++ decimal pid

/-- `file_header_string`. -/
def fileHeaderString (machine : Machine) (tm : Tm) : Bytes :=
  lit "Log file created at: "
    ++ decimal (1900 + tm.tmYear) ++ lit "/"
    ++ setw 2 48 (decimal (1 + tm.tmMon)) ++ lit "/"
    ++ setw 2 48 (decimal tm.tmMday)
    ++ lit " "
    ++ setw 2 48 (decimal tm.tmHour) ++ lit ":"
    ++ setw 2 48 (decimal tm.tmMin) ++ lit ":"
    ++ setw 2 48 (decimal tm.tmSec) ++ lit "\n"
    ++ lit "Running on machine: "
    ++ machine.shownHostname ++ lit "\n"
    ++ lit "Log line format: [IWEF]mmdd hh:mm:ss.uuuuuu "
    ++ lit "threadid file:line] msg" ++ lit "\n"

/-- `stripped_filename`. -/
def strippedFilename (machine : Machine) (severity : LogSeverity) : Bytes :=
  let uidname := if machine.userName.isEmpty then lit "invalid-user" else machine.userName
  machine.programInvocationShortName ++ lit "." ++ machine.hostname ++ lit "." ++ uidname ++ lit ".log."
    ++ logSeverityName severity ++ lit "."

namespace LogFileObject

/-- `LogFileObject::LogFileObject`. -/
def new (severity : LogSeverity) (baseFilename : Option Bytes) : LogFileObject where
  baseFilenameSelected := baseFilename.isSome
  baseFilename := baseFilename.getD []
  filenameExtension := []
  file := none
  severity := severity
  bytesSinceFlush := 0
  fileLength := 0
  rolloverAttempt := kRolloverAttemptFrequency - 1
  nextFlushTime := 0
  closed := []

/-- `fclose`, if there is a file. -/
def closeFile (o : LogFileObject) : LogFileObject :=
  { o with file := none, closed := o.closed ++ o.file.toList.map LogFile.fflush }

/-- Get rid of the old log file since we are changing names. -/
def dropFile (o : LogFileObject) : LogFileObject :=
  if o.file.isSome then { o.closeFile with rolloverAttempt := kRolloverAttemptFrequency - 1 } else o

/-- `SetBasename`. -/
def setBasename (o : LogFileObject) (basename : Bytes) : LogFileObject :=
  let o := { o with baseFilenameSelected := true }
  if o.baseFilename = basename then o else { o.dropFile with baseFilename := basename }

/-- `SetExtension`. -/
def setExtension (o : LogFileObject) (ext : Bytes) : LogFileObject :=
  if o.filenameExtension = ext then o else { o.dropFile with filenameExtension := ext }

/-- `FlushUnlocked`. -/
def flushUnlocked (flags : LogFlags) (now : Int) (o : LogFileObject) : LogFileObject :=
  { o with
    file := o.file.map LogFile.fflush
    bytesSinceFlush := if o.file.isSome then 0 else o.bytesSinceFlush
    nextFlushTime := now + flags.logbufsecs * 1000000 }

/-! ## `Write` -/

/-- `base_filename_` is "", which means "don't write". -/
def off (o : LogFileObject) : Bool := o.baseFilenameSelected && o.baseFilename.isEmpty

/-- The file has reached the size at which it is given up. -/
def full (flags : LogFlags) (o : LogFileObject) : Bool := flags.maxSize ≤ (o.fileLength >>> 20).toNat

/-- The file is given up. -/
def restart (o : LogFileObject) : LogFileObject :=
  { o.closeFile with
    fileLength := 0, bytesSinceFlush := 0, rolloverAttempt := kRolloverAttemptFrequency - 1 }

/-- First part of `Write`: the file is too long, or the process id has changed. -/
def rollover (flags : LogFlags) (env : WriteEnv) (statics : LogFileStatics) (o : LogFileObject) :
    LogFileStatics × LogFileObject :=
  if o.full flags then (statics, o.restart)
  else
    let (statics, changed) := statics.pidHasChanged env.pid
    (statics, if changed then o.restart else o)

/-- `CreateLogfile`. -/
def createLogfile (env : WriteEnv) (timePid : Bytes) (o : LogFileObject) : Option LogFile :=
  let filename := o.baseFilename ++ o.filenameExtension ++ timePid
  if env.creates filename then some ⟨filename, [], [], 0⟩ else none

/-- Go through the list of dirs, and try to create the log file in each. -/
def createIn (env : WriteEnv) (timePid stripped : Bytes) : List Bytes → LogFileObject → LogFileObject
  | [], o => o
  | dir :: dirs, o =>
    let o := { o with baseFilename := dir ++ lit "/" ++ stripped }
    match o.createLogfile env timePid with
    | some file => { o with file := some file }
    | none => createIn env timePid stripped dirs o

/-- The file for a selected name, or for the default names. -/
def create (machine : Machine) (env : WriteEnv) (pid : Int) (o : LogFileObject) : LogFileObject :=
  let timePid := timePidString env.tm pid
  if o.baseFilenameSelected then { o with file := o.createLogfile env timePid }
  else createIn env timePid (strippedFilename machine o.severity) machine.loggingDirectories o

/-- Write a header message into the log file. -/
def writeHeader (machine : Machine) (env : WriteEnv) (o : LogFileObject) : LogFileObject :=
  match o.file with
  | none => o
  | some file =>
    let header := fileHeaderString machine env.tm
    { o with
      file := some { file with header := header.take env.headerTaken }
      fileLength := o.fileLength + UInt32.ofNat header.length
      bytesSinceFlush := o.bytesSinceFlush + UInt32.ofNat header.length }

/-- Second part of `Write`: if there's no destination file, make one, at every 32nd attempt. -/
def ready (machine : Machine) (env : WriteEnv) (pid : Int) (o : LogFileObject) : LogFileObject :=
  if o.file.isSome then o
  else
    let rolloverAttempt := o.rolloverAttempt + 1
    if rolloverAttempt ≠ kRolloverAttemptFrequency then { o with rolloverAttempt := rolloverAttempt }
    else ({ o with rolloverAttempt := 0 }.create machine env pid).writeHeader machine env

/-- Third part of `Write`: the message, and a flush if one is due. -/
def output (flags : LogFlags) (env : WriteEnv) (statics : LogFileStatics) (o : LogFileObject) (forceFlush : Bool)
    (message : Bytes) : LogFileStatics × LogFileObject :=
  match o.file with
  | none => (statics, o)
  | some file =>
    if statics.stopWriting then ({ statics with stopWriting := !decide (env.now ≥ o.nextFlushTime) }, o)
    else
      let o := { o with file := some { file with body := file.body ++ message.take env.taken } }
      if flags.stopLoggingIfFullDisk && env.noSpace then ({ statics with stopWriting := true }, o)
      else
        let o := { o with
          fileLength := o.fileLength + UInt32.ofNat message.length
          bytesSinceFlush := o.bytesSinceFlush + UInt32.ofNat message.length }
        if forceFlush || o.bytesSinceFlush ≥ 1000000 || decide (env.now ≥ o.nextFlushTime) then
          (statics, o.flushUnlocked flags env.flushNow)
        else (statics, o)

/-- `Write`. -/
def write (flags : LogFlags) (machine : Machine) (env : WriteEnv) (statics : LogFileStatics) (o : LogFileObject)
    (forceFlush : Bool) (message : Bytes) : LogFileStatics × LogFileObject :=
  if o.off then (statics, o)
  else
    let (statics, o) := o.rollover flags env statics
    (o.ready machine env statics.mainThreadPid).output flags env statics forceFlush message

/-! ## What the parts do -/

/-- What a new name does: the file is dropped, or nothing happens to it. -/
structure Renamed (o o' : LogFileObject) : Prop where
  fileLength : o'.fileLength = o.fileLength
  bytesSinceFlush : o'.bytesSinceFlush = o.bytesSinceFlush
  nextFlushTime : o'.nextFlushTime = o.nextFlushTime
  file : (o'.file = o.file ∧ o'.closed = o.closed ∧ o'.rolloverAttempt = o.rolloverAttempt) ∨
    (o'.file = none ∧ o'.closed = o.closeFile.closed ∧ o'.rolloverAttempt = kRolloverAttemptFrequency - 1)

theorem renamed_dropFile (o : LogFileObject) : Renamed o o.dropFile := by
  unfold dropFile
  split
  · exact ⟨rfl, rfl, rfl, Or.inr ⟨rfl, rfl, rfl⟩⟩
  · exact ⟨rfl, rfl, rfl, Or.inl ⟨rfl, rfl, rfl⟩⟩

theorem renamed_setBasename (o : LogFileObject) (basename : Bytes) : Renamed o (o.setBasename basename) := by
  unfold setBasename
  dsimp only
  split
  · exact ⟨rfl, rfl, rfl, Or.inl ⟨rfl, rfl, rfl⟩⟩
  · have h := renamed_dropFile { o with baseFilenameSelected := true }
    exact ⟨h.fileLength, h.bytesSinceFlush, h.nextFlushTime, h.file⟩

theorem renamed_setExtension (o : LogFileObject) (ext : Bytes) : Renamed o (o.setExtension ext) := by
  unfold setExtension
  split
  · exact ⟨rfl, rfl, rfl, Or.inl ⟨rfl, rfl, rfl⟩⟩
  · have h := renamed_dropFile o
    exact ⟨h.fileLength, h.bytesSinceFlush, h.nextFlushTime, h.file⟩

section
variable {flags : LogFlags} {machine : Machine} {env : WriteEnv} {statics : LogFileStatics} {o : LogFileObject}

theorem maxSize_pos (flags : LogFlags) : 0 < flags.maxSize := by
  unfold LogFlags.maxSize
  split <;> omega

theorem maxBytes_pos (flags : LogFlags) : 0 < flags.maxBytes :=
  Nat.mul_pos (maxSize_pos flags) (Nat.two_pow_pos 20)

/-- A file that is not full has some way to go. -/
theorem fileLength_lt (h : o.full flags = false) : o.fileLength.toNat < flags.maxBytes := by
  unfold full at h
  rw [decide_eq_false_iff_not, Nat.not_le, UInt32.toNat_shiftRight] at h
  have hshift : o.fileLength.toNat >>> ((20 : UInt32).toNat % 32) = o.fileLength.toNat / 2 ^ 20 :=
    Nat.shiftRight_eq_div_pow _ _
  rw [hshift, Nat.div_lt_iff_lt_mul (Nat.two_pow_pos 20)] at h
  exact h

/-- The first part: the file is given up when it is full, or when the process id has changed. -/
theorem rollover_cases (flags : LogFlags) (env : WriteEnv) (statics : LogFileStatics) (o : LogFileObject) :
    (o.full flags = true ∧ o.rollover flags env statics = (statics, o.restart)) ∨
    (o.full flags = false ∧ statics.mainThreadPid = env.pid ∧ o.rollover flags env statics = (statics, o)) ∨
    (o.full flags = false ∧ statics.mainThreadPid ≠ env.pid ∧
      o.rollover flags env statics = ({ statics with mainThreadPid := env.pid }, o.restart)) := by
  unfold rollover LogFileStatics.pidHasChanged
  cases hfull : o.full flags with
  | true => exact Or.inl ⟨rfl, rfl⟩
  | false =>
    by_cases hpid : statics.mainThreadPid = env.pid
    · refine Or.inr (Or.inl ⟨rfl, hpid, ?_⟩)
      simp [hpid]
    · refine Or.inr (Or.inr ⟨rfl, hpid, ?_⟩)
      simp [hpid]

theorem rollover_object (flags : LogFlags) (env : WriteEnv) (statics : LogFileStatics) (o : LogFileObject) :
    (o.full flags = false ∧ (o.rollover flags env statics).2 = o) ∨ (o.rollover flags env statics).2 = o.restart := by
  rcases rollover_cases flags env statics o with ⟨-, h⟩ | ⟨hfull, -, h⟩ | ⟨-, -, h⟩
  · exact Or.inr (congrArg Prod.snd h)
  · exact Or.inl ⟨hfull, congrArg Prod.snd h⟩
  · exact Or.inr (congrArg Prod.snd h)

theorem stopWriting_rollover (flags : LogFlags) (env : WriteEnv) (statics : LogFileStatics) (o : LogFileObject) :
    (o.rollover flags env statics).1.stopWriting = statics.stopWriting := by
  rcases rollover_cases flags env statics o with ⟨-, h⟩ | ⟨-, -, h⟩ | ⟨-, -, h⟩ <;> rw [h]

/-- What `create` leaves as it is, and the file it makes. -/
structure Created (env : WriteEnv) (o o' : LogFileObject) : Prop where
  closed : o'.closed = o.closed
  fileLength : o'.fileLength = o.fileLength
  bytesSinceFlush : o'.bytesSinceFlush = o.bytesSinceFlush
  rolloverAttempt : o'.rolloverAttempt = o.rolloverAttempt
  nextFlushTime : o'.nextFlushTime = o.nextFlushTime
  off : o'.off = o.off
  file : o'.file = none ∨ ∃ name, env.creates name = true ∧ o'.file = some ⟨name, [], [], 0⟩

theorem createLogfile_cases (env : WriteEnv) (timePid : Bytes) (o : LogFileObject) :
    o.createLogfile env timePid = none ∨
      ∃ name, env.creates name = true ∧ o.createLogfile env timePid = some ⟨name, [], [], 0⟩ := by
  unfold createLogfile
  dsimp only
  split
  · rename_i h
    exact Or.inr ⟨_, h, rfl⟩
  · exact Or.inl rfl

theorem created_createIn (env : WriteEnv) (timePid stripped : Bytes) {o : LogFileObject} (hfile : o.file = none)
    (hdefault : o.baseFilenameSelected = false) (dirs : List Bytes) :
    Created env o (createIn env timePid stripped dirs o) := by
  induction dirs generalizing o with
  | nil => exact ⟨rfl, rfl, rfl, rfl, rfl, rfl, Or.inl hfile⟩
  | cons dir dirs ih =>
    have hoff (base : Bytes) (f : Option LogFile) : { o with baseFilename := base, file := f }.off = o.off := by
      unfold off
      simp [hdefault]
    unfold createIn
    dsimp only
    rcases createLogfile_cases env timePid { o with baseFilename := dir ++ lit "/" ++ stripped } with
      hnone | ⟨name, hname, hsome⟩
    · rw [hnone]
      have hnext : ({ o with baseFilename := dir ++ lit "/" ++ stripped } : LogFileObject).file = none := hfile
      have h := ih hnext hdefault
      exact ⟨h.closed, h.fileLength, h.bytesSinceFlush, h.rolloverAttempt, h.nextFlushTime, h.off.trans (hoff _ _),
        h.file⟩
    · rw [hsome]
      exact ⟨rfl, rfl, rfl, rfl, rfl, hoff _ _, Or.inr ⟨name, hname, rfl⟩⟩

theorem created_create (machine : Machine) (env : WriteEnv) (pid : Int) {o : LogFileObject} (hfile : o.file = none) :
    Created env o (o.create machine env pid) := by
  unfold create
  dsimp only
  split
  · exact ⟨rfl, rfl, rfl, rfl, rfl, rfl, createLogfile_cases env _ o⟩
  · rename_i hdefault
    exact created_createIn env _ _ hfile (by simpa using hdefault) machine.loggingDirectories

/-- No file was made. -/
structure Waiting (o o' : LogFileObject) : Prop where
  file : o'.file = none
  closed : o'.closed = o.closed
  fileLength : o'.fileLength = o.fileLength
  bytesSinceFlush : o'.bytesSinceFlush = o.bytesSinceFlush
  nextFlushTime : o'.nextFlushTime = o.nextFlushTime
  off : o'.off = o.off
  rolloverAttempt : o'.rolloverAttempt =
    if o.rolloverAttempt + 1 = kRolloverAttemptFrequency then 0 else o.rolloverAttempt + 1

/-- A file was made, and it has its header. -/
structure Opened (machine : Machine) (env : WriteEnv) (o o' : LogFileObject) : Prop where
  file : ∃ name, env.creates name = true ∧
    o'.file = some ⟨name, (fileHeaderString machine env.tm).take env.headerTaken, [], 0⟩
  closed : o'.closed = o.closed
  fileLength : o'.fileLength = o.fileLength + UInt32.ofNat (fileHeaderString machine env.tm).length
  bytesSinceFlush : o'.bytesSinceFlush = o.bytesSinceFlush + UInt32.ofNat (fileHeaderString machine env.tm).length
  nextFlushTime : o'.nextFlushTime = o.nextFlushTime
  off : o'.off = o.off

theorem writeHeader_created (machine : Machine) {o' : LogFileObject}
    (h : Created env { o with rolloverAttempt := 0 } o')
    (hattempt : o.rolloverAttempt + 1 = kRolloverAttemptFrequency) :
    Waiting o (o'.writeHeader machine env) ∨ Opened machine env o (o'.writeHeader machine env) := by
  unfold writeHeader
  rcases h.file with hnone | ⟨name, hname, hsome⟩
  · rw [hnone]
    refine Or.inl ⟨hnone, h.closed, h.fileLength, h.bytesSinceFlush, h.nextFlushTime, h.off, ?_⟩
    rw [if_pos hattempt]
    exact h.rolloverAttempt
  · rw [hsome]
    refine Or.inr ⟨⟨name, hname, rfl⟩, h.closed, ?_, ?_, h.nextFlushTime, h.off⟩
    · dsimp only
      rw [h.fileLength]
    · dsimp only
      rw [h.bytesSinceFlush]

/-- The second part: there is a file, or the object waits, or a file is made. -/
theorem ready_cases (machine : Machine) (env : WriteEnv) (pid : Int) (o : LogFileObject) :
    (o.file.isSome = true ∧ o.ready machine env pid = o) ∨
    (o.file = none ∧ Waiting o (o.ready machine env pid)) ∨
    (o.file = none ∧ o.rolloverAttempt + 1 = kRolloverAttemptFrequency ∧
      Opened machine env o (o.ready machine env pid)) := by
  unfold ready
  by_cases hsome : o.file.isSome = true
  · rw [if_pos hsome]
    exact Or.inl ⟨hsome, rfl⟩
  · have hfile : o.file = none := by simpa using hsome
    rw [if_neg hsome]
    dsimp only
    by_cases hattempt : o.rolloverAttempt + 1 = kRolloverAttemptFrequency
    · rw [if_neg (not_not.mpr hattempt)]
      have hcreated : Created env { o with rolloverAttempt := 0 } _ := created_create machine env pid hfile
      rcases writeHeader_created machine hcreated hattempt with hwaiting | hopened
      · exact Or.inr (Or.inl ⟨hfile, hwaiting⟩)
      · exact Or.inr (Or.inr ⟨hfile, hattempt, hopened⟩)
    · rw [if_pos hattempt]
      exact Or.inr (Or.inl ⟨hfile, ⟨hfile, rfl, rfl, rfl, rfl, rfl, (if_neg hattempt).symm⟩⟩)

/-- The object behind a message that was written. -/
def counted (o : LogFileObject) (file : LogFile) (env : WriteEnv) (message : Bytes) : LogFileObject :=
  { o with
    file := some { file with body := file.body ++ message.take env.taken }
    fileLength := o.fileLength + UInt32.ofNat message.length
    bytesSinceFlush := o.bytesSinceFlush + UInt32.ofNat message.length }

/-- A flush is due. -/
def due (env : WriteEnv) (forceFlush : Bool) (o : LogFileObject) : Bool :=
  forceFlush || o.bytesSinceFlush ≥ 1000000 || decide (env.now ≥ o.nextFlushTime)

/-- The third part: writing is stopped, or the disk is full, or the message is written. -/
theorem output_cases (flags : LogFlags) (env : WriteEnv) (statics : LogFileStatics) {o : LogFileObject}
    {file : LogFile} (hfile : o.file = some file) (forceFlush : Bool) (message : Bytes) :
    (statics.stopWriting = true ∧ o.output flags env statics forceFlush message =
      ({ statics with stopWriting := !decide (env.now ≥ o.nextFlushTime) }, o)) ∨
    (statics.stopWriting = false ∧ (flags.stopLoggingIfFullDisk && env.noSpace) = true ∧
      o.output flags env statics forceFlush message = ({ statics with stopWriting := true },
        { o with file := some { file with body := file.body ++ message.take env.taken } })) ∨
    (statics.stopWriting = false ∧ (flags.stopLoggingIfFullDisk && env.noSpace) = false ∧
      o.output flags env statics forceFlush message = (statics,
        if (o.counted file env message).due env forceFlush then
          (o.counted file env message).flushUnlocked flags env.flushNow
        else o.counted file env message)) := by
  unfold output
  rw [hfile]
  dsimp only
  cases hstop : statics.stopWriting with
  | true => exact Or.inl ⟨rfl, rfl⟩
  | false =>
    rw [if_neg Bool.false_ne_true]
    cases hfull : flags.stopLoggingIfFullDisk && env.noSpace with
    | true => exact Or.inr (Or.inl ⟨rfl, rfl, rfl⟩)
    | false =>
      refine Or.inr (Or.inr ⟨rfl, rfl, ?_⟩)
      rw [if_neg Bool.false_ne_true]
      show (if due env forceFlush (o.counted file env message) then _ else _) = _
      split <;> rfl

theorem output_none (flags : LogFlags) (env : WriteEnv) (statics : LogFileStatics) {o : LogFileObject}
    (hfile : o.file = none) (forceFlush : Bool) (message : Bytes) :
    o.output flags env statics forceFlush message = (statics, o) := by
  unfold output
  rw [hfile]

theorem write_off (h : o.off = true) (forceFlush : Bool) (message : Bytes) :
    o.write flags machine env statics forceFlush message = (statics, o) := if_pos h

theorem write_eq (h : o.off = false) (forceFlush : Bool) (message : Bytes) :
    o.write flags machine env statics forceFlush message =
      ((o.rollover flags env statics).2.ready machine env (o.rollover flags env statics).1.mainThreadPid).output
        flags env (o.rollover flags env statics).1 forceFlush message := by
  unfold write
  rw [if_neg (by simp [h])]

/-! ## The messages in the files -/

/-- The bytes of the messages in the files of an object, without the headers. -/
def text (o : LogFileObject) : Bytes := (o.closed ++ o.file.toList).flatMap fun f => f.body

theorem text_eq (o : LogFileObject) :
    o.text = (o.closed.flatMap fun f => f.body) ++ ((o.file.map fun f => f.body).getD []) := by
  unfold text
  rw [List.flatMap_append]
  cases o.file with
  | none => simp
  | some file => simp

theorem text_of_file {file : LogFile} (h : o.file = some file) :
    o.text = (o.closed.flatMap fun f => f.body) ++ file.body := by
  rw [text_eq, h]
  rfl

/-- Objects with the same files have the same messages in them. -/
theorem text_congr {o' : LogFileObject} (hclosed : o'.closed = o.closed) (hfile : o'.file = o.file) :
    o'.text = o.text := by
  unfold text
  rw [hclosed, hfile]

/-- A file that is closed is still there. -/
theorem text_of_closed {o' : LogFileObject} (hclosed : o'.closed = o.closeFile.closed) (hfile : o'.file = none) :
    o'.text = o.text := by
  unfold text
  rw [hclosed, hfile]
  unfold closeFile
  cases o.file with
  | none => simp
  | some file => simp [LogFile.fflush]

theorem Renamed.text {o' : LogFileObject} (h : Renamed o o') : o'.text = o.text := by
  rcases h.file with ⟨hfile, hclosed, -⟩ | ⟨hfile, hclosed, -⟩
  · exact text_congr hclosed hfile
  · exact text_of_closed hclosed hfile

theorem text_flushUnlocked (flags : LogFlags) (now : Int) (o : LogFileObject) :
    (o.flushUnlocked flags now).text = o.text := by
  have hfile : (o.flushUnlocked flags now).file = o.file.map LogFile.fflush := rfl
  rw [text_eq, text_eq, hfile, Option.map_map]
  rfl

theorem text_rollover (flags : LogFlags) (env : WriteEnv) (statics : LogFileStatics) (o : LogFileObject) :
    (o.rollover flags env statics).2.text = o.text := by
  rcases rollover_object flags env statics o with ⟨-, h⟩ | h
  · rw [h]
  · rw [h]
    exact text_of_closed rfl rfl

theorem text_ready (machine : Machine) (env : WriteEnv) (pid : Int) (o : LogFileObject) :
    (o.ready machine env pid).text = o.text := by
  rcases ready_cases machine env pid o with ⟨-, h⟩ | ⟨hfile, h⟩ | ⟨hfile, -, h⟩
  · rw [h]
  · exact text_congr h.closed (h.file.trans hfile.symm)
  · obtain ⟨name, -, hnew⟩ := h.file
    rw [text_of_file hnew, text_eq, h.closed, hfile]
    rfl

theorem text_written {o' : LogFileObject} {file : LogFile} (hfile : o.file = some file) {bytes : Bytes}
    (hclosed : o'.closed = o.closed) (hnew : o'.file = some { file with body := file.body ++ bytes }) :
    o'.text = o.text ++ bytes := by
  rw [text_of_file hnew, text_of_file hfile, hclosed, List.append_assoc]

theorem text_counted {file : LogFile} (hfile : o.file = some file) (env : WriteEnv) (message : Bytes) :
    (o.counted file env message).text = o.text ++ message.take env.taken :=
  text_written hfile rfl rfl

theorem output_text (flags : LogFlags) (env : WriteEnv) (statics : LogFileStatics) (o : LogFileObject)
    (forceFlush : Bool) (message : Bytes) :
    ∃ part, part <+: message ∧ (o.output flags env statics forceFlush message).2.text = o.text ++ part := by
  cases hfile : o.file with
  | none =>
    rw [output_none _ _ _ hfile]
    exact ⟨[], List.nil_prefix, (List.append_nil _).symm⟩
  | some file =>
    rcases output_cases flags env statics hfile forceFlush message with ⟨-, h⟩ | ⟨-, -, h⟩ | ⟨-, -, h⟩
    · rw [h]
      exact ⟨[], List.nil_prefix, (List.append_nil _).symm⟩
    · rw [h]
      exact ⟨message.take env.taken, List.take_prefix _ _, text_written hfile rfl rfl⟩
    · rw [h]
      refine ⟨message.take env.taken, List.take_prefix _ _, ?_⟩
      dsimp only
      split
      · exact (text_flushUnlocked _ _ _).trans (text_counted hfile env message)
      · exact text_counted hfile env message

/-- **One call adds to the files a first part of its message, and changes nothing else there.** -/
theorem write_text (flags : LogFlags) (machine : Machine) (env : WriteEnv) (statics : LogFileStatics)
    (o : LogFileObject) (forceFlush : Bool) (message : Bytes) :
    ∃ part, part <+: message ∧ (o.write flags machine env statics forceFlush message).2.text = o.text ++ part := by
  cases hoff : o.off with
  | true =>
    rw [write_off hoff]
    exact ⟨[], List.nil_prefix, (List.append_nil _).symm⟩
  | false =>
    rw [write_eq hoff, ← text_rollover flags env statics o,
      ← text_ready machine env (o.rollover flags env statics).1.mainThreadPid (o.rollover flags env statics).2]
    exact output_text _ _ _ _ _ _

/-- Nothing goes wrong in a call of `Write`. -/
structure Good (env : WriteEnv) (message : Bytes) : Prop where
  creates : ∀ name, env.creates name = true
  noSpace : env.noSpace = false
  taken : message.length ≤ env.taken

/-- When there is no file, the next call makes one. -/
def Prepared (o : LogFileObject) : Prop := o.file = none → o.rolloverAttempt = kRolloverAttemptFrequency - 1

theorem prepared_new (severity : LogSeverity) (baseFilename : Option Bytes) : Prepared (new severity baseFilename) :=
  fun _ => rfl

theorem Renamed.prepared {o' : LogFileObject} (h : Renamed o o') (ho : Prepared o) : Prepared o' := by
  intro hnone
  rcases h.file with ⟨hfile, -, hattempt⟩ | ⟨-, -, hattempt⟩
  · rw [hattempt]
    exact ho (hfile.symm.trans hnone)
  · exact hattempt

theorem prepared_flushUnlocked (flags : LogFlags) (now : Int) (ho : Prepared o) :
    Prepared (o.flushUnlocked flags now) := by
  intro hnone
  apply ho
  have hfile : o.file.map LogFile.fflush = none := hnone
  simpa using hfile

theorem prepared_rollover (flags : LogFlags) (env : WriteEnv) (statics : LogFileStatics) (ho : Prepared o) :
    Prepared (o.rollover flags env statics).2 := by
  rcases rollover_object flags env statics o with ⟨-, h⟩ | h
  · rw [h]
    exact ho
  · rw [h]
    exact fun _ => rfl

theorem file_create {message : Bytes} (hgood : Good env message) (machine : Machine) (pid : Int) (o : LogFileObject) :
    (o.create machine env pid).file.isSome = true := by
  have hmake (o' : LogFileObject) (timePid : Bytes) : (o'.createLogfile env timePid).isSome = true := by
    unfold createLogfile
    simp [hgood.creates]
  unfold create
  dsimp only
  split
  · exact hmake _ _
  · cases hdirs : machine.loggingDirectories with
    | nil => exact absurd hdirs machine.loggingDirectories_ne
    | cons dir dirs =>
      unfold createIn
      dsimp only
      obtain ⟨file, hfile⟩ := Option.isSome_iff_exists.mp (hmake { o with
        baseFilename := dir ++ lit "/" ++ strippedFilename machine o.severity } (timePidString env.tm pid))
      rw [hfile]
      rfl

theorem file_ready {message : Bytes} (hgood : Good env message) (machine : Machine) (pid : Int) (ho : Prepared o) :
    (o.ready machine env pid).file.isSome = true := by
  unfold ready
  by_cases hsome : o.file.isSome = true
  · rw [if_pos hsome]
    exact hsome
  · have hattempt : o.rolloverAttempt + 1 = kRolloverAttemptFrequency := by
      rw [ho (by simpa using hsome)]
      rfl
    rw [if_neg hsome]
    dsimp only
    rw [if_neg (not_not.mpr hattempt)]
    have hfile := file_create hgood machine pid { o with rolloverAttempt := 0 }
    unfold writeHeader
    cases h : ({ o with rolloverAttempt := 0 }.create machine env pid).file with
    | none =>
      rw [h] at hfile
      cases hfile
    | some file => rfl

/-- **When nothing goes wrong, the whole message is written**, and there is a file behind the call. -/
theorem write_good {message : Bytes} (hgood : Good env message) (flags : LogFlags) (machine : Machine)
    (hstop : statics.stopWriting = false) (ho : Prepared o) (hoff : o.off = false) (forceFlush : Bool) :
    (o.write flags machine env statics forceFlush message).2.text = o.text ++ message ∧
      (o.write flags machine env statics forceFlush message).2.file.isSome = true := by
  rw [write_eq hoff, ← text_rollover flags env statics o,
    ← text_ready machine env (o.rollover flags env statics).1.mainThreadPid (o.rollover flags env statics).2]
  have hstop' := (stopWriting_rollover flags env statics o).trans hstop
  have hfile := file_ready hgood machine (o.rollover flags env statics).1.mainThreadPid
    (prepared_rollover flags env statics ho)
  obtain ⟨file, hfile⟩ := Option.isSome_iff_exists.mp hfile
  rcases output_cases flags env _ hfile forceFlush message with ⟨h, -⟩ | ⟨-, h, -⟩ | ⟨-, -, h⟩
  · rw [hstop'] at h
    cases h
  · rw [hgood.noSpace, Bool.and_false] at h
    cases h
  · rw [h]
    have htext := text_counted hfile env message
    rw [List.take_of_length_le hgood.taken] at htext
    dsimp only
    split
    · exact ⟨(text_flushUnlocked _ _ _).trans htext, rfl⟩
    · exact ⟨htext, rfl⟩

/-! ## What a call leaves as it is -/

theorem off_rollover (flags : LogFlags) (env : WriteEnv) (statics : LogFileStatics) (o : LogFileObject) :
    (o.rollover flags env statics).2.off = o.off := by
  rcases rollover_object flags env statics o with ⟨-, h⟩ | h
  · rw [h]
  · rw [h]
    rfl

theorem off_ready (machine : Machine) (env : WriteEnv) (pid : Int) (o : LogFileObject) :
    (o.ready machine env pid).off = o.off := by
  rcases ready_cases machine env pid o with ⟨-, h⟩ | ⟨-, h⟩ | ⟨-, -, h⟩
  · rw [h]
  · exact h.off
  · exact h.off

theorem off_output (flags : LogFlags) (env : WriteEnv) (statics : LogFileStatics) (o : LogFileObject)
    (forceFlush : Bool) (message : Bytes) : (o.output flags env statics forceFlush message).2.off = o.off := by
  cases hfile : o.file with
  | none => rw [output_none _ _ _ hfile]
  | some file =>
    rcases output_cases flags env statics hfile forceFlush message with ⟨-, h⟩ | ⟨-, -, h⟩ | ⟨-, -, h⟩
    · rw [h]
    · rw [h]
      rfl
    · rw [h]
      dsimp only
      split <;> rfl

/-- A call does not turn an object off, or on. -/
theorem off_write (flags : LogFlags) (machine : Machine) (env : WriteEnv) (statics : LogFileStatics)
    (o : LogFileObject) (forceFlush : Bool) (message : Bytes) :
    (o.write flags machine env statics forceFlush message).2.off = o.off := by
  cases hoff : o.off with
  | true =>
    rw [write_off hoff]
    exact hoff
  | false => rw [write_eq hoff, off_output, off_ready, off_rollover, hoff]

theorem off_dropFile (o : LogFileObject) : o.dropFile.off = o.off := by
  unfold dropFile
  split <;> rfl

/-- An empty name turns an object off. -/
theorem off_setBasename (o : LogFileObject) (basename : Bytes) : (o.setBasename basename).off = basename.isEmpty := by
  unfold setBasename
  dsimp only
  split
  · rename_i hsame
    unfold off
    rw [← hsame]
    rfl
  · have hselected : { o with baseFilenameSelected := true }.dropFile.baseFilenameSelected = true := by
      unfold dropFile
      split <;> rfl
    unfold off
    dsimp only
    rw [hselected]
    rfl

theorem off_setExtension (o : LogFileObject) (ext : Bytes) : (o.setExtension ext).off = o.off := by
  unfold setExtension
  split
  · rfl
  · exact off_dropFile o

/-- Without `--stop_logging_if_full_disk` the third part leaves the statics alone. -/
theorem statics_output (hflag : flags.stopLoggingIfFullDisk = false) (hstop : statics.stopWriting = false)
    (env : WriteEnv) (o : LogFileObject) (forceFlush : Bool) (message : Bytes) :
    (o.output flags env statics forceFlush message).1 = statics := by
  cases hfile : o.file with
  | none => rw [output_none _ _ _ hfile]
  | some file =>
    rcases output_cases flags env statics hfile forceFlush message with ⟨h, -⟩ | ⟨-, h, -⟩ | ⟨-, -, h⟩
    · rw [hstop] at h
      cases h
    · rw [hflag, Bool.false_and] at h
      cases h
    · rw [h]

/-- Without `--stop_logging_if_full_disk` a call only notes the process id, if it comes to ask for it. -/
theorem statics_write (hflag : flags.stopLoggingIfFullDisk = false) (hstop : statics.stopWriting = false)
    (machine : Machine) (env : WriteEnv) (o : LogFileObject) (forceFlush : Bool) (message : Bytes) :
    (o.write flags machine env statics forceFlush message).1 =
      ⟨false, if o.off || o.full flags then statics.mainThreadPid else env.pid⟩ := by
  have hsame : statics = ⟨false, statics.mainThreadPid⟩ := by rw [← hstop]
  cases hoff : o.off with
  | true =>
    rw [write_off hoff]
    exact hsame
  | false =>
    rw [write_eq hoff, statics_output hflag ((stopWriting_rollover flags env statics o).trans hstop)]
    rcases rollover_cases flags env statics o with ⟨hfull, h⟩ | ⟨hfull, hpid, h⟩ | ⟨hfull, -, h⟩
    · rw [h, hfull]
      exact hsame
    · rw [h, hfull, ← hpid]
      exact hsame
    · rw [h, hfull, hstop]
      rfl

end

end LogFileObject

end Thirdparty.Glog
