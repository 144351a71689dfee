import Thirdparty.Gflags.Registry
import Thirdparty.Gflags.Reporting
import Std.Data.TreeMap
import Std.Data.TreeSet

/-!
# `Gflags.Parser` — flags that set flags

`CommandLineFlagParser` of `gflags.cc`, without the loop over `argv` (`Gflags.Argv`). `--flagfile`, `--fromenv` and
`--tryfromenv` take their effect as soon as they are set, and what they read can set them again; the recursion is
bounded by fuel, and a function that comes to the bound is `running`. A flag that is passed by pointer is passed by
its name.

## Contents
- `splitArgument` (`SplitArgumentLocked`), `parseFlagList`.
- `Parser`: the registry and the errors so far.
- `optionLines`: the lines of a flag file.
- `processFlagfile`, `processFromenv`, `processOptionsFromString`, over the recursive function as a parameter;
  `processSingleOption`.
- `validateAllFlags`, `reportErrors`.
-/

namespace Thirdparty.Gflags

/-- `'-'`. -/
def dash : Byte := 45

/-- `'='`. -/
def equals : Byte := 61

/-- `','`. -/
def comma : Byte := 44

/-- `'#'`. -/
def hash : Byte := 35

/-- `'/'`. -/
def slash : Byte := 47

/-- The first occurrence is where it was put. -/
theorem strchr_append {s : Bytes} {c : Byte} (hc : c ∉ s) (rest : Bytes) :
    strchr (s ++ c :: rest) c = some s.length := by
  induction s with
  | nil => simp [strchr]
  | cons b s ih =>
    rw [List.mem_cons, not_or] at hc
    rw [List.cons_append, strchr, if_neg (Ne.symm hc.1), ih hc.2]
    rfl

/-! ## Arguments -/

/-- The results of `SplitArgumentLocked`: the flag or the error message, `*key`, and `*v`. -/
structure Split where
  flag : Except Bytes CommandLineFlag
  key : Bytes
  value : Option Bytes

/-- The name and the value of `name=value`. -/
def splitEquals (arg : Bytes) : Bytes × Option Bytes :=
  match strchr arg equals with
  | none => (arg, none)
  | some n => (arg.take n, some (arg.drop (n + 1)))

/-- A boolean flag without a value is set to `1`. -/
def implicitValue (type : ValueType) (value : Option Bytes) : Option Bytes :=
  if value = none ∧ type = .bool then some (lit "1") else value

/-- The message for a name that is not known. -/
def unknownFlag (key : Bytes) : Bytes := kError ++ lit "unknown command line flag '" ++ key ++ lit "'\n"

/-- `flag_name + 2`, if the name begins with `no`. -/
def withoutNo : Bytes → Option Bytes
  | 110 :: 111 :: name => some name
  | _ => none

/-- `SplitArgumentLocked`. -/
def splitArgument (r : FlagRegistry) (arg : Bytes) : Split :=
  let (key, value) := splitEquals arg
  match r.findFlag key with
  | some flag => ⟨.ok flag, key, implicitValue flag.type value⟩
  | none =>
    match withoutNo key with
    | none => ⟨.error (unknownFlag key), key, value⟩
    | some name =>
      -- `nox`: not an error if there is a boolean flag `x`
      match r.findFlag name with
      | none => ⟨.error (unknownFlag key), key, value⟩
      | some flag =>
        if flag.type ≠ .bool then
          ⟨.error (kError ++ lit "boolean value (" ++ key ++ lit ") specified for " ++ FlagValue.typeName flag.type ++
            lit " command line flag\n"), key, value⟩
        else ⟨.ok flag, name, some (lit "0")⟩

/-- The entry in front, and what is behind its comma. -/
def cutEntry (value : Bytes) : Bytes × Bytes :=
  match strchr value comma with
  | some len => (value.take len, value.drop (len + 1))
  | none => (value, [])

/-- The rounds of the loop of `ParseFlagList`; a round takes one byte or more. -/
def parseFlagListFrom : Nat → Bytes → Outcome Exit (List Bytes)
  | 0, _ => .returned []
  | n + 1, value =>
    if value = [] then .returned []
    else if (cutEntry value).1 = [] then reportError (lit "ERROR: empty flaglist entry\n")
    else if value.head? = some dash then
      reportError (lit "ERROR: flag \"" ++ setw (cutEntry value).1.length blank value ++ lit "\" begins with '-'\n")
    else do
      let flags ← parseFlagListFrom n (cutEntry value).2
      return (cutEntry value).1 :: flags

/-- `ParseFlagList`. -/
def parseFlagList (value : Bytes) : Outcome Exit (List Bytes) := parseFlagListFrom value.length value

/-- `ReadFileIntoString`. -/
def readFileIntoString (w : World) (file : Bytes) : Outcome Exit Bytes :=
  match w.readFile file with
  | none => .exited ⟨1, w.perror file⟩
  | some contents => .returned contents

/-! ## The parser -/

/-- `CommandLineFlagParser`, with the registry it works on. -/
structure Parser where
  registry : FlagRegistry
  errorFlags : Std.TreeMap Bytes Bytes
  undefinedNames : Std.TreeSet Bytes

namespace Parser

/-- A parser that has seen nothing. -/
def start (registry : FlagRegistry) : Parser := ⟨registry, ∅, ∅⟩

/-- `error_flags_[name] = message`. -/
def addError (p : Parser) (name message : Bytes) : Parser := { p with errorFlags := p.errorFlags.insert name message }

/-- `error_flags_[name] = message`, and `undefined_names_[name] = ""`. -/
def addUnknown (p : Parser) (name message : Bytes) : Parser :=
  { p with errorFlags := p.errorFlags.insert name message, undefinedNames := p.undefinedNames.insert name }

@[simp] theorem addError_registry (p : Parser) (name message : Bytes) :
    (p.addError name message).registry = p.registry := rfl

@[simp] theorem addUnknown_registry (p : Parser) (name message : Bytes) :
    (p.addUnknown name message).registry = p.registry := rfl

end Parser

/-- `ProcessSingleOptionLocked`: flag, value and mode, to the text it returns. -/
abbrev SingleOption := Parser → Bytes → Option Bytes → FlagSettingMode → Outcome Exit (Parser × Bytes)

/-! ## Flag files -/

/-- The lines the loop comes to; each begins behind the white space in front of it. A round takes one byte or more. -/
def linesFrom : Nat → Bytes → List Bytes
  | 0, _ => []
  | n + 1, text =>
    let contents := text.dropWhile isspace
    match strchr contents newline with
    | some len => contents.take len :: linesFrom n (contents.drop (len + 1))
    | none => [contents]

/-- The lines of a text. -/
def optionLines (contentdata : Bytes) : List Bytes := linesFrom (contentdata.length + 1) (cStr contentdata)

/-- `ProgramInvocationShortName`: what is behind the last slash. -/
def programInvocationShortName (w : World) : Bytes :=
  (w.programInvocationName.reverse.takeWhile (· ≠ slash)).reverse

/-- Does the pattern match the program's name, with or without its directory? -/
def matchesProgram (w : World) (glob : Bytes) : Bool :=
  glob == w.programInvocationName || glob == programInvocationShortName w ||
    w.fnmatch glob w.programInvocationName || w.fnmatch glob (programInvocationShortName w)

/-- The state of the loop over the lines. -/
structure Section where
  flagsAreRelevant : Bool
  inFilenameSection : Bool
  deriving DecidableEq

/-- The line is skipped: it is empty, or a comment. -/
def isSkipped (line : Bytes) : Bool := line.isEmpty || line.head? == some hash

/-- The line is a flag. -/
def isFlagLine (line : Bytes) : Bool := line.head? == some dash

/-- What a line does to the state of the loop. -/
def Section.next (w : World) (s : Section) (line : Bytes) : Section :=
  if isSkipped line then s
  else if isFlagLine line then { s with inFilenameSection := false }
  else
    -- the first of several lines of file names forgets what was before
    let relevant := if s.inFilenameSection then s.flagsAreRelevant else false
    ⟨relevant || (line.splitOn blank).any (matchesProgram w), true⟩

/-- The line without one or two dashes. -/
def nameAndValue (line : Bytes) : Bytes :=
  let s := line.tail
  if s.head? = some dash then s.tail else s

/-- A flag line. Errors in it are silently ignored. -/
def processLine (single : SingleOption) (mode : FlagSettingMode) (p : Parser) (line : Bytes) :
    Outcome Exit (Parser × Bytes) :=
  let split := splitArgument p.registry (nameAndValue line)
  match split.flag, split.value with
  | .ok flag, some value => single p flag.name (some value) mode
  | _, _ => .returned (p, [])

/-- One round of the loop over the lines. -/
def optionStep (w : World) (single : SingleOption) (mode : FlagSettingMode) (s : Section × Parser × Bytes)
    (line : Bytes) : Outcome Exit (Section × Parser × Bytes) :=
  let (loop, p, retval) := s
  let loop' := loop.next w line
  if isFlagLine line && loop.flagsAreRelevant then do
    let (p, msg) ← processLine single mode p line
    return (loop', p, retval ++ msg)
  else .returned (loop', p, retval)

/-- `ProcessOptionsFromStringLocked`. -/
def processOptionsFromString (w : World) (single : SingleOption) (p : Parser) (contentdata : Bytes)
    (mode : FlagSettingMode) : Outcome Exit (Parser × Bytes) := do
  let (_, p, retval) ← (optionLines contentdata).foldlM (optionStep w single mode) (⟨true, false⟩, p, [])
  return (p, retval)

/-- One file of the list. -/
def flagfileStep (w : World) (single : SingleOption) (mode : FlagSettingMode) (s : Parser × Bytes) (file : Bytes) :
    Outcome Exit (Parser × Bytes) := do
  let contents ← readFileIntoString w file
  let (p, msg) ← processOptionsFromString w single s.1 contents mode
  return (p, s.2 ++ msg)

/-- `ProcessFlagfileLocked`. -/
def processFlagfile (w : World) (single : SingleOption) (p : Parser) (flagval : Bytes) (mode : FlagSettingMode) :
    Outcome Exit (Parser × Bytes) :=
  if flagval = [] then .returned (p, [])
  else do
    let filenames ← parseFlagList (cStr flagval)
    filenames.foldlM (flagfileStep w single mode) (p, [])

/-! ## The environment -/

/-- One name of the list. -/
def fromenvStep (w : World) (single : SingleOption) (mode : FlagSettingMode) (errorsAreFatal : Bool)
    (s : Parser × Bytes) (flagname : Bytes) : Outcome Exit (Parser × Bytes) :=
  let (p, msg) := s
  match p.registry.findFlag flagname with
  | none =>
    .returned (p.addUnknown flagname (kError ++ lit "unknown command line flag '" ++ flagname ++
      lit "' (via --fromenv or --tryfromenv)\n"), msg)
  | some flag =>
    let envname := lit "FLAGS_" ++ flagname
    match w.getenv envname with
    | none =>
      if errorsAreFatal then
        .returned (p.addError flagname (kError ++ envname ++ lit " not found in environment\n"), msg)
      else .returned (p, msg)
    | some envval =>
      if envval = lit "fromenv" ∨ envval = lit "tryfromenv" then
        .returned (p.addError flagname
          (kError ++ lit "infinite recursion on environment flag '" ++ envval ++ lit "'\n"), msg)
      else do
        let (p, text) ← single p flag.name (some envval) mode
        return (p, msg ++ text)

/-- `ProcessFromenvLocked`. -/
def processFromenv (w : World) (single : SingleOption) (p : Parser) (flagval : Bytes) (mode : FlagSettingMode)
    (errorsAreFatal : Bool) : Outcome Exit (Parser × Bytes) :=
  if flagval = [] then .returned (p, [])
  else do
    let flaglist ← parseFlagList (cStr flagval)
    flaglist.foldlM (fromenvStep w single mode errorsAreFatal) (p, [])

/-! ## `ProcessSingleOptionLocked` -/

/-- The part for the recursive flags. -/
def processRecursive (w : World) (single : SingleOption) (p : Parser) (name : Bytes) (mode : FlagSettingMode) :
    Outcome Exit (Parser × Bytes) :=
  if name = lit "flagfile" then processFlagfile w single p (p.registry.stringVariable (lit "flagfile")) mode
  else if name = lit "fromenv" then processFromenv w single p (p.registry.stringVariable (lit "fromenv")) mode true
  else if name = lit "tryfromenv" then
    processFromenv w single p (p.registry.stringVariable (lit "tryfromenv")) mode false
  else .returned (p, [])

/-- The body of `ProcessSingleOptionLocked`, over its recursive calls. -/
def singleStep (w : World) (single : SingleOption) : SingleOption := fun p name value mode =>
  match p.registry.findFlag name with
  | none => .returned (p, [])
  | some flag =>
    match value with
    | none => processRecursive w single p name mode
    | some value =>
      let (state, ok, msg) := setFlag w flag value mode
      let p := { p with registry := p.registry.put flag state }
      if ok then do
        let (p, text) ← processRecursive w single p name mode
        return (p, msg ++ text)
      else .returned (p.addError name msg, [])

/-- `ProcessSingleOptionLocked`, with calls nested to the given depth. -/
def processSingleOption (w : World) : Nat → SingleOption
  | 0 => fun _ _ _ _ => .running
  | depth + 1 => singleStep w (processSingleOption w depth)

/-! ## The later stages -/

/-- One flag of `ValidateAllFlags`. -/
def validateStep (w : World) (p : Parser) (flag : CommandLineFlag) : Parser :=
  if flag.validateCurrent w then p
  else if p.errorFlags.getD flag.name [] = [] then
    p.addError flag.name (kError ++ lit "--" ++ flag.name ++
      lit " must be set on the commandline (default value fails validation)\n")
  else p

/-- `ValidateAllFlags`. -/
def validateAllFlags (w : World) (p : Parser) : Parser := p.registry.flags.foldl (validateStep w) p

/-- A name of `FLAGS_undefok`: the flag, or its negation, may be undefined. -/
def excuse (p : Parser) (name : Bytes) : Parser :=
  if name ∈ p.undefinedNames then p.addError name []
  else if lit "no" ++ name ∈ p.undefinedNames then p.addError (lit "no" ++ name) []
  else p

/-- The names in `FLAGS_undefok`. -/
def undefokNames (r : FlagRegistry) : Outcome Exit (List Bytes) :=
  let undefok := r.stringVariable (lit "undefok")
  if undefok = [] then .returned [] else parseFlagList (cStr undefok)

/-- With reparsing allowed all undefined names are excused. -/
def excuseUndefined (p : Parser) : Parser := p.undefinedNames.toList.foldl (fun p name => p.addError name []) p

/-- `ReportErrors`: whether an error was found, and what is written to `stderr`. -/
def reportErrors (allowCommandLineReparsing : Bool) (p : Parser) : Outcome Exit (Parser × Bool × Bytes) := do
  let flaglist ← undefokNames p.registry
  let p := flaglist.foldl excuse p
  let p := if allowCommandLineReparsing then excuseUndefined p else p
  let errorMessage := p.errorFlags.toList.flatMap fun entry => entry.2
  return (p, p.errorFlags.toList.any (fun entry => entry.2 ≠ []), errorText (cStr errorMessage))

end Thirdparty.Gflags
