import Thirdparty.Gflags.Parser

/-!
# `Gflags.Help` — the flags that end the program with a report

`GetAllFlags` of `gflags.cc`, and the `--help` family of `gflags_reporting.cc`. Every report goes to `stdout` and ends
the process. The text of the shell completions (`gflags_completions.cc`) is not modelled, nor are the warnings of
`--helppackage`.

## Contents
- `FlagInfo`, `fillCommandLineFlagInfo`, `getAllFlags`.
- `showUsageWithFlagsMatching`, `showXMLOfFlags`, `showVersion`.
- `handleCommandLineHelpFlags`.
-/

namespace Thirdparty.Gflags

/-! ## `GetAllFlags` -/

/-- `CommandLineFlagInfo`, with the fields that `DescribeOneFlag` does not read. -/
structure FlagInfo extends CommandLineFlagInfo where
  filename : Bytes
  hasValidatorFn : Bool

/-- `FillCommandLineFlagInfo`: it also updates the modified bit. -/
def fillCommandLineFlagInfo (w : World) (flag : CommandLineFlag) : FlagInfo where
  name := flag.name
  type := FlagValue.typeName flag.type
  description := flag.help
  currentValue := flag.currentValue w
  defaultValue := FlagValue.toText w.toLibc flag.state.defvalue
  isDefault := !flag.state.updateModifiedBit.modified
  filename := flag.filename
  hasValidatorFn := flag.state.validateFn.isSome

/-- `FilenameFlagnameCmp`, as an order. -/
def infoLe (a b : FlagInfo) : Bool :=
  if a.filename = b.filename then a.name ≤ b.name else a.filename ≤ b.filename

/-- The modified bits behind `GetAllFlags`. -/
def updateModifiedBits (r : FlagRegistry) : FlagRegistry where
  flags := r.flags.map fun flag => flag.withState flag.state.updateModifiedBit
  sorted := by
    rw [List.map_map]
    exact r.sorted

/-- `GetAllFlags`: the flags by file name, then by name. -/
def getAllFlags (w : World) (r : FlagRegistry) : List FlagInfo :=
  (r.flags.map (fillCommandLineFlagInfo w)).mergeSort infoLe

/-! ## Files and directories -/

/-- `Basename`. -/
def basename (filename : Bytes) : Bytes := (filename.reverse.takeWhile (· ≠ slash)).reverse

/-- `Dirname`: what is in front of the last slash, or nothing. -/
def dirname (filename : Bytes) : Bytes := (filename.reverse.dropWhile (· ≠ slash)).tail.reverse

/-- `FileMatchesSubstring`; a target with a leading slash also matches at the beginning of the name. -/
def fileMatchesSubstring (filename : Bytes) (substrings : List Bytes) : Bool :=
  substrings.any fun target =>
    decide (target <:+: filename) || (target.head? == some slash && target.tail.isPrefixOf filename)

/-! ## `--help` -/

/-- `kStrippedFlagHelp`. -/
def kStrippedFlagHelp : Bytes := [1, 2, 3, 4] ++ lit " (unknown) " ++ [4, 3, 2, 1]

/-- What is printed outside the flags, and whether `stdout` is a colour terminal. -/
structure Program where
  useColor : Bool
  programUsage : Bytes
  versionString : Bytes
  ndebug : Bool

/-- A program without a usage message, and no colours. -/
def Program.bare : Program := ⟨false, lit "Warning: SetUsageMessage() never called", [], true⟩

/-- The variables of the loop over the flags. -/
structure UsageLoop where
  lastFilename : Bytes
  firstDirectory : Bool
  foundMatch : Bool
  output : Bytes

/-- One flag of `ShowUsageWithFlagsMatching`. -/
def usageStep (prog : Program) (substrings : List Bytes) (s : UsageLoop) (flag : FlagInfo) : UsageLoop :=
  if (substrings.isEmpty || fileMatchesSubstring flag.filename substrings) && flag.description != kStrippedFlagHelp then
    let text := cStr (describeOneFlag prog.useColor flag.toCommandLineFlagInfo)
    if flag.filename = s.lastFilename then { s with foundMatch := true, output := s.output ++ text }
    else
      let newDirectory := dirname flag.filename != dirname s.lastFilename
      let blankLines := if newDirectory && !s.firstDirectory then lit "\n\n" else []
      { lastFilename := flag.filename
        firstDirectory := s.firstDirectory && !newDirectory
        foundMatch := true
        output := s.output ++ blankLines ++ lit "\n  Flags from " ++ flag.filename ++ lit ":\n" ++ text }
  else s

/-- `ShowUsageWithFlagsMatching`. -/
def showUsageWithFlagsMatching (w : World) (prog : Program) (r : FlagRegistry) (argv0 : Bytes)
    (substrings : List Bytes) : Bytes :=
  let title := basename argv0 ++ lit ": " ++ prog.programUsage ++ lit "\n"
  let s := (getAllFlags w r).foldl (usageStep prog substrings) ⟨[], true, false, title⟩
  if !s.foundMatch && !substrings.isEmpty then s.output ++ lit "\n  No modules matched: use -help\n" else s.output

/-- `ShowUsageWithFlagsRestrict`. -/
def showUsageWithFlagsRestrict (w : World) (prog : Program) (r : FlagRegistry) (argv0 restrict : Bytes) : Bytes :=
  showUsageWithFlagsMatching w prog r argv0 (if restrict = [] then [] else [restrict])

/-- `AppendPrognameStrings`. -/
def prognameStrings (progname : Bytes) : List Bytes :=
  [slash :: progname ++ lit ".", slash :: progname ++ lit "-main.", slash :: progname ++ lit "_main."]

/-- The packages of `--helppackage`: one usage page each time the package changes. -/
def showPackages (w : World) (prog : Program) (r : FlagRegistry) (progname : Bytes) (substrings : List Bytes) : Bytes :=
  ((getAllFlags w r).foldl (fun (s : Bytes × Bytes) flag =>
    let package := dirname flag.filename ++ lit "/"
    if fileMatchesSubstring flag.filename substrings && package != s.1 then
      (package, s.2 ++ showUsageWithFlagsRestrict w prog r progname package)
    else s) ([], [])).2

/-! ## `--helpxml` and `--version` -/

/-- The loop that puts an entity for a character. -/
def replaceChar (c : Byte) (entity : Bytes) (txt : Bytes) : Bytes := txt.flatMap fun b => if b = c then entity else [b]

/-- `XMLText`: first `&`, then `<`. -/
def xmlText (txt : Bytes) : Bytes := replaceChar 60 (lit "&lt;") (replaceChar 38 (lit "&amp;") txt)

/-- `AddXMLTag`. -/
def xmlTag (tag txt : Bytes) : Bytes :=
  lit "<" ++ tag ++ lit ">" ++ cStr (xmlText txt) ++ lit "</" ++ tag ++ lit ">"

/-- `DescribeOneFlagInXML`. -/
def describeOneFlagInXML (flag : FlagInfo) : Bytes :=
  lit "<flag>" ++ xmlTag (lit "file") flag.filename ++ xmlTag (lit "name") flag.name ++
    xmlTag (lit "meaning") flag.description ++ xmlTag (lit "default") flag.defaultValue ++
    xmlTag (lit "current") flag.currentValue ++ xmlTag (lit "type") flag.type ++ lit "</flag>"

/-- `ShowXMLOfFlags`. -/
def showXMLOfFlags (w : World) (prog : Program) (r : FlagRegistry) (progName : Bytes) : Bytes :=
  lit "<?xml version=\"1.0\"?>\n<AllFlags>\n<program>" ++ cStr (xmlText (basename progName)) ++
    lit "</program>\n<usage>" ++ cStr (xmlText prog.programUsage) ++ lit "</usage>\n" ++
    ((getAllFlags w r).filter fun flag => flag.description != kStrippedFlagHelp).flatMap (fun flag =>
      cStr (describeOneFlagInXML flag) ++ lit "\n") ++
    lit "</AllFlags>\n"

/-- `ShowVersion`. -/
def showVersion (w : World) (prog : Program) : Bytes :=
  (if prog.versionString = [] then programInvocationShortName w ++ lit "\n"
    else programInvocationShortName w ++ lit " version " ++ prog.versionString ++ lit "\n") ++
  if prog.ndebug then [] else lit "Debug build (NDEBUG not #defined)\n"

/-! ## `HandleCommandLineHelpFlags` -/

/-- The `bool` variable of a flag, such as `FLAGS_help`. -/
def FlagRegistry.boolVariable (r : FlagRegistry) (name : Bytes) : Bool :=
  match r.findFlag name with
  | some ⟨⟨_, _, _, .bool⟩, state⟩ => state.current
  | _ => false

/-- `HandleCommandLineHelpFlags`. -/
def handleCommandLineHelpFlags (w : World) (prog : Program) (r : FlagRegistry) : Outcome Exit Unit :=
  let progname := programInvocationShortName w
  let substrings := prognameStrings progname
  let helpon := r.stringVariable (lit "helpon")
  let helpmatch := r.stringVariable (lit "helpmatch")
  if r.stringVariable (lit "tab_completion_word") ≠ [] then .exited ⟨0, []⟩
  else if r.boolVariable (lit "helpshort") then
    .exited ⟨1, showUsageWithFlagsMatching w prog r progname substrings⟩
  else if r.boolVariable (lit "help") || r.boolVariable (lit "helpfull") then
    .exited ⟨1, showUsageWithFlagsRestrict w prog r progname []⟩
  else if helpon ≠ [] then
    .exited ⟨1, showUsageWithFlagsRestrict w prog r progname (slash :: cStr helpon ++ lit ".")⟩
  else if helpmatch ≠ [] then .exited ⟨1, showUsageWithFlagsRestrict w prog r progname (cStr helpmatch)⟩
  else if r.boolVariable (lit "helppackage") then .exited ⟨1, showPackages w prog r progname substrings⟩
  else if r.boolVariable (lit "helpxml") then .exited ⟨1, showXMLOfFlags w prog r progname⟩
  else if r.boolVariable (lit "version") then .exited ⟨0, showVersion w prog⟩
  else .returned ()

end Thirdparty.Gflags
