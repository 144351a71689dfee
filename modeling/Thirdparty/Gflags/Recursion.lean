import Thirdparty.Gflags.SetModes

/-!
# `Gflags.Recursion` — when setting a recursive flag ends

`--flagfile`, `--fromenv` and `--tryfromenv` can refer to each other through files and through the environment. The
comment "Avoid infinite recursion" in `ProcessFromenvLocked` guards only against an environment value that is literally
`fromenv` or `tryfromenv`; everything else is followed.

## Contents
- `lineTarget`: the flag a line sets, and the value; it depends on the declarations only.
- `Refers`: one setting of a recursive flag leads to another.
- `exists_stopsWithin`, `never_of_not_acc`, `setting_ends_iff`: with `SET_FLAGS_VALUE` a setting ends if and only if its
  references do.
- `flagfile_ifDefault_never`: with `SET_FLAG_IF_DEFAULT` a flag file with a `--flagfile` line never ends.
-/

namespace Thirdparty.Gflags

open Outcome

/-! ## What a line sets -/

/-- The flag that a line sets, and the value. -/
def lineTarget (r : FlagRegistry) (line : Bytes) : Option (Bytes × Bytes) :=
  let split := splitArgument r (nameAndValue line)
  match split.flag, split.value with
  | .ok flag, some value => some (flag.name, value)
  | _, _ => none

theorem processLine_eq (single : SingleOption) (mode : FlagSettingMode) (p : Parser) (line : Bytes) :
    processLine single mode p line =
      match lineTarget p.registry line with
      | some (name, value) => single p name (some value) mode
      | none => .returned (p, []) := by
  unfold processLine lineTarget
  dsimp only
  cases (splitArgument p.registry (nameAndValue line)).flag with
  | error e => rfl
  | ok flag =>
    cases (splitArgument p.registry (nameAndValue line)).value with
    | none => rfl
    | some value => rfl

/-- The registry has the flags of `r`, with their validators. -/
abbrev SameFlags (r r' : FlagRegistry) : Prop := r.Stepwise (Evolves KeepsValidator) r'

theorem SameFlags.refl (r : FlagRegistry) : SameFlags r r :=
  FlagRegistry.Stepwise.refl (fun flag => ⟨flag.state, rfl, rfl⟩) r

/-- A flag is found in both registries, with one declaration and one validator, or in neither. -/
theorem findFlag_same {r r' : FlagRegistry} (h : SameFlags r r') (name : Bytes) :
    (r.findFlag name = none ∧ r'.findFlag name = none) ∨
      ∃ flag s, r.findFlag name = some flag ∧ r'.findFlag name = some (flag.withState s) ∧ KeepsValidator flag s := by
  have hrel := h.findFlag (fun _ _ hfg => hfg.name_eq) name
  generalize r.findFlag name = found at hrel ⊢
  generalize r'.findFlag name = found' at hrel ⊢
  cases hrel with
  | none => exact Or.inl ⟨rfl, rfl⟩
  | some hevolves =>
    obtain ⟨s, rfl, hs⟩ := hevolves
    exact Or.inr ⟨_, s, rfl, rfl, hs⟩

/-- The flag has a value in the registry. -/
def Holds (r : FlagRegistry) (flag : CommandLineFlag) (v : FlagValue flag.type) : Prop :=
  ∃ s, r.findFlag flag.name = some (flag.withState s) ∧ s.current = v

/-- The same result of `splitArgument`, up to the state of the flag. -/
inductive SameSplit : Split → Split → Prop where
  | error (message key : Bytes) (value : Option Bytes) :
      SameSplit ⟨.error message, key, value⟩ ⟨.error message, key, value⟩
  | ok (flag : CommandLineFlag) (s : FlagState flag.type) (key : Bytes) (value : Option Bytes) :
      SameSplit ⟨.ok flag, key, value⟩ ⟨.ok (flag.withState s), key, value⟩

/-- **What an argument means depends on the declarations only.** -/
theorem splitArgument_same {r r' : FlagRegistry} (h : SameFlags r r') (arg : Bytes) :
    SameSplit (splitArgument r arg) (splitArgument r' arg) := by
  unfold splitArgument
  generalize splitEquals arg = pair
  obtain ⟨key, value⟩ := pair
  dsimp only
  rcases findFlag_same h key with ⟨hr, hr'⟩ | ⟨flag, s, hr, hr', -⟩
  · rw [hr, hr']
    dsimp only
    cases withoutNo key with
    | none => exact SameSplit.error _ _ _
    | some name =>
      dsimp only
      rcases findFlag_same h name with ⟨hr, hr'⟩ | ⟨flag, s, hr, hr', -⟩
      · rw [hr, hr']
        exact SameSplit.error _ _ _
      · rw [hr, hr']
        by_cases hbool : flag.type = .bool
        · have hbool' : (flag.withState s).type = .bool := hbool
          dsimp only
          rw [if_neg (not_not.mpr hbool), if_neg (not_not.mpr hbool')]
          exact SameSplit.ok _ _ _ _
        · have hbool' : (flag.withState s).type ≠ .bool := hbool
          dsimp only
          rw [if_pos hbool, if_pos hbool']
          exact SameSplit.error _ _ _
  · rw [hr, hr']
    exact SameSplit.ok _ _ _ _

theorem lineTarget_same {r r' : FlagRegistry} (h : SameFlags r r') (line : Bytes) :
    lineTarget r' line = lineTarget r line := by
  have hsame := splitArgument_same h (nameAndValue line)
  unfold lineTarget
  generalize splitArgument r (nameAndValue line) = split at hsame ⊢
  generalize splitArgument r' (nameAndValue line) = split' at hsame ⊢
  cases hsame with
  | error message key value => rfl
  | ok flag s key value =>
    cases value with
    | none => rfl
    | some value => rfl

/-! ## References -/

/-- The flags that set other flags. -/
def isRecursive (name : Bytes) : Bool := name == lit "flagfile" || name == lit "fromenv" || name == lit "tryfromenv"

/-- A flag, and the value it is set to. -/
structure Setting where
  name : Bytes
  value : Bytes

/-- One setting of a recursive flag leads to another. -/
inductive Refers (w : World) (r : FlagRegistry) : Setting → Setting → Prop where
  /-- A line of a flag file. -/
  | file {value file contents line : Bytes} {files : List Bytes} {next : Setting} : value ≠ [] →
      parseFlagList (cStr value) = .returned files → file ∈ files → w.readFile file = some contents →
      line ∈ relevantLines w contents → lineTarget r line = some (next.name, next.value) →
      isRecursive next.name = true → Refers w r ⟨lit "flagfile", value⟩ next
  /-- A variable of the environment. -/
  | env {name value : Bytes} {names : List Bytes} {next : Setting} : name = lit "fromenv" ∨ name = lit "tryfromenv" →
      value ≠ [] → parseFlagList (cStr value) = .returned names → next.name ∈ names →
      w.getenv (lit "FLAGS_" ++ next.name) = some next.value → next.value ≠ lit "fromenv" →
      next.value ≠ lit "tryfromenv" → isRecursive next.name = true → Refers w r ⟨name, value⟩ next

section

variable {w : World} {r : FlagRegistry}

theorem processRecursive_plain {name : Bytes} (h : isRecursive name = false) (single : SingleOption) (p : Parser)
    (mode : FlagSettingMode) : processRecursive w single p name mode = .returned (p, []) := by
  unfold isRecursive at h
  simp only [Bool.or_eq_false_iff, beq_eq_false_iff_ne] at h
  unfold processRecursive
  rw [if_neg h.1.1, if_neg h.1.2, if_neg h.2]

/-- An empty variable has no effect. -/
theorem processRecursive_empty {name : Bytes} {p : Parser} (hvar : p.registry.stringVariable name = [])
    (single : SingleOption) (mode : FlagSettingMode) : processRecursive w single p name mode = .returned (p, []) := by
  unfold processRecursive processFlagfile processFromenv
  split
  · rename_i hname
    rw [hname] at hvar
    rw [if_pos hvar]
  · split
    · rename_i hname
      rw [hname] at hvar
      rw [if_pos hvar]
    · split
      · rename_i hname
        rw [hname] at hvar
        rw [if_pos hvar]
      · rfl

theorem sameFlags_of_ensures (mode : FlagSettingMode) (depth : Nat) :
    SingleKeeps mode (fun q => SameFlags r q.registry) (processSingleOption w depth) :=
  processSingleOption_ensures ((setRelation_keepsValidator w mode).parserInvariant r) depth

/-- A step that only the declarations decide. -/
theorem sameFlags_put {p : Parser} (hp : SameFlags r p.registry) {name : Bytes} {flag : CommandLineFlag}
    (hfind : p.registry.findFlag name = some flag) (value : Bytes) (mode : FlagSettingMode) :
    SameFlags r (p.registry.put flag (setFlag w flag value mode).1) :=
  ((setRelation_keepsValidator w mode).parserInvariant r).setFlag p name flag value hp hfind

/-! ## References that end -/

/-- From every parser with these flags the call stops within the depth. -/
def StopsWithin (w : World) (r : FlagRegistry) (depth : Nat) (s : Setting) : Prop :=
  ∀ p : Parser, SameFlags r p.registry → Stops (processSingleOption w depth p s.name (some s.value) .setFlagsValue)

theorem StopsWithin.mono {m n : Nat} {s : Setting} (hmn : m ≤ n) (h : StopsWithin w r m s) : StopsWithin w r n s := by
  intro p hp
  rw [eq_of_stops (processSingleOption_mono w p s.name (some s.value) .setFlagsValue) (h p hp) hmn]
  exact h p hp

/-- What a line sets stops within the depth. -/
def LineWithin (w : World) (r : FlagRegistry) (depth : Nat) (line : Bytes) : Prop :=
  ∀ next : Setting, lineTarget r line = some (next.name, next.value) → StopsWithin w r depth next

/-- What the lines of a file set stops within the depth. -/
def FileWithin (w : World) (r : FlagRegistry) (depth : Nat) (file : Bytes) : Prop :=
  ∀ contents, w.readFile file = some contents → ∀ line ∈ relevantLines w contents, LineWithin w r depth line

/-- What a variable of the environment sets stops within the depth. -/
def VariableWithin (w : World) (r : FlagRegistry) (depth : Nat) (name : Bytes) : Prop :=
  ∀ envval, w.getenv (lit "FLAGS_" ++ name) = some envval → envval ≠ lit "fromenv" → envval ≠ lit "tryfromenv" →
    StopsWithin w r depth ⟨name, envval⟩

theorem lineStep_stops {depth : Nat} {line : Bytes} (h : LineWithin w r depth line) {s : Parser × Bytes}
    (hs : SameFlags r s.1.registry) :
    Stops (lineStep (processSingleOption w depth) .setFlagsValue s line) := by
  refine Stops.bind ?_ fun _ _ => stops_returned _
  rw [processLine_eq, lineTarget_same hs]
  cases htarget : lineTarget r line with
  | none => exact stops_returned _
  | some target => exact h ⟨target.1, target.2⟩ htarget s.1 hs

theorem flagfileStep_stops {depth : Nat} {file : Bytes} (h : FileWithin w r depth file) {s : Parser × Bytes}
    (hs : SameFlags r s.1.registry) :
    Stops (flagfileStep w (processSingleOption w depth) .setFlagsValue s file) := by
  have hkeeps := sameFlags_of_ensures (w := w) (r := r) .setFlagsValue depth
  refine Stops.bind ?_ ?_
  · unfold readFileIntoString
    split
    · exact stops_exited _
    · exact stops_returned _
  · intro contents hread
    refine Stops.bind ?_ fun _ _ => stops_returned _
    rw [processOptionsFromString_eq]
    have hfile : w.readFile file = some contents := by
      unfold readFileIntoString at hread
      split at hread
      · cases hread
      · cases hread
        assumption
    refine Stops.foldlM (P := fun s : Parser × Bytes => SameFlags r s.1.registry) ?_ ?_
    · intro s hs line hline
      exact ⟨lineStep_stops (h contents hfile line hline) hs, lineStep_ensures hkeeps hs line⟩
    · exact hs

theorem stops_reportError (message : Bytes) : Stops (reportError message : Outcome Exit (List Bytes)) := stops_exited _

theorem stops_parseFlagList (value : Bytes) : Stops (parseFlagList value) := by
  have hfrom : ∀ n value, Stops (parseFlagListFrom n value) := by
    intro n
    induction n with
    | zero =>
      intro value
      exact stops_returned _
    | succ n ih =>
      intro value
      unfold parseFlagListFrom
      split
      · exact stops_returned _
      · split
        · exact stops_reportError _
        · split
          · exact stops_reportError _
          · exact Stops.bind (ih _) fun _ _ => stops_returned _
  exact hfrom value.length value

theorem processFlagfile_stops {depth : Nat} {value : Bytes}
    (h : value ≠ [] → ∀ files, parseFlagList (cStr value) = .returned files → ∀ file ∈ files, FileWithin w r depth file)
    {p : Parser} (hp : SameFlags r p.registry) :
    Stops (processFlagfile w (processSingleOption w depth) p value .setFlagsValue) := by
  have hkeeps := sameFlags_of_ensures (w := w) (r := r) .setFlagsValue depth
  unfold processFlagfile
  split
  · exact stops_returned _
  · rename_i hvalue
    refine Stops.bind (stops_parseFlagList _) ?_
    intro files hfiles
    apply Stops.foldlM (P := fun s : Parser × Bytes => SameFlags r s.1.registry) _ hp
    intro s hs file hfile
    exact ⟨flagfileStep_stops (h hvalue files hfiles file hfile) hs, flagfileStep_ensures hkeeps hs file⟩

theorem fromenvStep_stops {depth : Nat} {name : Bytes} (h : VariableWithin w r depth name) (errorsAreFatal : Bool)
    {s : Parser × Bytes} (hs : SameFlags r s.1.registry) :
    Stops (fromenvStep w (processSingleOption w depth) .setFlagsValue errorsAreFatal s name) := by
  unfold fromenvStep
  dsimp only
  split
  · exact stops_returned _
  · rename_i flag hfind
    obtain ⟨-, hname⟩ := FlagRegistry.mem_of_findFlag hfind
    split
    · split
      · exact stops_returned _
      · exact stops_returned _
    · rename_i envval henv
      split
      · exact stops_returned _
      · rename_i hplain
        rw [not_or] at hplain
        refine Stops.bind ?_ fun _ _ => stops_returned _
        rw [hname]
        exact h envval henv hplain.1 hplain.2 s.1 hs

theorem processFromenv_stops {depth : Nat} {value : Bytes} (errorsAreFatal : Bool)
    (h : value ≠ [] → ∀ names, parseFlagList (cStr value) = .returned names →
      ∀ name ∈ names, VariableWithin w r depth name)
    {p : Parser} (hp : SameFlags r p.registry) :
    Stops (processFromenv w (processSingleOption w depth) p value .setFlagsValue errorsAreFatal) := by
  have hkeeps := sameFlags_of_ensures (w := w) (r := r) .setFlagsValue depth
  unfold processFromenv
  split
  · exact stops_returned _
  · rename_i hvalue
    refine Stops.bind (stops_parseFlagList _) ?_
    intro names hnames
    apply Stops.foldlM (P := fun s : Parser × Bytes => SameFlags r s.1.registry) _ hp
    intro s hs name hname
    exact ⟨fromenvStep_stops (h hvalue names hnames name hname) errorsAreFatal hs,
      fromenvStep_ensures ((setRelation_keepsValidator w .setFlagsValue).parserInvariant r) hkeeps hs name⟩

/-- What is in the variable behind a successful `setFlag`. -/
theorem stringVariable_setFlag {p : FlagRegistry} {name value : Bytes} {flag : CommandLineFlag}
    (hfind : p.findFlag name = some flag) (hok : (setFlag w flag value .setFlagsValue).2.1 = true) :
    (p.put flag (setFlag w flag value .setFlagsValue).1).stringVariable name = value ∨
      (p.put flag (setFlag w flag value .setFlagsValue).1).stringVariable name = [] := by
  have hspec := setFlag_spec w flag value .setFlagsValue
  unfold FlagRegistry.stringVariable
  rw [FlagRegistry.findFlag_put hfind, hok] at *
  generalize (setFlag w flag value .setFlagsValue).1 = state at hspec ⊢
  obtain ⟨⟨flagname, help, filename, type⟩, old⟩ := flag
  cases hspec with
  | valued haccepts _ _ =>
    cases type with
    | string =>
      have hvalue := Option.some.inj haccepts.1
      exact Or.inl hvalue.symm
    | bool => exact Or.inr rfl
    | int32 => exact Or.inr rfl
    | int64 => exact Or.inr rfl
    | uint64 => exact Or.inr rfl
    | double => exact Or.inr rfl

/-- What the setting reads stops within the depth. -/
structure Within (w : World) (r : FlagRegistry) (depth : Nat) (s : Setting) : Prop where
  files : s.name = lit "flagfile" → s.value ≠ [] → ∀ files, parseFlagList (cStr s.value) = .returned files →
    ∀ file ∈ files, FileWithin w r depth file
  names : s.name = lit "fromenv" ∨ s.name = lit "tryfromenv" → s.value ≠ [] →
    ∀ names, parseFlagList (cStr s.value) = .returned names → ∀ name ∈ names, VariableWithin w r depth name

/-- The recursive part, with the value in the variable or nothing. -/
theorem processRecursive_stops {depth : Nat} {s : Setting} (h : Within w r depth s) {p : Parser}
    (hp : SameFlags r p.registry)
    (hvar : p.registry.stringVariable s.name = s.value ∨ p.registry.stringVariable s.name = []) :
    Stops (processRecursive w (processSingleOption w depth) p s.name .setFlagsValue) := by
  unfold processRecursive
  split
  · rename_i hname
    rw [hname] at hvar
    rcases hvar with hvar | hvar
    · rw [hvar]
      exact processFlagfile_stops (h.files hname) hp
    · rw [hvar]
      exact processFlagfile_stops (fun hne => absurd rfl hne) hp
  · split
    · rename_i hname
      rw [hname] at hvar
      rcases hvar with hvar | hvar
      · rw [hvar]
        exact processFromenv_stops true (h.names (Or.inl hname)) hp
      · rw [hvar]
        exact processFromenv_stops true (fun hne => absurd rfl hne) hp
    · split
      · rename_i hname
        rw [hname] at hvar
        rcases hvar with hvar | hvar
        · rw [hvar]
          exact processFromenv_stops false (h.names (Or.inr hname)) hp
        · rw [hvar]
          exact processFromenv_stops false (fun hne => absurd rfl hne) hp
      · exact stops_returned _

theorem stopsWithin_succ {depth : Nat} {s : Setting} (h : Within w r depth s) : StopsWithin w r (depth + 1) s := by
  intro p hp
  unfold processSingleOption singleStep
  split
  · exact stops_returned _
  · rename_i flag hfind
    dsimp only
    split
    · rename_i hok
      refine Stops.bind ?_ fun _ _ => stops_returned _
      apply processRecursive_stops h
      · exact sameFlags_put hp hfind s.value .setFlagsValue
      · exact stringVariable_setFlag hfind hok
    · exact stops_returned _

theorem FileWithin.mono {file : Bytes} {m n : Nat} (hmn : m ≤ n) (h : FileWithin w r m file) : FileWithin w r n file :=
  fun contents hread line hline next hnext => (h contents hread line hline next hnext).mono hmn

theorem VariableWithin.mono {name : Bytes} {m n : Nat} (hmn : m ≤ n) (h : VariableWithin w r m name) :
    VariableWithin w r n name :=
  fun envval henv h1 h2 => (h envval henv h1 h2).mono hmn

/-- A flag that is not recursive is set in one step. -/
theorem stopsWithin_plain {s : Setting} (h : isRecursive s.name = false) : StopsWithin w r 1 s := by
  apply stopsWithin_succ
  unfold isRecursive at h
  simp only [Bool.or_eq_false_iff, beq_eq_false_iff_ne] at h
  constructor
  · intro hname
    exact absurd hname h.1.1
  · rintro (hname | hname)
    · exact absurd hname h.1.2
    · exact absurd hname h.2

theorem exists_lineWithin {line : Bytes}
    (h : ∀ next : Setting, lineTarget r line = some (next.name, next.value) → isRecursive next.name = true →
      ∃ depth, StopsWithin w r depth next) : ∃ depth, LineWithin w r depth line := by
  cases htarget : lineTarget r line with
  | none => exact ⟨0, fun next hnext => by rw [htarget] at hnext; cases hnext⟩
  | some target =>
    have hwithin : ∃ depth, StopsWithin w r depth ⟨target.1, target.2⟩ := by
      cases hrec : isRecursive target.1 with
      | true => exact h ⟨target.1, target.2⟩ htarget hrec
      | false => exact ⟨1, stopsWithin_plain hrec⟩
    obtain ⟨depth, hdepth⟩ := hwithin
    refine ⟨depth, ?_⟩
    intro next hnext
    rw [htarget] at hnext
    cases hnext
    exact hdepth

theorem exists_fileWithin {file : Bytes}
    (h : ∀ contents, w.readFile file = some contents → ∀ line ∈ relevantLines w contents, ∀ next : Setting,
      lineTarget r line = some (next.name, next.value) → isRecursive next.name = true →
        ∃ depth, StopsWithin w r depth next) : ∃ depth, FileWithin w r depth file := by
  cases hread : w.readFile file with
  | none => exact ⟨0, fun contents hcontents => by rw [hread] at hcontents; cases hcontents⟩
  | some contents =>
    have hlines : ∃ depth, ∀ line ∈ relevantLines w contents, LineWithin w r depth line := by
      apply exists_bound fun line m n hmn (h : LineWithin w r m line) next hnext => (h next hnext).mono hmn
      intro line hline
      exact exists_lineWithin (h contents hread line hline)
    obtain ⟨depth, hdepth⟩ := hlines
    refine ⟨depth, ?_⟩
    intro contents' hcontents
    rw [hread] at hcontents
    cases hcontents
    exact hdepth

theorem exists_variableWithin {name : Bytes}
    (h : ∀ envval, w.getenv (lit "FLAGS_" ++ name) = some envval → envval ≠ lit "fromenv" → envval ≠ lit "tryfromenv" →
      isRecursive name = true → ∃ depth, StopsWithin w r depth ⟨name, envval⟩) :
    ∃ depth, VariableWithin w r depth name := by
  cases henv : w.getenv (lit "FLAGS_" ++ name) with
  | none => exact ⟨0, fun envval henvval => by rw [henv] at henvval; cases henvval⟩
  | some envval =>
    by_cases hplain : envval ≠ lit "fromenv" ∧ envval ≠ lit "tryfromenv"
    · have hwithin : ∃ depth, StopsWithin w r depth ⟨name, envval⟩ := by
        cases hrec : isRecursive name with
        | true => exact h envval henv hplain.1 hplain.2 hrec
        | false => exact ⟨1, stopsWithin_plain hrec⟩
      obtain ⟨depth, hdepth⟩ := hwithin
      refine ⟨depth, ?_⟩
      intro envval' henvval _ _
      rw [henv] at henvval
      cases henvval
      exact hdepth
    · refine ⟨0, ?_⟩
      intro envval' henvval h1 h2
      rw [henv] at henvval
      cases henvval
      exact absurd ⟨h1, h2⟩ hplain

/-- A list that is parsed at all is one list. -/
theorem exists_listWithin {P : Nat → Bytes → Prop} (hmono : ∀ i m n, m ≤ n → P m i → P n i) {value : Bytes}
    (h : ∀ names, parseFlagList value = .returned names → ∀ name ∈ names, ∃ depth, P depth name) :
    ∃ depth, ∀ names, parseFlagList value = .returned names → ∀ name ∈ names, P depth name := by
  cases hlist : parseFlagList value with
  | returned names =>
    obtain ⟨depth, hdepth⟩ := exists_bound hmono (h names hlist)
    refine ⟨depth, ?_⟩
    intro names' hnames
    cases hnames
    exact hdepth
  | exited e => exact ⟨0, fun names hnames => by cases hnames⟩
  | running => exact ⟨0, fun names hnames => by cases hnames⟩

theorem exists_within {s : Setting} (ih : ∀ next, Refers w r s next → ∃ depth, StopsWithin w r depth next) :
    ∃ depth, Within w r depth s := by
  obtain ⟨name, value⟩ := s
  have hfiles : ∃ depth, name = lit "flagfile" → value ≠ [] →
      ∀ files, parseFlagList (cStr value) = .returned files → ∀ file ∈ files, FileWithin w r depth file := by
    by_cases hflagfile : name = lit "flagfile" ∧ value ≠ []
    · obtain ⟨rfl, hvalue⟩ := hflagfile
      have hlist : ∃ depth, ∀ files, parseFlagList (cStr value) = .returned files →
          ∀ file ∈ files, FileWithin w r depth file := by
        apply exists_listWithin fun file m n hmn (h : FileWithin w r m file) => h.mono hmn
        intro files hfiles file hfile
        apply exists_fileWithin
        intro contents hread line hline next hnext hrec
        exact ih next (Refers.file hvalue hfiles hfile hread hline hnext hrec)
      obtain ⟨depth, hdepth⟩ := hlist
      exact ⟨depth, fun _ _ => hdepth⟩
    · exact ⟨0, fun hname hvalue => absurd ⟨hname, hvalue⟩ hflagfile⟩
  have hnames : ∃ depth, name = lit "fromenv" ∨ name = lit "tryfromenv" → value ≠ [] →
      ∀ names, parseFlagList (cStr value) = .returned names →
        ∀ flagname ∈ names, VariableWithin w r depth flagname := by
    by_cases hfromenv : (name = lit "fromenv" ∨ name = lit "tryfromenv") ∧ value ≠ []
    · obtain ⟨hname, hvalue⟩ := hfromenv
      have hlist : ∃ depth, ∀ names, parseFlagList (cStr value) = .returned names →
          ∀ flagname ∈ names, VariableWithin w r depth flagname := by
        apply exists_listWithin fun name m n hmn (h : VariableWithin w r m name) => h.mono hmn
        intro names hnames flagname hflagname
        apply exists_variableWithin
        intro envval henv h1 h2 hrec
        exact ih ⟨flagname, envval⟩ (Refers.env hname hvalue hnames hflagname henv h1 h2 hrec)
      obtain ⟨depth, hdepth⟩ := hlist
      exact ⟨depth, fun _ _ => hdepth⟩
    · exact ⟨0, fun hname hvalue => absurd ⟨hname, hvalue⟩ hfromenv⟩
  obtain ⟨m, hm⟩ := hfiles
  obtain ⟨n, hn⟩ := hnames
  refine ⟨max m n, ⟨?_, ?_⟩⟩
  · intro hname hvalue files hfiles file hfile
    exact (hm hname hvalue files hfiles file hfile).mono (le_max_left m n)
  · intro hname hvalue names hnames flagname hmem
    exact (hn hname hvalue names hnames flagname hmem).mono (le_max_right m n)

/-- **References that end.** A setting whose references are well-founded stops: there is a depth of calls within which
    it returns or ends the process, from every parser with these flags. -/
theorem exists_stopsWithin {s : Setting} (hacc : Acc (fun t s => Refers w r s t) s) :
    ∃ depth, StopsWithin w r depth s := by
  induction hacc with
  | intro s _ ih =>
    obtain ⟨depth, hdepth⟩ := exists_within ih
    exact ⟨depth + 1, stopsWithin_succ hdepth⟩

/-! ## References that do not end -/

/-- A list of flag files does not return if a line that is for this program does not. -/
theorem processFlagfile_never {mode : FlagSettingMode} {Inv : Parser → Prop} {single : SingleOption}
    (hsingle : SingleKeeps mode Inv single) {value file contents line : Bytes} {files : List Bytes}
    (hvalue : value ≠ []) (hfiles : parseFlagList (cStr value) = .returned files) (hfile : file ∈ files)
    (hread : w.readFile file = some contents) (hline : line ∈ relevantLines w contents)
    (hnever : ∀ p, Inv p → Never (processLine single mode p line)) {p : Parser} (hp : Inv p) :
    Never (processFlagfile w single p value mode) := by
  have hlines : ∀ p, Inv p → Never (processOptionsFromString w single p contents mode) := by
    intro p hp
    rw [processOptionsFromString_eq]
    refine never_foldlM (P := fun s : Parser × Bytes => Inv s.1) hline ?_ ?_ hp
    · exact fun s hs line _ => lineStep_ensures hsingle hs line
    · exact fun s hs => (hnever s.1 hs).bind _
  unfold processFlagfile
  rw [if_neg hvalue, hfiles]
  refine never_foldlM (P := fun s : Parser × Bytes => Inv s.1) hfile ?_ ?_ hp
  · exact fun s hs file _ => flagfileStep_ensures hsingle hs file
  · intro s hs
    unfold flagfileStep readFileIntoString
    rw [hread]
    exact (hlines s.1 hs).bind _

/-- A list of variables does not return if one of them does not. -/
theorem processFromenv_never {mode : FlagSettingMode} {Inv : Parser → Prop} {single : SingleOption}
    (hInv : ParserInvariant w mode Inv) (hsingle : SingleKeeps mode Inv single) {value name envval : Bytes}
    {names : List Bytes} (errorsAreFatal : Bool) (hvalue : value ≠ [])
    (hnames : parseFlagList (cStr value) = .returned names) (hname : name ∈ names)
    (henv : w.getenv (lit "FLAGS_" ++ name) = some envval) (h1 : envval ≠ lit "fromenv")
    (h2 : envval ≠ lit "tryfromenv") (hfound : ∀ p, Inv p → ∃ flag, p.registry.findFlag name = some flag)
    (hnever : ∀ p, Inv p → Never (single p name (some envval) mode)) {p : Parser} (hp : Inv p) :
    Never (processFromenv w single p value mode errorsAreFatal) := by
  unfold processFromenv
  rw [if_neg hvalue, hnames]
  refine never_foldlM (P := fun s : Parser × Bytes => Inv s.1) hname ?_ ?_ hp
  · exact fun s hs name _ => fromenvStep_ensures hInv hsingle hs name
  · intro s hs
    obtain ⟨flag, hflag⟩ := hfound s.1 hs
    obtain ⟨-, hflagname⟩ := FlagRegistry.mem_of_findFlag hflag
    unfold fromenvStep
    simp only [hflag, henv, h1, h2, or_self, if_false, hflagname]
    exact (hnever s.1 hs).bind _

/-- The three flags are as `gflags.cc` defines them: they are strings, and nobody has added a validator. -/
def OwnFlags (r : FlagRegistry) : Prop :=
  ∀ name, isRecursive name = true → ∃ flag, r.findFlag name = some flag ∧ flag.type = .string ∧
    flag.state.validateFn = none

theorem OwnFlags.same {r r' : FlagRegistry} (h : OwnFlags r) (hsame : SameFlags r r') : OwnFlags r' := by
  intro name hname
  obtain ⟨flag, hfind, htype, hfn⟩ := h name hname
  obtain ⟨state, hfind', hkeeps⟩ := hsame.exists_state hfind
  exact ⟨flag.withState state, hfind', htype, hkeeps.trans hfn⟩

/-- Such a flag takes every value. -/
theorem setFlag_own {flag : CommandLineFlag} (htype : flag.type = .string) (hfn : flag.state.validateFn = none)
    {p : FlagRegistry} {name : Bytes} (hfind : p.findFlag name = some flag) (value : Bytes) :
    (setFlag w flag value .setFlagsValue).2.1 = true ∧
      (p.put flag (setFlag w flag value .setFlagsValue).1).stringVariable name = value := by
  obtain ⟨⟨flagname, help, filename, type⟩, old⟩ := flag
  dsimp only at htype
  subst htype
  have haccepts : Accepts w ⟨⟨flagname, help, filename, .string⟩, old⟩ value value := by
    refine ⟨rfl, ?_⟩
    unfold CommandLineFlag.validate
    rw [hfn]
  have hset := setFlag_accepts haccepts
  refine ⟨hset.1, ?_⟩
  unfold FlagRegistry.stringVariable
  rw [FlagRegistry.findFlag_put hfind]
  exact hset.2

/-- **References that do not end.** A setting with an endless chain of references never returns. -/
theorem never_of_not_acc (hown : OwnFlags r) (depth : Nat) {s : Setting} (hrec : isRecursive s.name = true)
    (hnot : ¬ Acc (fun t s => Refers w r s t) s) {p : Parser} (hp : SameFlags r p.registry) :
    Never (processSingleOption w depth p s.name (some s.value) .setFlagsValue) := by
  induction depth generalizing s p with
  | zero => exact ensures_running _
  | succ depth ih =>
    have hnext : ∃ next, Refers w r s next ∧ ¬ Acc (fun t s => Refers w r s t) next := by
      by_contra hall
      apply hnot
      constructor
      intro next hrefers
      by_contra hnext
      exact hall ⟨next, hrefers, hnext⟩
    obtain ⟨next, hrefers, hnext⟩ := hnext
    have hInv := (setRelation_keepsValidator w .setFlagsValue).parserInvariant r
    have hkeeps := sameFlags_of_ensures (w := w) (r := r) .setFlagsValue depth
    obtain ⟨flag, hfind, htype, hfn⟩ := hown.same hp s.name hrec
    obtain ⟨hok, hvar⟩ := setFlag_own (w := w) htype hfn hfind s.value
    have hput := sameFlags_put (w := w) hp hfind s.value .setFlagsValue
    unfold processSingleOption singleStep
    simp only [hfind, hok, if_true]
    refine Never.bind ?_ _
    unfold processRecursive
    cases hrefers with
    | @file value file contents line files next hvalue hfiles hfile hread hline htarget hnextrec =>
      rw [if_pos rfl, hvar]
      refine processFlagfile_never hkeeps hvalue hfiles hfile hread hline ?_ hput
      intro q hq
      rw [processLine_eq, lineTarget_same hq, htarget]
      exact ih hnextrec hnext hq
    | @env name value names next hname hvalue hnames hmem henv h1 h2 hnextrec =>
      have hfound : ∀ q : Parser, SameFlags r q.registry → ∃ flag, q.registry.findFlag next.name = some flag := by
        intro q hq
        obtain ⟨flag, hflag, -⟩ := hown.same hq next.name hnextrec
        exact ⟨flag, hflag⟩
      have hnever : ∀ q : Parser, SameFlags r q.registry →
          Never (processSingleOption w depth q next.name (some next.value) .setFlagsValue) :=
        fun q hq => ih hnextrec hnext hq
      rcases hname with rfl | rfl
      · rw [if_neg (by dsimp only; decide), if_pos rfl, hvar]
        exact processFromenv_never hInv hkeeps true hvalue hnames hmem henv h1 h2 hfound hnever hput
      · rw [if_neg (by dsimp only; decide), if_neg (by dsimp only; decide), if_pos rfl, hvar]
        exact processFromenv_never hInv hkeeps false hvalue hnames hmem henv h1 h2 hfound hnever hput

end

/-- `SetCommandLineOptionWithMode` on a flag that exists. -/
theorem setCommandLineOptionWithMode_eq {w : World} {depth : Nat} {r : FlagRegistry} {name : Bytes}
    {value : Option Bytes} {mode : FlagSettingMode} {flag : CommandLineFlag} (hfind : r.findFlag name = some flag) :
    setCommandLineOptionWithMode w depth r name value mode =
      (processSingleOption w depth (Parser.start r) name value mode >>= fun q => .returned (q.1.registry, q.2)) := by
  obtain ⟨-, hname⟩ := FlagRegistry.mem_of_findFlag hfind
  unfold setCommandLineOptionWithMode
  rw [hfind, ← hname]
  rfl

/-- **When setting a recursive flag ends.** If the references of the value are well-founded, the call returns or ends
    the process within some depth, and a deeper bound changes nothing; if not, it never returns. -/
theorem setting_ends_iff {w : World} {r : FlagRegistry} (hown : OwnFlags r) {name : Bytes}
    (hrec : isRecursive name = true) (value : Bytes) :
    (Acc (fun t s => Refers w r s t) ⟨name, value⟩ → ∃ depth, ∀ depth', depth ≤ depth' →
      Stops (setCommandLineOptionWithMode w depth' r name (some value) .setFlagsValue)) ∧
    (¬ Acc (fun t s => Refers w r s t) ⟨name, value⟩ → ∀ depth,
      Never (setCommandLineOptionWithMode w depth r name (some value) .setFlagsValue)) := by
  obtain ⟨flag, hfind, -⟩ := hown name hrec
  have hsame : SameFlags r (Parser.start r).registry := SameFlags.refl r
  constructor
  · intro hacc
    obtain ⟨depth, hdepth⟩ := exists_stopsWithin hacc
    refine ⟨depth, ?_⟩
    intro depth' hle
    rw [setCommandLineOptionWithMode_eq hfind]
    exact Stops.bind ((hdepth.mono hle) (Parser.start r) hsame) fun _ _ => stops_returned _
  · intro hnot depth
    rw [setCommandLineOptionWithMode_eq hfind]
    exact (never_of_not_acc hown depth hrec hnot hsame).bind _

/-- A file `loop` that names itself. -/
def loopWorld : World :=
  { World.bare with readFile := fun file => if file = lit "loop" then some (lit "--flagfile=loop\n") else none }

theorem gflagsRegistry_ownFlags : OwnFlags FlagRegistry.gflagsRegistry := by
  intro name hname
  unfold isRecursive at hname
  simp only [Bool.or_eq_true, beq_iff_eq] at hname
  rcases hname with (rfl | rfl) | rfl
  · exact ⟨FlagRegistry.flagfileFlag, rfl, rfl, rfl⟩
  · exact ⟨FlagRegistry.fromenvFlag, rfl, rfl, rfl⟩
  · exact ⟨FlagRegistry.tryfromenvFlag, rfl, rfl, rfl⟩

theorem loop_never : Never (setCommandLineOptionWithMode loopWorld 5 FlagRegistry.gflagsRegistry
    (lit "flagfile") (some (lit "loop")) .setFlagsValue) := by
  have hfiles : parseFlagList (cStr (lit "loop")) = .returned [lit "loop"] := rfl
  have hrefers : Refers loopWorld FlagRegistry.gflagsRegistry ⟨lit "flagfile", lit "loop"⟩
      ⟨lit "flagfile", lit "loop"⟩ :=
    Refers.file (List.cons_ne_nil _ _) hfiles List.mem_cons_self rfl List.mem_cons_self rfl rfl
  refine (setting_ends_iff gflagsRegistry_ownFlags rfl (lit "loop")).2 ?_ 5
  exact not_acc_iff_exists_descending_chain.mpr ⟨fun _ => ⟨lit "flagfile", lit "loop"⟩, rfl, fun _ => hrefers⟩

/-! ## `SET_FLAG_IF_DEFAULT` -/

/-- Two relations that `setFlag` respects, at once. -/
theorem SetRelation.and {w : World} {mode : FlagSettingMode}
    {S T : (flag : CommandLineFlag) → FlagState flag.type → Prop}
    (hS : SetRelation w mode S) (hT : SetRelation w mode T) : SetRelation w mode fun flag s => S flag s ∧ T flag s where
  refl flag := ⟨hS.refl flag, hT.refl flag⟩
  trans flag s s' hs hs' := ⟨hS.trans flag s s' hs.1 hs'.1, hT.trans flag s s' hs.2 hs'.2⟩
  setFlag flag value := ⟨hS.setFlag flag value, hT.setFlag flag value⟩

/-- Some file of the list has a line for this program that sets `--flagfile`. -/
def HasFlagfileLine (w : World) (r : FlagRegistry) (value : Bytes) : Prop :=
  value ≠ [] ∧ ∃ files, parseFlagList (cStr value) = .returned files ∧ ∃ file ∈ files, ∃ contents,
    w.readFile file = some contents ∧ ∃ line ∈ relevantLines w contents, ∃ u,
      lineTarget r line = some (lit "flagfile", u)

theorem HasFlagfileLine.same {w : World} {r r' : FlagRegistry} {value : Bytes} (h : HasFlagfileLine w r value)
    (hsame : SameFlags r r') : HasFlagfileLine w r' value := by
  obtain ⟨hvalue, files, hfiles, file, hfile, contents, hread, line, hmem, u, htarget⟩ := h
  rw [← lineTarget_same hsame] at htarget
  exact ⟨hvalue, files, hfiles, file, hfile, contents, hread, line, hmem, u, htarget⟩

/-- The registry has the flags of `r`; those that were modified have their old values. -/
abbrev Protects (r r' : FlagRegistry) : Prop :=
  r.Stepwise (Evolves fun flag s => KeepsValidator flag s ∧ Protected flag s) r'

theorem Protects.sameFlags {r r' : FlagRegistry} (h : Protects r r') : SameFlags r r' :=
  h.mono fun _ _ ⟨s, hs, hkeeps⟩ => ⟨s, hs, hkeeps.1⟩

theorem setRelation_protects (w : World) : SetRelation w .setFlagIfDefault fun flag s =>
    KeepsValidator flag s ∧ Protected flag s :=
  (setRelation_keepsValidator w .setFlagIfDefault).and (setRelation_protected w (by decide))

/-- The list that is read again comes to the line. -/
theorem reread_never {w : World} {r : FlagRegistry} {single : SingleOption} {value : Bytes}
    (hkeeps : SingleKeeps .setFlagIfDefault (fun q => Protects r q.registry) single) (hline : HasFlagfileLine w r value)
    (hnever : ∀ q : Parser, Protects r q.registry → ∀ u, Never (single q (lit "flagfile") (some u) .setFlagIfDefault))
    {p : Parser} (hp : Protects r p.registry) (hvar : p.registry.stringVariable (lit "flagfile") = value) :
    Never (processRecursive w single p (lit "flagfile") .setFlagIfDefault) := by
  obtain ⟨hvalue, files, hfiles, file, hfile, contents, hread, line, hmem, u, htarget⟩ := hline
  unfold processRecursive
  rw [if_pos rfl, hvar]
  refine processFlagfile_never hkeeps hvalue hfiles hfile hread hmem ?_ hp
  intro q hq
  rw [processLine_eq, lineTarget_same (Protects.sameFlags hq), htarget]
  exact hnever q hq u

/-- A modified flag file list is read again, whatever the line says. -/
theorem flagfile_never {w : World} {r : FlagRegistry} {decl : FlagDecl} {state : FlagState .string}
    (hfind : r.findFlag (lit "flagfile") = some ⟨{ decl with type := .string }, state⟩) (hmod : IsModified state)
    (hline : HasFlagfileLine w r state.current) (depth : Nat) {p : Parser} (hp : Protects r p.registry)
    (value : Bytes) : Never (processSingleOption w depth p (lit "flagfile") (some value) .setFlagIfDefault) := by
  induction depth generalizing p value with
  | zero => exact ensures_running _
  | succ depth ih =>
    have hkeeps := processSingleOption_ensures ((setRelation_protects w).parserInvariant r) depth
    obtain ⟨state', hfind', -, hprotected⟩ := hp.exists_state hfind
    obtain ⟨hmod', hcur⟩ := hprotected hmod
    have hput := ((setRelation_protects w).parserInvariant r).setFlag p _ _ value hp hfind'
    have hspec := setFlag_spec w (CommandLineFlag.withState ⟨{ decl with type := .string }, state⟩ state') value
      .setFlagIfDefault
    unfold processSingleOption singleStep
    simp only [hfind']
    dsimp only at hput
    generalize setFlag w (CommandLineFlag.withState ⟨{ decl with type := .string }, state⟩ state') value
      .setFlagIfDefault = result at hspec hput ⊢
    obtain ⟨state'', ok, msg⟩ := result
    cases hspec with
    | refused _ hfresh => exact absurd (hmod'.symm.trans (hfresh rfl)) (by decide)
    | valued _ _ hfresh => exact absurd (hmod'.symm.trans (hfresh rfl)) (by decide)
    | skipped _ =>
      refine Never.bind (reread_never hkeeps hline (fun q hq u => ih hq u) hput ?_) _
      unfold FlagRegistry.stringVariable
      rw [FlagRegistry.findFlag_put hfind']
      exact (updateModifiedBit_current _).trans hcur

/-- The same for the reading of the list alone. -/
theorem rereading_never {w : World} {r : FlagRegistry} {decl : FlagDecl} {state : FlagState .string}
    (hfind : r.findFlag (lit "flagfile") = some ⟨{ decl with type := .string }, state⟩) (hmod : IsModified state)
    (hline : HasFlagfileLine w r state.current) (depth : Nat) {p : Parser} (hp : p.registry = r) :
    Never (processRecursive w (processSingleOption w depth) p (lit "flagfile") .setFlagIfDefault) := by
  subst hp
  have hkeeps := processSingleOption_ensures ((setRelation_protects w).parserInvariant p.registry) depth
  refine reread_never hkeeps hline ?_ (FlagRegistry.Stepwise.refl (setRelation_protects w).evolves_refl _) ?_
  · exact fun q hq u => flagfile_never hfind hmod hline depth hq u
  · unfold FlagRegistry.stringVariable
    rw [hfind]

end Thirdparty.Gflags
