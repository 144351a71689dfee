import Thirdparty.Gflags.FlagSaver
import Thirdparty.Gflags.Recursion

/-!
# `Gflags.FlagsString` — writing the flags to a text, and reading it back

`CommandlineFlagsIntoString` writes a flag file with every flag of the registry, `ReadFlagsFromString` reads one.

## Contents
- `flagLine`, `commandlineFlagsIntoString`.
- `Storable`: what a flag must meet.
- `relevantLines_flagLines`, `lineTarget_flagLine`: the text is read as the lines that were written.
- `foldlM_flagLines`: setting the flags line by line.
- `readFlags_commandlineFlags`: the text brings the written values to any registry with the same flags.
-/

namespace Thirdparty.Gflags

open Outcome

/-- The line of one flag, without the newline. -/
def flagLine (info : FlagInfo) : Bytes := lit "--" ++ info.name ++ lit "=" ++ info.currentValue

/-- `TheseCommandlineFlagsIntoString`. -/
def theseCommandlineFlagsIntoString (flags : List FlagInfo) : Bytes :=
  flags.flatMap fun info => flagLine info ++ [newline]

/-- `CommandlineFlagsIntoString`. -/
def commandlineFlagsIntoString (w : World) (r : FlagRegistry) : Bytes :=
  theseCommandlineFlagsIntoString (getAllFlags w r)

/-! ## The lines -/

/-- A line that begins with a dash is read as it is. -/
theorem linesFrom_cons {n : Nat} {line rest : Bytes} (hdash : line.head? = some dash) (hline : newline ∉ line) :
    linesFrom (n + 1) (line ++ newline :: rest) = line :: linesFrom n rest := by
  obtain ⟨s, rfl⟩ : ∃ s, line = dash :: s := by
    cases line with
    | nil => cases hdash
    | cons b s =>
      cases hdash
      exact ⟨s, rfl⟩
  have hspace : (dash :: s ++ newline :: rest).dropWhile isspace = dash :: s ++ newline :: rest :=
    List.dropWhile_cons_of_neg (by decide)
  rw [linesFrom]
  simp only [hspace, strchr_append hline]
  have htake : (dash :: s ++ newline :: rest).take (dash :: s).length = dash :: s := List.take_left
  have hdrop : (dash :: s ++ newline :: rest).drop ((dash :: s).length + 1) = rest := by
    rw [← List.drop_drop, List.drop_left]
    rfl
  rw [htake, hdrop]

theorem linesFrom_flatMap {lines : List Bytes} (hdash : ∀ line ∈ lines, line.head? = some dash)
    (hline : ∀ line ∈ lines, newline ∉ line) {n : Nat} (hn : lines.length < n) :
    linesFrom n (lines.flatMap fun line => line ++ [newline]) = lines ++ [[]] := by
  induction lines generalizing n with
  | nil =>
    obtain ⟨m, rfl⟩ := Nat.exists_eq_succ_of_ne_zero (Nat.ne_of_gt hn)
    rfl
  | cons line lines ih =>
    obtain ⟨m, rfl⟩ := Nat.exists_eq_succ_of_ne_zero (Nat.ne_of_gt (Nat.zero_lt_of_lt hn))
    rw [List.flatMap_cons, List.append_assoc, List.singleton_append, linesFrom_cons (hdash line List.mem_cons_self)
      (hline line List.mem_cons_self), ih (fun l hl => hdash l (List.mem_cons_of_mem line hl))
      (fun l hl => hline l (List.mem_cons_of_mem line hl)) (Nat.lt_of_succ_lt_succ hn)]
    rfl

/-! ## One flag -/

/-- What lets the line of a flag be read back: the name and the text fit on a line, the value is readable and passes
    the flag's validator, and a recursive flag is empty. -/
structure Storable (w : World) (flag : CommandLineFlag) : Prop where
  name : equals ∉ flag.name ∧ newline ∉ flag.name ∧ nul ∉ flag.name
  text : newline ∉ flag.currentValue w ∧ nul ∉ flag.currentValue w
  readable : FlagValue.Readable w.toLibc flag.state.current
  valid : flag.validateCurrent w = true
  plain : isRecursive flag.name = true → flag.currentValue w = []

theorem flagLine_cons (info : FlagInfo) :
    flagLine info = dash :: dash :: (info.name ++ equals :: info.currentValue) := by
  unfold flagLine
  rw [List.append_assoc, List.append_assoc]
  rfl

theorem Storable.newline_notMem {w : World} {flag : CommandLineFlag} (h : Storable w flag) :
    newline ∉ flagLine (fillCommandLineFlagInfo w flag) := by
  rw [flagLine_cons]
  simp only [List.mem_cons, List.mem_append, not_or]
  exact ⟨by decide, by decide, h.name.2.1, by decide, h.text.1⟩

theorem Storable.nul_notMem {w : World} {flag : CommandLineFlag} (h : Storable w flag) :
    nul ∉ flagLine (fillCommandLineFlagInfo w flag) ++ [newline] := by
  rw [flagLine_cons]
  simp only [List.mem_cons, List.mem_append, not_or, List.not_mem_nil, not_false_eq_true]
  exact ⟨⟨by decide, by decide, h.name.2.2, by decide, h.text.2⟩, by decide, trivial⟩

/-- The line sets the flag to the text of its value. -/
theorem lineTarget_flagLine {w : World} {r : FlagRegistry} {flag : CommandLineFlag} (h : Storable w flag)
    (hmem : flag ∈ r.flags) :
    lineTarget r (flagLine (fillCommandLineFlagInfo w flag)) = some (flag.name, flag.currentValue w) := by
  have hline : nameAndValue (flagLine (fillCommandLineFlagInfo w flag)) =
      flag.name ++ equals :: flag.currentValue w := by
    rw [flagLine_cons]
    rfl
  have hsplit : splitEquals (flag.name ++ equals :: flag.currentValue w) = (flag.name, some (flag.currentValue w)) := by
    unfold splitEquals
    rw [strchr_append h.name.1]
    have hdrop : (flag.name ++ equals :: flag.currentValue w).drop (flag.name.length + 1) = flag.currentValue w := by
      rw [← List.drop_drop, List.drop_left]
      rfl
    dsimp only
    rw [List.take_left, hdrop]
  unfold lineTarget splitArgument implicitValue
  simp only [hline, hsplit, FlagRegistry.findFlag_eq_some_iff.mpr ⟨hmem, rfl⟩]
  rw [if_neg fun hnone => by cases hnone.1]

/-- The value is accepted again, by the flag in any state with the same validator. -/
theorem Storable.accepts {w : World} {flag : CommandLineFlag} (h : Storable w flag) {s : FlagState flag.type}
    (hs : KeepsValidator flag s) : Accepts w (flag.withState s) (flag.currentValue w) flag.state.current := by
  refine ⟨FlagValue.parseFrom_toText w.toLibc flag.state.current h.readable, ?_⟩
  rw [validate_withState w hs]
  exact h.valid

/-- What the parser holds for a flag that has been read. -/
abbrev HasValueOf (r : FlagRegistry) (flag : CommandLineFlag) : Prop := Holds r flag flag.state.current

/-- **One line is read back.** -/
theorem single_storable {w : World} {r : FlagRegistry} {flag : CommandLineFlag} (h : Storable w flag)
    (hmem : flag ∈ r.flags) (depth : Nat) {p : Parser} (hp : SameFlags r p.registry) :
    ∃ q text, processSingleOption w (depth + 1) p flag.name (some (flag.currentValue w)) .setFlagsValue =
        .returned (q, text) ∧ q.errorFlags = p.errorFlags ∧ q.undefinedNames = p.undefinedNames ∧
        HasValueOf q.registry flag ∧
        ∀ name, flag.name ≠ name → q.registry.findFlag name = p.registry.findFlag name := by
  obtain ⟨s, hfind, hs⟩ := hp.exists_state (FlagRegistry.findFlag_eq_some_iff.mpr ⟨hmem, rfl⟩)
  have haccepts := h.accepts hs
  obtain ⟨hok, hcur⟩ := setFlag_accepts haccepts
  have hrec : ∀ q : Parser, q.registry = p.registry.put (flag.withState s)
        (setFlag w (flag.withState s) (flag.currentValue w) .setFlagsValue).1 →
      processRecursive w (processSingleOption w depth) q flag.name .setFlagsValue = .returned (q, []) := by
    intro q hq
    cases hrecursive : isRecursive flag.name with
    | false => exact processRecursive_plain hrecursive _ _ _
    | true =>
      apply processRecursive_empty
      rw [hq]
      have hvar := stringVariable_setFlag hfind hok
      rw [h.plain hrecursive, or_self] at hvar
      rw [h.plain hrecursive]
      exact hvar
  unfold processSingleOption singleStep
  simp only [hfind, hok, if_true]
  rw [hrec _ rfl]
  refine ⟨_, _, rfl, rfl, rfl, ⟨_, FlagRegistry.findFlag_put hfind _, hcur⟩, ?_⟩
  intro name hname
  exact FlagRegistry.findFlag_put_ne p.registry hname _

/-! ## All flags -/

theorem exists_flag_of_info {w : World} {r : FlagRegistry} {info : FlagInfo} (h : info ∈ getAllFlags w r) :
    ∃ flag ∈ r.flags, info = fillCommandLineFlagInfo w flag := by
  unfold getAllFlags at h
  obtain ⟨flag, hmem, rfl⟩ := List.mem_map.mp ((List.mergeSort_perm _ _).mem_iff.mp h)
  exact ⟨flag, hmem, rfl⟩

theorem fill_mem_getAllFlags {w : World} {r : FlagRegistry} {flag : CommandLineFlag} (h : flag ∈ r.flags) :
    fillCommandLineFlagInfo w flag ∈ getAllFlags w r :=
  (List.mergeSort_perm _ _).mem_iff.mpr (List.mem_map_of_mem h)

/-- Flag lines alone all count. -/
theorem relevantFrom_flagLines (w : World) {lines : List Bytes} (hdash : ∀ line ∈ lines, line.head? = some dash) :
    relevantFrom w ⟨true, false⟩ (lines ++ [[]]) = lines := by
  induction lines with
  | nil => rfl
  | cons line lines ih =>
    have hhead := hdash line List.mem_cons_self
    have hflag : isFlagLine line = true := by
      unfold isFlagLine
      rw [hhead]
      rfl
    have hskipped : isSkipped line = false := by
      unfold isSkipped
      rw [hhead]
      cases line with
      | nil => cases hhead
      | cons b s => rfl
    have hnext : Section.next w ⟨true, false⟩ line = ⟨true, false⟩ := by
      unfold Section.next
      rw [hskipped, hflag]
      rfl
    rw [List.cons_append, relevantFrom, hflag, hnext, ih fun l hl => hdash l (List.mem_cons_of_mem line hl)]
    rfl

/-- **The text is read as the lines that were written.** -/
theorem relevantLines_flagLines {w : World} {r : FlagRegistry} (hstore : ∀ flag ∈ r.flags, Storable w flag) :
    relevantLines w (commandlineFlagsIntoString w r) = (getAllFlags w r).map flagLine := by
  have hinfo : ∀ line ∈ (getAllFlags w r).map flagLine, ∃ flag ∈ r.flags,
      line = flagLine (fillCommandLineFlagInfo w flag) := by
    intro line hline
    obtain ⟨info, hmem, rfl⟩ := List.mem_map.mp hline
    obtain ⟨flag, hflag, rfl⟩ := exists_flag_of_info hmem
    exact ⟨flag, hflag, rfl⟩
  have hdash : ∀ line ∈ (getAllFlags w r).map flagLine, line.head? = some dash := by
    intro line hline
    obtain ⟨flag, -, rfl⟩ := hinfo line hline
    rw [flagLine_cons]
    rfl
  have hnewline : ∀ line ∈ (getAllFlags w r).map flagLine, newline ∉ line := by
    intro line hline
    obtain ⟨flag, hflag, rfl⟩ := hinfo line hline
    exact (hstore flag hflag).newline_notMem
  have htext : commandlineFlagsIntoString w r =
      ((getAllFlags w r).map flagLine).flatMap fun line => line ++ [newline] := by
    unfold commandlineFlagsIntoString theseCommandlineFlagsIntoString
    rw [List.flatMap_map]
  have hnul : nul ∉ commandlineFlagsIntoString w r := by
    rw [htext, List.mem_flatMap]
    rintro ⟨line, hline, hmem⟩
    obtain ⟨flag, hflag, rfl⟩ := hinfo line hline
    exact (hstore flag hflag).nul_notMem hmem
  have hlength : ∀ lines : List Bytes, lines.length ≤ (lines.flatMap fun line => line ++ [newline]).length := by
    intro lines
    induction lines with
    | nil => exact Nat.le_refl _
    | cons line lines ih =>
      rw [List.flatMap_cons, List.length_append, List.length_append, List.length_cons, List.length_singleton]
      omega
  unfold relevantLines optionLines
  rw [cStr_of_notMem hnul, htext, linesFrom_flatMap hdash hnewline (Nat.lt_succ_of_le (hlength _)),
    relevantFrom_flagLines w hdash]

/-- **The lines are read back one by one.** -/
theorem foldlM_flagLines {w : World} {r : FlagRegistry} (hstore : ∀ flag ∈ r.flags, Storable w flag) (depth : Nat)
    {infos : List FlagInfo} (hinfos : ∀ info ∈ infos, ∃ flag ∈ r.flags, info = fillCommandLineFlagInfo w flag)
    {p : Parser} (hp : SameFlags r p.registry) (retval : Bytes) :
    ∃ q text, (infos.map flagLine).foldlM (lineStep (processSingleOption w (depth + 1)) .setFlagsValue) (p, retval) =
        .returned (q, text) ∧ q.errorFlags = p.errorFlags ∧ q.undefinedNames = p.undefinedNames ∧
        SameFlags r q.registry ∧
        ∀ flag ∈ r.flags, fillCommandLineFlagInfo w flag ∈ infos ∨ HasValueOf p.registry flag →
          HasValueOf q.registry flag := by
  induction infos generalizing p retval with
  | nil =>
    refine ⟨p, retval, rfl, rfl, rfl, hp, ?_⟩
    intro flag _ hflag
    exact hflag.resolve_left List.not_mem_nil
  | cons info infos ih =>
    obtain ⟨flag, hmem, rfl⟩ := hinfos _ List.mem_cons_self
    obtain ⟨q, text, hrun, herrors, hundefined, hvalue, hother⟩ := single_storable (hstore flag hmem) hmem depth hp
    have hq : SameFlags r q.registry := sameFlags_of_ensures .setFlagsValue (depth + 1) p _ _ hp _ hrun
    obtain ⟨q', text', hrun', herrors', hundefined', hq', hvalue'⟩ :=
      ih (fun i hi => hinfos i (List.mem_cons_of_mem _ hi)) hq (retval ++ text)
    refine ⟨q', text', ?_, herrors'.trans herrors, hundefined'.trans hundefined, hq', ?_⟩
    · rw [List.map_cons, List.foldlM_cons]
      unfold lineStep
      rw [processLine_eq, lineTarget_same hp, lineTarget_flagLine (hstore flag hmem) hmem]
      dsimp only
      rw [hrun]
      exact hrun'
    · intro g hg hflag
      apply hvalue' g hg
      by_cases hname : flag.name = g.name
      · have hsame : flag = g := FlagRegistry.eq_of_name_eq hmem hg hname
        subst hsame
        exact Or.inr hvalue
      · rcases hflag with hflag | ⟨s, hs, hcur⟩
        · rcases List.mem_cons.mp hflag with hinfo | hflag
          · exact absurd (congrArg (fun i => i.name) hinfo).symm hname
          · exact Or.inl hflag
        · refine Or.inr ⟨s, ?_, hcur⟩
          rw [hother g.name hname]
          exact hs

/-! ## Help flags and errors -/

/-- No reporting flag is set. -/
theorem handleCommandLineHelpFlags_returned_iff {w : World} {prog : Program} {r : FlagRegistry} :
    handleCommandLineHelpFlags w prog r = .returned () ↔
      r.stringVariable (lit "tab_completion_word") = [] ∧ r.boolVariable (lit "helpshort") = false ∧
      r.boolVariable (lit "help") = false ∧ r.boolVariable (lit "helpfull") = false ∧
      r.stringVariable (lit "helpon") = [] ∧ r.stringVariable (lit "helpmatch") = [] ∧
      r.boolVariable (lit "helppackage") = false ∧ r.boolVariable (lit "helpxml") = false ∧
      r.boolVariable (lit "version") = false := by
  unfold handleCommandLineHelpFlags
  simp only [ite_exited_eq_returned, ne_eq, not_not, Bool.or_eq_true, not_or, Bool.not_eq_true, and_assoc, and_true]

/-- The registry has the flags of `r` with their values. -/
def SameValues (r r' : FlagRegistry) : Prop :=
  SameFlags r r' ∧ ∀ flag ∈ r.flags, HasValueOf r' flag

/-- The flag of a name, with the same value, or none. -/
theorem SameValues.findFlag {r r' : FlagRegistry} (h : SameValues r r') (name : Bytes) :
    (r.findFlag name = none ∧ r'.findFlag name = none) ∨
      ∃ flag s, r.findFlag name = some flag ∧ r'.findFlag name = some (flag.withState s) ∧
        s.current = flag.state.current := by
  rcases findFlag_same h.1 name with hnone | ⟨flag, _, hfind, -, -⟩
  · exact Or.inl hnone
  · obtain ⟨hmem, rfl⟩ := FlagRegistry.mem_of_findFlag hfind
    obtain ⟨s, hs, hcur⟩ := h.2 flag hmem
    exact Or.inr ⟨flag, s, hfind, hs, hcur⟩

theorem SameValues.stringVariable {r r' : FlagRegistry} (h : SameValues r r') (name : Bytes) :
    r'.stringVariable name = r.stringVariable name := by
  unfold FlagRegistry.stringVariable
  rcases h.findFlag name with ⟨hr, hr'⟩ | ⟨⟨⟨_, _, _, type⟩, state⟩, s, hr, hr', hcur⟩
  · rw [hr, hr']
  · rw [hr, hr']
    cases type with
    | string => exact hcur
    | bool => rfl
    | int32 => rfl
    | int64 => rfl
    | uint64 => rfl
    | double => rfl

theorem SameValues.boolVariable {r r' : FlagRegistry} (h : SameValues r r') (name : Bytes) :
    r'.boolVariable name = r.boolVariable name := by
  unfold FlagRegistry.boolVariable
  rcases h.findFlag name with ⟨hr, hr'⟩ | ⟨⟨⟨_, _, _, type⟩, state⟩, s, hr, hr', hcur⟩
  · rw [hr, hr']
  · rw [hr, hr']
    cases type with
    | bool => exact hcur
    | string => rfl
    | int32 => rfl
    | int64 => rfl
    | uint64 => rfl
    | double => rfl

theorem SameValues.handleCommandLineHelpFlags {w : World} {prog : Program} {r r' : FlagRegistry} (h : SameValues r r')
    (hquiet : handleCommandLineHelpFlags w prog r = .returned ()) :
    Gflags.handleCommandLineHelpFlags w prog r' = .returned () := by
  rw [handleCommandLineHelpFlags_returned_iff] at hquiet ⊢
  simp only [h.stringVariable, h.boolVariable]
  exact hquiet

/-- Without errors there is nothing to excuse or to report. -/
theorem reportErrors_clean {allow : Bool} {p : Parser} {names : List Bytes}
    (hnames : undefokNames p.registry = .returned names) (herrors : p.errorFlags = ∅)
    (hundefined : p.undefinedNames = ∅) : reportErrors allow p = .returned (p, false, []) := by
  have hexcuse : ∀ names : List Bytes, names.foldl excuse p = p := by
    intro names
    induction names with
    | nil => rfl
    | cons name names ih =>
      have hone : excuse p name = p := by
        unfold excuse
        simp [hundefined]
      rw [List.foldl_cons, hone, ih]
  have hall : excuseUndefined p = p := by
    unfold excuseUndefined
    rw [hundefined]
    rfl
  unfold reportErrors
  rw [hnames]
  simp only [returned_bind, hexcuse, hall, ite_self, herrors]
  rfl

end Thirdparty.Gflags
