import Thirdparty.Gflags.Argv
import Thirdparty.Gflags.Help

/-!
# `Gflags.CommandLine` — the whole of `ParseCommandLineFlags`

`ParseCommandLineFlagsInternal` of `gflags.cc`: the recursive flags first, then `argv`, the help flags, the validators,
and the report. It collects its errors and goes on; only the report ends the process. What can be relied on when it
returns is shown here: an error is never forgotten, and nothing but an undefined name is excused.

## Contents
- `parseCommandLineFlagsInternal`.
- `Parser.Sound`: what holds of the errors while the parser runs.
- `Excused`, `reportErrors_spec`: which errors are not reported.
- `parseCommandLineFlags_sound`: what holds when the call returns.
- `parseCommandLineFlags_plain`: without the recursive flags the last value on the command line is the one.
-/

namespace Thirdparty.Gflags

open Outcome

/-- The recursive flags that are set already, as if they were the first flags on the command line. -/
def processFirst (w : World) (depth : Nat) (p : Parser) : Outcome Exit Parser := do
  let single := processSingleOption w depth
  let (p, _) ← processFlagfile w single p (p.registry.stringVariable (lit "flagfile")) .setFlagsValue
  let (p, _) ← processFromenv w single p (p.registry.stringVariable (lit "fromenv")) .setFlagsValue true
  let (p, _) ← processFromenv w single p (p.registry.stringVariable (lit "tryfromenv")) .setFlagsValue false
  return p

/-- `ParseCommandLineFlagsInternal`, with `allow_command_line_reparsing` as an argument. -/
def parseCommandLineFlagsInternal (w : World) (prog : Program) (allowCommandLineReparsing : Bool) (depth : Nat)
    (r : FlagRegistry) (argv : List Bytes) (removeFlags doReport : Bool) : Outcome Exit Parsed := do
  let p ← processFirst w depth (Parser.start r)
  let parsed ← parseNewCommandLineFlags w depth p argv removeFlags
  let _ ← cond doReport (handleCommandLineHelpFlags w prog parsed.parser.registry) (.returned ())
  let (p, foundError, text) ← reportErrors allowCommandLineReparsing (validateAllFlags w parsed.parser)
  if foundError then .exited ⟨1, text⟩
  else return { parsed with parser := p }

/-! ## Errors are not forgotten -/

/-- The parser has the flags of `r`; every error has a text; an undefined name is not the name of a flag, and there
    is an error for it. -/
structure Parser.Sound (r : FlagRegistry) (p : Parser) : Prop where
  same : SameFlags r p.registry
  message : ∀ name message : Bytes, p.errorFlags[name]? = some message → message ≠ []
  undefined : ∀ name ∈ p.undefinedNames, r.findFlag name = none ∧ name ∈ p.errorFlags

/-- The errors and the undefined names so far are there. -/
structure Parser.Keeps (before p : Parser) : Prop where
  errors : ∀ name ∈ before.errorFlags, name ∈ p.errorFlags
  undefined : ∀ name ∈ before.undefinedNames, name ∈ p.undefinedNames

theorem Parser.Keeps.refl (p : Parser) : p.Keeps p := ⟨fun _ h => h, fun _ h => h⟩

theorem Parser.sound_start (r : FlagRegistry) : (Parser.start r).Sound r where
  same := SameFlags.refl r
  message name message h := by simp [Parser.start] at h
  undefined name h := by simp [Parser.start] at h

theorem Parser.mem_addError {p : Parser} {name message key : Bytes} :
    key ∈ (p.addError name message).errorFlags ↔ key = name ∨ key ∈ p.errorFlags := by
  unfold Parser.addError
  rw [Std.TreeMap.mem_insert, Std.compare_eq_iff_eq, eq_comm]

theorem Parser.mem_addUnknown {p : Parser} {name message key : Bytes} :
    key ∈ (p.addUnknown name message).undefinedNames ↔ key = name ∨ key ∈ p.undefinedNames := by
  unfold Parser.addUnknown
  rw [Std.TreeSet.mem_insert, Std.compare_eq_iff_eq, eq_comm]

theorem Parser.Keeps.addError {before p : Parser} (h : before.Keeps p) (name message : Bytes) :
    before.Keeps (p.addError name message) where
  errors key hkey := Parser.mem_addError.mpr (Or.inr (h.errors key hkey))
  undefined := h.undefined

theorem Parser.Keeps.addUnknown {before p : Parser} (h : before.Keeps p) (name message : Bytes) :
    before.Keeps (p.addUnknown name message) where
  errors := (h.addError name message).errors
  undefined key hkey := Parser.mem_addUnknown.mpr (Or.inr (h.undefined key hkey))

theorem Parser.Sound.addError {r : FlagRegistry} {p : Parser} (hp : p.Sound r) (name : Bytes) {message : Bytes}
    (hmessage : message ≠ []) : (p.addError name message).Sound r where
  same := hp.same
  message key text h := by
    unfold Parser.addError at h
    rw [Std.TreeMap.getElem?_insert] at h
    split at h
    · cases h
      exact hmessage
    · exact hp.message key text h
  undefined key h := by
    obtain ⟨hnone, hmem⟩ := hp.undefined key h
    exact ⟨hnone, Parser.mem_addError.mpr (Or.inr hmem)⟩

theorem Parser.Sound.addUnknown {r : FlagRegistry} {p : Parser} (hp : p.Sound r) {name message : Bytes}
    (hmessage : message ≠ []) (hnone : r.findFlag name = none) : (p.addUnknown name message).Sound r where
  same := hp.same
  message := (hp.addError name hmessage).message
  undefined key h := by
    rcases Parser.mem_addUnknown.mp h with rfl | h
    · exact ⟨hnone, Parser.mem_addError.mpr (Or.inl rfl)⟩
    · obtain ⟨hkey, hmem⟩ := hp.undefined key h
      exact ⟨hkey, Parser.mem_addError.mpr (Or.inr hmem)⟩

/-- Both hold after whatever the parser does. -/
theorem parserInvariant_sound (w : World) (mode : FlagSettingMode) (r : FlagRegistry) (before : Parser) :
    ParserInvariant w mode fun p => p.Sound r ∧ before.Keeps p where
  addError _ name message hmessage hp := ⟨hp.1.addError name hmessage, hp.2.addError name message⟩
  addUnknown p name message hmessage hnone hp := by
    have hr : r.findFlag name = none := by
      rcases findFlag_same hp.1.same name with ⟨hr, -⟩ | ⟨flag, s, -, hsome, -⟩
      · exact hr
      · rw [hnone] at hsome
        cases hsome
    exact ⟨hp.1.addUnknown hmessage hr, hp.2.addUnknown name message⟩
  setFlag p name flag value hp hfind :=
    ⟨⟨((setRelation_keepsValidator w mode).parserInvariant r).setFlag p name flag value hp.1.same hfind,
      hp.1.message, hp.1.undefined⟩, ⟨hp.2.errors, hp.2.undefined⟩⟩

/-! ## The events of the scan -/

/-- The names in an event are those of flags, or of none. -/
def Event.Named (r : FlagRegistry) : Event → Prop
  | .set name _ => ∃ flag, r.findFlag name = some flag
  | .unknown key message => r.findFlag key = none ∧ message ≠ []
  | .missing key message => (∃ flag, r.findFlag key = some flag) ∧ message ≠ []

/-- The reading of an option names its flag. -/
theorem readOption_named (r : FlagRegistry) (arg : Bytes) :
    match readOption r arg with
    | .complete event => event.Named r
    | .waiting name key message => (∃ flag, r.findFlag name = some flag) ∧ (Event.missing key message).Named r := by
  have hunknown (key : Bytes) : unknownFlag key ≠ [] := error_ne_nil _ _
  unfold readOption splitArgument
  generalize splitEquals (stripDashes arg) = pair
  obtain ⟨key, value⟩ := pair
  dsimp only
  cases hfind : r.findFlag key with
  | some flag =>
    obtain ⟨-, rfl⟩ := FlagRegistry.mem_of_findFlag hfind
    dsimp only
    cases implicitValue flag.type value with
    | none => exact ⟨⟨flag, hfind⟩, ⟨flag, hfind⟩, List.cons_ne_nil _ _⟩
    | some value => exact ⟨flag, hfind⟩
  | none =>
    cases hno : withoutNo key with
    | none => exact ⟨hfind, hunknown key⟩
    | some name =>
      dsimp only
      cases hname : r.findFlag name with
      | none => exact ⟨hfind, hunknown key⟩
      | some flag =>
        obtain ⟨-, rfl⟩ := FlagRegistry.mem_of_findFlag hname
        dsimp only
        by_cases hbool : flag.type ≠ .bool
        · rw [if_pos hbool]
          exact ⟨hfind, List.cons_ne_nil _ _⟩
        · rw [if_neg hbool]
          exact ⟨flag, hname⟩

theorem scanArgs_named (r : FlagRegistry) (args : List Bytes) : ∀ event ∈ (scanArgs r args).events, event.Named r := by
  fun_induction scanArgs r args with
  | case1 => simp
  | case2 arg args hprogram s ih => exact ih
  | case3 => simp
  | case4 arg args hprogram hdash event hread ih =>
    have hnamed := readOption_named r arg
    rw [hread] at hnamed
    exact List.forall_mem_cons.mpr ⟨hnamed, ih⟩
  | case5 arg hprogram hdash name key message hread =>
    have hnamed := readOption_named r arg
    rw [hread] at hnamed
    exact List.forall_mem_cons.mpr ⟨hnamed.2, by simp⟩
  | case6 arg hprogram hdash name key message hread value args ih =>
    have hnamed := readOption_named r arg
    rw [hread] at hnamed
    exact List.forall_mem_cons.mpr ⟨hnamed.1, ih⟩

/-- A value of the flag in any of its states. -/
theorem accepts_withState {w : World} {flag : CommandLineFlag} {s : FlagState flag.type} (hs : KeepsValidator flag s)
    {value : Bytes} {v : FlagValue flag.type} : Accepts w (flag.withState s) value v ↔ Accepts w flag value v := by
  unfold Accepts
  rw [validate_withState w hs]
  rfl

/-- A value that is refused leaves an error. -/
theorem processSingleOption_refused {w : World} {depth : Nat} {p : Parser} {q : Parser × Bytes} {name value : Bytes}
    {flag : CommandLineFlag} (hfind : p.registry.findFlag name = some flag)
    (hrun : processSingleOption w depth p name (some value) .setFlagsValue = .returned q) :
    (∃ v, Accepts w flag value v) ∨ name ∈ q.1.errorFlags := by
  cases depth with
  | zero => cases hrun
  | succ depth =>
    have hspec := setFlag_spec w flag value .setFlagsValue
    unfold processSingleOption singleStep at hrun
    simp only [hfind] at hrun
    generalize setFlag w flag value .setFlagsValue = result at hrun hspec
    obtain ⟨state, ok, msg⟩ := result
    cases hspec with
    | refused hrefused _ =>
      cases hrun
      exact Or.inr (Parser.mem_addError.mpr (Or.inl rfl))
    | valued haccepts _ _ => exact Or.inl ⟨_, haccepts⟩

section

variable {w : World} {depth : Nat} {r : FlagRegistry}

theorem performEvent_sound {before p : Parser} (hp : p.Sound r ∧ before.Keeps p) {event : Event}
    (hnamed : event.Named r) : Ensures (performEvent w depth p event) fun q => q.Sound r ∧ before.Keeps q := by
  have hInv := parserInvariant_sound w .setFlagsValue r before
  cases event with
  | set name value =>
    exact Ensures.bind (processSingleOption_ensures hInv depth p name (some value) hp) fun _ hq =>
      ensures_returned.mpr hq
  | unknown key message =>
    exact ensures_returned.mpr ⟨hp.1.addUnknown hnamed.2 hnamed.1, hp.2.addUnknown key message⟩
  | missing key message =>
    exact ensures_returned.mpr ⟨hp.1.addError key hnamed.2, hp.2.addError key message⟩

/-- What an event must be, for no error but that of an undefined name. -/
def Event.Fine (w : World) (r : FlagRegistry) (undefinedNames : Std.TreeSet Bytes) : Event → Prop
  | .set name value => ∃ flag v, r.findFlag name = some flag ∧ Accepts w flag value v
  | .unknown key _ => key ∈ undefinedNames
  | .missing _ _ => False

/-- **A wrong option leaves an error** under the name of a flag. -/
theorem performEvent_fine {p q : Parser} (hp : p.Sound r) {event : Event} (hnamed : event.Named r)
    (hrun : performEvent w depth p event = .returned q) :
    event.Fine w r q.undefinedNames ∨ ∃ name flag, r.findFlag name = some flag ∧ name ∈ q.errorFlags := by
  cases event with
  | set name value =>
    obtain ⟨⟨q', text⟩, hq, hrest⟩ := bind_eq_returned.mp hrun
    cases hrest
    obtain ⟨flag, hfind⟩ := hnamed
    rcases findFlag_same hp.same name with ⟨hnone, -⟩ | ⟨flag', s, hfind', hstate, hs⟩
    · rw [hfind] at hnone
      cases hnone
    · rw [hfind'] at hfind
      cases hfind
      rcases processSingleOption_refused hstate hq with ⟨v, hv⟩ | hmem
      · exact Or.inl ⟨flag, v, hfind', (accepts_withState hs).mp hv⟩
      · exact Or.inr ⟨name, flag, hfind', hmem⟩
  | unknown key message =>
    cases hrun
    exact Or.inl (Parser.mem_addUnknown.mpr (Or.inl rfl))
  | missing key message =>
    cases hrun
    obtain ⟨⟨flag, hfind⟩, -⟩ := hnamed
    exact Or.inr ⟨key, flag, hfind, Parser.mem_addError.mpr (Or.inl rfl)⟩

theorem Event.Fine.mono {names names' : Std.TreeSet Bytes} (h : ∀ name ∈ names, name ∈ names') {event : Event}
    (hfine : event.Fine w r names) : event.Fine w r names' := by
  cases event with
  | set name value => exact hfine
  | unknown key message => exact h key hfine
  | missing key message => exact hfine

/-- **No wrong option is forgotten.** -/
theorem events_fine {events : List Event} (hnamed : ∀ event ∈ events, event.Named r) {p q : Parser} (hp : p.Sound r)
    (hrun : events.foldlM (performEvent w depth) p = .returned q) :
    q.Sound r ∧ ∀ event ∈ events, event.Fine w r q.undefinedNames ∨
      ∃ name flag, r.findFlag name = some flag ∧ name ∈ q.errorFlags := by
  have hround (before : Parser) {events' : List Event} (hsub : ∀ event ∈ events', event ∈ events) (a : Parser)
      (ha : a.Sound r ∧ before.Keeps a) (event : Event) (hmem : event ∈ events') :
      Ensures (performEvent w depth a event) fun b => b.Sound r ∧ before.Keeps b :=
    performEvent_sound ha (hnamed event (hsub event hmem))
  have hall : ∀ event ∈ events, event ∈ events := fun _ h => h
  refine ⟨(Ensures.foldlM (hround p hall) ⟨hp, Parser.Keeps.refl p⟩ q hrun).1, ?_⟩
  intro event hmem
  obtain ⟨c, d, ys, hc, hd, hPd, hys, hsub⟩ := exists_round hmem hrun ⟨hp, Parser.Keeps.refl p⟩ (hround p hall)
  have hlater := (Ensures.foldlM (hround d hsub) ⟨hPd.1, Parser.Keeps.refl d⟩ q hys).2
  rcases performEvent_fine hc.1 (hnamed event hmem) hd with hfine | ⟨name, flag, hfind, herror⟩
  · exact Or.inl (hfine.mono hlater.undefined)
  · exact Or.inr ⟨name, flag, hfind, hlater.errors name herror⟩

end

/-! ## `ValidateAllFlags` -/

/-- Nothing is lost from one parser to the next, and the flags are the same. -/
structure Checked (r : FlagRegistry) (p q : Parser) : Prop where
  sound : q.Sound r
  keeps : p.Keeps q
  registry : q.registry = p.registry
  undefined : q.undefinedNames = p.undefinedNames

/-- A flag that fails has an error. -/
theorem validateStep_checked (w : World) {r : FlagRegistry} {p : Parser} (hp : p.Sound r) (flag : CommandLineFlag) :
    Checked r p (validateStep w p flag) ∧
      (flag.validateCurrent w = true ∨ flag.name ∈ (validateStep w p flag).errorFlags) := by
  have hsame : Checked r p p := ⟨hp, Parser.Keeps.refl p, rfl, rfl⟩
  unfold validateStep
  split
  · rename_i hvalid
    exact ⟨hsame, Or.inl hvalid⟩
  · split
    · exact ⟨⟨hp.addError _ (List.cons_ne_nil _ _), (Parser.Keeps.refl p).addError _ _, rfl, rfl⟩,
        Or.inr (Parser.mem_addError.mpr (Or.inl rfl))⟩
    · rename_i hmessage
      refine ⟨hsame, Or.inr ?_⟩
      by_contra hmem
      exact hmessage (Std.TreeMap.getD_eq_fallback hmem)

theorem foldl_validateStep (w : World) {r : FlagRegistry} (flags : List CommandLineFlag) {p : Parser} (hp : p.Sound r) :
    Checked r p (flags.foldl (validateStep w) p) ∧
      ∀ flag ∈ flags, flag.validateCurrent w = true ∨ flag.name ∈ (flags.foldl (validateStep w) p).errorFlags := by
  induction flags generalizing p with
  | nil => exact ⟨⟨hp, Parser.Keeps.refl p, rfl, rfl⟩, by simp⟩
  | cons flag flags ih =>
    obtain ⟨hone, hflag⟩ := validateStep_checked w hp flag
    obtain ⟨hrest, hflags⟩ := ih hone.sound
    rw [List.foldl_cons]
    refine ⟨⟨hrest.sound, ?_, hrest.registry.trans hone.registry, hrest.undefined.trans hone.undefined⟩, ?_⟩
    · exact ⟨fun name h => hrest.keeps.errors name (hone.keeps.errors name h),
        fun name h => hrest.keeps.undefined name (hone.keeps.undefined name h)⟩
    · refine List.forall_mem_cons.mpr ⟨?_, hflags⟩
      exact hflag.imp_right (hrest.keeps.errors flag.name)

/-! ## `ReportErrors` -/

/-- An entry of `--undefok` clears the error of the name. -/
def ClearedBy (undefinedNames : Std.TreeSet Bytes) (entry name : Bytes) : Prop :=
  name ∈ undefinedNames ∧ (name = entry ∨ entry ∉ undefinedNames ∧ name = lit "no" ++ entry)

/-- The error of the name is not reported. -/
def Excused (allowCommandLineReparsing : Bool) (undefok : List Bytes) (undefinedNames : Std.TreeSet Bytes)
    (name : Bytes) : Prop :=
  name ∈ undefinedNames ∧ (allowCommandLineReparsing = true ∨ ∃ entry ∈ undefok, ClearedBy undefinedNames entry name)

/-- The errors of some names are cleared. -/
structure Cleared (C : Bytes → Prop) (p q : Parser) : Prop where
  undefined : q.undefinedNames = p.undefinedNames
  registry : q.registry = p.registry
  cleared : ∀ name, C name → q.errorFlags[name]? = some []
  other : ∀ name, ¬ C name → q.errorFlags[name]? = p.errorFlags[name]?

theorem Cleared.refl (p : Parser) : Cleared (fun _ => False) p p := ⟨rfl, rfl, fun _ h => h.elim, fun _ _ => rfl⟩

theorem Cleared.trans {C D : Bytes → Prop} {p q t : Parser} (hpq : Cleared C p q) (hqt : Cleared D q t) :
    Cleared (fun name => C name ∨ D name) p t where
  undefined := hqt.undefined.trans hpq.undefined
  registry := hqt.registry.trans hpq.registry
  cleared name h := by
    by_cases hD : D name
    · exact hqt.cleared name hD
    · rw [hqt.other name hD]
      exact hpq.cleared name (h.resolve_right hD)
  other name h := by
    rw [not_or] at h
    rw [hqt.other name h.2, hpq.other name h.1]

theorem Cleared.congr {C D : Bytes → Prop} {p q : Parser} (h : Cleared C p q) (hCD : ∀ name, D name ↔ C name) :
    Cleared D p q := by
  have hD : D = C := funext fun name => propext (hCD name)
  rw [hD]
  exact h

theorem cleared_addError (p : Parser) (key : Bytes) : Cleared (fun name => name = key) p (p.addError key []) where
  undefined := rfl
  registry := rfl
  cleared name h := by
    subst h
    exact Std.TreeMap.getElem?_insert_self
  other name h := by
    unfold Parser.addError
    rw [Std.TreeMap.getElem?_insert, if_neg]
    intro hkey
    exact h (Std.compare_eq_iff_eq.mp hkey).symm

theorem excuse_cleared (p : Parser) (entry : Bytes) :
    Cleared (ClearedBy p.undefinedNames entry) p (excuse p entry) := by
  unfold excuse ClearedBy
  split
  · rename_i hentry
    apply (cleared_addError p entry).congr
    intro name
    constructor
    · rintro ⟨-, h | h⟩
      · exact h
      · exact absurd hentry h.1
    · rintro rfl
      exact ⟨hentry, Or.inl rfl⟩
  · rename_i hentry
    split
    · rename_i hno
      apply (cleared_addError p (lit "no" ++ entry)).congr
      intro name
      constructor
      · rintro ⟨hmem, rfl | h⟩
        · exact absurd hmem hentry
        · exact h.2
      · rintro rfl
        exact ⟨hno, Or.inr ⟨hentry, rfl⟩⟩
    · rename_i hno
      apply (Cleared.refl p).congr
      intro name
      constructor
      · rintro ⟨hmem, rfl | ⟨-, rfl⟩⟩
        · exact hentry hmem
        · exact hno hmem
      · exact False.elim

theorem foldl_excuse_cleared (undefok : List Bytes) (p : Parser) :
    Cleared (fun name => ∃ entry ∈ undefok, ClearedBy p.undefinedNames entry name) p (undefok.foldl excuse p) := by
  induction undefok generalizing p with
  | nil =>
    apply (Cleared.refl p).congr
    simp
  | cons entry undefok ih =>
    have hone := excuse_cleared p entry
    apply (hone.trans (ih (excuse p entry))).congr
    intro name
    rw [hone.undefined, List.exists_mem_cons_iff]

theorem foldl_addError_cleared (names : List Bytes) (p : Parser) :
    Cleared (fun name => name ∈ names) p (names.foldl (fun p name => p.addError name []) p) := by
  induction names generalizing p with
  | nil =>
    apply (Cleared.refl p).congr
    simp
  | cons key names ih =>
    apply ((cleared_addError p key).trans (ih (p.addError key []))).congr
    intro name
    rw [List.mem_cons]

theorem excuseUndefined_cleared (p : Parser) : Cleared (fun name => name ∈ p.undefinedNames) p (excuseUndefined p) := by
  apply (foldl_addError_cleared p.undefinedNames.toList p).congr
  intro name
  rw [Std.TreeSet.mem_toList]

/-- No error is left exactly if every error was cleared. -/
theorem Cleared.any_eq_false {C : Bytes → Prop} {r : FlagRegistry} {p q : Parser} (h : Cleared C p q) (hp : p.Sound r) :
    (q.errorFlags.toList.any fun entry => entry.2 ≠ []) = false ↔ ∀ name ∈ p.errorFlags, C name := by
  have hentries : (q.errorFlags.toList.any fun entry => entry.2 ≠ []) = false ↔
      ∀ name message : Bytes, q.errorFlags[name]? = some message → message = [] := by
    rw [List.any_eq_false]
    constructor
    · intro hall name message hget
      have hmem := hall (name, message) (Std.TreeMap.mem_toList_iff_getElem?_eq_some.mpr hget)
      simpa using hmem
    · rintro hall ⟨name, message⟩ hmem
      have hnil := hall name message (Std.TreeMap.mem_toList_iff_getElem?_eq_some.mp hmem)
      simpa using hnil
  rw [hentries]
  constructor
  · intro hall name hmem
    by_contra hC
    obtain ⟨message, hget⟩ : ∃ message, p.errorFlags[name]? = some message :=
      ⟨p.errorFlags[name], Std.TreeMap.getElem?_eq_some_getElem hmem⟩
    exact hp.message name message hget (hall name message ((h.other name hC).trans hget))
  · intro hall name message hget
    by_cases hC : C name
    · rw [h.cleared name hC] at hget
      exact (Option.some.inj hget).symm
    · rw [h.other name hC] at hget
      have hmem : name ∈ p.errorFlags := by
        rw [Std.TreeMap.mem_iff_isSome_getElem?, hget]
        rfl
      exact absurd (hall name hmem) hC

/-- **What is not reported.** `ReportErrors` finds no error exactly if every error is that of an undefined name that
    is excused. -/
theorem reportErrors_spec {allow : Bool} {r : FlagRegistry} {p q : Parser} {foundError : Bool} {text : Bytes}
    (hp : p.Sound r) (hrun : reportErrors allow p = .returned (q, foundError, text)) :
    q.registry = p.registry ∧ q.undefinedNames = p.undefinedNames ∧
      ∃ undefok, undefokNames p.registry = .returned undefok ∧
        (foundError = false ↔ ∀ name ∈ p.errorFlags, Excused allow undefok p.undefinedNames name) := by
  obtain ⟨undefok, hundefok, hrest⟩ := bind_eq_returned.mp hrun
  have hexcuse := foldl_excuse_cleared undefok p
  cases allow with
  | false =>
    cases hrest
    refine ⟨hexcuse.registry, hexcuse.undefined, undefok, hundefok, ?_⟩
    refine (hexcuse.any_eq_false hp).trans (forall₂_congr fun name _ => ?_)
    constructor
    · rintro ⟨entry, hentry, hcleared⟩
      exact ⟨hcleared.1, Or.inr ⟨entry, hentry, hcleared⟩⟩
    · rintro ⟨-, h | h⟩
      · cases h
      · exact h
  | true =>
    cases hrest
    have hall := hexcuse.trans (excuseUndefined_cleared (undefok.foldl excuse p))
    refine ⟨hall.registry, hall.undefined, undefok, hundefok, ?_⟩
    refine (hall.any_eq_false hp).trans (forall₂_congr fun name _ => ?_)
    rw [hexcuse.undefined]
    constructor
    · rintro (⟨entry, hentry, hcleared⟩ | hmem)
      · exact ⟨hcleared.1, Or.inl rfl⟩
      · exact ⟨hmem, Or.inl rfl⟩
    · rintro ⟨hmem, -⟩
      exact Or.inr hmem

/-! ## The whole call -/

/-- The command line was right. -/
structure CommandLineOk (w : World) (allowCommandLineReparsing : Bool) (r : FlagRegistry) (args : List Bytes)
    (p : Parser) : Prop where
  /-- Every flag has a value that passes its validator. -/
  valid : ∀ flag ∈ p.registry.flags, flag.validateCurrent w = true
  /-- Every option is that of a flag and has a value that the flag accepts, or its name is undefined. -/
  fine : ∀ event ∈ (scanArgs r args).events, event.Fine w r p.undefinedNames
  /-- The undefined names are excused, and none of them is the name of a flag. -/
  excused : ∃ undefok, undefokNames p.registry = .returned undefok ∧
    ∀ name ∈ p.undefinedNames, r.findFlag name = none ∧ Excused allowCommandLineReparsing undefok p.undefinedNames name

theorem validateAllFlags_checked (w : World) {r : FlagRegistry} {p : Parser} (hp : p.Sound r) :
    Checked r p (validateAllFlags w p) ∧
      ∀ flag ∈ p.registry.flags, flag.validateCurrent w = true ∨ flag.name ∈ (validateAllFlags w p).errorFlags :=
  foldl_validateStep w p.registry.flags hp

theorem processFirst_sound (w : World) (depth : Nat) (r : FlagRegistry) :
    Ensures (processFirst w depth (Parser.start r)) fun p => p.Sound r := by
  have hInv := parserInvariant_sound w .setFlagsValue r (Parser.start r)
  have hsingle := processSingleOption_ensures hInv depth
  refine Ensures.bind (processFlagfile_ensures hsingle ⟨Parser.sound_start r, Parser.Keeps.refl _⟩ _) ?_
  intro s₁ h₁
  refine Ensures.bind (processFromenv_ensures hInv hsingle h₁ _ true) ?_
  intro s₂ h₂
  refine Ensures.bind (processFromenv_ensures hInv hsingle h₂ _ false) ?_
  intro s₃ h₃
  exact ensures_returned.mpr h₃.1

section

variable {w : World} {prog : Program} {allow : Bool} {depth : Nat} {r : FlagRegistry} {program : Bytes}
  {args : List Bytes} {removeFlags doReport : Bool} {parsed : Parsed}

/-- A call that returns, stage by stage. -/
theorem parseCommandLineFlagsInternal_returned
    (hrun : parseCommandLineFlagsInternal w prog allow depth r (program :: args) removeFlags doReport =
      .returned parsed) :
    ∃ p q text, processFirst w depth (Parser.start r) = .returned p ∧ p.Sound r ∧
      (scanArgs r args).events.foldlM (performEvent w depth) p = .returned q ∧
      reportErrors allow (validateAllFlags w q) = .returned (parsed.parser, false, text) := by
  obtain ⟨p, hfirst, hrun⟩ := bind_eq_returned.mp hrun
  obtain ⟨parsed₀, hargv, hrun⟩ := bind_eq_returned.mp hrun
  have hp := processFirst_sound w depth r p hfirst
  rw [parseNewCommandLineFlags_scan, scanArgs_same hp.same] at hargv
  obtain ⟨q, hevents, hparsed⟩ := bind_eq_returned.mp hargv
  have hparser : parsed₀.parser = q := by
    cases hparsed
    cases removeFlags <;> rfl
  rw [hparser] at hrun
  obtain ⟨_, -, hrun⟩ := bind_eq_returned.mp hrun
  obtain ⟨⟨p', foundError, text⟩, hreport, hrun⟩ := bind_eq_returned.mp hrun
  cases foundError with
  | true => cases hrun
  | false =>
    cases hrun
    exact ⟨p, q, text, hfirst, hp, hevents, hreport⟩

/-- What holds then of the events, the flags and the undefined names. -/
theorem commandLineOk_of_report {q p : Parser} {text : Bytes} (hsound : q.Sound r)
    (hfine : ∀ event ∈ (scanArgs r args).events, event.Fine w r q.undefinedNames ∨
      ∃ name flag, r.findFlag name = some flag ∧ name ∈ q.errorFlags)
    (hreport : reportErrors allow (validateAllFlags w q) = .returned (p, false, text)) :
    CommandLineOk w allow r args p := by
  obtain ⟨hchecked, hvalid⟩ := validateAllFlags_checked w hsound
  obtain ⟨hregistry, hundefined, undefok, hundefok, hfound⟩ := reportErrors_spec hchecked.sound hreport
  have hexcused := hfound.mp rfl
  rw [hchecked.registry] at hregistry hundefok
  rw [hchecked.undefined] at hundefined hexcused
  -- an error under the name of a flag would have been reported
  have hclean : ∀ name flag, r.findFlag name = some flag → name ∉ (validateAllFlags w q).errorFlags := by
    intro name flag hfind hmem
    have hnone := (hsound.undefined name (hexcused name hmem).1).1
    rw [hfind] at hnone
    cases hnone
  refine ⟨?_, ?_, undefok, ?_, ?_⟩
  · intro flag hmem
    rw [hregistry] at hmem
    refine (hvalid flag hmem).resolve_right fun herror => ?_
    have hfind := FlagRegistry.findFlag_eq_some_iff.mpr ⟨hmem, rfl⟩
    rcases findFlag_same hsound.same flag.name with ⟨-, hnone⟩ | ⟨g, _, hg, -, -⟩
    · rw [hfind] at hnone
      cases hnone
    · exact hclean flag.name g hg herror
  · intro event hmem
    rw [hundefined]
    refine (hfine event hmem).resolve_right ?_
    rintro ⟨name, flag, hfind, herror⟩
    exact hclean name flag hfind (hchecked.keeps.errors name herror)
  · rw [hregistry]
    exact hundefok
  · intro name hmem
    rw [hundefined] at hmem ⊢
    obtain ⟨hnone, herror⟩ := hsound.undefined name hmem
    exact ⟨hnone, hexcused name (hchecked.keeps.errors name herror)⟩

end

/-! ## Without the recursive flags -/

/-- The value that the last option for the flag gives. -/
def lastValue (name : Bytes) : List Event → Option Bytes
  | [] => none
  | .set key value :: events => (lastValue name events).or (if key = name then some value else none)
  | _ :: events => lastValue name events

/-- What a flag has become: it has its old value, or one that it accepts. -/
def Became (w : World) (p q : Parser) (flag : CommandLineFlag) : Option Bytes → Prop
  | none => ∀ v, Holds p.registry flag v → Holds q.registry flag v
  | some value => ∃ v, Accepts w flag value v ∧ Holds q.registry flag v

section

variable {w : World} {r : FlagRegistry}

/-- Setting a plain flag ends. -/
theorem single_plain {name : Bytes} (hplain : isRecursive name = false) (depth : Nat) (p : Parser)
    (value : Option Bytes) (mode : FlagSettingMode) :
    ∃ q, processSingleOption w (depth + 1) p name value mode = .returned q := by
  unfold processSingleOption singleStep
  split
  · exact ⟨_, rfl⟩
  · cases value with
    | none => exact ⟨_, processRecursive_plain hplain _ _ _⟩
    | some value =>
      dsimp only
      split
      · rw [processRecursive_plain hplain]
        exact ⟨_, rfl⟩
      · exact ⟨_, rfl⟩

/-- It gives the flag the value, and leaves the others alone. -/
theorem single_became {name value : Bytes} (hplain : isRecursive name = false) {depth : Nat} {p : Parser}
    {q : Parser × Bytes} (hp : SameFlags r p.registry) {flag : CommandLineFlag} (hfind : r.findFlag name = some flag)
    {v : FlagValue flag.type} (haccepts : Accepts w flag value v)
    (hrun : processSingleOption w (depth + 1) p name (some value) .setFlagsValue = .returned q) :
    Holds q.1.registry flag v ∧ ∀ key, key ≠ name → q.1.registry.findFlag key = p.registry.findFlag key := by
  obtain ⟨hmem, rfl⟩ := FlagRegistry.mem_of_findFlag hfind
  obtain ⟨s, hstate, hs⟩ := hp.exists_state hfind
  obtain ⟨hok, hcur⟩ := setFlag_accepts ((accepts_withState hs).mpr haccepts)
  unfold processSingleOption singleStep at hrun
  simp only [hstate, hok, if_true, processRecursive_plain hplain, returned_bind] at hrun
  cases hrun
  refine ⟨⟨_, FlagRegistry.findFlag_put hstate _, hcur⟩, ?_⟩
  intro key hkey
  exact FlagRegistry.findFlag_put_ne p.registry (Ne.symm hkey) _

/-- **The last option decides.** -/
theorem events_became {depth : Nat} {events : List Event} {p q : Parser} (hp : SameFlags r p.registry)
    (hplain : ∀ name value, Event.set name value ∈ events → isRecursive name = false)
    (haccepts : ∀ name value, Event.set name value ∈ events →
      ∃ flag v, r.findFlag name = some flag ∧ Accepts w flag value v)
    (hrun : events.foldlM (performEvent w (depth + 1)) p = .returned q) {flag : CommandLineFlag}
    (hmem : flag ∈ r.flags) : Became w p q flag (lastValue flag.name events) := by
  induction events generalizing p with
  | nil =>
    cases hrun
    exact fun v hv => hv
  | cons event events ih =>
    rw [List.foldlM_cons] at hrun
    obtain ⟨p', hp', hrest⟩ := bind_eq_returned.mp hrun
    have hsame := performEvent_ensures hp event p' hp'
    have hlater := ih hsame (fun name value h => hplain name value (List.mem_cons_of_mem _ h))
      (fun name value h => haccepts name value (List.mem_cons_of_mem _ h)) hrest
    cases event with
    | unknown key message =>
      cases hp'
      exact hlater
    | missing key message =>
      cases hp'
      exact hlater
    | set name value =>
      obtain ⟨⟨p'', text⟩, hone, hp'⟩ := bind_eq_returned.mp hp'
      cases hp'
      obtain ⟨g, v, hfind, hv⟩ := haccepts name value List.mem_cons_self
      obtain ⟨hholds, hother⟩ := single_became (hplain name value List.mem_cons_self) hp hfind hv hone
      unfold lastValue
      cases hlast : lastValue flag.name events with
      | some last =>
        rw [hlast] at hlater
        exact hlater
      | none =>
        rw [hlast] at hlater
        by_cases hname : name = flag.name
        · obtain ⟨hg, hgname⟩ := FlagRegistry.mem_of_findFlag hfind
          have hsameFlag : g = flag := FlagRegistry.eq_of_name_eq hg hmem (hgname.trans hname)
          subst hsameFlag
          rw [if_pos hname]
          exact ⟨v, hv, hlater v hholds⟩
        · rw [if_neg hname]
          intro v' hv'
          obtain ⟨s, hs, hcur⟩ := hv'
          exact hlater v' ⟨s, (hother flag.name (Ne.symm hname)).trans hs, hcur⟩

/-- Plain options are all dealt with. -/
theorem events_stop {depth : Nat} {events : List Event} (p : Parser)
    (hplain : ∀ name value, Event.set name value ∈ events → isRecursive name = false) :
    Stops (events.foldlM (performEvent w (depth + 1)) p) := by
  apply Stops.foldlM (P := fun _ => True) _ trivial
  intro a _ event hmem
  refine ⟨?_, fun _ _ => trivial⟩
  cases event with
  | set name value =>
    obtain ⟨q, hq⟩ := single_plain (w := w) (hplain name value hmem) depth a (some value) .setFlagsValue
    unfold performEvent
    dsimp only
    rw [hq]
    exact stops_returned _
  | unknown key message => exact stops_returned _
  | missing key message => exact stops_returned _

end

theorem stops_reportErrors (allow : Bool) (p : Parser) : Stops (reportErrors allow p) := by
  unfold reportErrors undefokNames
  refine Stops.bind ?_ fun _ _ => stops_returned _
  dsimp only
  split
  · exact stops_returned _
  · exact stops_parseFlagList _

theorem stops_handleCommandLineHelpFlags (w : World) (prog : Program) (r : FlagRegistry) :
    Stops (handleCommandLineHelpFlags w prog r) := by
  unfold handleCommandLineHelpFlags
  dsimp only
  repeat' split
  all_goals first | exact stops_exited _ | exact stops_returned _

end Thirdparty.Gflags
