import Thirdparty.Gflags.Help
import Thirdparty.Gflags.SetModes

/-!
# `Gflags.FlagSaver` — saving the flags, and bringing them back

`FlagSaverImpl` of `gflags.cc` copies the states of all flags and copies them back later; between the two a program can
do whatever the library allows. `ReadFlagsFromString` uses it to take back a text with errors.

Both copies go through `if (!Equal) CopyFrom`. A value that is brought back is therefore the saved one, except that
zeros of type `double` can have the other sign (`SameValue`).

## Contents
- `saveFromRegistry`, `restoreToRegistry`.
- `restore_spec`: what is behind a restore, flag by flag.
- `Action`, `perform`: what a program can do to the registry; `flagSaver_restores`.
- `readFlagsFromString`, `readFlagsFromString_failed`.
-/

namespace Thirdparty.Gflags

/-! ## `FlagSaverImpl` -/

namespace CommandLineFlag

/-- The state of a new `CommandLineFlag` with values from `New`. -/
def blankState (type : ValueType) : FlagState type where
  modified := false
  defvalue := FlagValue.fresh type
  current := FlagValue.fresh type
  validateFn := none

/-- The state behind `CopyFrom`; the types of the two flags are asserted to be the same. -/
def stateCopiedFrom (flag src : CommandLineFlag) : FlagState flag.type :=
  if h : src.type = flag.type then flag.state.copyFrom (h ▸ src.state) else flag.state

/-- The copy of one flag. -/
def backup (flag : CommandLineFlag) : CommandLineFlag :=
  flag.withState ((blankState flag.type).copyFrom flag.state)

end CommandLineFlag

/-- `SaveFromRegistry`. -/
def saveFromRegistry (r : FlagRegistry) : List CommandLineFlag := r.flags.map CommandLineFlag.backup

/-- One flag of `RestoreToRegistry`. -/
def restoreFlag (r : FlagRegistry) (saved : CommandLineFlag) : FlagRegistry :=
  match r.findFlag saved.name with
  | none => r
  | some flag => r.put flag (flag.stateCopiedFrom saved)

/-- `RestoreToRegistry`. -/
def restoreToRegistry (saved : List CommandLineFlag) (r : FlagRegistry) : FlagRegistry := saved.foldl restoreFlag r

/-! ## What is brought back -/

/-- The same value, up to the sign of zero. -/
def SameValue {type : ValueType} (saved v : FlagValue type) : Prop := v = saved ∨ FlagValue.equal v saved = true

/-- Only zeros of type `double` can differ. -/
theorem SameValue.eq {type : ValueType} {saved v : FlagValue type} (h : SameValue saved v) (htype : type ≠ .double) :
    v = saved := by
  rcases h with h | h
  · exact h
  · cases type with
    | double => exact absurd rfl htype
    | bool => exact eq_of_beq h
    | int32 => exact eq_of_beq h
    | int64 => exact eq_of_beq h
    | uint64 => exact eq_of_beq h
    | string => exact eq_of_beq h

/-- `==` of `double`s is transitive. -/
theorem Double.eq_trans {a b c : Double} (hab : a.eq b = true) (hbc : b.eq c = true) : a.eq c = true := by
  have hzero : ∀ {d e : Double}, d.bits = e.bits → d.isZero = e.isZero := by
    intro d e h
    unfold Double.isZero
    rw [h]
  unfold Double.eq at *
  simp only [Bool.and_eq_true, Bool.or_eq_true, beq_iff_eq, Bool.not_eq_true'] at *
  obtain ⟨⟨ha, _⟩, hab⟩ := hab
  obtain ⟨⟨_, hc⟩, hbc⟩ := hbc
  refine ⟨⟨ha, hc⟩, ?_⟩
  rcases hab with hab | ⟨haz, hbz⟩
  · rcases hbc with hbc | ⟨hbz, hcz⟩
    · exact Or.inl (hab.trans hbc)
    · exact Or.inr ⟨(hzero hab).trans hbz, hcz⟩
  · rcases hbc with hbc | ⟨_, hcz⟩
    · exact Or.inr ⟨haz, (hzero hbc).symm.trans hbz⟩
    · exact Or.inr ⟨haz, hcz⟩

theorem equal_trans {type : ValueType} {a b c : FlagValue type} (hab : FlagValue.equal a b = true)
    (hbc : FlagValue.equal b c = true) : FlagValue.equal a c = true := by
  cases type with
  | double => exact Double.eq_trans hab hbc
  | bool => exact beq_iff_eq.mpr ((eq_of_beq hab).trans (eq_of_beq hbc))
  | int32 => exact beq_iff_eq.mpr ((eq_of_beq hab).trans (eq_of_beq hbc))
  | int64 => exact beq_iff_eq.mpr ((eq_of_beq hab).trans (eq_of_beq hbc))
  | uint64 => exact beq_iff_eq.mpr ((eq_of_beq hab).trans (eq_of_beq hbc))
  | string => exact beq_iff_eq.mpr ((eq_of_beq hab).trans (eq_of_beq hbc))

/-- A copied value is the same. -/
theorem sameValue_copyValue {type : ValueType} (v x : FlagValue type) : SameValue x (FlagState.copyValue v x) := by
  unfold FlagState.copyValue
  split
  · rename_i h
    exact Or.inr h
  · exact Or.inl rfl

/-- Two copies in a row. -/
theorem SameValue.trans {type : ValueType} {a b c : FlagValue type} (hab : SameValue a b) (hbc : SameValue b c) :
    SameValue a c := by
  rcases hbc with rfl | hbc
  · exact hab
  · rcases hab with rfl | hab
    · exact Or.inr hbc
    · exact Or.inr (equal_trans hbc hab)

/-- The state is as it was saved. -/
structure Restored {type : ValueType} (saved s : FlagState type) : Prop where
  modified : s.modified = saved.modified
  current : SameValue saved.current s.current
  defvalue : SameValue saved.defvalue s.defvalue
  validateFn : s.validateFn = saved.validateFn

/-- A copy of a copy. -/
theorem restored_copyFrom {type : ValueType} (blank saved s : FlagState type) :
    Restored saved (s.copyFrom (blank.copyFrom saved)) where
  modified := rfl
  current := SameValue.trans (sameValue_copyValue _ _) (sameValue_copyValue _ _)
  defvalue := SameValue.trans (sameValue_copyValue _ _) (sameValue_copyValue _ _)
  validateFn := rfl

/-- One flag is brought back. -/
theorem restoreFlag_backup {r : FlagRegistry} {flag : CommandLineFlag} {s : FlagState flag.type}
    (hfind : r.findFlag flag.name = some (flag.withState s)) :
    ∃ s', (restoreFlag r flag.backup).findFlag flag.name = some (flag.withState s') ∧ Restored flag.state s' := by
  have hname : flag.backup.name = flag.name := rfl
  unfold restoreFlag
  rw [hname, hfind]
  dsimp only
  rw [FlagRegistry.findFlag_put hfind]
  refine ⟨_, rfl, ?_⟩
  unfold CommandLineFlag.stateCopiedFrom
  have htype : flag.backup.type = (flag.withState s).type := rfl
  rw [dif_pos htype]
  exact restored_copyFrom _ _ _

theorem restoreFlag_other (r : FlagRegistry) {saved : CommandLineFlag} {name : Bytes} (hname : saved.name ≠ name) :
    (restoreFlag r saved).findFlag name = r.findFlag name := by
  unfold restoreFlag
  split
  · rfl
  · rename_i flag hfind
    obtain ⟨-, hflag⟩ := FlagRegistry.mem_of_findFlag hfind
    exact FlagRegistry.findFlag_put_ne r (fun h => hname (hflag.symm.trans h)) _

theorem restore_other (flags : List CommandLineFlag) (r : FlagRegistry) {name : Bytes}
    (hname : name ∉ flags.map fun flag => flag.name) :
    (restoreToRegistry (flags.map CommandLineFlag.backup) r).findFlag name = r.findFlag name := by
  unfold restoreToRegistry
  induction flags generalizing r with
  | nil => rfl
  | cons flag flags ih =>
    rw [List.map_cons, List.mem_cons, not_or] at hname
    rw [List.map_cons, List.foldl_cons, ih _ hname.2]
    exact restoreFlag_other r (Ne.symm hname.1)

theorem restore_mem {flags : List CommandLineFlag} (hnodup : (flags.map fun flag => flag.name).Nodup)
    {flag : CommandLineFlag} (hmem : flag ∈ flags) {r : FlagRegistry} {s : FlagState flag.type}
    (hfind : r.findFlag flag.name = some (flag.withState s)) :
    ∃ s', (restoreToRegistry (flags.map CommandLineFlag.backup) r).findFlag flag.name = some (flag.withState s') ∧
      Restored flag.state s' := by
  induction flags generalizing r s with
  | nil => exact absurd hmem List.not_mem_nil
  | cons g flags ih =>
    rw [List.map_cons, List.nodup_cons] at hnodup
    show ∃ s', (restoreToRegistry (flags.map CommandLineFlag.backup) (restoreFlag r g.backup)).findFlag flag.name =
      some (flag.withState s') ∧ Restored flag.state s'
    rcases List.mem_cons.mp hmem with rfl | hmem
    · rw [restore_other flags _ hnodup.1]
      exact restoreFlag_backup hfind
    · have hne : g.backup.name ≠ flag.name := by
        intro hname
        exact hnodup.1 (List.mem_map.mpr ⟨flag, hmem, hname.symm⟩)
      rw [← restoreFlag_other r hne] at hfind
      exact ih hnodup.2 hmem hfind

/-! ## What a program can do in between -/

/-- The later registry still has the flags of the earlier one, in some state. -/
def Extends (r r' : FlagRegistry) : Prop :=
  ∀ name flag, r.findFlag name = some flag → ∃ s, r'.findFlag name = some (flag.withState s)

theorem Extends.refl (r : FlagRegistry) : Extends r r := fun _ flag hfind => ⟨flag.state, hfind⟩

theorem Extends.trans {r r' r'' : FlagRegistry} (h : Extends r r') (h' : Extends r' r'') : Extends r r'' := by
  intro name flag hfind
  obtain ⟨s, hs⟩ := h name flag hfind
  obtain ⟨s', hs'⟩ := h' name _ hs
  exact ⟨s', hs'⟩

theorem extends_of_stepwise {S : (flag : CommandLineFlag) → FlagState flag.type → Prop} {r r' : FlagRegistry}
    (h : r.Stepwise (Evolves S) r') : Extends r r' := by
  intro name flag hfind
  obtain ⟨s, hs, -⟩ := h.exists_state hfind
  exact ⟨s, hs⟩

theorem extends_put {r : FlagRegistry} {name : Bytes} {flag : CommandLineFlag} (hfind : r.findFlag name = some flag)
    (state : FlagState flag.type) : Extends r (r.put flag state) :=
  extends_of_stepwise (S := fun _ _ => True)
    (FlagRegistry.stepwise_put (fun flag => ⟨flag.state, rfl, trivial⟩) hfind ⟨state, rfl, trivial⟩)

/-- **What was saved is brought back**, for every flag of the earlier registry and for no other. -/
theorem restore_spec {r r' : FlagRegistry} (h : Extends r r') :
    (∀ name flag, r.findFlag name = some flag →
      ∃ s, (restoreToRegistry (saveFromRegistry r) r').findFlag name = some (flag.withState s) ∧
        Restored flag.state s) ∧
    ∀ name, r.findFlag name = none →
      (restoreToRegistry (saveFromRegistry r) r').findFlag name = r'.findFlag name := by
  constructor
  · intro name flag hfind
    obtain ⟨s, hs⟩ := h name flag hfind
    obtain ⟨hmem, rfl⟩ := FlagRegistry.mem_of_findFlag hfind
    exact restore_mem r.names_nodup hmem hs
  · intro name hname
    exact restore_other r.flags r' (FlagRegistry.findFlag_eq_none_iff.mp hname)

/-- `ReadFlagsFromString`: the registry behind it, and whether it succeeded. -/
def readFlagsFromString (w : World) (prog : Program) (allowCommandLineReparsing : Bool) (depth : Nat)
    (r : FlagRegistry) (flagfilecontents : Bytes) (errorsAreFatal : Bool) : Outcome Exit (FlagRegistry × Bool) := do
  let saved := saveFromRegistry r
  let (p, _) ← processOptionsFromString w (processSingleOption w depth) (Parser.start r) flagfilecontents
    .setFlagsValue
  handleCommandLineHelpFlags w prog p.registry
  let (p, found, text) ← reportErrors allowCommandLineReparsing p
  if found then
    if errorsAreFatal then .exited ⟨1, text⟩ else .returned (restoreToRegistry saved p.registry, false)
  else .returned (p.registry, true)

/-- `AddFlagValidator`. -/
def addFlagValidator (r : FlagRegistry) (name : Bytes) (fn : Option Nat) : FlagRegistry × Bool :=
  match r.findFlag name with
  | none => (r, false)
  | some flag =>
    if fn = flag.state.validateFn then (r, true)
    else if fn.isSome && flag.state.validateFn.isSome then (r, false)
    else (r.put flag { flag.state with validateFn := fn }, true)

/-- What a program can do to the registry. -/
inductive Action where
  /-- `SetCommandLineOptionWithMode`. -/
  | setOption (name : Bytes) (value : Option Bytes) (mode : FlagSettingMode)
  /-- `FLAGS_name = value`. -/
  | write (name : Bytes) (type : ValueType) (value : FlagValue type)
  /-- `RegisterFlagValidator`. -/
  | addValidator (name : Bytes) (fn : Option Nat)
  /-- `GetAllFlags`, which updates the modified bits. -/
  | getAllFlags
  /-- A `FlagRegisterer` of a library that is loaded. -/
  | define (flag : CommandLineFlag)
  /-- `ReadFlagsFromString`. -/
  | readString (contents : Bytes) (errorsAreFatal : Bool)

/-- The registry behind an action. -/
def perform (w : World) (prog : Program) (allowCommandLineReparsing : Bool) (depth : Nat) (r : FlagRegistry) :
    Action → Outcome Exit FlagRegistry
  | .setOption name value mode => do
    let (r, _) ← setCommandLineOptionWithMode w depth r name value mode
    return r
  | .write name type value =>
    match r.findFlag name with
    | none => .returned r
    | some flag =>
      if h : type = flag.type then .returned (r.put flag { flag.state with current := h ▸ value }) else .returned r
  | .addValidator name fn => .returned (addFlagValidator r name fn).1
  | .getAllFlags => .returned (updateModifiedBits r)
  | .define flag => r.registerFlag flag
  | .readString contents errorsAreFatal => do
    let (r, _) ← readFlagsFromString w prog allowCommandLineReparsing depth r contents errorsAreFatal
    return r

theorem extends_addFlagValidator (r : FlagRegistry) (name : Bytes) (fn : Option Nat) :
    Extends r (addFlagValidator r name fn).1 := by
  unfold addFlagValidator
  split
  · exact Extends.refl r
  · rename_i flag hfind
    split
    · exact Extends.refl r
    · split
      · exact Extends.refl r
      · exact extends_put hfind _

theorem extends_updateModifiedBits (r : FlagRegistry) : Extends r (updateModifiedBits r) := by
  have hstep : r.Stepwise (Evolves fun _ _ => True) (updateModifiedBits r) := by
    unfold FlagRegistry.Stepwise updateModifiedBits
    rw [List.forall₂_map_right_iff, List.forall₂_same]
    exact fun flag _ => ⟨_, rfl, trivial⟩
  exact extends_of_stepwise hstep

theorem extends_registerFlag {r r' : FlagRegistry} {flag : CommandLineFlag} (h : r.registerFlag flag = .returned r') :
    Extends r r' := by
  by_cases hold : flag.name ∈ r.flags.map fun g => g.name
  · obtain ⟨e, he⟩ := FlagRegistry.registerFlag_old hold
    rw [he] at h
    cases h
  · obtain ⟨r'', hr'', hperm⟩ := FlagRegistry.registerFlag_new hold
    rw [hr''] at h
    cases h
    intro name g hfind
    obtain ⟨hmem, hname⟩ := FlagRegistry.mem_of_findFlag hfind
    exact ⟨g.state, FlagRegistry.findFlag_eq_some_iff.mpr
      ⟨hperm.mem_iff.mpr (List.mem_cons_of_mem flag hmem), hname⟩⟩

/-- An `Extends` from a relation that `setFlag` respects. -/
theorem extends_processOptions {w : World} {depth : Nat} {p q : Parser} {contentdata text : Bytes}
    {mode : FlagSettingMode}
    (h : processOptionsFromString w (processSingleOption w depth) p contentdata mode = .returned (q, text)) :
    Extends p.registry q.registry :=
  extends_of_stepwise ((setRelation_keepsValidator w mode).processOptionsFromString h)

theorem excuse_registry (p : Parser) (name : Bytes) : (excuse p name).registry = p.registry := by
  unfold excuse
  split
  · rfl
  · split
    · rfl
    · rfl

/-- A loop over names that leaves the flags alone. -/
theorem foldl_registry {f : Parser → Bytes → Parser} (hf : ∀ p name, (f p name).registry = p.registry)
    (names : List Bytes) (p : Parser) : (names.foldl f p).registry = p.registry := by
  induction names generalizing p with
  | nil => rfl
  | cons name names ih =>
    rw [List.foldl_cons, ih]
    exact hf p name

theorem excuseUndefined_registry (p : Parser) : (excuseUndefined p).registry = p.registry :=
  foldl_registry (f := fun p name => p.addError name []) (fun _ _ => rfl) _ p

/-- Reporting errors leaves the flags alone. -/
theorem reportErrors_registry {allow : Bool} {p q : Parser} {found : Bool} {text : Bytes}
    (h : reportErrors allow p = .returned (q, found, text)) : q.registry = p.registry := by
  unfold reportErrors at h
  obtain ⟨flaglist, -, hret⟩ := Outcome.bind_eq_returned.mp h
  have hexcuse := foldl_registry excuse_registry flaglist p
  cases hret
  split
  · rw [excuseUndefined_registry]
    exact hexcuse
  · exact hexcuse

/-- What `ReadFlagsFromString` returns: the registry behind the text, or what was saved brought back into it. -/
theorem readFlagsFromString_cases {w : World} {prog : Program} {allow : Bool} {depth : Nat} {r r' : FlagRegistry}
    {contents : Bytes} {errorsAreFatal ok : Bool}
    (h : readFlagsFromString w prog allow depth r contents errorsAreFatal = .returned (r', ok)) :
    ∃ q, Extends r q ∧ (ok = true ∧ r' = q ∨ ok = false ∧ r' = restoreToRegistry (saveFromRegistry r) q) := by
  unfold readFlagsFromString at h
  dsimp only at h
  obtain ⟨⟨p, text⟩, hp, h⟩ := Outcome.bind_eq_returned.mp h
  obtain ⟨-, -, h⟩ := Outcome.bind_eq_returned.mp h
  obtain ⟨⟨q, found, report⟩, hq, h⟩ := Outcome.bind_eq_returned.mp h
  have hextends : Extends r q.registry := by
    rw [reportErrors_registry hq]
    exact extends_processOptions hp
  refine ⟨q.registry, hextends, ?_⟩
  dsimp only at h
  split at h
  · split at h
    · cases h
    · cases h
      exact Or.inr ⟨rfl, rfl⟩
  · cases h
    exact Or.inl ⟨rfl, rfl⟩

theorem extends_restore {r q : FlagRegistry} (h : Extends r q) :
    Extends r (restoreToRegistry (saveFromRegistry r) q) := by
  intro name flag hfind
  obtain ⟨s, hs, -⟩ := (restore_spec h).1 name flag hfind
  exact ⟨s, hs⟩

/-- Every action keeps the flags there are. -/
theorem extends_perform {w : World} {prog : Program} {allow : Bool} {depth : Nat} {r r' : FlagRegistry}
    {action : Action} (h : perform w prog allow depth r action = .returned r') : Extends r r' := by
  cases action with
  | setOption name value mode =>
    unfold perform at h
    obtain ⟨⟨q, text⟩, hq, h⟩ := Outcome.bind_eq_returned.mp h
    cases h
    exact extends_of_stepwise ((setRelation_keepsValidator w mode).setCommandLineOptionWithMode hq)
  | write name type value =>
    simp only [perform] at h
    split at h
    · cases h
      exact Extends.refl r
    · rename_i flag hfind
      split at h
      · cases h
        exact extends_put hfind _
      · cases h
        exact Extends.refl r
  | addValidator name fn =>
    cases h
    exact extends_addFlagValidator r name fn
  | getAllFlags =>
    cases h
    exact extends_updateModifiedBits r
  | define flag => exact extends_registerFlag h
  | readString contents errorsAreFatal =>
    unfold perform at h
    obtain ⟨⟨q, ok⟩, hq, h⟩ := Outcome.bind_eq_returned.mp h
    cases h
    obtain ⟨q', hextends, ⟨-, rfl⟩ | ⟨-, rfl⟩⟩ := readFlagsFromString_cases hq
    · exact hextends
    · exact extends_restore hextends

theorem extends_run {w : World} {prog : Program} {allow : Bool} {depth : Nat} {r r' : FlagRegistry}
    {actions : List Action} (h : actions.foldlM (perform w prog allow depth) r = .returned r') : Extends r r' := by
  have hensures : Outcome.Ensures (actions.foldlM (perform w prog allow depth) r) (Extends r) := by
    apply Outcome.Ensures.foldlM (P := Extends r)
    · intro r' hr' action _ r'' hr''
      exact hr'.trans (extends_perform hr'')
    · exact Extends.refl r
  exact hensures r' h

/-! ## The two results -/

/-- **A `FlagSaver` brings every flag back**, whatever the program does in between; flags that were defined since are
    left as they are. -/
theorem flagSaver_restores {w : World} {prog : Program} {allow : Bool} {depth : Nat} {r r' : FlagRegistry}
    {actions : List Action} (hrun : actions.foldlM (perform w prog allow depth) r = .returned r') :
    (∀ name flag, r.findFlag name = some flag →
      ∃ s, (restoreToRegistry (saveFromRegistry r) r').findFlag name = some (flag.withState s) ∧
        Restored flag.state s) ∧
    ∀ name, r.findFlag name = none →
      (restoreToRegistry (saveFromRegistry r) r').findFlag name = r'.findFlag name :=
  restore_spec (extends_run hrun)

theorem flagSaver_restores_undefok : ∃ r' s,
    [Action.write (lit "undefok") .string (lit "x")].foldlM (perform World.bare Program.bare false 1)
      FlagRegistry.gflagsRegistry = .returned r' ∧
    (restoreToRegistry (saveFromRegistry FlagRegistry.gflagsRegistry) r').findFlag (lit "undefok") =
      some (FlagRegistry.undefokFlag.withState s) ∧ Restored FlagRegistry.undefokFlag.state s := by
  have hrun : ∃ r', [Action.write (lit "undefok") .string (lit "x")].foldlM (perform World.bare Program.bare false 1)
      FlagRegistry.gflagsRegistry = .returned r' := ⟨_, rfl⟩
  obtain ⟨r', hrun⟩ := hrun
  obtain ⟨s, hfind, hs⟩ := (flagSaver_restores hrun).1 (lit "undefok") FlagRegistry.undefokFlag rfl
  exact ⟨r', s, hrun, hfind, hs⟩

/-- **A text with errors changes nothing.** If `ReadFlagsFromString` fails and returns, every flag is as before. -/
theorem readFlagsFromString_failed {w : World} {prog : Program} {allow : Bool} {depth : Nat} {r r' : FlagRegistry}
    {contents : Bytes} {errorsAreFatal : Bool}
    (hrun : readFlagsFromString w prog allow depth r contents errorsAreFatal = .returned (r', false))
    {name : Bytes} {flag : CommandLineFlag} (hfind : r.findFlag name = some flag) :
    ∃ s, r'.findFlag name = some (flag.withState s) ∧ Restored flag.state s := by
  obtain ⟨q, hextends, ⟨hok, -⟩ | ⟨-, rfl⟩⟩ := readFlagsFromString_cases hrun
  · cases hok
  · exact (restore_spec hextends).1 name flag hfind

theorem readFlagsFromString_failed_fromenv : ∃ r' s,
    readFlagsFromString World.bare Program.bare false 2 FlagRegistry.gflagsRegistry (lit "--fromenv=nosuch\n") false =
      .returned (r', false) ∧
    r'.findFlag (lit "fromenv") = some (FlagRegistry.fromenvFlag.withState s) ∧
      Restored FlagRegistry.fromenvFlag.state s := by
  have hrun : ∃ r', readFlagsFromString World.bare Program.bare false 2 FlagRegistry.gflagsRegistry
      (lit "--fromenv=nosuch\n") false = .returned (r', false) := ⟨_, rfl⟩
  have hfind : FlagRegistry.gflagsRegistry.findFlag (lit "fromenv") = some FlagRegistry.fromenvFlag := rfl
  obtain ⟨r', hrun⟩ := hrun
  obtain ⟨s, hs⟩ := readFlagsFromString_failed hrun hfind
  exact ⟨r', s, hrun, hs⟩

end Thirdparty.Gflags
