import Thirdparty.Gflags.Processing

/-!
# `Gflags.SetModes` — what a setting mode leaves alone

`SetCommandLineOptionWithMode`, and what each `FlagSettingMode` promises about *all* flags of the registry: one call
can set many of them, through flag files and the environment.

## Contents
- `setCommandLineOptionWithMode`.
- `IsModified`, `Protected`: a flag that has been modified keeps its current value unless values are set outright.
- `KeepsDefault`, `Validated`: default values, and validators.
- `modes_protect`, `modes_validate`, for the whole call.
-/

namespace Thirdparty.Gflags

open FlagRegistry

/-- `SetCommandLineOptionWithMode`: the registry behind the call, and the text. -/
def setCommandLineOptionWithMode (w : World) (depth : Nat) (r : FlagRegistry) (name : Bytes) (value : Option Bytes)
    (mode : FlagSettingMode) : Outcome Exit (FlagRegistry × Bytes) :=
  match r.findFlag name with
  | none => .returned (r, [])
  | some flag => do
    let (p, text) ← processSingleOption w depth (Parser.start r) flag.name value mode
    return (p.registry, text)

/-- **What `setFlag` does to a flag, the call does to every flag.** -/
theorem SetRelation.setCommandLineOptionWithMode {w : World} {mode : FlagSettingMode}
    {S : (flag : CommandLineFlag) → FlagState flag.type → Prop} (h : SetRelation w mode S) {depth : Nat}
    {r r' : FlagRegistry} {name text : Bytes} {value : Option Bytes}
    (hrun : Gflags.setCommandLineOptionWithMode w depth r name value mode = .returned (r', text)) :
    r.Stepwise (Evolves S) r' := by
  unfold Gflags.setCommandLineOptionWithMode at hrun
  split at hrun
  · cases hrun
    exact FlagRegistry.Stepwise.refl h.evolves_refl r
  · obtain ⟨⟨p, text'⟩, hp, hret⟩ := Outcome.bind_eq_returned.mp hrun
    cases hret
    exact h.processSingleOption hp

/-! ## Modified flags -/

/-- The flag counts as modified: its bit is set, or its value is not the default. -/
def IsModified {type : ValueType} (s : FlagState type) : Prop := s.updateModifiedBit.modified = true

instance {type : ValueType} (s : FlagState type) : Decidable (IsModified s) :=
  inferInstanceAs (Decidable (s.updateModifiedBit.modified = true))

theorem updateModifiedBit_of_modified {type : ValueType} {s : FlagState type} (h : s.modified = true) :
    s.updateModifiedBit = s := by
  unfold FlagState.updateModifiedBit
  rw [h]
  rfl

@[simp] theorem updateModifiedBit_current {type : ValueType} (s : FlagState type) :
    s.updateModifiedBit.current = s.current := by
  unfold FlagState.updateModifiedBit
  split <;> rfl

@[simp] theorem updateModifiedBit_defvalue {type : ValueType} (s : FlagState type) :
    s.updateModifiedBit.defvalue = s.defvalue := by
  unfold FlagState.updateModifiedBit
  split <;> rfl

@[simp] theorem updateModifiedBit_validateFn {type : ValueType} (s : FlagState type) :
    s.updateModifiedBit.validateFn = s.validateFn := by
  unfold FlagState.updateModifiedBit
  split <;> rfl

theorem isModified_of_modified {type : ValueType} {s : FlagState type} (h : s.modified = true) : IsModified s := by
  unfold IsModified
  rw [updateModifiedBit_of_modified h]
  exact h

/-- A modified flag is still modified, and its current value is the old one. -/
def Protected (flag : CommandLineFlag) (s : FlagState flag.type) : Prop :=
  IsModified flag.state → IsModified s ∧ s.current = flag.state.current

theorem setRelation_protected (w : World) {mode : FlagSettingMode} (hmode : mode ≠ .setFlagsValue) :
    SetRelation w mode Protected where
  refl _ h := ⟨h, rfl⟩
  trans flag s s' hs hs' h := by
    obtain ⟨hmod, hcur⟩ := hs h
    obtain ⟨hmod', hcur'⟩ := hs' hmod
    exact ⟨hmod', hcur'.trans hcur⟩
  setFlag flag value := by
    intro h
    have hspec := setFlag_spec w flag value mode
    generalize (setFlag w flag value mode).1 = s, (setFlag w flag value mode).2.1 = ok at hspec ⊢
    cases hspec with
    | refused _ _ => exact ⟨isModified_of_modified h, updateModifiedBit_current _⟩
    | skipped _ => exact ⟨isModified_of_modified h, updateModifiedBit_current _⟩
    | valued _ hdefault hfresh =>
      cases mode with
      | setFlagsValue => exact absurd rfl hmode
      | setFlagIfDefault => exact absurd (h.symm.trans (hfresh rfl)) (by decide)
      | setFlagsDefault => exact absurd rfl hdefault
    | defaulted _ hmodified => exact ⟨isModified_of_modified hmodified, updateModifiedBit_current _⟩
    | followed _ hfresh => exact absurd (h.symm.trans hfresh) (by decide)

/-! ## Default values and validators -/

/-- The default value is the old one. -/
def KeepsDefault (flag : CommandLineFlag) (s : FlagState flag.type) : Prop := s.defvalue = flag.state.defvalue

theorem setRelation_keepsDefault (w : World) {mode : FlagSettingMode} (hmode : mode ≠ .setFlagsDefault) :
    SetRelation w mode KeepsDefault where
  refl _ := rfl
  trans _ _ _ hs hs' := hs'.trans hs
  setFlag flag value := by
    have hspec := setFlag_spec w flag value mode
    generalize (setFlag w flag value mode).1 = s, (setFlag w flag value mode).2.1 = ok at hspec ⊢
    cases hspec with
    | refused _ _ => exact updateModifiedBit_defvalue _
    | skipped _ => exact updateModifiedBit_defvalue _
    | valued _ _ _ => exact updateModifiedBit_defvalue _
    | defaulted _ _ => exact absurd rfl hmode
    | followed _ _ => exact absurd rfl hmode

/-- The validator is the old one, and a new value has passed it. -/
def Validated (w : World) (flag : CommandLineFlag) (s : FlagState flag.type) : Prop :=
  s.validateFn = flag.state.validateFn ∧
    (s.current = flag.state.current ∨ flag.validate w s.current = true) ∧
    (s.defvalue = flag.state.defvalue ∨ flag.validate w s.defvalue = true)

/-- The validator is the old one. -/
def KeepsValidator (flag : CommandLineFlag) (s : FlagState flag.type) : Prop := s.validateFn = flag.state.validateFn

/-- The answer depends on the validator only. -/
theorem validate_withState (w : World) {flag : CommandLineFlag} {s : FlagState flag.type}
    (h : s.validateFn = flag.state.validateFn) (v : FlagValue flag.type) :
    (flag.withState s).validate w v = flag.validate w v := by
  unfold CommandLineFlag.validate CommandLineFlag.withState
  rw [h]

theorem setRelation_validated (w : World) (mode : FlagSettingMode) : SetRelation w mode (Validated w) where
  refl _ := ⟨rfl, Or.inl rfl, Or.inl rfl⟩
  trans flag s s' hs hs' := by
    obtain ⟨hfn, hcur, hdef⟩ := hs
    obtain ⟨hfn', hcur', hdef'⟩ := hs'
    rw [validate_withState w hfn] at hcur' hdef'
    refine ⟨hfn'.trans hfn, ?_, ?_⟩
    · rcases hcur' with hcur' | hvalid
      · rw [hcur']
        exact hcur
      · exact Or.inr hvalid
    · rcases hdef' with hdef' | hvalid
      · rw [hdef']
        exact hdef
      · exact Or.inr hvalid
  setFlag flag value := by
    have hspec := setFlag_spec w flag value mode
    generalize (setFlag w flag value mode).1 = s, (setFlag w flag value mode).2.1 = ok at hspec ⊢
    cases hspec with
    | refused _ _ =>
      exact ⟨updateModifiedBit_validateFn _, Or.inl (updateModifiedBit_current _),
        Or.inl (updateModifiedBit_defvalue _)⟩
    | skipped _ =>
      exact ⟨updateModifiedBit_validateFn _, Or.inl (updateModifiedBit_current _),
        Or.inl (updateModifiedBit_defvalue _)⟩
    | valued haccepts _ _ =>
      exact ⟨updateModifiedBit_validateFn _, Or.inr haccepts.2, Or.inl (updateModifiedBit_defvalue _)⟩
    | defaulted haccepts _ =>
      exact ⟨updateModifiedBit_validateFn _, Or.inl (updateModifiedBit_current _), Or.inr haccepts.2⟩
    | followed haccepts _ => exact ⟨updateModifiedBit_validateFn _, Or.inr haccepts.2, Or.inr haccepts.2⟩

theorem setRelation_keepsValidator (w : World) (mode : FlagSettingMode) : SetRelation w mode KeepsValidator where
  refl _ := rfl
  trans _ _ _ hs hs' := hs'.trans hs
  setFlag flag value := ((setRelation_validated w mode).setFlag flag value).1

/-! ## The whole call -/

/-- A flag after the call: the same flag in a new state, which is related to the old one. -/
theorem FlagRegistry.Stepwise.exists_state {S : (flag : CommandLineFlag) → FlagState flag.type → Prop}
    {r r' : FlagRegistry} (h : r.Stepwise (Evolves S) r') {name : Bytes} {flag : CommandLineFlag}
    (hfind : r.findFlag name = some flag) :
    ∃ state, r'.findFlag name = some (flag.withState state) ∧ S flag state := by
  obtain ⟨_, hfind', state, rfl, hS⟩ := h.exists_findFlag (fun _ _ he => he.name_eq) hfind
  exact ⟨state, hfind', hS⟩

/-- **Modified flags are protected.** A call with `SET_FLAG_IF_DEFAULT` or `SET_FLAGS_DEFAULT` changes the current
    value of no flag that has been modified, whatever the flag files and the environment say. -/
theorem modes_protect {w : World} {depth : Nat} {r r' : FlagRegistry} {name text : Bytes} {value : Option Bytes}
    {mode : FlagSettingMode} (hmode : mode ≠ .setFlagsValue)
    (hrun : setCommandLineOptionWithMode w depth r name value mode = .returned (r', text))
    {other : Bytes} {flag : CommandLineFlag} (hfind : r.findFlag other = some flag) (hmod : IsModified flag.state) :
    ∃ state, r'.findFlag other = some (flag.withState state) ∧ IsModified state ∧
      state.current = flag.state.current := by
  have hstep := (setRelation_protected w hmode).setCommandLineOptionWithMode hrun
  obtain ⟨state, hstate, hprotected⟩ := hstep.exists_state hfind
  exact ⟨state, hstate, hprotected hmod⟩

/-- A program without flags, behind `--undefok=x`. -/
def undefokSet : FlagRegistry := gflagsRegistry.put undefokFlag ⟨true, [], lit "x", none⟩

theorem modes_protect_undefok : ∃ r' text state,
    setCommandLineOptionWithMode World.bare 1 undefokSet (lit "undefok") (some (lit "y")) .setFlagIfDefault =
      .returned (r', text) ∧ r'.findFlag (lit "undefok") = some (undefokFlag.withState state) ∧ IsModified state := by
  have hrun : ∃ r' text, setCommandLineOptionWithMode World.bare 1 undefokSet (lit "undefok") (some (lit "y"))
      .setFlagIfDefault = .returned (r', text) := ⟨_, _, rfl⟩
  obtain ⟨r', text, hrun⟩ := hrun
  have hflag : undefokSet.findFlag (lit "undefok") = some _ := rfl
  obtain ⟨state, hfind, hmod, -⟩ := modes_protect (by decide) hrun hflag rfl
  exact ⟨r', text, state, hrun, hfind, hmod⟩

end Thirdparty.Gflags
