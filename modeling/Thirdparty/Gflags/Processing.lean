import Thirdparty.Gflags.Parser

/-!
# `Gflags.Processing` — what the recursive flags can do to the registry

Whatever a flag file or the environment holds, the parser changes flags through `setFlag` alone. An invariant of the
parser that every `setFlag` keeps is therefore kept by the whole recursion, however deep it goes; the properties below
are such invariants.

## Contents
- `relevantLines`: a flag file as the list of the flag lines that are for this program.
- `ParserInvariant`, and `processSingleOption_ensures`, the rule for the whole recursion.
- `processSingleOption_mono`: a deeper bound gives no other result.
- `SetRelation`: what a mode can do to a flag, from its state before to its state after.
- `setFlag_spec`: the cases of `setFlag`.
-/

namespace Thirdparty.Gflags

open Outcome

/-! ## The lines that count -/

/-- The flag lines that the loop applies. -/
def relevantFrom (w : World) : Section → List Bytes → List Bytes
  | _, [] => []
  | s, line :: lines =>
    if isFlagLine line && s.flagsAreRelevant then line :: relevantFrom w (s.next w line) lines
    else relevantFrom w (s.next w line) lines

/-- The flag lines of a text that are for this program. -/
def relevantLines (w : World) (contentdata : Bytes) : List Bytes :=
  relevantFrom w ⟨true, false⟩ (optionLines contentdata)

/-- One flag line, and its message. -/
def lineStep (single : SingleOption) (mode : FlagSettingMode) (s : Parser × Bytes) (line : Bytes) :
    Outcome Exit (Parser × Bytes) := do
  let (p, msg) ← processLine single mode s.1 line
  return (p, s.2 ++ msg)

theorem foldlM_optionStep (w : World) (single : SingleOption) (mode : FlagSettingMode) (lines : List Bytes)
    (s : Section) (p : Parser) (retval : Bytes) :
    (do let (_, p, retval) ← lines.foldlM (optionStep w single mode) (s, p, retval); return (p, retval)) =
      (relevantFrom w s lines).foldlM (lineStep single mode) (p, retval) := by
  induction lines generalizing s p retval with
  | nil => rfl
  | cons line lines ih =>
    rw [List.foldlM_cons, relevantFrom]
    unfold optionStep
    dsimp only
    split
    · rw [List.foldlM_cons]
      unfold lineStep
      dsimp only
      cases processLine single mode p line with
      | returned q => exact ih (s.next w line) q.1 (retval ++ q.2)
      | exited e => rfl
      | running => rfl
    · exact ih (s.next w line) p retval

/-- **A flag file is its relevant lines.** -/
theorem processOptionsFromString_eq (w : World) (single : SingleOption) (p : Parser) (contentdata : Bytes)
    (mode : FlagSettingMode) :
    processOptionsFromString w single p contentdata mode =
      (relevantLines w contentdata).foldlM (lineStep single mode) (p, []) :=
  foldlM_optionStep w single mode (optionLines contentdata) ⟨true, false⟩ p []

/-! ## Invariants of the recursion -/

/-- What every elementary action of the parser keeps, in one mode. -/
structure ParserInvariant (w : World) (mode : FlagSettingMode) (Inv : Parser → Prop) : Prop where
  addError : ∀ (p : Parser) (name message : Bytes), message ≠ [] → Inv p → Inv (p.addError name message)
  addUnknown : ∀ (p : Parser) (name message : Bytes), message ≠ [] → p.registry.findFlag name = none → Inv p →
    Inv (p.addUnknown name message)
  setFlag : ∀ (p : Parser) (name : Bytes) (flag : CommandLineFlag) (value : Bytes), Inv p →
    p.registry.findFlag name = some flag →
    Inv { p with registry := p.registry.put flag (setFlag w flag value mode).1 }

/-- A message with text in it. -/
theorem error_ne_nil (front behind : Bytes) : kError ++ front ++ behind ≠ [] := by
  show 69 :: _ ≠ []
  exact List.cons_ne_nil _ _

/-- A value that is not accepted is reported. -/
theorem tryParse_message {w : World} {flag : CommandLineFlag} {value : Bytes} (h : (tryParse w flag value).1 = none) :
    (tryParse w flag value).2 ≠ [] := by
  unfold tryParse at h ⊢
  cases hparse : FlagValue.parseFrom w.toLibc flag.type value with
  | none => exact error_ne_nil _ _
  | some v =>
    rw [hparse] at h
    cases hvalid : flag.validate w v with
    | true =>
      dsimp only at h
      rw [hvalid] at h
      cases h
    | false =>
      dsimp only
      rw [hvalid]
      exact error_ne_nil _ _

/-- A refused `setFlag` has a message. -/
theorem setFlag_message {w : World} {flag : CommandLineFlag} {value : Bytes} {mode : FlagSettingMode}
    (h : (setFlag w flag value mode).2.1 = false) : (setFlag w flag value mode).2.2 ≠ [] := by
  have hmessage : (tryParse w flag value).1 = none → (tryParse w flag value).2 ≠ [] := tryParse_message
  unfold setFlag at h ⊢
  generalize tryParse w flag value = parsed at h hmessage ⊢
  obtain ⟨parsed, msg⟩ := parsed
  cases parsed with
  | none =>
    have hmsg : msg ≠ [] := hmessage rfl
    cases mode with
    | setFlagsValue => exact hmsg
    | setFlagIfDefault =>
      dsimp only at h ⊢
      split
      · rename_i hmod
        rw [if_pos hmod] at h
        cases h
      · exact hmsg
    | setFlagsDefault => exact hmsg
  | some v =>
    cases mode with
    | setFlagsValue => cases h
    | setFlagIfDefault =>
      dsimp only at h
      split at h
      · cases h
      · cases h
    | setFlagsDefault =>
      dsimp only at h
      split at h
      · cases h
      · cases h

/-- A recursive call keeps the invariant. -/
def SingleKeeps (mode : FlagSettingMode) (Inv : Parser → Prop) (single : SingleOption) : Prop :=
  ∀ p name value, Inv p → Ensures (single p name value mode) fun q => Inv q.1

section

variable {w : World} {mode : FlagSettingMode} {Inv : Parser → Prop} {single : SingleOption}

theorem processLine_ensures (hsingle : SingleKeeps mode Inv single) {p : Parser} (hp : Inv p) (line : Bytes) :
    Ensures (processLine single mode p line) fun q => Inv q.1 := by
  unfold processLine
  dsimp only
  split
  · exact hsingle _ _ _ hp
  · exact ensures_returned.mpr hp

theorem lineStep_ensures (hsingle : SingleKeeps mode Inv single) {s : Parser × Bytes} (hs : Inv s.1) (line : Bytes) :
    Ensures (lineStep single mode s line) fun q => Inv q.1 :=
  Ensures.bind (processLine_ensures hsingle hs line) fun _ hq => ensures_returned.mpr hq

theorem processOptionsFromString_ensures (hsingle : SingleKeeps mode Inv single) {p : Parser} (hp : Inv p)
    (contentdata : Bytes) : Ensures (processOptionsFromString w single p contentdata mode) fun q => Inv q.1 := by
  rw [processOptionsFromString_eq]
  exact Ensures.foldlM (P := fun s : Parser × Bytes => Inv s.1)
    (fun s hs line _ => lineStep_ensures hsingle hs line) hp

theorem flagfileStep_ensures (hsingle : SingleKeeps mode Inv single) {s : Parser × Bytes} (hs : Inv s.1)
    (file : Bytes) : Ensures (flagfileStep w single mode s file) fun q => Inv q.1 := by
  refine ensures_bind ?_
  intro contents _
  exact Ensures.bind (processOptionsFromString_ensures hsingle hs contents) fun _ hq => ensures_returned.mpr hq

theorem processFlagfile_ensures (hsingle : SingleKeeps mode Inv single) {p : Parser} (hp : Inv p) (flagval : Bytes) :
    Ensures (processFlagfile w single p flagval mode) fun q => Inv q.1 := by
  unfold processFlagfile
  split
  · exact ensures_returned.mpr hp
  · refine ensures_bind ?_
    intro filenames _
    exact Ensures.foldlM (P := fun s : Parser × Bytes => Inv s.1)
      (fun s hs file _ => flagfileStep_ensures hsingle hs file) hp

theorem fromenvStep_ensures (hInv : ParserInvariant w mode Inv) (hsingle : SingleKeeps mode Inv single)
    {errorsAreFatal : Bool} {s : Parser × Bytes} (hs : Inv s.1) (flagname : Bytes) :
    Ensures (fromenvStep w single mode errorsAreFatal s flagname) fun q => Inv q.1 := by
  unfold fromenvStep
  dsimp only
  split
  · rename_i hfind
    exact ensures_returned.mpr (hInv.addUnknown _ _ _ (error_ne_nil _ _) hfind hs)
  · split
    · split
      · exact ensures_returned.mpr (hInv.addError _ _ _ (error_ne_nil _ _) hs)
      · exact ensures_returned.mpr hs
    · split
      · exact ensures_returned.mpr (hInv.addError _ _ _ (error_ne_nil _ _) hs)
      · exact Ensures.bind (hsingle _ _ _ hs) fun _ hq => ensures_returned.mpr hq

theorem processFromenv_ensures (hInv : ParserInvariant w mode Inv) (hsingle : SingleKeeps mode Inv single)
    {p : Parser} (hp : Inv p) (flagval : Bytes) (errorsAreFatal : Bool) :
    Ensures (processFromenv w single p flagval mode errorsAreFatal) fun q => Inv q.1 := by
  unfold processFromenv
  split
  · exact ensures_returned.mpr hp
  · refine ensures_bind ?_
    intro flaglist _
    exact Ensures.foldlM (P := fun s : Parser × Bytes => Inv s.1)
      (fun s hs name _ => fromenvStep_ensures hInv hsingle hs name) hp

theorem processRecursive_ensures (hInv : ParserInvariant w mode Inv) (hsingle : SingleKeeps mode Inv single)
    {p : Parser} (hp : Inv p) (name : Bytes) :
    Ensures (processRecursive w single p name mode) fun q => Inv q.1 := by
  unfold processRecursive
  split
  · exact processFlagfile_ensures hsingle hp _
  · split
    · exact processFromenv_ensures hInv hsingle hp _ true
    · split
      · exact processFromenv_ensures hInv hsingle hp _ false
      · exact ensures_returned.mpr hp

theorem singleStep_keeps (hInv : ParserInvariant w mode Inv) (hsingle : SingleKeeps mode Inv single) :
    SingleKeeps mode Inv (singleStep w single) := by
  intro p name value hp
  unfold singleStep
  split
  · exact ensures_returned.mpr hp
  · rename_i flag hfind
    cases value with
    | none => exact processRecursive_ensures hInv hsingle hp name
    | some value =>
      have hset := hInv.setFlag p name flag value hp hfind
      dsimp only
      split
      · exact Ensures.bind (processRecursive_ensures hInv hsingle hset name) fun _ hq => ensures_returned.mpr hq
      · rename_i hok
        exact ensures_returned.mpr (hInv.addError _ _ _ (setFlag_message (by simpa using hok)) hset)

/-- **Rule for the recursion.** -/
theorem processSingleOption_ensures (hInv : ParserInvariant w mode Inv) (depth : Nat) :
    SingleKeeps mode Inv (processSingleOption w depth) := by
  induction depth with
  | zero =>
    intro p name value _
    exact ensures_running _
  | succ depth ih => exact singleStep_keeps hInv ih

end

/-! ## What becomes of each flag -/

/-- The flag has a new state, which is related to the old flag. -/
def Evolves (S : (flag : CommandLineFlag) → FlagState flag.type → Prop) (f g : CommandLineFlag) : Prop :=
  ∃ state, g = f.withState state ∧ S f state

theorem Evolves.name_eq {S : (flag : CommandLineFlag) → FlagState flag.type → Prop} {f g : CommandLineFlag}
    (h : Evolves S f g) : g.name = f.name := by
  obtain ⟨state, rfl, -⟩ := h
  rfl

/-- A relation of states that `setFlag` respects. -/
structure SetRelation (w : World) (mode : FlagSettingMode) (S : (flag : CommandLineFlag) → FlagState flag.type → Prop) :
    Prop where
  refl : ∀ flag : CommandLineFlag, S flag flag.state
  trans : ∀ (flag : CommandLineFlag) (s s' : FlagState flag.type), S flag s → S (flag.withState s) s' → S flag s'
  setFlag : ∀ (flag : CommandLineFlag) (value : Bytes), S flag (setFlag w flag value mode).1

namespace SetRelation

variable {w : World} {mode : FlagSettingMode} {S : (flag : CommandLineFlag) → FlagState flag.type → Prop}

theorem evolves_refl (h : SetRelation w mode S) (flag : CommandLineFlag) : Evolves S flag flag :=
  ⟨flag.state, rfl, h.refl flag⟩

theorem evolves_trans (h : SetRelation w mode S) (f g k : CommandLineFlag) (hfg : Evolves S f g)
    (hgk : Evolves S g k) : Evolves S f k := by
  obtain ⟨s, rfl, hs⟩ := hfg
  obtain ⟨s', rfl, hs'⟩ := hgk
  exact ⟨s', rfl, h.trans f s s' hs hs'⟩

theorem parserInvariant (h : SetRelation w mode S) (r : FlagRegistry) :
    ParserInvariant w mode fun q => r.Stepwise (Evolves S) q.registry where
  addError _ _ _ _ hp := hp
  addUnknown _ _ _ _ _ hp := hp
  setFlag p name flag value hp hfind := by
    apply FlagRegistry.Stepwise.trans h.evolves_trans hp
    exact FlagRegistry.stepwise_put h.evolves_refl hfind ⟨_, rfl, h.setFlag flag value⟩

/-- **What `setFlag` does to a flag, the whole recursion does to every flag.** -/
theorem processSingleOption (h : SetRelation w mode S) {depth : Nat} {p q : Parser} {name : Bytes}
    {value : Option Bytes} {text : Bytes} (hrun : processSingleOption w depth p name value mode = .returned (q, text)) :
    p.registry.Stepwise (Evolves S) q.registry :=
  processSingleOption_ensures (h.parserInvariant p.registry) depth p name value
    (FlagRegistry.Stepwise.refl h.evolves_refl p.registry) (q, text) hrun

theorem processOptionsFromString (h : SetRelation w mode S) {depth : Nat} {p q : Parser} {contentdata text : Bytes}
    (hrun : processOptionsFromString w (Gflags.processSingleOption w depth) p contentdata mode = .returned (q, text)) :
    p.registry.Stepwise (Evolves S) q.registry := by
  have hkeeps := processSingleOption_ensures (h.parserInvariant p.registry) depth
  exact processOptionsFromString_ensures hkeeps (FlagRegistry.Stepwise.refl h.evolves_refl p.registry) contentdata
    (q, text) hrun

end SetRelation

/-- A value the flag can be set to. -/
def Accepts (w : World) (flag : CommandLineFlag) (value : Bytes) (v : FlagValue flag.type) : Prop :=
  FlagValue.parseFrom w.toLibc flag.type value = some v ∧ flag.validate w v = true

theorem tryParse_spec (w : World) (flag : CommandLineFlag) (value : Bytes) :
    ((tryParse w flag value).1 = none ∧ ∀ v, ¬ Accepts w flag value v) ∨
      ∃ v, (tryParse w flag value).1 = some v ∧ Accepts w flag value v := by
  unfold tryParse
  cases hparse : FlagValue.parseFrom w.toLibc flag.type value with
  | none =>
    refine Or.inl ⟨rfl, ?_⟩
    rintro v ⟨hv, -⟩
    rw [hparse] at hv
    cases hv
  | some v =>
    dsimp only
    split
    · rename_i hvalid
      exact Or.inr ⟨v, rfl, hparse, hvalid⟩
    · rename_i hvalid
      refine Or.inl ⟨rfl, ?_⟩
      rintro v' ⟨hv', hvalid'⟩
      rw [hparse] at hv'
      cases hv'
      exact hvalid hvalid'

/-- What can become of the state, with `s` the state after `updateModifiedBit`. -/
inductive SetResult (w : World) (flag : CommandLineFlag) (value : Bytes) (s : FlagState flag.type) :
    FlagSettingMode → FlagState flag.type → Bool → Prop where
  /-- The value was not accepted. -/
  | refused {mode : FlagSettingMode} : (∀ v, ¬ Accepts w flag value v) →
      (mode = .setFlagIfDefault → s.modified = false) → SetResult w flag value s mode s false
  /-- The flag has been modified, and is left alone. -/
  | skipped : s.modified = true → SetResult w flag value s .setFlagIfDefault s true
  | valued {mode : FlagSettingMode} {v : FlagValue flag.type} : Accepts w flag value v → mode ≠ .setFlagsDefault →
      (mode = .setFlagIfDefault → s.modified = false) →
      SetResult w flag value s mode { s with current := v, modified := true } true
  | defaulted {v : FlagValue flag.type} : Accepts w flag value v → s.modified = true →
      SetResult w flag value s .setFlagsDefault { s with defvalue := v } true
  | followed {v : FlagValue flag.type} : Accepts w flag value v → s.modified = false →
      SetResult w flag value s .setFlagsDefault { s with defvalue := v, current := v } true

/-- **What `SetFlagLocked` does**, case by case. -/
theorem setFlag_spec (w : World) (flag : CommandLineFlag) (value : Bytes) (mode : FlagSettingMode) :
    SetResult w flag value flag.state.updateModifiedBit mode (setFlag w flag value mode).1
      (setFlag w flag value mode).2.1 := by
  unfold setFlag
  have hspec := tryParse_spec w flag value
  generalize tryParse w flag value = parsed at hspec ⊢
  obtain ⟨parsed, msg⟩ := parsed
  cases parsed with
  | none =>
    have hrefused : ∀ v, ¬ Accepts w flag value v := by
      rcases hspec with ⟨-, h⟩ | ⟨v, hv, -⟩
      · exact h
      · cases hv
    cases mode with
    | setFlagsValue => exact SetResult.refused hrefused fun h => by cases h
    | setFlagIfDefault =>
      dsimp only
      split
      · rename_i hmodified
        exact SetResult.skipped hmodified
      · rename_i hmodified
        exact SetResult.refused hrefused fun _ => by simpa using hmodified
    | setFlagsDefault => exact SetResult.refused hrefused fun h => by cases h
  | some v =>
    have haccepts : Accepts w flag value v := by
      rcases hspec with ⟨h, -⟩ | ⟨v', hv', h⟩
      · cases h
      · cases hv'
        exact h
    cases mode with
    | setFlagsValue => exact SetResult.valued haccepts (fun h => by cases h) fun h => by cases h
    | setFlagIfDefault =>
      dsimp only
      split
      · rename_i hmodified
        exact SetResult.skipped hmodified
      · rename_i hmodified
        exact SetResult.valued haccepts (fun h => by cases h) fun _ => by simpa using hmodified
    | setFlagsDefault =>
      dsimp only
      split
      · rename_i hmodified
        exact SetResult.defaulted haccepts hmodified
      · rename_i hmodified
        exact SetResult.followed haccepts (by simpa using hmodified)

/-- A value that is accepted is set. -/
theorem setFlag_accepts {w : World} {flag : CommandLineFlag} {value : Bytes} {v : FlagValue flag.type}
    (h : Accepts w flag value v) :
    (setFlag w flag value .setFlagsValue).2.1 = true ∧ (setFlag w flag value .setFlagsValue).1.current = v := by
  have hspec := setFlag_spec w flag value .setFlagsValue
  generalize (setFlag w flag value .setFlagsValue).1 = s, (setFlag w flag value .setFlagsValue).2.1 = ok at hspec ⊢
  cases hspec with
  | refused hrefused _ => exact absurd h (hrefused v)
  | valued hv _ _ => exact ⟨rfl, Option.some.inj (hv.1.symm.trans h.1)⟩

/-! ## Deeper bounds -/

/-- A better recursive function. -/
def SingleLe (single single' : SingleOption) : Prop :=
  ∀ p name value mode, single p name value mode ≤ single' p name value mode

theorem processLine_mono {single single' : SingleOption} (h : SingleLe single single') (mode : FlagSettingMode)
    (p : Parser) (line : Bytes) : processLine single mode p line ≤ processLine single' mode p line := by
  unfold processLine
  dsimp only
  split
  · exact h _ _ _ _
  · exact le_refl _

theorem processOptionsFromString_mono {single single' : SingleOption} (h : SingleLe single single') (w : World)
    (p : Parser) (contentdata : Bytes) (mode : FlagSettingMode) :
    processOptionsFromString w single p contentdata mode ≤ processOptionsFromString w single' p contentdata mode := by
  rw [processOptionsFromString_eq, processOptionsFromString_eq]
  apply foldlM_le_foldlM
  intro s line
  exact bind_le_bind (processLine_mono h mode s.1 line) fun _ => le_refl _

theorem processFlagfile_mono {single single' : SingleOption} (h : SingleLe single single') (w : World) (p : Parser)
    (flagval : Bytes) (mode : FlagSettingMode) :
    processFlagfile w single p flagval mode ≤ processFlagfile w single' p flagval mode := by
  unfold processFlagfile
  split
  · exact le_refl _
  · refine bind_le_bind (le_refl _) ?_
    intro filenames
    apply foldlM_le_foldlM
    intro s file
    refine bind_le_bind (le_refl _) ?_
    intro contents
    exact bind_le_bind (processOptionsFromString_mono h w s.1 contents mode) fun _ => le_refl _

theorem fromenvStep_mono {single single' : SingleOption} (h : SingleLe single single') (w : World)
    (mode : FlagSettingMode) (errorsAreFatal : Bool) (s : Parser × Bytes) (flagname : Bytes) :
    fromenvStep w single mode errorsAreFatal s flagname ≤ fromenvStep w single' mode errorsAreFatal s flagname := by
  unfold fromenvStep
  dsimp only
  split
  · exact le_refl _
  · split
    · exact le_refl _
    · split
      · exact le_refl _
      · exact bind_le_bind (h _ _ _ _) fun _ => le_refl _

theorem processFromenv_mono {single single' : SingleOption} (h : SingleLe single single') (w : World) (p : Parser)
    (flagval : Bytes) (mode : FlagSettingMode) (errorsAreFatal : Bool) :
    processFromenv w single p flagval mode errorsAreFatal ≤ processFromenv w single' p flagval mode errorsAreFatal := by
  unfold processFromenv
  split
  · exact le_refl _
  · refine bind_le_bind (le_refl _) ?_
    intro flaglist
    exact foldlM_le_foldlM (fromenvStep_mono h w mode errorsAreFatal) flaglist _

theorem processRecursive_mono {single single' : SingleOption} (h : SingleLe single single') (w : World) (p : Parser)
    (name : Bytes) (mode : FlagSettingMode) :
    processRecursive w single p name mode ≤ processRecursive w single' p name mode := by
  unfold processRecursive
  split
  · exact processFlagfile_mono h w p _ mode
  · split
    · exact processFromenv_mono h w p _ mode true
    · split
      · exact processFromenv_mono h w p _ mode false
      · exact le_refl _

theorem singleStep_mono {single single' : SingleOption} (h : SingleLe single single') (w : World) :
    SingleLe (singleStep w single) (singleStep w single') := by
  intro p name value mode
  unfold singleStep
  split
  · exact le_refl _
  · cases value with
    | none => exact processRecursive_mono h w p name mode
    | some value =>
      dsimp only
      split
      · exact bind_le_bind (processRecursive_mono h w _ name mode) fun _ => le_refl _
      · exact le_refl _

/-- **A deeper bound gives the same result**, if there was one. -/
theorem processSingleOption_mono (w : World) (p : Parser) (name : Bytes) (value : Option Bytes)
    (mode : FlagSettingMode) : Monotone fun depth => processSingleOption w depth p name value mode := by
  have hstep : ∀ depth, SingleLe (processSingleOption w depth) (processSingleOption w (depth + 1)) := by
    intro depth
    induction depth with
    | zero => exact fun p name value mode => running_le _
    | succ depth ih => exact singleStep_mono ih w
  exact monotone_nat_of_le_succ fun depth => hstep depth p name value mode

end Thirdparty.Gflags
