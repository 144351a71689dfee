import Thirdparty.Core.Outcome
import Thirdparty.Gflags.FlagValue
import Mathlib.Data.List.Lex
import Mathlib.Data.List.Forall2
import Mathlib.Data.List.Nodup

/-!
# `Gflags.Registry` — flags, and the registry that holds them

`CommandLineFlag` and `FlagRegistry` of `gflags.cc`. A flag has a declaration, which never changes, and a state of the
type the declaration names. The registry keeps the flags in the order of `strcmp` on their names. A pointer to a flag
is the flag's name here, and a validator is the address of its function; what the function answers is part of the
`World`, as are the environment, the file system and `fnmatch`. Validators are taken to be functions of their two
arguments.

## Contents
- `World`, `Exit`, `reportError`.
- `FlagDecl`, `FlagState`, `CommandLineFlag`; `updateModifiedBit`, `copyFrom`, `tryParse`, `setFlag`.
- `FlagRegistry`, `findFlag`, `put`, `registerFlag`.
- `Stepwise`: registries with the same flags, each related to its old self.
-/

namespace Thirdparty.Gflags

/-- What the library finds outside: the C library, the environment, files, and the program's own functions. -/
structure World extends Libc where
  getenv : Bytes → Option Bytes
  /-- The contents of a file; nothing if it cannot be opened or read. -/
  readFile : Bytes → Option Bytes
  /-- What `perror` prints for a file. -/
  perror : Bytes → Bytes
  /-- `fnmatch(pattern, name, FNM_PATHNAME) == 0`. -/
  fnmatch : Bytes → Bytes → Bool
  /-- `argv[0]`. -/
  programInvocationName : Bytes
  /-- The answer of the function at an address. -/
  validator : (type : ValueType) → Nat → Bytes → FlagValue type → Bool

/-- A machine without files and without an environment. -/
def World.bare : World where
  strtod s := ⟨⟨0⟩, s, false⟩
  printDouble _ := lit "0"
  getenv _ := none
  readFile _ := none
  perror file := file ++ lit ": No such file or directory\n"
  fnmatch pattern name := pattern == name
  programInvocationName := lit "a.out"
  validator _ _ _ _ := true

/-- How the process ends: its status, and the last thing on `stderr`. -/
structure Exit where
  status : Nat
  report : Bytes
  deriving DecidableEq

/-- `kError`. -/
def kError : Bytes := lit "ERROR: "

/-- What `ReportError` writes: its buffer has 255 bytes. -/
def errorText (message : Bytes) : Bytes := message.take 254

/-- `ReportError(DIE, …)`, with `exit` as `gflags_exitfunc`. -/
def reportError {α : Type} (message : Bytes) : Outcome Exit α := .exited ⟨1, errorText message⟩

/-! ## `CommandLineFlag` -/

/-- The constant members. -/
structure FlagDecl where
  name : Bytes
  help : Bytes
  filename : Bytes
  type : ValueType
  deriving DecidableEq

/-- The other members. -/
structure FlagState (type : ValueType) where
  modified : Bool
  defvalue : FlagValue type
  current : FlagValue type
  validateFn : Option Nat

/-- `CommandLineFlag`. -/
structure CommandLineFlag extends FlagDecl where
  state : FlagState type

/-- `FlagSettingMode`. -/
inductive FlagSettingMode where
  | setFlagsValue
  | setFlagIfDefault
  | setFlagsDefault
  deriving DecidableEq

namespace FlagState

variable {type : ValueType}

/-- `UpdateModifiedBit`: a program can write through the variable. -/
def updateModifiedBit (s : FlagState type) : FlagState type :=
  if !s.modified && !FlagValue.equal s.current s.defvalue then { s with modified := true } else s

/-- `if (!v->Equal(*x)) v->CopyFrom(*x)`. -/
def copyValue (v x : FlagValue type) : FlagValue type := if FlagValue.equal v x then v else x

/-- `CommandLineFlag::CopyFrom`. -/
def copyFrom (s src : FlagState type) : FlagState type where
  modified := src.modified
  current := copyValue s.current src.current
  defvalue := copyValue s.defvalue src.defvalue
  validateFn := src.validateFn

end FlagState

namespace CommandLineFlag

/-- The flag with its state replaced. -/
def withState (flag : CommandLineFlag) (state : FlagState flag.type) : CommandLineFlag := { flag with state }

/-- `Validate`. -/
def validate (w : World) (flag : CommandLineFlag) (value : FlagValue flag.type) : Bool :=
  match flag.state.validateFn with
  | none => true
  | some fn => w.validator flag.type fn flag.name value

/-- `ValidateCurrent`. -/
def validateCurrent (w : World) (flag : CommandLineFlag) : Bool := flag.validate w flag.state.current

/-- `current_value`. -/
def currentValue (w : World) (flag : CommandLineFlag) : Bytes := FlagValue.toText w.toLibc flag.state.current

end CommandLineFlag

/-- `TryParseLocked`: the value if it was parsed and validated, and what is appended to the message. -/
def tryParse (w : World) (flag : CommandLineFlag) (value : Bytes) : Option (FlagValue flag.type) × Bytes :=
  match FlagValue.parseFrom w.toLibc flag.type value with
  | none =>
    (none, kError ++ lit "illegal value '" ++ value ++ lit "' specified for " ++ FlagValue.typeName flag.type ++
      lit " flag '" ++ flag.name ++ lit "'\n")
  | some tentative =>
    if flag.validate w tentative then
      (some tentative, flag.name ++ lit " set to " ++ cStr (FlagValue.toText w.toLibc tentative) ++ lit "\n")
    else
      (none, kError ++ lit "failed validation of new value '" ++ cStr (FlagValue.toText w.toLibc tentative) ++
        lit "' for flag '" ++ flag.name ++ lit "'\n")

/-- `SetFlagLocked`: the new state, whether it succeeded, and the message. -/
def setFlag (w : World) (flag : CommandLineFlag) (value : Bytes) (mode : FlagSettingMode) :
    FlagState flag.type × Bool × Bytes :=
  let s := flag.state.updateModifiedBit
  match mode with
  | .setFlagsValue =>
    match tryParse w flag value with
    | (none, msg) => (s, false, msg)
    | (some v, msg) => ({ s with current := v, modified := true }, true, msg)
  | .setFlagIfDefault =>
    if s.modified then (s, true, flag.name ++ lit " set to " ++ cStr (flag.currentValue w))
    else
      match tryParse w flag value with
      | (none, msg) => (s, false, msg)
      | (some v, msg) => ({ s with current := v, modified := true }, true, msg)
  | .setFlagsDefault =>
    match tryParse w flag value with
    | (none, msg) => (s, false, msg)
    | (some v, msg) =>
      -- the current value follows only if the flag has not been modified
      if s.modified then ({ s with defvalue := v }, true, msg)
      else ({ s with defvalue := v, current := v }, true, msg)

/-! ## `FlagRegistry` -/

/-- `FlagRegistry`: the map from names to flags, in the order of `StringCmp`. -/
structure FlagRegistry where
  flags : List CommandLineFlag
  sorted : (flags.map fun flag => flag.name).Pairwise (· < ·)

namespace FlagRegistry

/-- `FindFlagLocked`. -/
def findFlag (r : FlagRegistry) (name : Bytes) : Option CommandLineFlag :=
  r.flags.find? fun flag => flag.name == name

/-- The flag at a pointer gets a new state. -/
def put (r : FlagRegistry) (flag : CommandLineFlag) (state : FlagState flag.type) : FlagRegistry where
  flags := r.flags.map fun g => if g.name = flag.name then flag.withState state else g
  sorted := by
    have hnames : (r.flags.map fun g => if g.name = flag.name then flag.withState state else g).map
        (fun g => g.name) = r.flags.map fun g => g.name := by
      rw [List.map_map]
      apply List.map_congr_left
      intro g _
      show (if g.name = flag.name then flag.withState state else g).name = g.name
      split
      · rename_i h
        exact h.symm
      · rfl
    rw [hnames]
    exact r.sorted

/-- The `string` variable of a flag, such as `FLAGS_flagfile`. -/
def stringVariable (r : FlagRegistry) (name : Bytes) : Bytes :=
  match r.findFlag name with
  | some ⟨⟨_, _, _, .string⟩, state⟩ => state.current
  | _ => []

/-! ## Finding a flag -/

theorem mem_of_findFlag {r : FlagRegistry} {name : Bytes} {flag : CommandLineFlag}
    (h : r.findFlag name = some flag) : flag ∈ r.flags ∧ flag.name = name := by
  unfold findFlag at h
  exact ⟨List.mem_of_find?_eq_some h, by simpa using List.find?_some h⟩

theorem names_nodup (r : FlagRegistry) : (r.flags.map fun flag => flag.name).Nodup := by
  apply r.sorted.imp
  intro a b hlt heq
  rw [heq] at hlt
  exact List.lt_irrefl b hlt

/-- A name stands for one flag. -/
theorem eq_of_name_eq {r : FlagRegistry} {f g : CommandLineFlag} (hf : f ∈ r.flags) (hg : g ∈ r.flags)
    (hname : f.name = g.name) : f = g :=
  List.inj_on_of_nodup_map r.names_nodup hf hg hname

theorem findFlag_eq_some_iff {r : FlagRegistry} {name : Bytes} {flag : CommandLineFlag} :
    r.findFlag name = some flag ↔ flag ∈ r.flags ∧ flag.name = name := by
  constructor
  · exact mem_of_findFlag
  · rintro ⟨hmem, rfl⟩
    cases hfind : r.findFlag flag.name with
    | none =>
      have hnone := List.find?_eq_none.mp hfind flag hmem
      simp at hnone
    | some g =>
      obtain ⟨hg, hname⟩ := mem_of_findFlag hfind
      rw [eq_of_name_eq hg hmem hname]

theorem findFlag_eq_none_iff {r : FlagRegistry} {name : Bytes} :
    r.findFlag name = none ↔ name ∉ r.flags.map fun flag => flag.name := by
  unfold findFlag
  simp [List.find?_eq_none]

/-! ## Registries with the same flags -/

/-- The flags are the old ones in their order, each related to its old self. -/
def Stepwise (R : CommandLineFlag → CommandLineFlag → Prop) (r r' : FlagRegistry) : Prop :=
  List.Forall₂ R r.flags r'.flags

variable {R : CommandLineFlag → CommandLineFlag → Prop}

theorem Stepwise.refl (hrefl : ∀ flag, R flag flag) (r : FlagRegistry) : Stepwise R r r :=
  List.forall₂_same.mpr fun flag _ => hrefl flag

theorem Stepwise.trans (htrans : ∀ f g h, R f g → R g h → R f h) {r r' r'' : FlagRegistry} (h : Stepwise R r r')
    (h' : Stepwise R r' r'') : Stepwise R r r'' := by
  unfold Stepwise at h h' ⊢
  generalize r.flags = fs at h ⊢
  generalize r'.flags = gs at h h'
  generalize r''.flags = hs at h' ⊢
  induction h generalizing hs with
  | nil =>
    cases h'
    exact List.Forall₂.nil
  | cons hf _ ih =>
    cases h' with
    | cons hg hgs => exact List.Forall₂.cons (htrans _ _ _ hf hg) (ih _ hgs)

theorem Stepwise.mono {S : CommandLineFlag → CommandLineFlag → Prop} {r r' : FlagRegistry} (h : Stepwise R r r')
    (hRS : ∀ f g, R f g → S f g) : Stepwise S r r' := List.Forall₂.imp hRS h

/-- **Frame rule.** A new state of one flag is a step of that flag and of no other. -/
theorem stepwise_put (hrefl : ∀ flag, R flag flag) {r : FlagRegistry} {name : Bytes} {flag : CommandLineFlag}
    (hfind : r.findFlag name = some flag) {state : FlagState flag.type} (hstep : R flag (flag.withState state)) :
    Stepwise R r (r.put flag state) := by
  obtain ⟨hmem, -⟩ := mem_of_findFlag hfind
  unfold Stepwise put
  rw [List.forall₂_map_right_iff, List.forall₂_same]
  intro g hg
  split
  · rename_i hname
    rw [eq_of_name_eq hg hmem hname]
    exact hstep
  · exact hrefl g

theorem findFlag_put {r : FlagRegistry} {name : Bytes} {flag : CommandLineFlag} (hfind : r.findFlag name = some flag)
    (state : FlagState flag.type) : (r.put flag state).findFlag name = some (flag.withState state) := by
  obtain ⟨hmem, hname⟩ := mem_of_findFlag hfind
  apply findFlag_eq_some_iff.mpr
  refine ⟨List.mem_map.mpr ⟨flag, hmem, if_pos rfl⟩, hname⟩

theorem findFlag_put_ne (r : FlagRegistry) {name : Bytes} {flag : CommandLineFlag} (hname : flag.name ≠ name)
    (state : FlagState flag.type) : (r.put flag state).findFlag name = r.findFlag name := by
  unfold findFlag put
  dsimp only
  induction r.flags with
  | nil => rfl
  | cons g gs ih =>
    rw [List.map_cons, List.find?_cons, List.find?_cons, ih]
    by_cases hg : g.name = flag.name
    · have hflag : ((flag.withState state).name == name) = false := beq_eq_false_iff_ne.mpr hname
      have hgname : (g.name == name) = false := beq_eq_false_iff_ne.mpr (hg ▸ hname)
      rw [if_pos hg, hflag, hgname]
    · rw [if_neg hg]

/-- A flag is found in both registries, or in neither. -/
theorem Stepwise.findFlag (hname : ∀ f g, R f g → g.name = f.name) {r r' : FlagRegistry} (h : Stepwise R r r')
    (name : Bytes) : Option.Rel R (r.findFlag name) (r'.findFlag name) := by
  unfold FlagRegistry.findFlag
  unfold Stepwise at h
  generalize r.flags = fs at h
  generalize r'.flags = gs at h
  induction h with
  | nil => exact Option.Rel.none
  | @cons f g fs gs hfg _ ih =>
    rw [List.find?_cons, List.find?_cons, hname f g hfg]
    cases f.name == name with
    | true => exact Option.Rel.some hfg
    | false => exact ih

theorem Stepwise.exists_findFlag (hname : ∀ f g, R f g → g.name = f.name) {r r' : FlagRegistry}
    (h : Stepwise R r r') {name : Bytes} {flag : CommandLineFlag} (hfind : r.findFlag name = some flag) :
    ∃ flag', r'.findFlag name = some flag' ∧ R flag flag' := by
  have hrel := h.findFlag hname name
  rw [hfind] at hrel
  cases hfind' : r'.findFlag name with
  | none =>
    rw [hfind'] at hrel
    cases hrel
  | some flag' =>
    rw [hfind'] at hrel
    cases hrel with
    | some hR => exact ⟨flag', rfl, hR⟩

/-! ## `RegisterFlag` -/

/-- Where `map::insert` puts a flag whose name is new. -/
def insertSorted (flag : CommandLineFlag) : List CommandLineFlag → List CommandLineFlag
  | [] => [flag]
  | g :: gs => if flag.name < g.name then flag :: g :: gs else g :: insertSorted flag gs

theorem insertSorted_perm (flag : CommandLineFlag) (gs : List CommandLineFlag) :
    (insertSorted flag gs).Perm (flag :: gs) := by
  induction gs with
  | nil => exact List.Perm.refl _
  | cons g gs ih =>
    unfold insertSorted
    split
    · exact List.Perm.refl _
    · exact (List.Perm.cons g ih).trans (List.Perm.swap flag g gs)

/-- Names that are not smaller and not equal are greater. -/
theorem lt_of_not_lt {a b : Bytes} (hlt : ¬ a < b) (hne : a ≠ b) : b < a := by
  by_contra hba
  exact hne (List.le_antisymm (List.not_lt.mp hba) (List.not_lt.mp hlt))

theorem insertSorted_sorted {flag : CommandLineFlag} {gs : List CommandLineFlag}
    (hsorted : (gs.map fun g => g.name).Pairwise (· < ·)) (hnew : flag.name ∉ gs.map fun g => g.name) :
    ((insertSorted flag gs).map fun g => g.name).Pairwise (· < ·) := by
  induction gs with
  | nil => exact List.pairwise_singleton _ _
  | cons g gs ih =>
    rw [List.map_cons, List.pairwise_cons] at hsorted
    rw [List.map_cons, List.mem_cons, not_or] at hnew
    unfold insertSorted
    split
    · rename_i hlt
      rw [List.map_cons, List.map_cons, List.pairwise_cons, List.pairwise_cons]
      refine ⟨?_, hsorted⟩
      intro name hname
      rcases List.mem_cons.mp hname with rfl | hname
      · exact hlt
      · exact List.lt_trans hlt (hsorted.1 name hname)
    · rename_i hlt
      rw [List.map_cons, List.pairwise_cons]
      refine ⟨?_, ih hsorted.2 hnew.2⟩
      intro name hname
      have hperm := (insertSorted_perm flag gs).map fun g => g.name
      rcases List.mem_cons.mp (hperm.mem_iff.mp hname) with rfl | hname
      · exact lt_of_not_lt hlt hnew.1
      · exact hsorted.1 name hname

/-- `RegisterFlag`. -/
def registerFlag (r : FlagRegistry) (flag : CommandLineFlag) : Outcome Exit FlagRegistry :=
  match hfind : r.findFlag flag.name with
  | some old =>
    if old.filename ≠ flag.filename then
      reportError (lit "ERROR: flag '" ++ flag.name ++ lit "' was defined more than once (in files '" ++ old.filename ++
        lit "' and '" ++ flag.filename ++ lit "').\n")
    else
      reportError (lit "ERROR: something wrong with flag '" ++ flag.name ++ lit "' in file '" ++ flag.filename ++
        lit "'.  One possibility: file '" ++ flag.filename ++
        lit "' is being linked both statically and dynamically into this executable.\n")
  | none => .returned ⟨insertSorted flag r.flags, insertSorted_sorted r.sorted (findFlag_eq_none_iff.mp hfind)⟩

/-- The registry before any flag is defined. -/
def empty : FlagRegistry := ⟨[], List.Pairwise.nil⟩

/-- The constructors of the `FlagRegisterer`s run one after the other. -/
def registerAll (flags : List CommandLineFlag) : Outcome Exit FlagRegistry := flags.foldlM registerFlag empty

/-- Two registries with the same flags are one. -/
theorem eq_of_perm {r r' : FlagRegistry} (h : r.flags.Perm r'.flags) : r = r' := by
  have hpairs : r.flags.Pairwise fun f g => f.name < g.name := List.pairwise_map.mp r.sorted
  have hpairs' : r'.flags.Pairwise fun f g => f.name < g.name := List.pairwise_map.mp r'.sorted
  have hflags : r.flags = r'.flags := by
    apply List.Perm.eq_of_pairwise _ hpairs hpairs' h
    intro f g _ _ hfg hgf
    exact absurd hgf (List.lt_asymm hfg)
  obtain ⟨flags, _⟩ := r
  obtain ⟨flags', _⟩ := r'
  cases hflags
  rfl

theorem registerFlag_new {r : FlagRegistry} {flag : CommandLineFlag} (hnew : flag.name ∉ r.flags.map fun g => g.name) :
    ∃ r', r.registerFlag flag = .returned r' ∧ r'.flags.Perm (flag :: r.flags) := by
  unfold registerFlag
  split
  · rename_i hfind
    exact absurd (findFlag_eq_none_iff.mpr hnew) (by simp [hfind])
  · exact ⟨_, rfl, insertSorted_perm flag r.flags⟩

theorem registerFlag_old {r : FlagRegistry} {flag : CommandLineFlag} (hold : flag.name ∈ r.flags.map fun g => g.name) :
    ∃ e, r.registerFlag flag = .exited e := by
  unfold registerFlag
  split
  · split
    · exact ⟨_, rfl⟩
    · exact ⟨_, rfl⟩
  · rename_i hfind
    exact absurd hold (findFlag_eq_none_iff.mp hfind)

/-- Flags with different names are all registered. -/
theorem foldlM_registerFlag_nodup {flags : List CommandLineFlag} {r : FlagRegistry}
    (hnodup : ((r.flags ++ flags).map fun g => g.name).Nodup) :
    ∃ r', flags.foldlM registerFlag r = .returned r' ∧ r'.flags.Perm (r.flags ++ flags) := by
  induction flags generalizing r with
  | nil => exact ⟨r, rfl, by rw [List.append_nil]⟩
  | cons flag flags ih =>
    have hmiddle : (r.flags ++ flag :: flags).Perm (flag :: r.flags ++ flags) := List.perm_middle
    have hnodup' := (hmiddle.map fun g => g.name).nodup_iff.mp hnodup
    rw [List.cons_append, List.map_cons, List.nodup_cons, List.map_append, List.mem_append, not_or] at hnodup'
    obtain ⟨r', hr', hperm⟩ := registerFlag_new hnodup'.1.1
    have hperm' : (r'.flags ++ flags).Perm (r.flags ++ flag :: flags) := (hperm.append_right flags).trans hmiddle.symm
    obtain ⟨r'', hr'', hflags⟩ := ih ((hperm'.map fun g => g.name).nodup_iff.mpr hnodup)
    refine ⟨r'', ?_, hflags.trans hperm'⟩
    rw [List.foldlM_cons, hr']
    exact hr''

/-- A name that is used twice ends the process. -/
theorem foldlM_registerFlag_dup {flags : List CommandLineFlag} {r : FlagRegistry}
    (hdup : ¬ ((r.flags ++ flags).map fun g => g.name).Nodup) : ∃ e, flags.foldlM registerFlag r = .exited e := by
  induction flags generalizing r with
  | nil =>
    rw [List.append_nil] at hdup
    exact absurd r.names_nodup hdup
  | cons flag flags ih =>
    rw [List.foldlM_cons]
    by_cases hold : flag.name ∈ r.flags.map fun g => g.name
    · obtain ⟨e, he⟩ := registerFlag_old hold
      exact ⟨e, by rw [he]; rfl⟩
    · obtain ⟨r', hr', hperm⟩ := registerFlag_new hold
      have hperm' : (r'.flags ++ flags).Perm (r.flags ++ flag :: flags) :=
        (hperm.append_right flags).trans List.perm_middle.symm
      obtain ⟨e, he⟩ := ih fun h => hdup ((hperm'.map fun g => g.name).nodup_iff.mp h)
      exact ⟨e, by rw [hr']; exact he⟩

/-! ## The library's own flags -/

/-- `DEFINE_string`. -/
def defineString (name val txt filename : Bytes) : CommandLineFlag where
  name := name
  help := txt
  filename := filename
  type := .string
  state := ⟨false, val, val, none⟩

/-- `DEFINE_string(flagfile, …)`. -/
def flagfileFlag : CommandLineFlag :=
  defineString (lit "flagfile") [] (lit "load flags from file") (lit "src/gflags.cc")

/-- `DEFINE_string(fromenv, …)`. -/
def fromenvFlag : CommandLineFlag :=
  defineString (lit "fromenv") [] (lit "set flags from the environment [use 'export FLAGS_flag1=value']")
    (lit "src/gflags.cc")

/-- `DEFINE_string(tryfromenv, …)`. -/
def tryfromenvFlag : CommandLineFlag :=
  defineString (lit "tryfromenv") [] (lit "set flags from the environment if present") (lit "src/gflags.cc")

/-- `DEFINE_string(undefok, …)`. -/
def undefokFlag : CommandLineFlag :=
  defineString (lit "undefok") [] (lit "comma-separated list of flag names that it is okay to specify on the " ++
    lit "command line even if the program does not define a flag with that name.  IMPORTANT: flags in this list " ++
    lit "that have arguments MUST use the flag=value format") (lit "src/gflags.cc")

/-- The flags that `gflags.cc` defines. -/
def gflagsFlags : List CommandLineFlag := [flagfileFlag, fromenvFlag, tryfromenvFlag, undefokFlag]

/-- The registry of a program without flags. -/
def gflagsRegistry : FlagRegistry where
  flags := gflagsFlags
  sorted := by decide

/-! ## Registration in any order -/

/-- **The order of registration does not matter.** Static constructors of different files run in any order; if the
    names differ the registry is always the same one, and if not the process ends in every order. -/
theorem registerAll_order {flags flags' : List CommandLineFlag} (hperm : flags.Perm flags') :
    ((flags.map fun flag => flag.name).Nodup →
      ∃ r, registerAll flags = .returned r ∧ registerAll flags' = .returned r ∧ r.flags.Perm flags) ∧
    (¬ (flags.map fun flag => flag.name).Nodup →
      (∃ e, registerAll flags = .exited e) ∧ ∃ e, registerAll flags' = .exited e) := by
  have hnames := (hperm.map fun flag : CommandLineFlag => flag.name).nodup_iff
  constructor
  · intro hnodup
    obtain ⟨r, hr, hflags⟩ := foldlM_registerFlag_nodup (r := empty) hnodup
    obtain ⟨r', hr', hflags'⟩ := foldlM_registerFlag_nodup (r := empty) (hnames.mp hnodup)
    have hsame : r = r' := eq_of_perm ((hflags.trans hperm).trans hflags'.symm)
    subst hsame
    exact ⟨r, hr, hr', hflags⟩
  · intro hdup
    exact ⟨foldlM_registerFlag_dup (r := empty) hdup,
      foldlM_registerFlag_dup (r := empty) fun h => hdup (hnames.mpr h)⟩

theorem registerAll_gflagsFlags : ∃ r, registerAll gflagsFlags = .returned r ∧
    registerAll gflagsFlags.reverse = .returned r ∧ r.flags.Perm gflagsFlags :=
  (registerAll_order (List.reverse_perm gflagsFlags).symm).1 (by decide)

end FlagRegistry

end Thirdparty.Gflags
