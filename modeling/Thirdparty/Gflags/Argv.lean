import Thirdparty.Gflags.Recursion

/-!
# `Gflags.Argv` — the loop over the command line

`CommandLineFlagParser::ParseNewCommandLineFlags` of `gflags.cc` works in place: a program argument is moved to the end
of `argv` by `memmove`, and the loop ends where the moved arguments begin. Here the loop over the array is shown to be
a scan of the list of arguments (`scanArgs`): which arguments are options, which are not, and what is set in which
order. That the two agree also says where the arguments are left: those behind `--` come before the ones that stood
between the options.

`argv` is a list of C strings; `argv[0]` is there. The warning for a string flag that is given a value with a dash is
not modelled.

## Contents
- `isProgramArgument`, `stripDashes`, `missingArgument`.
- `argvStep`, `argvLoop`, `parseNewCommandLineFlags`: the loop over the array.
- `Event`, `performEvent`, `scanArgs`: the scan of the list.
- `argvLoop_eq`, `parseNewCommandLineFlags_eq`: the loop refines the scan.
-/

namespace Thirdparty.Gflags

open Outcome

/-! ## The loop over the array -/

/-- Not a flag: it has no leading dash, or it is a dash alone. -/
def isProgramArgument (arg : Bytes) : Bool := arg.head? != some dash || arg == [dash]

/-- One leading dash goes, or two. -/
def stripDashes (arg : Bytes) : Bytes :=
  let s := if arg.head? = some dash then arg.tail else arg
  if s.head? = some dash then s.tail else s

/-- The message for a flag at the end whose value is missing. -/
def missingArgument (flag : CommandLineFlag) (arg : Bytes) : Bytes :=
  kError ++ (lit "flag '" ++ arg ++ lit "'" ++ lit " is missing its argument" ++
    (if (flag.help.head?.any fun c => 1 < c && c < 128) then lit "; flag description: " ++ flag.help else [])) ++
    lit "\n"

/-- The variables of the loop. -/
structure ArgvLoop where
  i : Nat
  firstNonopt : Nat
  argv : List Bytes
  parser : Parser

/-- The body of the loop: on to the next round, or out of the loop. -/
def argvStep (w : World) (depth : Nat) (s : ArgvLoop) : Outcome Exit (ArgvLoop ⊕ ArgvLoop) :=
  let arg := s.argv.getD s.i []
  if isProgramArgument arg then
    -- `memmove`, and the argument goes last
    .returned (.inl { s with
      argv := s.argv.take s.i ++ s.argv.drop (s.i + 1) ++ [arg], firstNonopt := s.firstNonopt - 1 })
  else if stripDashes arg = [] then .returned (.inr { s with firstNonopt := s.i + 1 })
  else
    let split := splitArgument s.parser.registry (stripDashes arg)
    match split.flag with
    | .error message => .returned (.inl { s with i := s.i + 1, parser := s.parser.addUnknown split.key message })
    | .ok flag =>
      match split.value with
      | some value => do
        let (p, _) ← processSingleOption w depth s.parser flag.name (some value) .setFlagsValue
        return .inl { s with i := s.i + 1, parser := p }
      | none =>
        if s.i + 1 ≥ s.firstNonopt then
          .returned (.inr { s with parser := s.parser.addError split.key (missingArgument flag arg) })
        else do
          let value := s.argv.getD (s.i + 1) []
          let (p, _) ← processSingleOption w depth s.parser flag.name (some value) .setFlagsValue
          return .inl { s with i := s.i + 2, parser := p }

/-- The loop; a round brings `i` and `first_nonopt` closer together. -/
def argvLoop (w : World) (depth : Nat) : Nat → ArgvLoop → Outcome Exit ArgvLoop
  | 0, s => .returned s
  | n + 1, s =>
    if s.i < s.firstNonopt then do
      match ← argvStep w depth s with
      | .inl s => argvLoop w depth n s
      | .inr s => return s
    else .returned s

/-- The results: the returned index, `argv`, and the parser. -/
structure Parsed where
  firstNonopt : Nat
  argv : List Bytes
  parser : Parser

/-- `ParseNewCommandLineFlags`. -/
def parseNewCommandLineFlags (w : World) (depth : Nat) (p : Parser) (argv : List Bytes) (removeFlags : Bool) :
    Outcome Exit Parsed := do
  let s ← argvLoop w depth argv.length ⟨1, argv.length, argv, p⟩
  if removeFlags then
    return ⟨1, (s.argv.set (s.firstNonopt - 1) (s.argv.getD 0 [])).drop (s.firstNonopt - 1), s.parser⟩
  else return ⟨s.firstNonopt, s.argv, s.parser⟩

/-! ## The scan of the list -/

/-- What an option asks for. -/
inductive Event where
  /-- A flag is set. -/
  | set (name value : Bytes)
  /-- The name is not known. -/
  | unknown (key message : Bytes)
  /-- The last option has no value. -/
  | missing (key message : Bytes)

/-- What the parser does for it. -/
def performEvent (w : World) (depth : Nat) (p : Parser) : Event → Outcome Exit Parser
  | .set name value => do
    let (p, _) ← processSingleOption w depth p name (some value) .setFlagsValue
    return p
  | .unknown key message => .returned (p.addUnknown key message)
  | .missing key message => .returned (p.addError key message)

/-- The arguments, sorted: the options with their values and `--`, the program arguments between them, and what is
    behind `--`; and what the options ask for. -/
structure Scanned where
  options : List Bytes
  nonoptions : List Bytes
  rest : List Bytes
  events : List Event

/-- One more option in front. -/
def Scanned.consOption (s : Scanned) (args : List Bytes) (event : Event) : Scanned :=
  { s with options := args ++ s.options, events := event :: s.events }

/-- What an option says by itself. -/
inductive Reading where
  /-- It asks for something. -/
  | complete (event : Event)
  /-- The flag's value is the next argument; the message is for when there is none. -/
  | waiting (name key message : Bytes)

/-- The reading of an option. -/
def readOption (r : FlagRegistry) (arg : Bytes) : Reading :=
  let split := splitArgument r (stripDashes arg)
  match split.flag, split.value with
  | .error message, _ => .complete (.unknown split.key message)
  | .ok flag, some value => .complete (.set flag.name value)
  | .ok flag, none => .waiting flag.name split.key (missingArgument flag arg)

/-- The scan. -/
def scanArgs (r : FlagRegistry) : List Bytes → Scanned
  | [] => ⟨[], [], [], []⟩
  | arg :: args =>
    if isProgramArgument arg then
      let s := scanArgs r args
      { s with nonoptions := arg :: s.nonoptions }
    else if stripDashes arg = [] then ⟨[arg], [], args, []⟩
    else
      match readOption r arg with
      | .complete event => (scanArgs r args).consOption [arg] event
      | .waiting name key message =>
        match args with
        | [] => ⟨[arg], [], [], [.missing key message]⟩
        | value :: args => (scanArgs r args).consOption [arg, value] (.set name value)

/-- **What an option says depends on the declarations only.** -/
theorem readOption_same {r r' : FlagRegistry} (h : SameFlags r r') (arg : Bytes) :
    readOption r' arg = readOption r arg := by
  have hsame := splitArgument_same h (stripDashes arg)
  unfold readOption
  generalize splitArgument r (stripDashes arg) = split at hsame ⊢
  generalize splitArgument r' (stripDashes arg) = split' at hsame ⊢
  cases hsame with
  | error message key value => rfl
  | ok flag s key value => cases value <;> rfl

/-- The scan depends on the declarations only. -/
theorem scanArgs_same {r r' : FlagRegistry} (h : SameFlags r r') (args : List Bytes) :
    scanArgs r' args = scanArgs r args := by
  fun_induction scanArgs r args with
  | case1 => rfl
  | case2 arg args hprogram s ih => rw [scanArgs, if_pos hprogram, ih]
  | case3 arg args hprogram hdash => rw [scanArgs, if_neg hprogram, if_pos hdash]
  | case4 arg args hprogram hdash event hread ih =>
    have hread' := (readOption_same h arg).trans hread
    rw [scanArgs, if_neg hprogram, if_neg hdash]
    simp only [hread', ih]
  | case5 arg hprogram hdash name key message hread =>
    have hread' := (readOption_same h arg).trans hread
    rw [scanArgs, if_neg hprogram, if_neg hdash]
    simp only [hread']
  | case6 arg hprogram hdash name key message hread value args ih =>
    have hread' := (readOption_same h arg).trans hread
    rw [scanArgs, if_neg hprogram, if_neg hdash]
    simp only [hread', ih]

/-! ## The loop refines the scan -/

/-- What the loop leaves, without its index. -/
def ArgvLoop.result (s : ArgvLoop) : Nat × List Bytes × Parser := (s.firstNonopt, s.argv, s.parser)

/-- What the scan says the loop leaves: the arguments in front, those that were scanned, and those moved before. -/
def Scanned.result (s : Scanned) (front moved : List Bytes) (p : Parser) : Nat × List Bytes × Parser :=
  (front.length + s.options.length, front ++ (s.options ++ (s.rest ++ (moved ++ s.nonoptions))), p)

theorem getD_append_cons (front : List Bytes) (arg : Bytes) (behind : List Bytes) :
    (front ++ arg :: behind).getD front.length [] = arg := by
  rw [List.getD_eq_getElem?_getD, List.getElem?_append_right (Nat.le_refl _), Nat.sub_self]
  rfl

/-- `memmove`, and the argument goes last. -/
theorem take_drop_append (front : List Bytes) (arg : Bytes) (behind : List Bytes) :
    (front ++ arg :: behind).take front.length ++ (front ++ arg :: behind).drop (front.length + 1) ++ [arg] =
      front ++ (behind ++ [arg]) := by
  rw [List.take_left, List.drop_append, List.drop_eq_nil_of_le (Nat.le_succ _), Nat.add_sub_cancel_left]
  simp

section

variable {w : World} {depth : Nat} {r : FlagRegistry}

/-- The loop on the arguments `todo`, with those in front of the index done and those behind `first_nonopt` moved. -/
def scanning (front todo moved : List Bytes) (p : Parser) : ArgvLoop :=
  ⟨front.length, front.length + todo.length, front ++ (todo ++ moved), p⟩

theorem scanning_cons (front args todo moved : List Bytes) (p : Parser) :
    (⟨front.length + args.length, front.length + (args ++ todo).length, front ++ (args ++ todo ++ moved), p⟩ :
      ArgvLoop) = scanning (front ++ args) todo moved p := by
  unfold scanning
  simp [Nat.add_assoc]

theorem Scanned.result_consOption (s : Scanned) (args : List Bytes) (event : Event) (front moved : List Bytes)
    (p : Parser) : (s.consOption args event).result front moved p = s.result (front ++ args) moved p := by
  unfold Scanned.result Scanned.consOption
  simp [Nat.add_assoc]

theorem Scanned.foldlM_consOption (s : Scanned) (args : List Bytes) (event : Event)
    (f : Parser → Event → Outcome Exit Parser) (p : Parser) :
    (s.consOption args event).events.foldlM f p = f p event >>= fun q => s.events.foldlM f q :=
  List.foldlM_cons

@[simp] theorem parser_scanning (front todo moved : List Bytes) (p : Parser) :
    (scanning front todo moved p).parser = p := rfl

/-- The argument at the index. -/
theorem scanning_arg (front : List Bytes) (arg : Bytes) (todo moved : List Bytes) (p : Parser) :
    (scanning front (arg :: todo) moved p).argv.getD (scanning front (arg :: todo) moved p).i [] = arg :=
  getD_append_cons _ _ _

/-- The one behind it. -/
theorem scanning_next (front : List Bytes) (arg value : Bytes) (todo moved : List Bytes) (p : Parser) :
    (scanning front (arg :: value :: todo) moved p).argv.getD
      ((scanning front (arg :: value :: todo) moved p).i + 1) [] = value := by
  unfold scanning
  simp

/-- A program argument is moved. -/
theorem argvStep_program {arg : Bytes} (h : isProgramArgument arg = true) (front todo moved : List Bytes) (p : Parser) :
    argvStep w depth (scanning front (arg :: todo) moved p) =
      .returned (.inl (scanning front todo (moved ++ [arg]) p)) := by
  have hmove := take_drop_append front arg (todo ++ moved)
  unfold argvStep scanning
  dsimp only
  rw [List.cons_append, getD_append_cons, if_pos h, hmove, List.length_cons, List.append_assoc]
  rfl

/-- Two dashes end the options. -/
theorem argvStep_dashes {arg : Bytes} (h : isProgramArgument arg = false) (hdash : stripDashes arg = [])
    (front todo moved : List Bytes) (p : Parser) :
    argvStep w depth (scanning front (arg :: todo) moved p) =
      .returned (.inr { scanning front (arg :: todo) moved p with firstNonopt := front.length + 1 }) := by
  unfold argvStep
  dsimp only
  rw [scanning_arg, if_neg (by simp [h]), if_pos hdash]
  rfl

/-- An option that says by itself what it asks for. -/
theorem argvStep_complete {arg : Bytes} {p : Parser} {event : Event} (h : isProgramArgument arg = false)
    (hdash : stripDashes arg ≠ []) (hread : readOption p.registry arg = .complete event)
    (front todo moved : List Bytes) :
    argvStep w depth (scanning front (arg :: todo) moved p) =
      (performEvent w depth p event >>= fun q => .returned (.inl (scanning (front ++ [arg]) todo moved q))) := by
  unfold readOption at hread
  unfold argvStep
  dsimp only at hread ⊢
  rw [scanning_arg, parser_scanning, if_neg (by simp [h]), if_neg hdash]
  simp only [← scanning_cons front [arg] todo]
  generalize splitArgument p.registry (stripDashes arg) = split at hread ⊢
  obtain ⟨flag, key, value⟩ := split
  cases flag with
  | error message =>
    cases hread
    rfl
  | ok flag =>
    cases value with
    | none => cases hread
    | some value =>
      cases hread
      unfold performEvent
      rw [bind_assoc]
      rfl

/-- The last option has no value. -/
theorem argvStep_missing {arg : Bytes} {p : Parser} {name key message : Bytes} (h : isProgramArgument arg = false)
    (hdash : stripDashes arg ≠ []) (hread : readOption p.registry arg = .waiting name key message)
    (front moved : List Bytes) :
    argvStep w depth (scanning front [arg] moved p) =
      .returned (.inr (scanning front [arg] moved (p.addError key message))) := by
  have hend : (scanning front [arg] moved p).i + 1 ≥ (scanning front [arg] moved p).firstNonopt := le_refl _
  unfold readOption at hread
  unfold argvStep
  dsimp only at hread ⊢
  rw [scanning_arg, parser_scanning, if_neg (by simp [h]), if_neg hdash]
  generalize splitArgument p.registry (stripDashes arg) = split at hread ⊢
  obtain ⟨flag, key, value⟩ := split
  cases flag with
  | error message => cases hread
  | ok flag =>
    cases value with
    | some value => cases hread
    | none =>
      cases hread
      dsimp only
      rw [if_pos hend]
      rfl

/-- An option and its value behind it. -/
theorem argvStep_next {arg : Bytes} {p : Parser} {name key message : Bytes} (h : isProgramArgument arg = false)
    (hdash : stripDashes arg ≠ []) (hread : readOption p.registry arg = .waiting name key message)
    (front : List Bytes) (value : Bytes) (todo moved : List Bytes) :
    argvStep w depth (scanning front (arg :: value :: todo) moved p) =
      (performEvent w depth p (.set name value) >>= fun q =>
        .returned (.inl (scanning (front ++ [arg, value]) todo moved q))) := by
  have hmore : ¬ ((scanning front (arg :: value :: todo) moved p).i + 1 ≥
      (scanning front (arg :: value :: todo) moved p).firstNonopt) := by
    unfold scanning
    simp
  unfold readOption at hread
  unfold argvStep
  dsimp only at hread ⊢
  rw [scanning_arg, parser_scanning, if_neg (by simp [h]), if_neg hdash]
  simp only [← scanning_cons front [arg, value] todo]
  generalize splitArgument p.registry (stripDashes arg) = split at hread ⊢
  obtain ⟨flag, key, text⟩ := split
  cases flag with
  | error message => cases hread
  | ok flag =>
    cases text with
    | some text => cases hread
    | none =>
      cases hread
      unfold performEvent
      dsimp only
      rw [if_neg hmore, scanning_next, bind_assoc]
      rfl

/-- What an option does leaves the flags the same. -/
theorem performEvent_ensures {p : Parser} (hp : SameFlags r p.registry) (event : Event) :
    Ensures (performEvent w depth p event) fun q => SameFlags r q.registry := by
  cases event with
  | set name value =>
    refine Ensures.bind (sameFlags_of_ensures .setFlagsValue depth p name (some value) hp) ?_
    intro s hs
    exact ensures_returned.mpr hs
  | unknown key message => exact ensures_returned.mpr hp
  | missing key message => exact ensures_returned.mpr hp

/-- **The loop is the scan.** The arguments in front of the index are done with, those from `first_nonopt` on were
    moved there. -/
theorem argvLoop_eq {n : Nat} {front todo moved : List Bytes} {p : Parser} (hp : SameFlags r p.registry)
    (hn : todo.length ≤ n) :
    (argvLoop w depth n (scanning front todo moved p) >>= fun s => .returned s.result) =
      ((scanArgs r todo).events.foldlM (performEvent w depth) p >>= fun q =>
        .returned ((scanArgs r todo).result front moved q)) := by
  induction n generalizing front todo moved p with
  | zero =>
    have hnil : todo = [] := List.eq_nil_of_length_eq_zero (Nat.le_zero.mp hn)
    subst hnil
    unfold argvLoop scanArgs ArgvLoop.result Scanned.result scanning
    simp
  | succ n ih =>
    cases todo with
    | nil =>
      unfold argvLoop scanArgs ArgvLoop.result Scanned.result scanning
      simp
    | cons arg todo =>
      have hlt : (scanning front (arg :: todo) moved p).i < (scanning front (arg :: todo) moved p).firstNonopt := by
        unfold scanning
        simp
      rw [List.length_cons] at hn
      have hlength : todo.length ≤ n := Nat.le_of_succ_le_succ hn
      unfold argvLoop scanArgs
      rw [if_pos hlt]
      by_cases hprogram : isProgramArgument arg = true
      · rw [argvStep_program hprogram, if_pos hprogram]
        refine (ih hp hlength).trans ?_
        unfold Scanned.result
        simp
      rw [if_neg hprogram]
      rw [Bool.not_eq_true] at hprogram
      by_cases hdash : stripDashes arg = []
      · rw [argvStep_dashes hprogram hdash, if_pos hdash]
        unfold ArgvLoop.result Scanned.result scanning
        simp
      rw [if_neg hdash]
      have hread' := readOption_same hp arg
      cases hread : readOption r arg with
      | complete event =>
        rw [argvStep_complete hprogram hdash (hread'.trans hread)]
        simp only [Scanned.result_consOption, Scanned.foldlM_consOption, bind_assoc]
        exact (performEvent_ensures hp event).bind_congr fun q hq => ih hq hlength
      | waiting name key message =>
        cases todo with
        | nil =>
          rw [argvStep_missing hprogram hdash (hread'.trans hread)]
          unfold ArgvLoop.result Scanned.result scanning
          simp [performEvent]
        | cons value todo =>
          rw [argvStep_next hprogram hdash (hread'.trans hread)]
          simp only [Scanned.result_consOption, Scanned.foldlM_consOption, bind_assoc]
          have hshort := Nat.le_of_succ_le hlength
          exact (performEvent_ensures hp (.set name value)).bind_congr fun q hq => ih hq hshort

/-! ## The results -/

/-- The arguments behind the program's name, after the loop. -/
def Scanned.args (s : Scanned) : List Bytes := s.options ++ (s.rest ++ s.nonoptions)

/-- What the caller gets. -/
def Scanned.parsed (s : Scanned) (program : Bytes) (removeFlags : Bool) (q : Parser) : Parsed :=
  if removeFlags then ⟨1, program :: (s.rest ++ s.nonoptions), q⟩
  else ⟨1 + s.options.length, program :: s.args, q⟩

/-- The end of `ParseNewCommandLineFlags`, on what the loop leaves. -/
def leaveArgv (removeFlags : Bool) (result : Nat × List Bytes × Parser) : Parsed :=
  if removeFlags then
    ⟨1, (result.2.1.set (result.1 - 1) (result.2.1.getD 0 [])).drop (result.1 - 1), result.2.2⟩
  else ⟨result.1, result.2.1, result.2.2⟩

/-- The program's name goes over the last option. -/
theorem drop_set_cons (program : Bytes) (options behind : List Bytes) :
    ((program :: (options ++ behind)).set options.length program).drop options.length = program :: behind := by
  have hlt : options.length < (program :: (options ++ behind)).length := by
    rw [List.length_cons, List.length_append]
    omega
  rw [List.drop_set, if_neg (Nat.lt_irrefl _), Nat.sub_self, List.drop_eq_getElem_cons hlt, List.set_cons_zero,
    List.drop_succ_cons, List.drop_left]

theorem leaveArgv_result (s : Scanned) (program : Bytes) (removeFlags : Bool) (q : Parser) :
    leaveArgv removeFlags (s.result [program] [] q) = s.parsed program removeFlags q := by
  cases removeFlags with
  | false =>
    unfold leaveArgv Scanned.result Scanned.parsed Scanned.args
    simp
  | true =>
    have hdrop := drop_set_cons program s.options (s.rest ++ s.nonoptions)
    unfold leaveArgv Scanned.result Scanned.parsed
    simpa using hdrop

/-- **What the loop over `argv` computes.** It does what the options ask for, in their order; the options stay in front
    of the rest, or are removed. -/
theorem parseNewCommandLineFlags_scan (p : Parser) (program : Bytes) (args : List Bytes) (removeFlags : Bool) :
    parseNewCommandLineFlags w depth p (program :: args) removeFlags =
      ((scanArgs p.registry args).events.foldlM (performEvent w depth) p >>= fun q =>
        .returned ((scanArgs p.registry args).parsed program removeFlags q)) := by
  have hstart : scanning [program] args [] p = ⟨1, (program :: args).length, program :: args, p⟩ := by
    unfold scanning
    simp [Nat.add_comm]
  have hloop : (argvLoop w depth (args.length + 1) (scanning [program] args [] p) >>= fun s => .returned s.result) =
      ((scanArgs p.registry args).events.foldlM (performEvent w depth) p >>= fun q =>
        .returned ((scanArgs p.registry args).result [program] [] q)) :=
    argvLoop_eq (SameFlags.refl p.registry) (Nat.le_succ args.length)
  rw [hstart] at hloop
  have hdone : parseNewCommandLineFlags w depth p (program :: args) removeFlags =
      argvLoop w depth (args.length + 1) ⟨1, (program :: args).length, program :: args, p⟩ >>=
        (fun s => .returned s.result) >>= fun result => .returned (leaveArgv removeFlags result) := by
    rw [bind_assoc]
    unfold parseNewCommandLineFlags
    cases removeFlags <;> rfl
  rw [hdone, hloop, bind_assoc]
  simp only [returned_bind, leaveArgv_result]

theorem nonoptions_program (r : FlagRegistry) (args : List Bytes) :
    ∀ arg ∈ (scanArgs r args).nonoptions, isProgramArgument arg = true := by
  fun_induction scanArgs r args with
  | case1 => simp
  | case2 arg args hprogram s ih => exact List.forall_mem_cons.mpr ⟨hprogram, ih⟩
  | case3 => simp
  | case4 arg args hprogram hdash event hread ih => exact ih
  | case5 => simp
  | case6 arg hprogram hdash name key message hread value args ih => exact ih

/-- Program arguments alone are left where they are. -/
theorem scanArgs_program {r : FlagRegistry} {args : List Bytes} (h : ∀ arg ∈ args, isProgramArgument arg = true) :
    scanArgs r args = ⟨[], args, [], []⟩ := by
  induction args with
  | nil => rfl
  | cons arg args ih =>
    obtain ⟨harg, hargs⟩ := List.forall_mem_cons.mp h
    unfold scanArgs
    rw [if_pos harg, ih hargs]

/-- No option misses its value. -/
def Scanned.Complete (s : Scanned) : Prop := ∀ key message, Event.missing key message ∉ s.events

/-- The scan `t` finds the options of `s` again, and `behind` where the program arguments of `s` were. -/
structure Scanned.Repeated (s : Scanned) (behind : List Bytes) (t : Scanned) : Prop where
  options : t.options = s.options
  events : t.events = s.events
  args : t.rest ++ t.nonoptions = s.rest ++ behind

theorem Scanned.Repeated.consOption {s t : Scanned} {behind : List Bytes} (h : s.Repeated behind t) (args : List Bytes)
    (event : Event) : (s.consOption args event).Repeated behind (t.consOption args event) where
  options := congrArg (args ++ ·) h.options
  events := congrArg (event :: ·) h.events
  args := h.args

theorem Scanned.Complete.of_consOption {s : Scanned} {args : List Bytes} {event : Event}
    (h : (s.consOption args event).Complete) : s.Complete :=
  fun key message hmem => h key message (List.mem_cons_of_mem _ hmem)

theorem repeated_consOption {r : FlagRegistry} {args behind arguments : List Bytes} {event : Event}
    (hscan : ∀ rest, scanArgs r (arguments ++ rest) = (scanArgs r rest).consOption arguments event)
    (h : (scanArgs r args).Repeated behind
      (scanArgs r ((scanArgs r args).options ++ ((scanArgs r args).rest ++ behind)))) :
    ((scanArgs r args).consOption arguments event).Repeated behind
      (scanArgs r (((scanArgs r args).consOption arguments event).options ++
        (((scanArgs r args).consOption arguments event).rest ++ behind))) := by
  have hcons := h.consOption arguments event
  have hagain := hscan ((scanArgs r args).options ++ ((scanArgs r args).rest ++ behind))
  rw [← hagain, ← List.append_assoc] at hcons
  exact hcons

/-- The options, and what is behind them, are scanned as before. -/
theorem scanArgs_repeated {r : FlagRegistry} {args behind : List Bytes} (hcomplete : (scanArgs r args).Complete)
    (hbehind : ∀ arg ∈ behind, isProgramArgument arg = true) :
    (scanArgs r args).Repeated behind
      (scanArgs r ((scanArgs r args).options ++ ((scanArgs r args).rest ++ behind))) := by
  fun_induction scanArgs r args with
  | case1 =>
    have hscan := scanArgs_program (r := r) hbehind
    simp only [List.nil_append, hscan]
    exact ⟨rfl, rfl, rfl⟩
  | case2 arg args hprogram s ih => 
    have h := ih hcomplete
    exact ⟨h.options, h.events, h.args⟩
  | case3 arg args hprogram hdash => 
    simp only [List.singleton_append, scanArgs, if_neg hprogram, if_pos hdash]
    exact ⟨rfl, rfl, by simp⟩
  | case4 arg args hprogram hdash event hread ih =>
    have hscan (rest : List Bytes) : scanArgs r ([arg] ++ rest) = (scanArgs r rest).consOption [arg] event := by
      rw [List.singleton_append, scanArgs, if_neg hprogram, if_neg hdash, hread]
    exact repeated_consOption hscan (ih hcomplete.of_consOption)
  | case5 arg hprogram hdash name key message hread => exact absurd List.mem_cons_self (hcomplete key message)
  | case6 arg hprogram hdash name key message hread value args ih =>
    have hscan (rest : List Bytes) : scanArgs r ([arg, value] ++ rest) =
        (scanArgs r rest).consOption [arg, value] (.set name value) := by
      rw [List.cons_append, List.singleton_append, scanArgs, if_neg hprogram, if_neg hdash, hread]
    exact repeated_consOption hscan (ih hcomplete.of_consOption)

/-- **The arguments are only moved.** The options keep their order, the program arguments between them keep theirs. -/
structure Scanned.Moved (s : Scanned) (args : List Bytes) : Prop where
  perm : s.args.Perm args
  options : (s.options ++ s.rest).Sublist args
  nonoptions : s.nonoptions.Sublist args

theorem Scanned.Moved.consOption {s : Scanned} {args : List Bytes} (h : s.Moved args) (arguments : List Bytes)
    (event : Event) : (s.consOption arguments event).Moved (arguments ++ args) where
  perm := by
    unfold Scanned.args Scanned.consOption
    rw [List.append_assoc]
    exact h.perm.append_left arguments
  options := by
    unfold Scanned.consOption
    rw [List.append_assoc]
    exact h.options.append_left arguments
  nonoptions := h.nonoptions.trans (List.sublist_append_right arguments args)

theorem scanArgs_moved (r : FlagRegistry) (args : List Bytes) : (scanArgs r args).Moved args := by
  fun_induction scanArgs r args with
  | case1 => exact ⟨List.Perm.refl _, List.Sublist.refl _, List.Sublist.refl _⟩
  | case2 arg args hprogram s ih =>
    refine ⟨?_, ih.options.cons arg, ih.nonoptions.cons_cons arg⟩
    have hmiddle : (s.options ++ (s.rest ++ arg :: s.nonoptions)).Perm (arg :: s.args) := by
      unfold Scanned.args
      rw [← List.append_assoc, ← List.append_assoc]
      exact List.perm_middle
    exact hmiddle.trans (ih.perm.cons arg)
  | case3 arg args hprogram hdash =>
    refine ⟨?_, List.Sublist.refl _, List.nil_sublist _⟩
    unfold Scanned.args
    simp
  | case4 arg args hprogram hdash event hread ih => exact ih.consOption [arg] event
  | case5 => exact ⟨List.Perm.refl _, List.Sublist.refl _, List.nil_sublist _⟩
  | case6 arg hprogram hdash name key message hread value args ih => exact ih.consOption [arg, value] _

end

end Thirdparty.Gflags
