import Thirdparty.Glog.FirstFatal

/-!
# `Glog.HookCalls` — what the failure-message hook is told

`SendToLog` calls the hook with the fields of `crash_reason` for every FATAL message, but only the message on the
exclusive data fills them, and it does so when it is flushed, not when it is constructed. A FATAL message on the
shared data that overtakes it, in another thread or among its own operands, hands the hook NULL, 0 and NULL.

## Contents
- `HooksInformed`: every hook call was told of the message that obtained the exclusive data.
- `HookAfterFirst`: hooks are called when the first message has gone through `SendToLog`; `HooksFilled`: the
  invariant of the runs with such hook calls only; `informed_of_along`.
- `hook_initial`: any other hook call is told nothing.
- `exists_report`: a thread can always bring a FATAL message to its hook; `exists_overtaking`: so the first one can
  be overtaken until it has gone through `SendToLog`.
-/

namespace Thirdparty.Glog

open Trace

variable {T : Type*} [DecidableEq T] {cfg : Settings} {s s' : RunState T} {t : T} {m : Move}

/-- **What the hook is promised.** Its calls come after `RecordCrashReason`, and all of them get the file, the line
    and the message pointer of the one message that obtained the exclusive data. -/
structure HooksInformed (s : RunState T) : Prop where
  recordedBefore : ∀ pre exclusive args post,
    s.history = pre ++ .hook exclusive args :: post → .recorded ∈ pre
  first : ∀ exclusive args, .hook exclusive args ∈ s.history → ∃ site, s.obtainedSites = [site] ∧
    args = ⟨some site.file, site.line, some s.statics.fatalMsgDataExclusive.numPrefixChars⟩
  notInitial : ∀ exclusive args, .hook exclusive args ∈ s.history → args ≠ .initial
  same : ∀ exclusive args exclusive' args', .hook exclusive args ∈ s.history →
    .hook exclusive' args' ∈ s.history → args = args'

/-- A hook is called when the first message has gone through `SendToLog`. -/
def HookAfterFirst (s : RunState T) (a : T × Move) : Prop := a.2 = .hook → .unlocked true ∈ s.history

/-- The invariant of the runs with such hook calls only: the calls so far got what is recorded. -/
structure HooksFilled (s : RunState T) : Prop where
  recordedBefore : ∀ pre exclusive args post,
    s.history = pre ++ .hook exclusive args :: post → .recorded ∈ pre
  args : ∀ exclusive args, .hook exclusive args ∈ s.history → args = recordCrashReason s.statics
  unlocked : ∀ exclusive args, .hook exclusive args ∈ s.history → .unlocked true ∈ s.history

/-! ## What the stages say about hook calls -/

omit [DecidableEq T] in
/-- Once the first message has gone through `SendToLog`, its record stands. -/
theorem Stage.of_unlocked (h : Stage s) (hunlocked : .unlocked true ∈ s.history) :
    ∃ site, s.obtainedSites = [site] ∧ FilledFrom s site ∧
      s.statics.crashReason = recordCrashReason s.statics ∧ .recorded ∈ s.history := by
  cases h with
  | unclaimed hun => exact absurd hunlocked hun.unlocked
  | claimed _ _ _ _ hun => exact absurd hunlocked hun.unlocked
  | filled _ hun => exact absurd hunlocked hun.unlocked
  | recorded site _ hsites hfilled hcrash hrecorded => exact ⟨site, hsites, hfilled, hcrash, hrecorded⟩

omit [DecidableEq T] in
/-- Before that, `crash_reason` is as it was before `main`. -/
theorem Stage.crash_initial (h : Stage s) (hunlocked : .unlocked true ∉ s.history) :
    s.statics.crashReason = .initial := by
  cases h with
  | unclaimed hun => exact hun.crash
  | claimed _ _ _ _ hun => exact hun.crash
  | filled _ hun => exact hun.crash
  | recorded _ _ _ _ _ _ hdone => exact absurd hdone hunlocked

omit [DecidableEq T] in
/-- A message on the exclusive data in the middle of `Init` has not been through `SendToLog`. -/
theorem Stage.not_unlocked_of_claimer (h : Stage s) {f : Frame} {rest : List Frame} (hstack : s.stack t = f :: rest)
    (hex : f.data.isExclusive = true) (hphase : f.phase = .constructing) : .unlocked true ∉ s.history := by
  cases h with
  | unclaimed hun => exact hun.unlocked
  | claimed _ _ _ _ hun => exact hun.unlocked
  | filled _ hun => exact hun.unlocked
  | recorded _ _ _ _ _ _ _ hframes => exact absurd hphase (hframes.top hstack hex)

/-- A recorded crash reason is not recorded differently later. -/
theorem recordCrashReason_step (hkind : StepKind cfg s s' t m) (h : Stage s)
    (hunlocked : .unlocked true ∈ s.history) : recordCrashReason s'.statics = recordCrashReason s.statics := by
  cases hkind with
  | quiet hq => exact hq.record.recordCrashReason
  | claim site severity _ _ hs' => subst hs'; rfl
  | fill ctx site severity rest hstack hs' =>
    cases h with
    | unclaimed hun => exact absurd hunlocked hun.unlocked
    | claimed _ _ _ _ hun => exact absurd hunlocked hun.unlocked
    | filled _ hun => exact absurd hunlocked hun.unlocked
    | recorded _ _ _ _ _ _ _ hframes => exact absurd rfl (hframes.top hstack rfl)
  | flush site severity rest s₀ text hstack hrecord hs' =>
    subst hs'
    exact hrecord.recordCrashReason
  | hook f rest hstack hphase hs' => subst hs'; rfl

/-- What a step adds to the history: no hook call, or just the one of the message on top. -/
theorem StepKind.history (hkind : StepKind cfg s s' t m) :
    (∃ events, s'.history = s.history ++ events ∧ ∀ exclusive args, .hook exclusive args ∉ events) ∨
    (m = .hook ∧ ∃ f rest, s.stack t = f :: rest ∧ f.phase = .unlocked ∧
      s'.history = s.history ++ [.hook f.data.isExclusive s.statics.crashReason]) := by
  cases hkind with
  | quiet hq =>
    rcases hq.history with hh | hh
    · exact Or.inl ⟨[], by simpa using hh, by simp⟩
    · exact Or.inl ⟨_, hh, by simp⟩
  | claim site severity _ _ hs' => exact Or.inl ⟨_, by rw [hs']; rfl, by simp⟩
  | fill ctx site severity rest hstack hs' => exact Or.inl ⟨_, by rw [hs']; rfl, by simp⟩
  | flush site severity rest s₀ text hstack hrecord hs' => exact Or.inl ⟨_, by rw [hs']; rfl, by simp⟩
  | hook f rest hstack hphase hs' => exact Or.inr ⟨rfl, f, rest, hstack, hphase, by rw [hs']; rfl⟩

/-- Nothing that happened is forgotten. -/
theorem StepKind.mem_history (hkind : StepKind cfg s s' t m) {e : Event} (he : e ∈ s.history) :
    e ∈ s'.history := by
  rcases hkind.history with ⟨events, hh, -⟩ | ⟨-, f, rest, -, -, hh⟩ <;>
    exact hh ▸ List.mem_append_left _ he

/-! ## Hook calls after the first message -/

omit [DecidableEq T] in
theorem hooksFilled_initial : HooksFilled (RunState.initial T) where
  recordedBefore pre exclusive args post h := by simp [RunState.initial] at h
  args _ _ h := nomatch h
  unlocked _ _ h := nomatch h

/-- A step without a hook call. -/
theorem HooksFilled.noHook (hh : HooksFilled s) (h : Stage s) (hkind : StepKind cfg s s' t m)
    {events : List Event} (hhist : s'.history = s.history ++ events)
    (hnone : ∀ exclusive args, .hook exclusive args ∉ events) : HooksFilled s' := by
  have hold : ∀ exclusive args, .hook exclusive args ∈ s'.history → .hook exclusive args ∈ s.history := by
    intro exclusive args hmem
    rw [hhist] at hmem
    exact (List.mem_append.mp hmem).resolve_right (hnone exclusive args)
  refine ⟨?_, ?_, ?_⟩
  · intro pre exclusive args post hsplit
    rw [hhist] at hsplit
    rcases append_eq_append_cons hsplit with ⟨mid, hpre⟩ | ⟨mid, -, hevents⟩
    · exact hh.recordedBefore pre exclusive args mid hpre
    · exact absurd (hevents ▸ List.mem_append_right mid List.mem_cons_self) (hnone exclusive args)
  · intro exclusive args hmem
    rw [recordCrashReason_step hkind h (hh.unlocked _ _ (hold _ _ hmem))]
    exact hh.args _ _ (hold _ _ hmem)
  · intro exclusive args hmem
    exact hkind.mem_history (hh.unlocked _ _ (hold _ _ hmem))

/-- A hook call, once the first message has gone through `SendToLog`. -/
theorem HooksFilled.hook (hh : HooksFilled s) (h : Stage s) (hkind : StepKind cfg s s' t m) {exclusive : Bool}
    (hhist : s'.history = s.history ++ [.hook exclusive s.statics.crashReason])
    (hunlocked : .unlocked true ∈ s.history) : HooksFilled s' := by
  obtain ⟨site, -, -, hcrash, hrecorded⟩ := h.of_unlocked hunlocked
  have hsame := recordCrashReason_step hkind h hunlocked
  refine ⟨?_, ?_, ?_⟩
  · intro pre exclusive' args post hsplit
    rw [hhist] at hsplit
    -- an old hook call, or the new one, which has all of the old history in front of it
    rcases append_eq_append_cons hsplit with ⟨mid, hpre⟩ | ⟨mid, hpre, -⟩
    · exact hh.recordedBefore pre exclusive' args mid hpre
    · exact hpre ▸ List.mem_append_left _ hrecorded
  · intro exclusive' args hmem
    rw [hhist, List.mem_append, List.mem_singleton] at hmem
    rw [hsame]
    rcases hmem with hold | hnew
    · exact hh.args _ _ hold
    · cases hnew
      exact hcrash
  · intro _ _ _
    exact hkind.mem_history hunlocked

/-- **Step lemma.** -/
theorem hooksFilled_step (hh : HooksFilled s) (h : Stage s) (hkind : StepKind cfg s s' t m)
    (hcond : HookAfterFirst s (t, m)) : HooksFilled s' := by
  rcases hkind.history with ⟨events, hhist, hnone⟩ | ⟨rfl, f, rest, hstack, hphase, hhist⟩
  · exact hh.noHook h hkind hhist hnone
  · exact hh.hook h hkind hhist (hcond rfl)

omit [DecidableEq T] in
/-- The invariant and the stage give the promise. -/
theorem HooksFilled.informed (hh : HooksFilled s) (h : Stage s) : HooksInformed s := by
  have hfirst : ∀ exclusive args, .hook exclusive args ∈ s.history → ∃ site, s.obtainedSites = [site] ∧
      args = ⟨some site.file, site.line, some s.statics.fatalMsgDataExclusive.numPrefixChars⟩ := by
    intro exclusive args hmem
    obtain ⟨site, hsites, hfilled, -, -⟩ := h.of_unlocked (hh.unlocked _ _ hmem)
    refine ⟨site, hsites, ?_⟩
    rw [hh.args _ _ hmem, recordCrashReason, hfilled.fullname, hfilled.line]
  refine ⟨hh.recordedBefore, hfirst, ?_, ?_⟩
  · intro exclusive args hmem
    obtain ⟨site, -, rfl⟩ := hfirst exclusive args hmem
    exact nofun
  · intro exclusive args exclusive' args' hmem hmem'
    rw [hh.args _ _ hmem, hh.args _ _ hmem']

/-! ## Reports that cannot be held up -/

variable (cfg) in
theorem fatalStep_construct (site : CallSite) (severity : LogSeverity)
    (htop : ∀ f rest, s.stack t = f :: rest → f.phase ≠ .constructing) :
    fatalStep cfg s (t, .construct site severity)
      = some (s.next t (chooseData cfg severity s.statics).1
          (⟨site, severity, (chooseData cfg severity s.statics).2, .constructing⟩ :: s.stack t)
          (if (chooseData cfg severity s.statics).2.isExclusive then [.obtained site] else [])) := by
  cases hstack : s.stack t with
  | nil => simp [fatalStep, hstack]
  | cons f rest => simp [fatalStep, hstack, htop f rest hstack]

variable (cfg) in
theorem fatalStep_fill (ctx : Context) {site : CallSite} {severity : LogSeverity} {data : DataRef}
    {rest : List Frame} (hstack : s.stack t = ⟨site, severity, data, .constructing⟩ :: rest) :
    fatalStep cfg s (t, .fill ctx)
      = some (s.next t (s.statics.modify (LogMessageData.init cfg ctx site severity) data).1
          (⟨site, severity, (s.statics.modify (LogMessageData.init cfg ctx site severity) data).2, .streaming⟩
            :: rest) []) := by
  simp [fatalStep, hstack]

theorem fatalStep_flush {site : CallSite} {severity : LogSeverity} {data : DataRef} {rest : List Frame}
    {statics : Statics} (hstack : s.stack t = ⟨site, severity, data, .streaming⟩ :: rest)
    (hflush : flushOn cfg s.statics data = .unlocked statics) :
    fatalStep cfg s (t, .flush)
      = some (s.next t statics (⟨site, severity, data, .unlocked⟩ :: rest)
          ((if (s.statics.data data).firstFatal then [.recorded] else []) ++ [.unlocked data.isExclusive])) := by
  simp [fatalStep, hstack, hflush]

theorem fatalStep_hook {site : CallSite} {severity : LogSeverity} {data : DataRef} {rest : List Frame}
    (hstack : s.stack t = ⟨site, severity, data, .unlocked⟩ :: rest) :
    fatalStep cfg s (t, .hook)
      = some (s.next t s.statics (⟨site, severity, data, .hooked⟩ :: rest)
          [.hook data.isExclusive s.statics.crashReason]) := by
  simp [fatalStep, hstack]

/-- A FATAL message obtains the exclusive data if they are free, and otherwise works on the shared ones. -/
theorem chooseData_fatal (hexit : cfg.exitOnDfatal = true) (s : Statics) :
    ∃ data, (chooseData cfg .FATAL s).2 = data ∧ data.isExclusive = s.fatalMsgExclusive ∧
      ((chooseData cfg .FATAL s).1.data data).firstFatal = s.fatalMsgExclusive ∧
      (chooseData cfg .FATAL s).1.crashReason = s.crashReason ∧
      (chooseData cfg .FATAL s).1.fatalMsgExclusive = false := by
  cases hflag : s.fatalMsgExclusive with
  | true => exact ⟨.exclusive, by simp [chooseData, hexit, hflag, Statics.data, DataRef.isExclusive]⟩
  | false => exact ⟨.shared, by simp [chooseData, hexit, hflag, Statics.data, DataRef.isExclusive]⟩

/-- A freshly filled FATAL message goes through `SendToLog`. -/
theorem flushOn_init (hexit : cfg.exitOnDfatal = true) (hlevel : cfg.minloglevel ≤ 3) (ctx : Context)
    (site : CallSite) (d : LogMessageData) {statics : Statics} {r : DataRef}
    (hdata : statics.data r = d.init cfg ctx site .FATAL) :
    ∃ s₀, flushOn cfg statics r = .unlocked s₀ ∧ s₀.fatalMsgExclusive = statics.fatalMsgExclusive ∧
      (d.firstFatal = false → s₀.crashReason = statics.crashReason) := by
  have hsup : suppressed cfg (statics.data r) = false := by
    simpa [hdata, suppressed, LogMessageData.init, LogSeverity.toInt] using hlevel
  have hfatal : isFatal cfg (statics.data r).severity := ⟨hdata ▸ rfl, hexit⟩
  have hfirst : (statics.data r).firstFatal = d.firstFatal := hdata ▸ rfl
  obtain ⟨s₀, hrecord, -, ⟨hret, -⟩ | ⟨-, -, ho⟩ | ⟨-, hff, text, ho⟩⟩ := flushOn_spec cfg statics r
  · exact absurd ⟨hsup, hfatal⟩ hret
  · exact ⟨s₀, ho, hrecord.flag, fun _ => hrecord.crash⟩
  · refine ⟨_, ho, hrecord.flag, ?_⟩
    intro hlater
    rw [hfirst, hlater] at hff
    cases hff

/-- A FATAL message from its construction to `log_mutex.Unlock()`. -/
def reportMoves (t : T) (site : CallSite) (ctx : Context) : List (T × Move) :=
  [(t, .construct site .FATAL), (t, .fill ctx), (t, .flush)]

/-- **Nothing holds up a FATAL message.** A thread that is not in the middle of `Init` can bring one to its hook; on
    the shared data it leaves the crash reason as it finds it. -/
theorem exists_report (cfg : Settings) (t : T) (hexit : cfg.exitOnDfatal = true) (hlevel : cfg.minloglevel ≤ 3)
    (site : CallSite) (ctx : Context) (htop : ∀ f rest, s.stack t = f :: rest → f.phase ≠ .constructing) :
    ∃ s₃ s₄ f, run (fatalStep cfg) s (reportMoves t site ctx) = some s₃ ∧
      fatalStep cfg s₃ (t, .hook) = some s₄ ∧
      s₃.stack t = f :: s.stack t ∧ f.data.isExclusive = s.statics.fatalMsgExclusive ∧
      s₃.statics.fatalMsgExclusive = false ∧
      (s.statics.fatalMsgExclusive = false → s₃.statics.crashReason = s.statics.crashReason) ∧
      s₄.history = s₃.history ++ [.hook f.data.isExclusive s₃.statics.crashReason] := by
  obtain ⟨data, hdata, hex, hfirst, hcrash, htaken⟩ := chooseData_fatal hexit s.statics
  have h₁ := fatalStep_construct cfg site .FATAL htop
  rw [hdata] at h₁
  set statics := (chooseData cfg .FATAL s.statics).1 with hstatics
  set s₁ := s.next t statics (⟨site, .FATAL, data, .constructing⟩ :: s.stack t)
    (if data.isExclusive then [.obtained site] else []) with hs₁
  have h₂ := fatalStep_fill cfg ctx (s := s₁) (t := t) (Function.update_self _ _ _)
  set s₂ := s₁.next t (s₁.statics.modify (LogMessageData.init cfg ctx site .FATAL) data).1
    (⟨site, .FATAL, (s₁.statics.modify (LogMessageData.init cfg ctx site .FATAL) data).2, .streaming⟩
      :: s.stack t) [] with hs₂
  have hfilled : s₂.statics.data (s₁.statics.modify (LogMessageData.init cfg ctx site .FATAL) data).2
      = (statics.data data).init cfg ctx site .FATAL := data_modify _ _ _
  obtain ⟨s₀, hflush, hflag, hkeep⟩ := flushOn_init hexit hlevel ctx site (statics.data data) hfilled
  have h₃ := fatalStep_flush (s := s₂) (t := t) (Function.update_self _ _ _) hflush
  have hrun := run_cons_eq_some.mpr ⟨s₁, h₁, run_cons_eq_some.mpr ⟨s₂, h₂, run_cons_eq_some.mpr ⟨_, h₃, run_nil _⟩⟩⟩
  refine ⟨_, _, ⟨site, .FATAL, _, .unlocked⟩, hrun, fatalStep_hook (Function.update_self _ _ _),
    Function.update_self _ _ _, ?_, ?_, ?_, rfl⟩
  · exact (isExclusive_modify _ _ _).trans hex
  · exact hflag.trans ((flag_modify _ _ _).trans htaken)
  · intro hflag
    apply (hkeep (hfirst.trans hflag)).trans
    cases data <;> exact hcrash

/-- A jump over the failing message and `n` enclosing ones. -/
theorem fatalStep_fail (cfg : Settings) {f : Frame} {rest : List Frame} (n : Nat) (hstack : s.stack t = f :: rest)
    (hphase : f.phase = .hooked) : fatalStep cfg s (t, .fail n) = some (s.next t s.statics (rest.drop n) []) := by
  obtain ⟨site, severity, data, phase⟩ := f
  cases hphase
  simp only [fatalStep, hstack]

/-- A failure function that jumps takes the thread back to where it logged the FATAL message. -/
theorem exists_recovery (cfg : Settings) (t : T) (hexit : cfg.exitOnDfatal = true) (hlevel : cfg.minloglevel ≤ 3)
    (site : CallSite) (ctx : Context) (htop : ∀ f rest, s.stack t = f :: rest → f.phase ≠ .constructing) :
    ∃ s', run (fatalStep cfg) s (reportMoves t site ctx ++ [(t, .hook), (t, .fail 0)]) = some s' ∧
      s'.stack t = s.stack t ∧ s'.statics.fatalMsgExclusive = false := by
  obtain ⟨s₁, s₂, f, hreport, hhook, hstack, -, hflag, -, -⟩ := exists_report cfg t hexit hlevel site ctx htop
  obtain ⟨g, rest, hg, -, rfl⟩ := hook_step hhook
  rw [hstack] at hg
  cases hg
  have hfail := fatalStep_fail cfg 0 (stack_next s₁ t s₁.statics ({ f with phase := .hooked } :: s.stack t)
    [.hook f.data.isExclusive s₁.statics.crashReason]) rfl
  exact ⟨_, run_append_eq_some.mpr ⟨s₁, hreport, run_cons_eq_some.mpr ⟨_, hhook, run_cons_eq_some.mpr
    ⟨_, hfail, run_nil _⟩⟩⟩, stack_next _ _ _ _ _, hflag⟩

/-! ## Every run -/

theorem stage_run {as : List (T × Move)} (hrun : run (fatalStep cfg) (RunState.initial T) as = some s) :
    FlagsAgree s ∧ Stage s :=
  run_invariant (fun s => FlagsAgree s ∧ Stage s)
    (fun _ _ _ h hstep => ⟨flagsAgree_step h.1 hstep, stage_step h.1 h.2 hstep⟩)
    ⟨flagsAgree_initial, stage_initial⟩ hrun

/-- An event of a state is in the history of every state it leads to. -/
theorem mem_history_run {as : List (T × Move)} {e : Event} (hflags : FlagsAgree s) (he : e ∈ s.history)
    (hrun : run (fatalStep cfg) s as = some s') : e ∈ s'.history :=
  (run_invariant (fun s => FlagsAgree s ∧ e ∈ s.history)
    (fun _ _ _ h hstep => ⟨flagsAgree_step h.1 hstep, (fatalStep_kind h.1 hstep).mem_history h.2⟩)
    ⟨hflags, he⟩ hrun).2

/-- **Hooks that are called after the first message has gone through `SendToLog` are informed.** -/
theorem informed_of_along {as : List (T × Move)} (hrun : run (fatalStep cfg) (RunState.initial T) as = some s)
    (halong : Along (fatalStep cfg) HookAfterFirst (RunState.initial T) as) : HooksInformed s := by
  have hinv : (FlagsAgree s ∧ Stage s) ∧ HooksFilled s :=
    run_invariant_along (fun s => (FlagsAgree s ∧ Stage s) ∧ HooksFilled s)
      (fun _ ⟨_, _⟩ _ ⟨⟨hflags, hstage⟩, hfilled⟩ hcond hstep =>
        ⟨⟨flagsAgree_step hflags hstep, stage_step hflags hstage hstep⟩,
          hooksFilled_step hfilled hstage (fatalStep_kind hflags hstep) hcond⟩)
      ⟨⟨flagsAgree_initial, stage_initial⟩, hooksFilled_initial⟩ halong hrun
  exact hinv.2.informed hinv.1.2

/-- **Any other hook is told nothing.** -/
theorem hook_initial (h : Stage s) (hunlocked : .unlocked true ∉ s.history)
    (hstep : fatalStep cfg s (t, .hook) = some s') : ¬ HooksInformed s' := by
  obtain ⟨f, rest, -, -, rfl⟩ := hook_step hstep
  intro hinformed
  have hmem : .hook f.data.isExclusive s.statics.crashReason
      ∈ s.history ++ [.hook f.data.isExclusive s.statics.crashReason] := by simp
  exact hinformed.notInitial _ _ hmem (h.crash_initial hunlocked)

/-- **Overtaking.** While the first FATAL message has the exclusive data and has not gone through `SendToLog`, every
    thread that is not in the middle of `Init` can call the hook with the initial values. -/
theorem exists_overtaking (cfg : Settings) (t : T) {as : List (T × Move)} (hexit : cfg.exitOnDfatal = true)
    (hlevel : cfg.minloglevel ≤ 3) (hrun : run (fatalStep cfg) (RunState.initial T) as = some s)
    (hflag : s.statics.fatalMsgExclusive = false) (hunlocked : .unlocked true ∉ s.history) (site : CallSite)
    (ctx : Context) (htop : ∀ f rest, s.stack t = f :: rest → f.phase ≠ .constructing) :
    ∃ s', run (fatalStep cfg) (RunState.initial T) (as ++ (reportMoves t site ctx ++ [(t, .hook)])) = some s' ∧
      .hook false .initial ∈ s'.history := by
  obtain ⟨s₃, s₄, f, hreport, hhook, -, hex, -, hcrash, hhist⟩ := exists_report cfg t hexit hlevel site ctx htop
  refine ⟨s₄, ?_, ?_⟩
  · exact run_append_eq_some.mpr ⟨s, hrun, run_append_eq_some.mpr
      ⟨s₃, hreport, run_cons_eq_some.mpr ⟨s₄, hhook, run_nil _⟩⟩⟩
  · rw [hhist, hex, hflag, hcrash hflag, (stage_run hrun).2.crash_initial hunlocked]
    exact List.mem_append_right _ List.mem_cons_self

/-- A first FATAL message of thread 0, before it is flushed. -/
def firstMoves : List (Fin 2 × Move) := [(0, .construct sampleSite .FATAL), (0, .fill sampleContext)]

theorem firstMoves_run :
    ∃ s, run (fatalStep {}) (RunState.initial (Fin 2)) firstMoves = some s ∧
      s.statics.fatalMsgExclusive = false ∧ s.history = [.obtained sampleSite] ∧
      s.stack 0 = [⟨sampleSite, .FATAL, .exclusive, .streaming⟩] ∧ s.stack 1 = [] :=
  ⟨_, rfl, rfl, rfl, rfl, rfl⟩

/-- Both ways to overtake it: from another thread, and from among its operands. -/
theorem hooksInformed_overtaken :
    (∃ s, run (fatalStep {}) (RunState.initial (Fin 2))
        (firstMoves ++ (reportMoves 1 ⟨lit "worker.cc", 7⟩ sampleContext ++ [(1, .hook)])) = some s ∧
      ¬ HooksInformed s) ∧
    (∃ s, run (fatalStep {}) (RunState.initial (Fin 2))
        (firstMoves ++ (reportMoves 0 ⟨lit "operand.cc", 7⟩ sampleContext ++ [(0, .hook)])) = some s ∧
      ¬ HooksInformed s) := by
  obtain ⟨s, hrun, hflag, hhist, hstack₀, hstack₁⟩ := firstMoves_run
  have hunlocked : .unlocked true ∉ s.history := by simp [hhist]
  constructor
  · obtain ⟨s', hrun', hmem⟩ := exists_overtaking {} 1 rfl (by decide) hrun hflag hunlocked
      ⟨lit "worker.cc", 7⟩ sampleContext (by simp [hstack₁])
    exact ⟨s', hrun', fun h => h.notInitial _ _ hmem rfl⟩
  · obtain ⟨s', hrun', hmem⟩ := exists_overtaking {} 0 rfl (by decide) hrun hflag hunlocked
      ⟨lit "operand.cc", 7⟩ sampleContext (by simp [hstack₀])
    exact ⟨s', hrun', fun h => h.notInitial _ _ hmem rfl⟩

end Thirdparty.Glog
