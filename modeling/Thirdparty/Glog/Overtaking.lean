import Thirdparty.Glog.HookCalls
import Thirdparty.Glog.ThreadShape

/-!
# `Glog.Overtaking` — programs that keep the failure-message hook informed

The hook is informed in all interleavings of given programs exactly when no FATAL message can overtake the first one.
From another thread it can do so whenever one thread logs a FATAL message and another one comes to a hook call; among
the operands of the first message, when the thread itself comes to a hook call before it flushes that message.

## Contents
- `ThreadProgram`: what one thread executes; `Unovertaken`: the condition on the programs.
- `StackChange`, `stackChange`: what a step without a hook call does to the stack of its thread.
- `Alone`: only one thread has logged FATAL messages, and no hook was called; `alone_step`, `alone_run`.
- `hookAfterFirst_along`: under the condition, hooks are called after the first message.
- `exists_overtaking_thread`, `flushedFirst_of_informed`: without it, some hook call comes too early.
- `hooksInformed_iff_unovertaken`: the condition is exact.
-/

namespace Thirdparty.Glog

open Trace

/-! ## Programs -/

/-- Does the move begin a FATAL message? -/
def Move.logsFatal : Move → Bool
  | .construct _ severity => severity = .FATAL
  | .fill _ => false
  | .write _ => false
  | .flush => false
  | .hook => false
  | .fail _ => false

/-- Is the move a call of the hook? -/
def Move.isHook : Move → Bool
  | .construct _ _ => false
  | .fill _ => false
  | .write _ => false
  | .flush => false
  | .hook => true
  | .fail _ => false

theorem isHook_iff {m : Move} : m.isHook = true ↔ m = .hook := by
  cases m <;> simp [Move.isHook]

/-- What one thread executes, to its end or to where the process aborts: moves that it can make one after the
    other. -/
structure ThreadProgram (cfg : Settings) where
  moves : List Move
  possible : (run (shapeStep cfg) [] moves).isSome = true

/-- The phase of the outermost FATAL message; it is the one that was constructed first. -/
def outermostFatal (shape : Shape) : Option Phase :=
  (shape.filter (·.1 = .FATAL)).getLast?.map Prod.snd

/-- The moves before the first hook call. -/
def beforeHook (moves : List Move) : List Move := moves.takeWhile (!·.isHook)

/-- When the thread comes to its first hook call, its first FATAL message has gone through `SendToLog`: the call is not
    one of a FATAL message among the operands of that one. -/
def FlushedFirst (cfg : Settings) (moves : List Move) : Prop :=
  (run (shapeStep cfg) [] (beforeHook moves)).bind outermostFatal = some .unlocked

/-- **The condition on the programs.** -/
structure Unovertaken {T : Type*} {cfg : Settings} (P : T → ThreadProgram cfg) : Prop where
  /-- No thread calls the hook if another one logs a FATAL message. -/
  otherThreads : ∀ t u, t ≠ u → (∃ m ∈ (P t).moves, m.logsFatal = true) → .hook ∉ (P u).moves
  /-- No thread calls the hook while it streams the operands of its first FATAL message. -/
  operands : ∀ t, .hook ∈ (P t).moves → FlushedFirst cfg (P t).moves

variable {T : Type*} {cfg : Settings} {s s' : RunState T} {t u : T} {m : Move}

/-! ## What the shapes say about hook calls -/

/-- Only messages of a severity that reports get past `SendToLog`. -/
theorem shape_reports {ms : List Move} {shape : Shape} (hrun : run (shapeStep cfg) [] ms = some shape) :
    ∀ x ∈ shape, x.2 = .unlocked ∨ x.2 = .hooked → reports cfg x.1 = true := by
  refine run_invariant (fun shape : Shape => ∀ x ∈ shape, x.2 = .unlocked ∨ x.2 = .hooked → reports cfg x.1 = true)
    ?_ (List.forall_mem_nil _) hrun
  intro shape m shape' hall hstep
  unfold shapeStep at hstep
  split at hstep
  · split at hstep
    · cases hstep
    · cases hstep
      exact List.forall_mem_cons.mpr ⟨nofun, hall⟩
  · cases hstep
    exact List.forall_mem_cons.mpr ⟨nofun, (List.forall_mem_cons.mp hall).2⟩
  · cases hstep
    exact List.forall_mem_cons.mpr ⟨nofun, (List.forall_mem_cons.mp hall).2⟩
  · cases hstep
    split
    · rename_i hreports
      exact List.forall_mem_cons.mpr ⟨fun _ => hreports, (List.forall_mem_cons.mp hall).2⟩
    · exact (List.forall_mem_cons.mp hall).2
  · cases hstep
    obtain ⟨htop, hrest⟩ := List.forall_mem_cons.mp hall
    exact List.forall_mem_cons.mpr ⟨fun _ => htop (Or.inl rfl), hrest⟩
  · cases hstep
    intro x hx
    exact (List.forall_mem_cons.mp hall).2 x (List.mem_of_mem_drop hx)
  · cases hstep

/-- A thread calls the hook with a FATAL message only, which `exit_on_dfatal` and `--minloglevel` let through. -/
theorem reports_of_hook {ms : List Move} {shape : Shape} (hrun : run (shapeStep cfg) [] ms = some shape)
    (hhook : .hook ∈ ms) : reports cfg .FATAL = true := by
  obtain ⟨pre, post, rfl⟩ := List.append_of_mem hhook
  obtain ⟨shape₁, hpre, hrest⟩ := run_append_eq_some.mp hrun
  obtain ⟨shape₂, hstep, -⟩ := run_cons_eq_some.mp hrest
  unfold shapeStep at hstep
  split at hstep
  all_goals first | cases hstep | skip
  all_goals rename_i heq
  all_goals cases heq
  rename_i severity rest
  have hreports := shape_reports hpre (severity, .unlocked) List.mem_cons_self (Or.inl rfl)
  have hfatal : severity = .FATAL := by
    simp only [reports, Bool.and_eq_true, decide_eq_true_eq] at hreports
    exact hreports.1.1
  exact hfatal ▸ hreports

theorem isFatal_of_reports (h : reports cfg .FATAL = true) : isFatal cfg .FATAL := by
  simp only [reports, Bool.and_eq_true] at h
  exact ⟨rfl, h.1.2⟩

/-- Programs can be run up to any point. -/
theorem ThreadProgram.exists_run (p : ThreadProgram cfg) {ms : List Move} (h : ms <+: p.moves) :
    ∃ shape, run (shapeStep cfg) [] ms = some shape := by
  obtain ⟨rest, hrest⟩ := h
  obtain ⟨shape, hrun⟩ := Option.isSome_iff_exists.mp p.possible
  rw [← hrest] at hrun
  obtain ⟨shape₁, hms, -⟩ := run_append_eq_some.mp hrun
  exact ⟨shape₁, hms⟩

theorem beforeHook_append {pre post : List Move} (h : .hook ∉ pre) : beforeHook (pre ++ .hook :: post) = pre := by
  unfold beforeHook
  rw [List.takeWhile_append_of_pos, List.takeWhile_cons_of_neg (by simp [Move.isHook]), List.append_nil]
  intro m hm
  rw [Bool.not_eq_true', ← Bool.not_eq_true, isHook_iff]
  rintro rfl
  exact h hm

/-! ## What a step does to the stack of its thread -/

/-- A step that is neither a hook call nor a jump: a new message, another phase or other data of the message on top,
    or its end. -/
inductive StackChange (cfg : Settings) (s s' : RunState T) (t : T) : Move → Prop where
  | push (site : CallSite) (severity : LogSeverity) (data : DataRef)
      (hstack : s'.stack t = ⟨site, severity, data, .constructing⟩ :: s.stack t)
      (hdata : data.isExclusive = true ↔ isFatal cfg severity ∧ s.statics.fatalMsgExclusive = true)
      (hflag : s'.statics.fatalMsgExclusive = (s.statics.fatalMsgExclusive && !data.isExclusive))
      (hhist : .unlocked true ∈ s'.history ↔ .unlocked true ∈ s.history) :
      StackChange cfg s s' t (.construct site severity)
  | top (m : Move) (f f' : Frame) (rest : List Frame) (hstack : s.stack t = f :: rest)
      (hstack' : s'.stack t = f' :: rest) (hseverity : f'.severity = f.severity)
      (hdata : f'.data.isExclusive = f.data.isExclusive) (hphase : f.phase ≠ .unlocked) (hphase' : f'.phase ≠ .hooked)
      (hflag : s'.statics.fatalMsgExclusive = s.statics.fatalMsgExclusive)
      (hhist : .unlocked true ∈ s'.history ↔
        .unlocked true ∈ s.history ∨ f'.data.isExclusive = true ∧ f'.phase = .unlocked) :
      StackChange cfg s s' t m
  | pop (f : Frame) (rest : List Frame) (hstack : s.stack t = f :: rest) (hstack' : s'.stack t = rest)
      (hreports : reports cfg f.severity = false)
      (hflag : s'.statics.fatalMsgExclusive = s.statics.fatalMsgExclusive)
      (hhist : .unlocked true ∈ s'.history ↔ .unlocked true ∈ s.history) :
      StackChange cfg s s' t .flush

variable [DecidableEq T]

theorem mem_history_next {statics : Statics} {stack : List Frame} {events : List Event} {e : Event} :
    e ∈ (s.next t statics stack events).history ↔ e ∈ s.history ∨ e ∈ events := List.mem_append

theorem stackChange_construct {site : CallSite} {severity : LogSeverity}
    (hstep : fatalStep cfg s (t, .construct site severity) = some s') :
    StackChange cfg s s' t (.construct site severity) := by
  simp only [fatalStep] at hstep
  split at hstep
  · cases hstep
  rcases chooseData_cases cfg severity s.statics with ⟨hnot, d, -, hc⟩ | ⟨hfatal, hflag, hc⟩ | ⟨hfatal, hflag, hc⟩ <;>
    rw [hc] at hstep <;> cases hstep
  · refine .push site severity _ (stack_next _ _ _ _ _) ?_ ?_ ?_
    · simp [DataRef.isExclusive, hnot]
    · simp [RunState.next, DataRef.isExclusive]
    · simp [mem_history_next, DataRef.isExclusive]
  · refine .push site severity _ (stack_next _ _ _ _ _) ?_ ?_ ?_
    · simp [DataRef.isExclusive, hfatal, hflag]
    · simp [RunState.next, DataRef.isExclusive]
    · simp [mem_history_next, DataRef.isExclusive]
  · refine .push site severity _ (stack_next _ _ _ _ _) ?_ ?_ ?_
    · simp [DataRef.isExclusive, hflag]
    · simp [RunState.next, DataRef.isExclusive]
    · simp [mem_history_next, DataRef.isExclusive]

/-- What a flush adds to the history. -/
theorem mem_flush_events (first exclusive : Bool) :
    .unlocked true ∈ (if first then [Event.recorded] else []) ++ [.unlocked exclusive] ↔ exclusive = true := by
  cases first <;> cases exclusive <;> simp

theorem stackChange_flush (hsev : SeveritiesAgree s) (hstep : fatalStep cfg s (t, .flush) = some s') :
    StackChange cfg s s' t .flush := by
  simp only [fatalStep] at hstep
  split at hstep
  · rename_i site severity data rest hstack
    have hown : FrameAgrees ⟨site, severity, data, .streaming⟩ (s.statics.data data) :=
      hsev t _ (hstack ▸ List.mem_cons_self)
    have hiff := hown.comesToHook_iff cfg Phase.noConfusion
    obtain ⟨s₀, hrecord, -, ⟨hnot, ho⟩ | ⟨-, -, ho⟩ | ⟨-, -, text, ho⟩⟩ := flushOn_spec cfg s.statics data <;>
      rw [ho] at hstep <;> cases hstep
    · refine .pop _ rest hstack (stack_next _ _ _ _ _) ?_ hrecord.flag ?_
      · exact Bool.eq_false_iff.mpr fun hreports => hnot (hiff.mpr hreports)
      · simp [mem_history_next]
    · refine .top .flush _ _ rest hstack (stack_next _ _ _ _ _) rfl rfl Phase.noConfusion Phase.noConfusion
        hrecord.flag ?_
      rw [mem_history_next, mem_flush_events, and_iff_left rfl]
    · refine .top .flush _ _ rest hstack (stack_next _ _ _ _ _) rfl rfl Phase.noConfusion Phase.noConfusion
        hrecord.flag ?_
      rw [mem_history_next, mem_flush_events, and_iff_left rfl]
  · cases hstep

/-- **What a step does to the stack**, hook calls and jumps apart. -/
theorem stackChange (hsev : SeveritiesAgree s) (hstep : fatalStep cfg s (t, m) = some s') (hhook : m ≠ .hook)
    (hfail : ∀ n, m ≠ .fail n) : StackChange cfg s s' t m := by
  cases m with
  | construct site severity => exact stackChange_construct hstep
  | fill ctx =>
    simp only [fatalStep] at hstep
    split at hstep
    · rename_i hstack
      cases hstep
      refine .top _ _ _ _ hstack (stack_next _ _ _ _ _) rfl (isExclusive_modify _ _ _) Phase.noConfusion
        Phase.noConfusion (flag_modify _ _ _) ?_
      simp [mem_history_next]
    · cases hstep
  | write text =>
    simp only [fatalStep] at hstep
    split at hstep
    · rename_i hstack
      cases hstep
      refine .top _ _ _ _ hstack (stack_next _ _ _ _ _) rfl (isExclusive_modify _ _ _) Phase.noConfusion
        Phase.noConfusion (flag_modify _ _ _) ?_
      simp [mem_history_next]
    · cases hstep
  | flush => exact stackChange_flush hsev hstep
  | hook => exact absurd rfl hhook
  | fail n => exact absurd rfl (hfail n)

/-! ## One thread that logs FATAL messages -/

/-- The FATAL messages of a thread that alone has logged any, before its first hook call. -/
inductive OwnFirst (s : RunState T) (t : T) : Prop where
  /-- There are none yet. -/
  | unlogged (hflag : s.statics.fatalMsgExclusive = true) (hhist : .unlocked true ∉ s.history)
      (hfatal : ∀ f ∈ s.stack t, f.severity ≠ .FATAL)
  /-- The first one has the exclusive data; it is the outermost, and its phase says whether it is through
      `SendToLog`. -/
  | logged (above : List Frame) (first : Frame) (below : List Frame) (hflag : s.statics.fatalMsgExclusive = false)
      (hstack : s.stack t = above ++ first :: below) (hfirst : first.severity = .FATAL)
      (hdata : first.data.isExclusive = true) (habove : ∀ f ∈ above, f.data.isExclusive = false)
      (hbelow : ∀ f ∈ below, f.severity ≠ .FATAL)
      (hhist : .unlocked true ∈ s.history ↔ first.phase = .unlocked)

omit [DecidableEq T] in
/-- So the outermost FATAL message says whether the first one is through. -/
theorem OwnFirst.unlocked_iff (h : OwnFirst s t) :
    .unlocked true ∈ s.history ↔ outermostFatal (s.shape t) = some .unlocked := by
  have hfilter : ∀ frames : List Frame, (∀ f ∈ frames, f.severity ≠ .FATAL) →
      (frames.map Frame.shape).filter (·.1 = .FATAL) = [] := by
    intro frames hframes
    rw [List.filter_eq_nil_iff]
    intro x hx
    obtain ⟨f, hf, rfl⟩ := List.mem_map.mp hx
    simp [Frame.shape, hframes f hf]
  cases h with
  | unlogged _ hhist hfatal =>
    simp [outermostFatal, RunState.shape, hfilter _ hfatal, hhist]
  | logged above first below _ hstack hfirst _ _ hbelow hhist =>
    have hshape : outermostFatal (s.shape t) = some first.phase := by
      rw [outermostFatal, RunState.shape, hstack, List.map_append, List.map_cons, List.filter_append,
        List.filter_cons_of_pos (by simp [Frame.shape, hfirst]), hfilter below hbelow]
      simp [Frame.shape]
    rw [hshape, hhist, Option.some.injEq]

omit [DecidableEq T] in
/-- A step of the thread itself. -/
theorem OwnFirst.own_step (h : OwnFirst s t) (hsev : SeveritiesAgree s) (hreports : reports cfg .FATAL = true)
    (hchange : StackChange cfg s s' t m) : OwnFirst s' t := by
  cases h with
  | unlogged hflag hhist hfatal =>
    -- before the first FATAL message, the thread has nothing on the exclusive data
    have hnone : ∀ f ∈ s.stack t, f.data.isExclusive = false := by
      intro f hf
      apply Bool.eq_false_iff.mpr
      intro hex
      exact hfatal f hf ((hsev t f hf).fatal (isStatic_of_isExclusive hex))
    cases hchange with
    | push site severity data hstack hdata hflag' hhist' =>
      cases hex : data.isExclusive with
      | true =>
        refine .logged [] _ (s.stack t) (by rw [hflag', hex, Bool.not_true, Bool.and_false]) hstack
          (hdata.mp hex).1.1 hex (List.forall_mem_nil _) hfatal ?_
        exact iff_of_false (fun hmem => hhist (hhist'.mp hmem)) Phase.noConfusion
      | false =>
        refine .unlogged (by rw [hflag', hex, hflag]; rfl) (fun hmem => hhist (hhist'.mp hmem)) ?_
        rw [hstack]
        refine List.forall_mem_cons.mpr ⟨?_, hfatal⟩
        rintro rfl
        rw [hdata.mpr ⟨isFatal_of_reports hreports, hflag⟩] at hex
        cases hex
    | top m f f' rest hstack hstack' hseverity hdata _ _ hflag' hhist' =>
      have htop : f ∈ s.stack t := hstack ▸ List.mem_cons_self
      refine .unlogged (hflag'.trans hflag) ?_ ?_
      · rw [hhist', hdata, hnone f htop]
        simpa using hhist
      · rw [hstack']
        refine List.forall_mem_cons.mpr ⟨hseverity ▸ hfatal f htop, ?_⟩
        intro g hg
        exact hfatal g (hstack ▸ List.mem_cons_of_mem _ hg)
    | pop f rest hstack hstack' _ hflag' hhist' =>
      refine .unlogged (hflag'.trans hflag) (fun hmem => hhist (hhist'.mp hmem)) ?_
      intro g hg
      exact hfatal g (hstack ▸ List.mem_cons_of_mem _ (hstack' ▸ hg))
  | logged above first below hflag hstack₀ hfirst hex₀ habove hbelow hhist =>
    cases hchange with
    | push site severity data hstack hdata hflag' hhist' =>
      have hex : data.isExclusive = false := by
        apply Bool.eq_false_iff.mpr
        intro hex
        rw [hflag] at hdata
        exact Bool.false_ne_true (hdata.mp hex).2
      refine .logged (_ :: above) first below (by rw [hflag', hflag]; rfl) (by rw [hstack, hstack₀]; rfl) hfirst hex₀
        (List.forall_mem_cons.mpr ⟨hex, habove⟩) hbelow (hhist'.trans hhist)
    | top m f f' rest hstack hstack' hseverity hdata hphase _ hflag' hhist' =>
      rw [hstack] at hstack₀
      cases above with
      | nil =>
        -- it is the first message itself
        cases hstack₀
        refine .logged [] f' below (hflag'.trans hflag) hstack' (hseverity.trans hfirst) (hdata.trans hex₀)
          (List.forall_mem_nil _) hbelow ?_
        rw [hhist', hhist, hdata, hex₀]
        simp [hphase]
      | cons g above =>
        cases hstack₀
        have hother : f'.data.isExclusive = false := hdata.trans (habove f List.mem_cons_self)
        refine .logged (f' :: above) first below (hflag'.trans hflag) hstack' hfirst hex₀
          (List.forall_mem_cons.mpr ⟨hother, (List.forall_mem_cons.mp habove).2⟩) hbelow ?_
        rw [hhist', hhist, hother]
        simp
    | pop f rest hstack hstack' hsilent hflag' hhist' =>
      rw [hstack] at hstack₀
      cases above with
      | nil =>
        cases hstack₀
        rw [hfirst, hreports] at hsilent
        cases hsilent
      | cons g above =>
        cases hstack₀
        exact .logged above first below (hflag'.trans hflag) hstack' hfirst hex₀
          (List.forall_mem_cons.mp habove).2 hbelow (hhist'.trans hhist)

omit [DecidableEq T] in
/-- A step of another thread that logs no FATAL message. -/
theorem OwnFirst.other_step (h : OwnFirst s t) (hstack : s'.stack t = s.stack t)
    (hothers : ∀ f ∈ s.stack u, f.data.isExclusive = false) (hchange : StackChange cfg s s' u m)
    (hfatal : m.logsFatal = false) : OwnFirst s' t := by
  have hsame : s'.statics.fatalMsgExclusive = s.statics.fatalMsgExclusive ∧
      (.unlocked true ∈ s'.history ↔ .unlocked true ∈ s.history) := by
    cases hchange with
    | push site severity data _ hdata hflag hhist =>
      have hex : data.isExclusive = false := by
        apply Bool.eq_false_iff.mpr
        intro hex
        simp [Move.logsFatal, (hdata.mp hex).1.1] at hfatal
      exact ⟨by rw [hflag, hex, Bool.not_false, Bool.and_true], hhist⟩
    | top m f f' rest hstack hstack' _ hdata _ _ hflag hhist =>
      have hex : f'.data.isExclusive = false := hdata.trans (hothers f (hstack ▸ List.mem_cons_self))
      exact ⟨hflag, by rw [hhist, hex]; simp⟩
    | pop f rest _ _ _ hflag hhist => exact ⟨hflag, hhist⟩
  cases h with
  | unlogged hflag hhist hnone =>
    exact .unlogged (hsame.1.trans hflag) (fun hmem => hhist (hsame.2.mp hmem)) (hstack ▸ hnone)
  | logged above first below hflag hstack₀ hfirst hdata habove hbelow hhist =>
    exact .logged above first below (hsame.1.trans hflag) (hstack.trans hstack₀) hfirst hdata habove hbelow
      (hsame.2.trans hhist)

/-- **No hook was called, and only `t` has logged FATAL messages.** -/
structure Alone (s : RunState T) (t : T) : Prop where
  severities : SeveritiesAgree s
  unhooked : ∀ u, ∀ f ∈ s.stack u, f.phase ≠ .hooked
  others : ∀ u, u ≠ t → ∀ f ∈ s.stack u, f.data.isExclusive = false
  own : OwnFirst s t

omit [DecidableEq T] in
theorem alone_initial (t : T) : Alone (RunState.initial T) t where
  severities := severitiesAgree_initial
  unhooked _ _ hf := nomatch hf
  others _ _ _ hf := nomatch hf
  own := .unlogged rfl List.not_mem_nil fun _ hf => nomatch hf

/-- What holds of the stacks before a step of `u` holds after it, if it holds of the new stack of `u`. -/
theorem stacks_step {Q : Frame → Prop} (hstep : fatalStep cfg s (u, m) = some s') {v : T}
    (h : ∀ f ∈ s.stack v, Q f) (hnew : v = u → ∀ f ∈ s'.stack u, Q f) : ∀ f ∈ s'.stack v, Q f := by
  by_cases hv : v = u
  · subst hv
    exact hnew rfl
  · rw [stack_of_ne hstep hv]
    exact h

/-- **Step lemma.** -/
theorem alone_step (hreports : reports cfg .FATAL = true) (h : Alone s t)
    (hstep : fatalStep cfg s (u, m) = some s') (hhook : m ≠ .hook) (hfatal : u ≠ t → m.logsFatal = false) :
    Alone s' t := by
  have hfail : ∀ n, m ≠ .fail n := by
    rintro n rfl
    simp only [fatalStep] at hstep
    split at hstep
    · rename_i hstack
      exact h.unhooked u _ (hstack ▸ List.mem_cons_self) rfl
    · cases hstep
  have hchange := stackChange h.severities hstep hhook hfail
  refine ⟨severitiesAgree_step h.severities hstep, ?_, ?_, ?_⟩
  · intro v
    apply stacks_step hstep (h.unhooked v)
    rintro rfl
    cases hchange with
    | push site severity data hstack =>
      rw [hstack]
      exact List.forall_mem_cons.mpr ⟨Phase.noConfusion, h.unhooked v⟩
    | top m f f' rest hstack hstack' _ _ _ hphase' =>
      rw [hstack']
      exact List.forall_mem_cons.mpr ⟨hphase', fun g hg => h.unhooked v g (hstack ▸ List.mem_cons_of_mem _ hg)⟩
    | pop f rest hstack hstack' =>
      rw [hstack']
      exact fun g hg => h.unhooked v g (hstack ▸ List.mem_cons_of_mem _ hg)
  · intro v hv
    apply stacks_step hstep (h.others v hv)
    rintro rfl
    cases hchange with
    | push site severity data hstack hdata =>
      rw [hstack]
      refine List.forall_mem_cons.mpr ⟨?_, h.others v hv⟩
      apply Bool.eq_false_iff.mpr
      intro hex
      have hnot := hfatal hv
      simp [Move.logsFatal, (hdata.mp hex).1.1] at hnot
    | top m f f' rest hstack hstack' _ hdata =>
      rw [hstack']
      have hold := hstack ▸ h.others v hv
      exact List.forall_mem_cons.mpr ⟨hdata.trans (List.forall_mem_cons.mp hold).1, (List.forall_mem_cons.mp hold).2⟩
    | pop f rest hstack hstack' =>
      rw [hstack']
      exact (List.forall_mem_cons.mp (hstack ▸ h.others v hv)).2
  · by_cases hut : u = t
    · subst hut
      exact h.own.own_step h.severities hreports hchange
    · exact h.own.other_step (stack_of_ne hstep (Ne.symm hut)) (h.others u hut) hchange (hfatal hut)

/-- Runs without hook calls in which only `t` logs FATAL messages. -/
theorem alone_run (hreports : reports cfg .FATAL = true) {as : List (T × Move)}
    (hrun : run (fatalStep cfg) (RunState.initial T) as = some s)
    (has : ∀ a ∈ as, a.2 ≠ .hook ∧ (a.1 ≠ t → a.2.logsFatal = false)) : Alone s t :=
  run_invariant_along (P := fun _ a => a.2 ≠ .hook ∧ (a.1 ≠ t → a.2.logsFatal = false)) (fun s => Alone s t)
    (fun _ _ _ h ha hstep => alone_step hreports h hstep ha.1 ha.2) (alone_initial t)
    (along_of_forall (fun a ha _ => has a ha) _) hrun

/-! ## Every interleaving -/

/-- The interleavings of the programs. -/
def Interleaving (P : T → ThreadProgram cfg) (as : List (T × Move)) : Prop :=
  Interleaves (fun t => (P t).moves) as

/-- A run of the system shows each thread a run of its own moves. -/
theorem shape_run {as : List (T × Move)} (hrun : run (fatalStep cfg) (RunState.initial T) as = some s) (t : T) :
    run (shapeStep cfg) [] (ofThread t as) = some (s.shape t) :=
  (fatal_projects cfg).run_ofThread severitiesAgree_initial hrun t

theorem severities_run {as : List (T × Move)} (hrun : run (fatalStep cfg) (RunState.initial T) as = some s) :
    SeveritiesAgree s :=
  run_invariant SeveritiesAgree (fun _ _ _ h hstep => severitiesAgree_step h hstep) severitiesAgree_initial hrun

/-- Every run is an interleaving of what its threads execute. -/
theorem exists_interleaving {as : List (T × Move)} (hrun : run (fatalStep cfg) (RunState.initial T) as = some s) :
    ∃ P : T → ThreadProgram cfg, Interleaving P as :=
  ⟨fun t => ⟨ofThread t as, by rw [shape_run hrun t]; rfl⟩, fun _ => List.prefix_refl _⟩

section Interleavings

variable {P : T → ThreadProgram cfg}

/-- The first hook call of an interleaving comes after the first message. -/
theorem unlocked_of_first_hook (hP : Unovertaken P) {as : List (T × Move)} (has : Interleaving P (as ++ [(t, .hook)]))
    (hrun : run (fatalStep cfg) (RunState.initial T) as = some s) (hnone : ∀ u, (u, .hook) ∉ as) :
    .unlocked true ∈ s.history := by
  have hprefix : ofThread t as ++ [.hook] <+: (P t).moves := by
    have ht := has t
    rwa [ofThread_append, ofThread_cons_self, ofThread_nil] at ht
  obtain ⟨post, hpost⟩ := hprefix
  have hmoves : (P t).moves = ofThread t as ++ .hook :: post := by
    rw [← hpost, List.append_assoc, List.singleton_append]
  have hmem : .hook ∈ (P t).moves := by
    rw [hmoves]
    exact List.mem_append_right _ List.mem_cons_self
  obtain ⟨shape, hshape⟩ := Option.isSome_iff_exists.mp (P t).possible
  -- nobody else logs a FATAL message, as `t` comes to a hook call
  have halone : Alone s t := by
    refine alone_run (reports_of_hook hshape hmem) hrun ?_
    rintro ⟨u, m⟩ hm
    refine ⟨fun hhook => hnone u (hhook ▸ hm), ?_⟩
    intro hut
    apply Bool.eq_false_iff.mpr
    intro hfatal
    exact hP.otherThreads u t hut ⟨m, has.of_append.mem hm, hfatal⟩ hmem
  have hflushed := hP.operands t hmem
  rw [FlushedFirst, hmoves, beforeHook_append (fun h => hnone t (mem_ofThread.mp h)), shape_run hrun t,
    Option.bind_some] at hflushed
  exact halone.own.unlocked_iff.mpr hflushed

/-- **Under the condition, hooks are called after the first message has gone through `SendToLog`.** -/
theorem hookAfterFirst_along (hP : Unovertaken P) {as : List (T × Move)} (has : Interleaving P as) :
    Along (fatalStep cfg) HookAfterFirst (RunState.initial T) as := by
  apply along_of_split
  rintro pre ⟨t, m⟩ post s rfl hrun rfl
  rw [← List.singleton_append, ← List.append_assoc] at has
  by_cases hfirst : ∃ a ∈ pre, a.2.isHook = true
  · -- the first hook call came earlier, and what happened before it is not forgotten
    obtain ⟨pre₁, ⟨u, m⟩, post₁, rfl, hhook, hnone⟩ := exists_first hfirst
    obtain ⟨s₁, hrun₁, hrest⟩ := run_append_eq_some.mp hrun
    cases isHook_iff.mp hhook
    rw [← List.singleton_append, ← List.append_assoc] at has
    have hunlocked := unlocked_of_first_hook hP has.of_append.of_append.of_append hrun₁ fun v hv =>
      Bool.false_ne_true ((hnone _ hv).symm.trans rfl)
    exact mem_history_run (stage_run hrun₁).1 hunlocked hrest
  · exact unlocked_of_first_hook hP has.of_append hrun fun u hu => hfirst ⟨_, hu, rfl⟩

/-! ### Programs that do not meet it -/

theorem logsFatal_iff {m : Move} : m.logsFatal = true ↔ ∃ site, m = Move.construct site .FATAL := by
  cases m <;> simp [Move.logsFatal, eq_comm]

/-- Moves of `u` leave the other stacks alone. -/
theorem stack_run_of_ne {ms : List Move} (hrun : run (fatalStep cfg) s (ms.map (u, ·)) = some s') (htu : t ≠ u) :
    s'.stack t = s.stack t := by
  refine run_invariant_along (P := fun _ a => a.1 = u) (fun s' : RunState T => s'.stack t = s.stack t) ?_ rfl
    (along_of_forall ?_ _) hrun
  · rintro s₁ ⟨v, m⟩ s₂ hsame rfl hstep
    exact (stack_of_ne hstep htu).trans hsame
  · intro a ha _
    obtain ⟨m, -, rfl⟩ := List.mem_map.mp ha
    rfl

/-- Nobody has the exclusive data before the first FATAL message. -/
theorem flag_run {as : List (T × Move)} (hrun : run (fatalStep cfg) (RunState.initial T) as = some s)
    (has : ∀ a ∈ as, a.2.logsFatal = false) : s.statics.fatalMsgExclusive = true := by
  refine (run_invariant_along (P := fun _ a => a.2.logsFatal = false)
    (fun s : RunState T => FlagsAgree s ∧ s.statics.fatalMsgExclusive = true) ?_ ⟨flagsAgree_initial, rfl⟩
    (along_of_forall (fun a ha _ => has a ha) _) hrun).2
  rintro s₁ ⟨v, m⟩ s₂ ⟨hflags, hflag⟩ hm hstep
  refine ⟨flagsAgree_step hflags hstep, ?_⟩
  cases fatalStep_kind hflags hstep with
  | quiet hq => exact hq.record.flag.trans hflag
  | claim site severity hfatal =>
    rw [hfatal.1] at hm
    cases hm
  | fill ctx site severity rest hstack hs' => subst hs'; exact hflag
  | flush site severity rest s₀ text hstack hrecord hs' => subst hs'; exact hrecord.flag.trans hflag
  | hook f rest hstack hphase hs' => subst hs'; exact hflag

/-- A thread that runs alone up to its first FATAL message gets the exclusive data for it. -/
theorem exists_claim (hfatal : isFatal cfg .FATAL) {pre : List Move} {site : CallSite}
    (hpre : ∀ m ∈ pre, m.logsFatal = false)
    (hrun : run (fatalStep cfg) (RunState.initial T) ((pre ++ [Move.construct site .FATAL]).map (t, ·)) = some s) :
    ∃ rest, s.stack t = ⟨site, .FATAL, .exclusive, .constructing⟩ :: rest := by
  rw [List.map_append] at hrun
  obtain ⟨s₁, hrun₁, hlast⟩ := run_append_eq_some.mp hrun
  obtain ⟨s₂, hstep, hnil⟩ := run_cons_eq_some.mp hlast
  cases hnil
  have hflag : s₁.statics.fatalMsgExclusive = true := by
    apply flag_run hrun₁
    intro a ha
    obtain ⟨m, hm, rfl⟩ := List.mem_map.mp ha
    exact hpre m hm
  simp only [fatalStep] at hstep
  split at hstep
  · cases hstep
  · rcases chooseData_cases cfg .FATAL s₁.statics with ⟨hnot, -⟩ | ⟨-, -, hc⟩ | ⟨-, htaken, -⟩
    · exact absurd hfatal hnot
    · rw [hc] at hstep
      cases hstep
      exact ⟨_, stack_next _ _ _ _ _⟩
    · rw [hflag] at htaken
      cases htaken

/-- **Overtaking from another thread.** One thread stops in its first FATAL message, and another one goes on to its
    hook call. -/
theorem exists_overtaking_thread (htu : t ≠ u) (hfatal : ∃ m ∈ (P t).moves, m.logsFatal = true)
    (hhook : .hook ∈ (P u).moves) :
    ∃ as s, Interleaving P as ∧ run (fatalStep cfg) (RunState.initial T) as = some s ∧ ¬ HooksInformed s := by
  obtain ⟨pre, m, post, hmoves, hm, hpre⟩ := exists_first hfatal
  obtain ⟨site, rfl⟩ := logsFatal_iff.mp hm
  obtain ⟨pre', post', hmoves'⟩ := List.append_of_mem hhook
  have hprefix : pre ++ [.construct site .FATAL] <+: (P t).moves := ⟨post, by rw [hmoves]; simp⟩
  have hprefix' : pre' ++ [.hook] <+: (P u).moves := ⟨post', by rw [hmoves']; simp⟩
  -- `t` up to its first FATAL message
  obtain ⟨shape, hshape⟩ := (P t).exists_run hprefix
  obtain ⟨s₁, hrun₁, -⟩ := (fatal_projects cfg).exists_run (t := t) (severitiesAgree_initial (T := T)) hshape
  -- `u` up to its hook call
  obtain ⟨shape', hshape'⟩ := (P u).exists_run hprefix'
  have hreports := reports_of_hook hshape' (List.mem_append_right pre' List.mem_cons_self)
  have hstart : s₁.shape u = [] := by
    have hproj := shape_run hrun₁ u
    rw [ofThread_map_ne htu] at hproj
    exact (Option.some.inj hproj).symm
  obtain ⟨s₃, hrun₃, -⟩ := (fatal_projects cfg).exists_run (t := u) (severities_run hrun₁) (hstart ▸ hshape')
  refine ⟨_, s₃, interleaves_map_append htu hprefix hprefix', run_append_eq_some.mpr ⟨s₁, hrun₁, hrun₃⟩, ?_⟩
  rw [List.map_append] at hrun₃
  obtain ⟨s₂, hrun₂, hlast⟩ := run_append_eq_some.mp hrun₃
  obtain ⟨s₃', hstep, hnil⟩ := run_cons_eq_some.mp hlast
  cases hnil
  -- there the first message is where it was
  obtain ⟨rest, hstack⟩ := exists_claim (isFatal_of_reports hreports) hpre hrun₁
  rw [← stack_run_of_ne hrun₂ htu] at hstack
  have hstage := (stage_run (run_append_eq_some.mpr ⟨s₁, hrun₁, hrun₂⟩)).2
  exact hook_initial hstage (hstage.not_unlocked_of_claimer hstack rfl rfl) hstep

/-- **Overtaking from among the operands.** A thread whose hooks are informed when it runs alone has flushed its first
    FATAL message before it calls one. -/
theorem flushedFirst_of_informed (hinformed : ∀ as s, Interleaving P as →
      run (fatalStep cfg) (RunState.initial T) as = some s → HooksInformed s)
    (hhook : .hook ∈ (P t).moves) : FlushedFirst cfg (P t).moves := by
  obtain ⟨pre, m, post, hmoves, hm, hpre⟩ := exists_first ⟨_, hhook, isHook_iff.mpr rfl⟩
  cases isHook_iff.mp hm
  have hprefix : pre ++ [.hook] <+: (P t).moves := ⟨post, by rw [hmoves]; simp⟩
  obtain ⟨shape, hshape⟩ := (P t).exists_run hprefix
  have hreports := reports_of_hook hshape (List.mem_append_right pre List.mem_cons_self)
  obtain ⟨s₂, hrun, -⟩ := (fatal_projects cfg).exists_run (t := t) (severitiesAgree_initial (T := T)) hshape
  have hgood := hinformed _ s₂ (interleaves_map hprefix) hrun
  rw [List.map_append] at hrun
  obtain ⟨s₁, hrun₁, hlast⟩ := run_append_eq_some.mp hrun
  obtain ⟨s₂', hstep, hnil⟩ := run_cons_eq_some.mp hlast
  cases hnil
  have hnone : .hook ∉ pre := fun hmem => Bool.false_ne_true ((hpre _ hmem).symm.trans rfl)
  have halone : Alone s₁ t := by
    refine alone_run hreports hrun₁ ?_
    intro a ha
    obtain ⟨m, hm, rfl⟩ := List.mem_map.mp ha
    exact ⟨fun hmhook => hnone (hmhook ▸ hm), fun htt => absurd rfl htt⟩
  have hunlocked : .unlocked true ∈ s₁.history := by
    by_contra hnot
    exact hook_initial (stage_run hrun₁).2 hnot hstep hgood
  have hview := shape_run hrun₁ t
  rw [ofThread_map_self] at hview
  rw [FlushedFirst, hmoves, beforeHook_append hnone, hview, Option.bind_some]
  exact halone.own.unlocked_iff.mp hunlocked

end Interleavings

/-- **The hooks are informed in all interleavings of the programs exactly when no FATAL message can overtake the first
    one**, neither from another thread nor from among its operands. -/
theorem hooksInformed_iff_unovertaken (cfg : Settings) (P : T → ThreadProgram cfg) :
    (∀ as s, Interleaving P as → run (fatalStep cfg) (RunState.initial T) as = some s → HooksInformed s)
      ↔ Unovertaken P := by
  constructor
  · intro hinformed
    refine ⟨?_, fun t hhook => flushedFirst_of_informed hinformed hhook⟩
    intro t u htu hfatal hhook
    obtain ⟨as, s, has, hrun, hnot⟩ := exists_overtaking_thread htu hfatal hhook
    exact hnot (hinformed as s has hrun)
  · intro hP as s has hrun
    exact informed_of_along hrun (hookAfterFirst_along hP has)

/-- A thread that logs a FATAL message, goes on after a failure function that jumps, and logs another one. -/
def recoveringThread : ThreadProgram {} where
  moves := [.construct sampleSite .FATAL, .fill sampleContext, .flush, .hook, .fail 0,
    .construct ⟨lit "server/retry.cc", 7⟩ .FATAL, .fill sampleContext, .flush, .hook]
  possible := rfl

/-- A thread that logs at INFO. -/
def infoThread : ThreadProgram {} where
  moves := [.construct ⟨lit "worker.cc", 11⟩ .INFO, .fill sampleContext, .write (lit "ready"), .flush]
  possible := rfl

/-- The two together. -/
def recoveringThreads : Fin 2 → ThreadProgram {}
  | 0 => recoveringThread
  | 1 => infoThread

theorem unovertaken_recoveringThreads : Unovertaken recoveringThreads where
  otherThreads t u htu hfatal hhook := by
    match t, u with
    | 0, 0 => exact htu rfl
    | 0, 1 => simp [recoveringThreads, infoThread] at hhook
    | 1, 0 => simp [recoveringThreads, infoThread, Move.logsFatal] at hfatal
    | 1, 1 => exact htu rfl
  operands t hhook := by
    match t with
    | 0 => rfl
    | 1 => simp [recoveringThreads, infoThread] at hhook

/-- The second FATAL message of the thread is on the shared data; its hook is told of the first one. -/
theorem hooksInformed_recoveringThreads :
    ∃ as s, Interleaving recoveringThreads as ∧ run (fatalStep {}) (RunState.initial (Fin 2)) as = some s ∧
      (∃ args, .hook false args ∈ s.history) ∧ HooksInformed s := by
  -- the other thread runs first, then come the first message and its jump, and the second message
  obtain ⟨s₀, hrun₀, -⟩ := (fatal_projects {}).exists_run (t := (1 : Fin 2)) severitiesAgree_initial
    (show run (shapeStep {}) [] infoThread.moves = some [] from rfl)
  have hstack₀ : s₀.stack 0 = [] := stack_run_of_ne hrun₀ (by decide)
  obtain ⟨s₁, hrun₁, hstack₁, hflag⟩ := exists_recovery {} (0 : Fin 2) (s := s₀) rfl (by decide)
    sampleSite sampleContext (by simp [hstack₀])
  obtain ⟨s₂, s₃, f, hrun₂, hhook, -, hex, -, -, hhist⟩ := exists_report {} (0 : Fin 2) (s := s₁) rfl (by decide)
    ⟨lit "server/retry.cc", 7⟩ sampleContext (by simp [hstack₁, hstack₀])
  have hrun : run (fatalStep {}) s₀ (recoveringThread.moves.map (0, ·)) = some s₃ :=
    run_append_eq_some.mpr ⟨s₁, hrun₁, run_append_eq_some.mpr ⟨s₂, hrun₂, run_cons_eq_some.mpr
      ⟨s₃, hhook, run_nil _⟩⟩⟩
  have has : Interleaving recoveringThreads
      (infoThread.moves.map ((1 : Fin 2), ·) ++ recoveringThread.moves.map (0, ·)) :=
    interleaves_map_append (by decide) (List.prefix_refl _) (List.prefix_refl _)
  have hall := run_append_eq_some.mpr ⟨s₀, hrun₀, hrun⟩
  refine ⟨_, s₃, has, hall, ⟨s₂.statics.crashReason, ?_⟩, ?_⟩
  · rw [hhist, hex, hflag]
    exact List.mem_append_right _ List.mem_cons_self
  · exact (hooksInformed_iff_unovertaken {} recoveringThreads).mpr unovertaken_recoveringThreads _ s₃ has hall

end Thirdparty.Glog
