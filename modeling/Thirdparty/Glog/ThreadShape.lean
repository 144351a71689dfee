import Thirdparty.Core.Interleave
import Thirdparty.Glog.FatalStep

/-!
# `Glog.ThreadShape` — what a thread's own moves say about its messages

Which moves a thread can make, and how far its messages come, depends on the thread alone: on the severities of its
live messages and on their phases. What the other threads do decides which data a message gets, and what the hook is
told, but not whether the hook is called.

## Contents
- `Shape`, `shapeStep`: the stack of one thread without sites and data, and what a move makes of it.
- `SeveritiesAgree`: the data of a message have its severity; `severitiesAgree_step`.
- `fatalStep_shape`, `fatal_projects`: a thread's stack can be looked at through its shape.
-/

namespace Thirdparty.Glog

open Trace

/-- The severities and the phases of a thread's live messages, the innermost first. -/
abbrev Shape := List (LogSeverity × Phase)

/-- Do messages of this severity come to the call of the hook? -/
def reports (cfg : Settings) (severity : LogSeverity) : Bool :=
  severity = .FATAL && cfg.exitOnDfatal && !(severity.toInt < cfg.minloglevel)

/-- A move of a thread, by the thread's shape. -/
def shapeStep (cfg : Settings) : Shape → Move → Option Shape
  | shape, .construct _ severity =>
    if shape.head?.any (·.2 = .constructing) then none else some ((severity, .constructing) :: shape)
  | (severity, .constructing) :: rest, .fill _ => some ((severity, .streaming) :: rest)
  | (severity, .streaming) :: rest, .write _ => some ((severity, .streaming) :: rest)
  | (severity, .streaming) :: rest, .flush =>
    some (if reports cfg severity then (severity, .unlocked) :: rest else rest)
  | (severity, .unlocked) :: rest, .hook => some ((severity, .hooked) :: rest)
  | (_, .hooked) :: rest, .fail n => some (rest.drop n)
  | _, _ => none

variable {T : Type*} {cfg : Settings} {s s' : RunState T} {t : T}

def Frame.shape (f : Frame) : LogSeverity × Phase := (f.severity, f.phase)

/-- The shape of `t`'s stack. -/
def RunState.shape (s : RunState T) (t : T) : Shape := (s.stack t).map Frame.shape

/-! ## The severity of the data -/

/-- Does the reference lead to static data? -/
def DataRef.isStatic : DataRef → Bool
  | .exclusive => true
  | .shared => true
  | .allocated _ => false

/-- Static data are for FATAL messages; and once `Init` is through, the data have the severity of the message, and
    have not been flushed. -/
structure FrameAgrees (f : Frame) (d : LogMessageData) : Prop where
  fatal : f.data.isStatic = true → f.severity = .FATAL
  severity : f.phase ≠ .constructing → d.severity = f.severity
  unflushed : f.phase ≠ .constructing → d.hasBeenFlushed = false

/-- Every live message agrees with its data. -/
def SeveritiesAgree (s : RunState T) : Prop := LiveMessages FrameAgrees s

theorem severitiesAgree_initial : SeveritiesAgree (RunState.initial T) := by
  intro t f hf
  cases hf

theorem isStatic_of_isExclusive {r : DataRef} (h : r.isExclusive = true) : r.isStatic = true := by
  cases r with
  | exclusive => rfl
  | shared => cases h
  | allocated d => cases h

@[simp] theorem isStatic_modify (s : Statics) (r : DataRef) (f : LogMessageData → LogMessageData) :
    (s.modify f r).2.isStatic = r.isStatic := by
  cases r <;> rfl

/-- An update of `*data_` is seen by that message, and by those on the same static data. -/
theorem data_modify_or (s : Statics) (r r' : DataRef) (f : LogMessageData → LogMessageData) :
    (s.modify f r).1.data r' = s.data r' ∨
      r.isStatic = true ∧ r'.isStatic = true ∧ (s.modify f r).1.data r' = f (s.data r) := by
  cases r <;> cases r' <;> first | exact Or.inl rfl | exact Or.inr ⟨rfl, rfl, rfl⟩

theorem FrameAgrees.same {f : Frame} {d d' : LogMessageData} (h : FrameAgrees f d) (hsame : d.SameFields d') :
    FrameAgrees f d' :=
  ⟨h.fatal, fun hphase => hsame.severity.trans (h.severity hphase),
    fun hphase => hsame.hasBeenFlushed.trans (h.unflushed hphase)⟩

/-- A message that agrees with its data comes to the hook if its severity does. -/
theorem FrameAgrees.comesToHook_iff (cfg : Settings) {f : Frame} {d : LogMessageData} (h : FrameAgrees f d)
    (hphase : f.phase ≠ .constructing) : comesToHook cfg d ↔ reports cfg f.severity = true := by
  simp only [comesToHook, suppressed, isFatal, reports, h.severity hphase, h.unflushed hphase]
  simp
  tauto

/-- The choice of the data changes `first_fatal_` only. -/
theorem severity_chooseData (cfg : Settings) (severity : LogSeverity) (s : Statics) (r : DataRef) :
    ((chooseData cfg severity s).1.data r).severity = (s.data r).severity ∧
      ((chooseData cfg severity s).1.data r).hasBeenFlushed = (s.data r).hasBeenFlushed := by
  rcases chooseData_cases cfg severity s with ⟨-, d, -, hc⟩ | ⟨-, -, hc⟩ | ⟨-, -, hc⟩ <;> rw [hc] <;>
    cases r <;> exact ⟨rfl, rfl⟩

theorem isStatic_chooseData (cfg : Settings) (severity : LogSeverity) (s : Statics)
    (h : (chooseData cfg severity s).2.isStatic = true) : severity = .FATAL := by
  rcases chooseData_cases cfg severity s with ⟨-, d, -, hc⟩ | ⟨hfatal, -, -⟩ | ⟨hfatal, -, -⟩
  · rw [hc] at h
    cases h
  · exact hfatal.1
  · exact hfatal.1

variable [DecidableEq T]

theorem SeveritiesAgree.construct (h : SeveritiesAgree s) (t : T) (site : CallSite) (severity : LogSeverity)
    (events : List Event) :
    SeveritiesAgree (s.next t (chooseData cfg severity s.statics).1
      (⟨site, severity, (chooseData cfg severity s.statics).2, .constructing⟩ :: s.stack t) events) := by
  apply LiveMessages.next h
  · intro f hf
    obtain ⟨hsev, hflushed⟩ := severity_chooseData cfg severity s.statics f.data
    exact ⟨hf.fatal, fun hphase => hsev.trans (hf.severity hphase),
      fun hphase => hflushed.trans (hf.unflushed hphase)⟩
  · intro f hf
    rcases List.mem_cons.mp hf with rfl | hold
    · exact Or.inr ⟨isStatic_chooseData cfg severity s.statics, fun hphase => absurd rfl hphase,
        fun hphase => absurd rfl hphase⟩
    · exact Or.inl hold

/-- `Init` gives the data the severity of the message; other messages on the same data are FATAL like it. -/
theorem SeveritiesAgree.fill (h : SeveritiesAgree s) {site : CallSite} {severity : LogSeverity} {data : DataRef}
    {rest : List Frame} (hstack : s.stack t = ⟨site, severity, data, .constructing⟩ :: rest) (ctx : Context)
    (events : List Event) :
    SeveritiesAgree (s.next t (s.statics.modify (LogMessageData.init cfg ctx site severity) data).1
      (⟨site, severity, (s.statics.modify (LogMessageData.init cfg ctx site severity) data).2, .streaming⟩ :: rest)
      events) := by
  have hown : FrameAgrees ⟨site, severity, data, .constructing⟩ (s.statics.data data) :=
    h t _ (hstack ▸ List.mem_cons_self)
  apply LiveMessages.next h
  · intro f hf
    rcases data_modify_or s.statics data f.data (LogMessageData.init cfg ctx site severity) with
      hsame | ⟨hstatic, hstatic', hinit⟩
    · rw [hsame]
      exact hf
    · have hsev : severity = f.severity := (hown.fatal hstatic).trans (hf.fatal hstatic').symm
      rw [hinit]
      exact ⟨hf.fatal, fun _ => hsev, fun _ => rfl⟩
  · intro f hf
    rcases List.mem_cons.mp hf with rfl | hrest
    · right
      rw [data_modify]
      exact ⟨fun hstatic => hown.fatal (by rwa [isStatic_modify] at hstatic), fun _ => rfl, fun _ => rfl⟩
    · exact Or.inl (hstack ▸ List.mem_cons_of_mem _ hrest)

theorem SeveritiesAgree.write (h : SeveritiesAgree s) {site : CallSite} {severity : LogSeverity} {data : DataRef}
    {rest : List Frame} (hstack : s.stack t = ⟨site, severity, data, .streaming⟩ :: rest) (text : Bytes)
    (events : List Event) :
    SeveritiesAgree (s.next t (s.statics.modify (LogMessageData.write text) data).1
      (⟨site, severity, (s.statics.modify (LogMessageData.write text) data).2, .streaming⟩ :: rest) events) := by
  have hown : FrameAgrees ⟨site, severity, data, .streaming⟩ (s.statics.data data) :=
    h t _ (hstack ▸ List.mem_cons_self)
  apply LiveMessages.next h
  · intro f hf
    exact hf.same (sameData_modify (LogMessageData.sameFields_write text _) f.data)
  · intro f hf
    rcases List.mem_cons.mp hf with rfl | hrest
    · right
      rw [data_modify]
      exact ⟨fun hstatic => hown.fatal (by rwa [isStatic_modify] at hstatic),
        fun _ => hown.severity Phase.noConfusion, fun _ => hown.unflushed Phase.noConfusion⟩
    · exact Or.inl (hstack ▸ List.mem_cons_of_mem _ hrest)

/-- A step that leaves the data alone, and of the messages past `Init` at most the phase of the one on top. -/
theorem SeveritiesAgree.rephase (h : SeveritiesAgree s) {f : Frame} {rest stack : List Frame} {statics : Statics}
    {events : List Event} (hstack : s.stack t = f :: rest) (hsame : SameData s.statics statics)
    (hphase : f.phase ≠ .constructing)
    (hmem : ∀ g ∈ stack, g ∈ rest ∨ g.severity = f.severity ∧ g.data = f.data) :
    SeveritiesAgree (s.next t statics stack events) := by
  apply LiveMessages.next h fun g hg => hg.same (hsame g.data)
  intro g hg
  have hold : FrameAgrees f (s.statics.data f.data) := h t f (hstack ▸ List.mem_cons_self)
  have hnow := hold.same (hsame f.data)
  rcases hmem g hg with hrest | ⟨hsev, hdata⟩
  · exact Or.inl (hstack ▸ List.mem_cons_of_mem _ hrest)
  · right
    rw [hdata]
    exact ⟨fun hstatic => hsev.trans (hnow.fatal (hdata ▸ hstatic)),
      fun _ => (hnow.severity hphase).trans hsev.symm, fun _ => hnow.unflushed hphase⟩

/-- **Step lemma.** -/
theorem severitiesAgree_step {m : Move} (h : SeveritiesAgree s) (hstep : fatalStep cfg s (t, m) = some s') :
    SeveritiesAgree s' := by
  cases m with
  | construct site severity =>
    simp only [fatalStep] at hstep
    split at hstep
    · cases hstep
    · cases hstep
      exact h.construct t site severity _
  | fill ctx =>
    simp only [fatalStep] at hstep
    split at hstep
    · rename_i hstack
      cases hstep
      exact h.fill hstack ctx _
    · cases hstep
  | write text =>
    simp only [fatalStep] at hstep
    split at hstep
    · rename_i hstack
      cases hstep
      exact h.write hstack text _
    · cases hstep
  | flush =>
    simp only [fatalStep] at hstep
    split at hstep
    · rename_i hstack
      obtain ⟨s₀, -, hdata, ⟨-, ho⟩ | ⟨-, -, ho⟩ | ⟨-, -, text, ho⟩⟩ := flushOn_spec cfg s.statics _ <;>
        rw [ho] at hstep <;> cases hstep
      · exact h.rephase hstack hdata Phase.noConfusion fun g hg => Or.inl hg
      · apply h.rephase hstack hdata Phase.noConfusion
        exact List.forall_mem_cons.mpr ⟨Or.inr ⟨rfl, rfl⟩, fun g hg => Or.inl hg⟩
      · -- recording does not touch the data
        have hcrash : SameData s.statics
            { s₀ with crashReason := recordCrashReason s₀, fatalMessage := text } := by
          intro r
          cases r with
          | exclusive => exact hdata .exclusive
          | shared => exact hdata .shared
          | allocated d => exact .refl d
        apply h.rephase hstack hcrash Phase.noConfusion
        exact List.forall_mem_cons.mpr ⟨Or.inr ⟨rfl, rfl⟩, fun g hg => Or.inl hg⟩
    · cases hstep
  | hook =>
    simp only [fatalStep] at hstep
    split at hstep
    · rename_i hstack
      cases hstep
      apply h.rephase hstack (.refl _) Phase.noConfusion
      exact List.forall_mem_cons.mpr ⟨Or.inr ⟨rfl, rfl⟩, fun g hg => Or.inl hg⟩
    · cases hstep
  | fail n =>
    simp only [fatalStep] at hstep
    split at hstep
    · rename_i hstack
      cases hstep
      exact h.rephase hstack (.refl _) Phase.noConfusion fun g hg => Or.inl (List.mem_of_mem_drop hg)
    · cases hstep

/-! ## Shapes -/

theorem shape_next (s : RunState T) (t : T) (statics : Statics) (stack : List Frame) (events : List Event) :
    (s.next t statics stack events).shape t = stack.map Frame.shape := by
  simp only [RunState.shape, RunState.next, Function.update_self]

/-- Every step changes the stack of its own thread, and no other. -/
theorem fatalStep_next {m : Move} (hstep : fatalStep cfg s (t, m) = some s') :
    ∃ statics stack events, s' = s.next t statics stack events := by
  cases m <;> simp only [fatalStep] at hstep <;> split at hstep <;> try cases hstep
  all_goals first | exact ⟨_, _, _, rfl⟩ | skip
  split at hstep <;> cases hstep <;> exact ⟨_, _, _, rfl⟩

theorem stack_of_ne {m : Move} {u : T} (hstep : fatalStep cfg s (t, m) = some s') (hu : u ≠ t) :
    s'.stack u = s.stack u := by
  obtain ⟨statics, stack, events, rfl⟩ := fatalStep_next hstep
  exact Function.update_of_ne hu _ _

/-- A flush, by its outcome for the stack. -/
theorem shape_flush (h : SeveritiesAgree s) {site : CallSite} {severity : LogSeverity} {data : DataRef}
    {rest : List Frame} (hstack : s.stack t = ⟨site, severity, data, .streaming⟩ :: rest) :
    (fatalStep cfg s (t, .flush)).map (·.shape t)
      = some (if reports cfg severity then (severity, .unlocked) :: rest.map Frame.shape
          else rest.map Frame.shape) := by
  have hown : FrameAgrees ⟨site, severity, data, .streaming⟩ (s.statics.data data) :=
    h t _ (hstack ▸ List.mem_cons_self)
  have hiff := hown.comesToHook_iff cfg Phase.noConfusion
  obtain ⟨s₀, -, -, ⟨hnot, ho⟩ | ⟨hcomes, -, ho⟩ | ⟨hcomes, -, text, ho⟩⟩ := flushOn_spec cfg s.statics data
  · rw [if_neg (fun hreports => hnot (hiff.mpr hreports))]
    simp only [fatalStep, hstack, ho, Option.map_some, shape_next]
  · rw [if_pos (hiff.mp hcomes)]
    simp only [fatalStep, hstack, ho, Option.map_some, shape_next]
    rfl
  · rw [if_pos (hiff.mp hcomes)]
    simp only [fatalStep, hstack, ho, Option.map_some, shape_next]
    rfl

/-- **The shape decides** whether a move is possible, and what shape it leads to. -/
theorem fatalStep_shape (h : SeveritiesAgree s) (t : T) (m : Move) :
    (fatalStep cfg s (t, m)).map (·.shape t) = shapeStep cfg (s.shape t) m := by
  have hshape : s.shape t = (s.stack t).map Frame.shape := rfl
  cases hstack : s.stack t with
  | nil =>
    rw [hshape, hstack]
    cases m <;> simp [fatalStep, hstack, shapeStep, shape_next]
    rfl
  | cons f rest =>
    obtain ⟨site, severity, data, phase⟩ := f
    rw [hshape, hstack]
    cases m with
    | construct site' severity' =>
      cases phase <;> simp [fatalStep, hstack, shapeStep, shape_next, Frame.shape]
    | flush =>
      cases phase with
      | streaming => exact shape_flush h hstack
      | constructing => simp [fatalStep, hstack, shapeStep, Frame.shape]
      | unlocked => simp [fatalStep, hstack, shapeStep, Frame.shape]
      | hooked => simp [fatalStep, hstack, shapeStep, Frame.shape]
    | fill ctx => cases phase <;> simp [fatalStep, hstack, shapeStep, shape_next, Frame.shape]
    | write text => cases phase <;> simp [fatalStep, hstack, shapeStep, shape_next, Frame.shape]
    | hook => cases phase <;> simp [fatalStep, hstack, shapeStep, shape_next, Frame.shape]
    | fail n => cases phase <;> simp [fatalStep, hstack, shapeStep, shape_next, Frame.shape]

/-- **The threads can be looked at one by one.** -/
theorem fatal_projects (cfg : Settings) :
    Projects (T := T) (fatalStep cfg) SeveritiesAgree RunState.shape (shapeStep cfg) where
  inv _ _ _ h hstep := severitiesAgree_step h hstep
  own _ t m h := fatalStep_shape h t m
  others _ _ _ _ hstep u hu := by rw [RunState.shape, stack_of_ne hstep hu, RunState.shape]

end Thirdparty.Glog
