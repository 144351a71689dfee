import Thirdparty.Glog.FatalRun

/-!
# `Glog.FatalStep` — what one step of FATAL logging can do

As far as the crash reason is concerned, a step is one of five: a message claims the exclusive data, fills it, is
flushed and recorded, a hook is called, or nothing happens. Whether a message is the first one, `first_fatal_` says;
`FlagsAgree` keeps that flag in agreement with the data the message works on.

## Contents
- `SameFields`, `SameRecord`, `SameFirst`, `SameData`: what `<<` and `Flush` leave alone; `sendToLog_spec`,
  `flushOn_spec`.
- `LiveMessages`: what holds of every live message with its data.
- `FlagsAgree` and its step lemma `flagsAgree_step`.
- `StepKind`, `fatalStep_kind`: the inversion of a step.
-/

namespace Thirdparty.Glog

open Trace

/-! ## What `Init`, `<<` and `Flush` leave of the record -/

/-- The fields of a message's data that `RecordCrashReason` and `SendToLog` go by are the same. -/
structure LogMessageData.SameFields (d d' : LogMessageData) : Prop where
  severity : d'.severity = d.severity
  fullname : d'.fullname = d.fullname
  line : d'.line = d.line
  numPrefixChars : d'.numPrefixChars = d.numPrefixChars
  firstFatal : d'.firstFatal = d.firstFatal
  hasBeenFlushed : d'.hasBeenFlushed = d.hasBeenFlushed

theorem LogMessageData.SameFields.refl (d : LogMessageData) : d.SameFields d := ⟨rfl, rfl, rfl, rfl, rfl, rfl⟩

theorem LogMessageData.sameFields_write (text : Bytes) (d : LogMessageData) :
    d.SameFields (d.write text) := ⟨rfl, rfl, rfl, rfl, rfl, rfl⟩

theorem LogMessageData.sameFields_appendNewline {d d' : LogMessageData}
    (h : d.appendNewline = some d') : d.SameFields d' := by
  simp only [appendNewline, Option.bind_eq_bind, Option.bind_eq_some_iff] at h
  obtain ⟨last, -, h⟩ := h
  split at h
  · obtain ⟨buf, -, h⟩ := Option.bind_eq_some_iff.mp h
    cases h
    exact ⟨rfl, rfl, rfl, rfl, rfl, rfl⟩
  · cases h
    exact ⟨rfl, rfl, rfl, rfl, rfl, rfl⟩

/-- Nothing changed in what `RecordCrashReason` reads or wrote. -/
structure SameRecord (s s' : Statics) : Prop where
  flag : s'.fatalMsgExclusive = s.fatalMsgExclusive
  exclusive : s.fatalMsgDataExclusive.SameFields s'.fatalMsgDataExclusive
  crash : s'.crashReason = s.crashReason

theorem SameRecord.refl (s : Statics) : SameRecord s s := ⟨rfl, .refl _, rfl⟩

/-- Nobody's `first_fatal_` changed. -/
def SameFirst (s s' : Statics) : Prop := ∀ r, (s'.data r).firstFatal = (s.data r).firstFatal

/-- Nobody's fields changed. -/
def SameData (s s' : Statics) : Prop := ∀ r, (s.data r).SameFields (s'.data r)

theorem SameData.refl (s : Statics) : SameData s s := fun _ => .refl _

theorem SameData.first {s s' : Statics} (h : SameData s s') : SameFirst s s' := fun r => (h r).firstFatal

theorem SameRecord.recordCrashReason {s s' : Statics} (h : SameRecord s s') :
    recordCrashReason s' = recordCrashReason s := by
  unfold Glog.recordCrashReason
  rw [h.exclusive.fullname, h.exclusive.line, h.exclusive.numPrefixChars]

theorem sameRecord_modify {s : Statics} {r : DataRef} {f : LogMessageData → LogMessageData}
    (h : (s.data r).SameFields (f (s.data r))) : SameRecord s (s.modify f r).1 := by
  cases r with
  | exclusive => exact ⟨rfl, h, rfl⟩
  | shared => exact ⟨rfl, .refl _, rfl⟩
  | allocated d => exact .refl s

/-- An update of other data than the exclusive one does not touch the record. -/
theorem sameRecord_modify_other {s : Statics} {r : DataRef} {f : LogMessageData → LogMessageData}
    (h : r.isExclusive = false) : SameRecord s (s.modify f r).1 := by
  cases r with
  | exclusive => cases h
  | shared => exact ⟨rfl, .refl _, rfl⟩
  | allocated d => exact .refl s

theorem sameFirst_modify {s : Statics} {r : DataRef} {f : LogMessageData → LogMessageData}
    (h : (f (s.data r)).firstFatal = (s.data r).firstFatal) : SameFirst s (s.modify f r).1 := by
  intro r'
  cases r with
  | exclusive => cases r' <;> first | exact h | rfl
  | shared => cases r' <;> first | exact h | rfl
  | allocated d => rfl

theorem sameData_modify {s : Statics} {r : DataRef} {f : LogMessageData → LogMessageData}
    (h : (s.data r).SameFields (f (s.data r))) : SameData s (s.modify f r).1 := by
  intro r'
  cases r with
  | exclusive => cases r' <;> first | exact h | exact .refl _
  | shared => cases r' <;> first | exact h | exact .refl _
  | allocated d => exact .refl _

theorem flag_modify (s : Statics) (f : LogMessageData → LogMessageData) (r : DataRef) :
    (s.modify f r).1.fatalMsgExclusive = s.fatalMsgExclusive := by
  cases r <;> rfl

theorem data_modify (s : Statics) (r : DataRef) (f : LogMessageData → LogMessageData) :
    (s.modify f r).1.data (s.modify f r).2 = f (s.data r) := by
  cases r <;> rfl

@[simp] theorem isExclusive_modify (s : Statics) (r : DataRef) (f : LogMessageData → LogMessageData) :
    (s.modify f r).2.isExclusive = r.isExclusive := by
  cases r <;> rfl

/-- The messages that get static data, and that `SendToLog` does not return from: FATAL, with `exit_on_dfatal`. -/
def isFatal (cfg : Settings) (severity : LogSeverity) : Prop := severity = .FATAL ∧ cfg.exitOnDfatal = true

/-- `SendToLog` records the crash reason when the message is the first one, and nothing else. -/
theorem sendToLog_spec (cfg : Settings) (s : Statics) (r : DataRef) :
    ¬ isFatal cfg (s.data r).severity ∧ sendToLog cfg s r = .returned s ∨
    isFatal cfg (s.data r).severity ∧ (s.data r).firstFatal = false ∧ sendToLog cfg s r = .unlocked s ∨
    isFatal cfg (s.data r).severity ∧ (s.data r).firstFatal = true ∧ ∃ text, sendToLog cfg s r
      = .unlocked { s with crashReason := recordCrashReason s, fatalMessage := text } := by
  by_cases hsev : (s.data r).severity = .FATAL
  · cases hexit : cfg.exitOnDfatal with
    | false => exact Or.inl ⟨fun h => Bool.false_ne_true (hexit ▸ h.2), by simp [sendToLog, hexit]⟩
    | true =>
      cases hfirst : (s.data r).firstFatal with
      | false => exact Or.inr (Or.inl ⟨⟨hsev, hexit⟩, rfl, sendToLog_later hexit hsev hfirst⟩)
      | true => exact Or.inr (Or.inr ⟨⟨hsev, hexit⟩, rfl, _, sendToLog_first hexit hsev hfirst⟩)
  · exact Or.inl ⟨fun h => hsev h.1, sendToLog_nonfatal hsev⟩

/-- `Flush` comes to `SendToLog`, and `SendToLog` to the hook. -/
def comesToHook (cfg : Settings) (d : LogMessageData) : Prop := suppressed cfg d = false ∧ isFatal cfg d.severity

/-- A flush returns, or unlocks with the crash reason recorded if the message is the first one. -/
theorem flushOn_spec (cfg : Settings) (s : Statics) (r : DataRef) :
    ∃ s₀, SameRecord s s₀ ∧ SameData s s₀ ∧
      (¬ comesToHook cfg (s.data r) ∧ flushOn cfg s r = .returned s₀ ∨
       comesToHook cfg (s.data r) ∧ (s.data r).firstFatal = false ∧ flushOn cfg s r = .unlocked s₀ ∨
       comesToHook cfg (s.data r) ∧ (s.data r).firstFatal = true ∧ ∃ text, flushOn cfg s r
         = .unlocked { s₀ with crashReason := recordCrashReason s₀, fatalMessage := text }) := by
  cases hsup : suppressed cfg (s.data r) with
  | true =>
    refine ⟨s, .refl s, .refl s, Or.inl ⟨fun h => Bool.false_ne_true (h.1.symm.trans hsup), ?_⟩⟩
    simp [flushOn, flush_suppressed hsup]
  | false =>
    have hcomes : comesToHook cfg (s.data r) ↔ isFatal cfg (s.data r).severity := and_iff_right hsup
    rw [hcomes]
    cases happ : (s.data r).appendNewline with
    | none =>
      have hon : flushOn cfg s r = sendToLog cfg s r := by
        simp [flushOn, flush_outOfBounds hsup happ]
      rw [hon]
      exact ⟨s, .refl s, .refl s, sendToLog_spec cfg s r⟩
    | some d' =>
      have hfields := LogMessageData.sameFields_appendNewline happ
      have hsend := sendToLog_spec cfg (s.modify (fun _ => d') r).1 (s.modify (fun _ => d') r).2
      have hon : flushOn cfg s r
          = sendToLog cfg (s.modify (fun _ => d') r).1 (s.modify (fun _ => d') r).2 := by
        rw [flushOn, flush_sends hsup happ]
        rcases hsend with ⟨-, h⟩ | ⟨-, -, h⟩ | ⟨-, -, text, h⟩ <;> rw [h]
      rw [data_modify, hfields.firstFatal, isFatal, hfields.severity] at hsend
      rw [hon]
      exact ⟨_, sameRecord_modify hfields, sameData_modify hfields, hsend⟩

/-! ## `first_fatal_` -/

variable {T : Type*} [DecidableEq T] {cfg : Settings} {s s' : RunState T}

theorem stack_next (s : RunState T) (t : T) (statics : Statics) (stack : List Frame) (events : List Event) :
    (s.next t statics stack events).stack t = stack := Function.update_self _ _ _

/-- Every live message meets `Q`, with the data it works on. -/
def LiveMessages (Q : Frame → LogMessageData → Prop) (s : RunState T) : Prop :=
  ∀ t, ∀ f ∈ s.stack t, Q f (s.statics.data f.data)

/-- A step of `t` has to account for what it changes in the data, and for the new frames of `t`. -/
theorem LiveMessages.next {Q : Frame → LogMessageData → Prop} (h : LiveMessages Q s) {t : T} {statics : Statics}
    {stack : List Frame} {events : List Event}
    (hkeep : ∀ f, Q f (s.statics.data f.data) → Q f (statics.data f.data))
    (hstack : ∀ f ∈ stack, f ∈ s.stack t ∨ Q f (statics.data f.data)) :
    LiveMessages Q (s.next t statics stack events) := by
  intro u f hf
  show Q f (statics.data f.data)
  by_cases hu : u = t
  · subst hu
    simp only [RunState.next, Function.update_self] at hf
    rcases hstack f hf with hold | hnew
    · exact hkeep f (h u f hold)
    · exact hnew
  · simp only [RunState.next, Function.update_of_ne hu] at hf
    exact hkeep f (h u f hf)

/-- `first_fatal_` of every live message says whether it works on the exclusive data. -/
def FlagsAgree (s : RunState T) : Prop := LiveMessages (fun f d => d.firstFatal = f.data.isExclusive) s

omit [DecidableEq T] in
theorem flagsAgree_initial : FlagsAgree (RunState.initial T) := by
  intro t f hf
  cases hf

/-- A step that leaves every `first_fatal_` alone only has to account for the frames of its own thread. -/
theorem FlagsAgree.next (h : FlagsAgree s) {t : T} {statics : Statics} {stack : List Frame}
    {events : List Event} (hsame : SameFirst s.statics statics)
    (hstack : ∀ f ∈ stack, f ∈ s.stack t ∨ (statics.data f.data).firstFatal = f.data.isExclusive) :
    FlagsAgree (s.next t statics stack events) :=
  LiveMessages.next h (fun f hf => (hsame f.data).trans hf) hstack

/-- The three outcomes of the choice of the data. -/
theorem chooseData_cases (cfg : Settings) (severity : LogSeverity) (s : Statics) :
    (¬ isFatal cfg severity ∧ ∃ d : LogMessageData, d.firstFatal = false ∧
      chooseData cfg severity s = (s, .allocated d)) ∨
    (isFatal cfg severity ∧ s.fatalMsgExclusive = true ∧ chooseData cfg severity s
      = ({ s with
            fatalMsgExclusive := false
            fatalMsgDataExclusive := { s.fatalMsgDataExclusive with firstFatal := true } }, .exclusive)) ∨
    (isFatal cfg severity ∧ s.fatalMsgExclusive = false ∧ chooseData cfg severity s
      = ({ s with fatalMsgDataShared := { s.fatalMsgDataShared with firstFatal := false } }, .shared)) := by
  unfold chooseData isFatal
  by_cases hsev : severity = .FATAL <;> cases hexit : cfg.exitOnDfatal <;>
    cases hflag : s.fatalMsgExclusive <;> simp [hsev]

theorem FlagsAgree.construct (h : FlagsAgree s) (t : T) (site : CallSite) (severity : LogSeverity)
    (events : List Event) :
    FlagsAgree (s.next t (chooseData cfg severity s.statics).1
      (⟨site, severity, (chooseData cfg severity s.statics).2, .constructing⟩ :: s.stack t) events) := by
  apply LiveMessages.next h
  · -- the choice only writes `first_fatal_` of the data it chooses, and writes what the type of the data says
    intro f hf
    have hflag : (s.statics.data f.data).firstFatal = f.data.isExclusive := hf
    show ((chooseData cfg severity s.statics).1.data f.data).firstFatal = f.data.isExclusive
    rcases chooseData_cases cfg severity s.statics with ⟨-, d, -, hc⟩ | ⟨-, -, hc⟩ | ⟨-, -, hc⟩ <;> rw [hc] <;>
      cases hd : f.data <;> rw [hd] at hflag <;> first | exact hflag | rfl
  · intro f hf
    rcases List.mem_cons.mp hf with rfl | hold
    · right
      rcases chooseData_cases cfg severity s.statics with ⟨-, d, hd, hc⟩ | ⟨-, -, hc⟩ | ⟨-, -, hc⟩ <;> rw [hc]
      · exact hd
      · rfl
      · rfl
    · exact Or.inl hold

/-- The message on top of `t`'s stack is updated by `update`, which keeps `first_fatal_`. -/
theorem FlagsAgree.modify (h : FlagsAgree s) {t : T} {site : CallSite} {severity : LogSeverity} {data : DataRef}
    {phase phase' : Phase} {rest : List Frame} (hstack : s.stack t = ⟨site, severity, data, phase⟩ :: rest)
    {update : LogMessageData → LogMessageData}
    (hupdate : (update (s.statics.data data)).firstFatal = (s.statics.data data).firstFatal)
    (events : List Event) :
    FlagsAgree (s.next t (s.statics.modify update data).1
      (⟨site, severity, (s.statics.modify update data).2, phase'⟩ :: rest) events) := by
  apply h.next (sameFirst_modify hupdate)
  intro f hf
  rcases List.mem_cons.mp hf with rfl | hrest
  · right
    rw [data_modify, hupdate, isExclusive_modify]
    exact h t _ (hstack ▸ List.mem_cons_self)
  · left
    exact hstack ▸ List.mem_cons_of_mem _ hrest

/-- A step that changes only phases, or drops messages, on top of `t`'s stack. -/
theorem FlagsAgree.rephase (h : FlagsAgree s) {t : T} {f : Frame} {rest stack : List Frame} {statics : Statics}
    {events : List Event} (hstack : s.stack t = f :: rest) (hsame : SameFirst s.statics statics)
    (hmem : ∀ g ∈ stack, g ∈ rest ∨ g.data = f.data) : FlagsAgree (s.next t statics stack events) := by
  apply h.next hsame
  intro g hg
  rcases hmem g hg with hrest | hdata
  · left
    exact hstack ▸ List.mem_cons_of_mem _ hrest
  · right
    rw [hdata, hsame]
    exact h t f (hstack ▸ List.mem_cons_self)

/-- Every step keeps `first_fatal_` in agreement with the choice of the data. -/
theorem flagsAgree_step {t : T} {m : Move} (h : FlagsAgree s) (hstep : fatalStep cfg s (t, m) = some s') :
    FlagsAgree s' := by
  cases m with
  | construct site severity =>
    simp only [fatalStep] at hstep
    split at hstep
    · cases hstep
    · cases hstep
      exact h.construct t site severity _
  | fill ctx =>
    simp only [fatalStep] at hstep
    split at hstep
    · rename_i hstack
      cases hstep
      exact h.modify hstack rfl _
    · cases hstep
  | write text =>
    simp only [fatalStep] at hstep
    split at hstep
    · rename_i hstack
      cases hstep
      exact h.modify hstack rfl _
    · cases hstep
  | flush =>
    simp only [fatalStep] at hstep
    split at hstep
    · rename_i site severity data rest hstack
      obtain ⟨s₀, -, hdata, ⟨-, ho⟩ | ⟨-, -, ho⟩ | ⟨-, -, text, ho⟩⟩ := flushOn_spec cfg s.statics data <;>
        rw [ho] at hstep <;> cases hstep
      · -- `SendToLog` returns: the message is gone from the stack
        exact h.rephase hstack hdata.first fun g hg => Or.inl hg
      · apply h.rephase hstack hdata.first
        exact List.forall_mem_cons.mpr ⟨Or.inr rfl, fun g hg => Or.inl hg⟩
      · -- recording changes `crash_reason` and the saved message, and no data
        have hcrash : SameFirst s.statics
            { s₀ with crashReason := recordCrashReason s₀, fatalMessage := text } := by
          intro r
          cases r with
          | exclusive => exact hdata.first .exclusive
          | shared => exact hdata.first .shared
          | allocated d => rfl
        apply h.rephase hstack hcrash
        exact List.forall_mem_cons.mpr ⟨Or.inr rfl, fun g hg => Or.inl hg⟩
    · cases hstep
  | hook =>
    simp only [fatalStep] at hstep
    split at hstep
    · rename_i hstack
      cases hstep
      apply h.rephase hstack (fun _ => rfl)
      exact List.forall_mem_cons.mpr ⟨Or.inr rfl, fun g hg => Or.inl hg⟩
    · cases hstep
  | fail n =>
    simp only [fatalStep] at hstep
    split at hstep
    · rename_i hstack
      cases hstep
      exact h.rephase hstack (fun _ => rfl) fun g hg => Or.inl (List.mem_of_mem_drop hg)
    · cases hstep

/-! ## What a step can do -/

/-- A step of thread `t` that neither claims, fills, flushes nor reports the first FATAL message. -/
structure Quiet (s s' : RunState T) (t : T) : Prop where
  record : SameRecord s.statics s'.statics
  others : ∀ u, u ≠ t → s'.stack u = s.stack u
  frames : ∀ g ∈ s'.stack t, g.data.isExclusive = true →
    ∃ f ∈ s.stack t, f.data.isExclusive = true ∧ f.phase = g.phase
  history : s'.history = s.history ∨ s'.history = s.history ++ [.unlocked false]
  notClaimer : ∀ f rest, s.stack t = f :: rest → f.data.isExclusive = true → f.phase ≠ .constructing

/-- The five kinds of steps. -/
inductive StepKind (cfg : Settings) (s s' : RunState T) (t : T) : Move → Prop where
  | quiet {m : Move} (h : Quiet s s' t) : StepKind cfg s s' t m
  | claim (site : CallSite) (severity : LogSeverity) (hfatal : isFatal cfg severity)
      (hflag : s.statics.fatalMsgExclusive = true)
      (hs' : s' = s.next t
        { s.statics with
          fatalMsgExclusive := false
          fatalMsgDataExclusive := { s.statics.fatalMsgDataExclusive with firstFatal := true } }
        (⟨site, severity, .exclusive, .constructing⟩ :: s.stack t) [.obtained site]) :
      StepKind cfg s s' t (.construct site severity)
  | fill (ctx : Context) (site : CallSite) (severity : LogSeverity) (rest : List Frame)
      (hstack : s.stack t = ⟨site, severity, .exclusive, .constructing⟩ :: rest)
      (hs' : s' = s.next t (s.statics.modify (LogMessageData.init cfg ctx site severity) .exclusive).1
        (⟨site, severity, .exclusive, .streaming⟩ :: rest) []) :
      StepKind cfg s s' t (.fill ctx)
  | flush (site : CallSite) (severity : LogSeverity) (rest : List Frame) (s₀ : Statics) (text : Bytes)
      (hstack : s.stack t = ⟨site, severity, .exclusive, .streaming⟩ :: rest)
      (hrecord : SameRecord s.statics s₀)
      (hs' : s' = s.next t { s₀ with crashReason := recordCrashReason s₀, fatalMessage := text }
        (⟨site, severity, .exclusive, .unlocked⟩ :: rest) [.recorded, .unlocked true]) :
      StepKind cfg s s' t .flush
  | hook (f : Frame) (rest : List Frame) (hstack : s.stack t = f :: rest) (hphase : f.phase = .unlocked)
      (hs' : s' = s.next t s.statics ({ f with phase := .hooked } :: rest)
        [.hook f.data.isExclusive s.statics.crashReason]) :
      StepKind cfg s s' t .hook

/-- Quietness of a step whose new frames come from old ones. -/
theorem quiet_next {t : T} {statics : Statics} {stack : List Frame} {events : List Event}
    (hrecord : SameRecord s.statics statics)
    (hframes : ∀ g ∈ stack, g.data.isExclusive = true →
      ∃ f ∈ s.stack t, f.data.isExclusive = true ∧ f.phase = g.phase)
    (hevents : events = [] ∨ events = [.unlocked false])
    (htop : ∀ f rest, s.stack t = f :: rest → f.data.isExclusive = true → f.phase ≠ .constructing) :
    Quiet s (s.next t statics stack events) t where
  record := hrecord
  others u hu := Function.update_of_ne hu _ _
  frames := by simpa only [RunState.next, Function.update_self] using hframes
  history := by
    rcases hevents with rfl | rfl
    · exact Or.inl (List.append_nil _)
    · exact Or.inr rfl
  notClaimer := htop

omit [DecidableEq T] in
/-- When the message on top keeps its data and phase, or goes, the frames below are the old ones. -/
theorem frames_of_rest {t : T} {f : Frame} {rest stack : List Frame} (hstack : s.stack t = f :: rest)
    (hmem : ∀ g ∈ stack, g ∈ rest ∨ g.data.isExclusive = f.data.isExclusive ∧ g.phase = f.phase) :
    ∀ g ∈ stack, g.data.isExclusive = true →
      ∃ f ∈ s.stack t, f.data.isExclusive = true ∧ f.phase = g.phase := by
  intro g hg hex
  rw [hstack]
  rcases hmem g hg with hrest | ⟨hdata, hphase⟩
  · exact ⟨g, List.mem_cons_of_mem _ hrest, hex, rfl⟩
  · exact ⟨f, List.mem_cons_self, hdata ▸ hex, hphase.symm⟩

theorem kind_construct {t : T} {site : CallSite} {severity : LogSeverity}
    (hstep : fatalStep cfg s (t, .construct site severity) = some s') :
    StepKind cfg s s' t (.construct site severity) := by
  simp only [fatalStep] at hstep
  split at hstep
  · cases hstep
  rename_i htop
  have htop' : ∀ f rest, s.stack t = f :: rest → f.data.isExclusive = true → f.phase ≠ .constructing := by
    intro f rest hf _ hphase
    exact htop (by simp [hf, hphase])
  have hsame : ∀ g ∈ s.stack t, g.data.isExclusive = true →
      ∃ f ∈ s.stack t, f.data.isExclusive = true ∧ f.phase = g.phase := by
    intro g hg hex
    exact ⟨g, hg, hex, rfl⟩
  rcases chooseData_cases cfg severity s.statics with ⟨-, d, -, hc⟩ | ⟨hfatal, hflag, hc⟩ | ⟨-, -, hc⟩ <;>
    rw [hc] at hstep <;> cases hstep
  · refine .quiet (quiet_next (.refl _) ?_ (Or.inl rfl) htop')
    exact List.forall_mem_cons.mpr ⟨nofun, hsame⟩
  · exact .claim site severity hfatal hflag rfl
  · refine .quiet (quiet_next ⟨rfl, .refl _, rfl⟩ ?_ (Or.inl rfl) htop')
    exact List.forall_mem_cons.mpr ⟨nofun, hsame⟩

/-- `Init` of a message that works on other data than the exclusive one. -/
theorem quiet_fill {t : T} {ctx : Context} {site : CallSite} {severity : LogSeverity} {data : DataRef}
    {rest : List Frame} (hstack : s.stack t = ⟨site, severity, data, .constructing⟩ :: rest)
    (hdata : data.isExclusive = false) :
    Quiet s (s.next t (s.statics.modify (LogMessageData.init cfg ctx site severity) data).1
      (⟨site, severity, (s.statics.modify (LogMessageData.init cfg ctx site severity) data).2, .streaming⟩ :: rest)
      []) t := by
  refine quiet_next (sameRecord_modify_other hdata) ?_ (Or.inl rfl) ?_
  · intro g hg hex
    rcases List.mem_cons.mp hg with rfl | hrest
    · rw [isExclusive_modify, hdata] at hex
      cases hex
    · exact ⟨g, hstack ▸ List.mem_cons_of_mem _ hrest, hex, rfl⟩
  · intro f rest' hf hex
    rw [hstack] at hf
    cases hf
    rw [hdata] at hex
    cases hex

theorem kind_fill {t : T} {ctx : Context} (hstep : fatalStep cfg s (t, .fill ctx) = some s') :
    StepKind cfg s s' t (.fill ctx) := by
  simp only [fatalStep] at hstep
  split at hstep
  · rename_i site severity data rest hstack
    cases hstep
    cases data with
    | exclusive => exact .fill ctx site severity rest hstack rfl
    | shared => exact .quiet (quiet_fill hstack rfl)
    | allocated d => exact .quiet (quiet_fill hstack rfl)
  · cases hstep

omit [DecidableEq T] in
/-- A message past its constructor is on top, so nobody claims. -/
theorem notClaimer_of_top {t : T} {f : Frame} {rest : List Frame} (hstack : s.stack t = f :: rest)
    (hphase : f.phase ≠ .constructing) :
    ∀ g rest', s.stack t = g :: rest' → g.data.isExclusive = true → g.phase ≠ .constructing := by
  intro g rest' hg _
  rw [hstack] at hg
  cases hg
  exact hphase

theorem kind_write {t : T} {text : Bytes} (hstep : fatalStep cfg s (t, .write text) = some s') :
    StepKind cfg s s' t (.write text) := by
  simp only [fatalStep] at hstep
  split at hstep
  · rename_i site severity data rest hstack
    cases hstep
    refine .quiet (quiet_next (sameRecord_modify (LogMessageData.sameFields_write text _)) ?_ (Or.inl rfl)
      (notClaimer_of_top hstack (by simp)))
    apply frames_of_rest hstack
    intro g hg
    rcases List.mem_cons.mp hg with rfl | hrest
    · exact Or.inr ⟨isExclusive_modify _ _ _, rfl⟩
    · exact Or.inl hrest
  · cases hstep

theorem kind_flush {t : T} (hflags : FlagsAgree s) (hstep : fatalStep cfg s (t, .flush) = some s') :
    StepKind cfg s s' t .flush := by
  simp only [fatalStep] at hstep
  split at hstep
  · rename_i site severity data rest hstack
    have hflag : (s.statics.data data).firstFatal = data.isExclusive :=
      hflags t _ (hstack ▸ List.mem_cons_self)
    have hpast := notClaimer_of_top hstack (by simp)
    have hrest : ∀ g ∈ rest, g.data.isExclusive = true →
        ∃ f ∈ s.stack t, f.data.isExclusive = true ∧ f.phase = g.phase := by
      intro g hg hex
      exact ⟨g, hstack ▸ List.mem_cons_of_mem _ hg, hex, rfl⟩
    obtain ⟨s₀, hrecord, -, ⟨-, ho⟩ | ⟨-, hfirst, ho⟩ | ⟨-, hfirst, text, ho⟩⟩ := flushOn_spec cfg s.statics data
    · rw [ho] at hstep
      cases hstep
      exact .quiet (quiet_next hrecord hrest (Or.inl rfl) hpast)
    · -- not the first one: `crash_reason` stays as it is
      rw [hfirst] at hflag
      rw [ho] at hstep
      cases hstep
      refine .quiet (quiet_next hrecord ?_ ?_ hpast)
      · exact List.forall_mem_cons.mpr ⟨fun hex => by simp [← hflag] at hex, hrest⟩
      · rw [hfirst, ← hflag]; exact Or.inr rfl
    · -- the first one records
      rw [hfirst] at hflag
      rw [ho] at hstep
      cases data with
      | exclusive =>
        cases hstep
        refine .flush site severity rest s₀ text hstack hrecord ?_
        rw [hfirst]; rfl
      | shared => cases hflag
      | allocated d => cases hflag
  · cases hstep

/-- A hook call is the one of the message on top, with `crash_reason` as it stands. -/
theorem hook_step {t : T} (hstep : fatalStep cfg s (t, .hook) = some s') :
    ∃ f rest, s.stack t = f :: rest ∧ f.phase = .unlocked ∧
      s' = s.next t s.statics ({ f with phase := .hooked } :: rest)
        [.hook f.data.isExclusive s.statics.crashReason] := by
  simp only [fatalStep] at hstep
  split at hstep
  · rename_i site severity data rest hstack
    cases hstep
    exact ⟨⟨site, severity, data, .unlocked⟩, rest, hstack, rfl, rfl⟩
  · cases hstep

theorem kind_hook {t : T} (hstep : fatalStep cfg s (t, .hook) = some s') : StepKind cfg s s' t .hook := by
  obtain ⟨f, rest, hstack, hphase, hs'⟩ := hook_step hstep
  exact .hook f rest hstack hphase hs'

theorem kind_fail {t : T} {n : Nat} (hstep : fatalStep cfg s (t, .fail n) = some s') :
    StepKind cfg s s' t (.fail n) := by
  simp only [fatalStep] at hstep
  split at hstep
  · rename_i site severity data rest hstack
    cases hstep
    refine .quiet (quiet_next (.refl _) ?_ (Or.inl rfl) (notClaimer_of_top hstack (by simp)))
    exact frames_of_rest hstack fun g hg => Or.inl (List.mem_of_mem_drop hg)
  · cases hstep

/-- **Inversion of a step.** -/
theorem fatalStep_kind {t : T} {m : Move} (hflags : FlagsAgree s)
    (hstep : fatalStep cfg s (t, m) = some s') : StepKind cfg s s' t m := by
  cases m with
  | construct site severity => exact kind_construct hstep
  | fill ctx => exact kind_fill hstep
  | write text => exact kind_write hstep
  | flush => exact kind_flush hflags hstep
  | hook => exact kind_hook hstep
  | fail n => exact kind_fail hstep

end Thirdparty.Glog
