import Thirdparty.Glog.FatalStep

/-!
# `Glog.FirstFatal` — the life of the first FATAL message

The first FATAL message to be constructed obtains the exclusive data. `crash_reason` is filled when that message is
flushed, whatever the other messages do in the meantime.

## Contents
- `Stage`: how far the message with the exclusive data has come.
- `Stage.quiet`, `Stage.claim`, `Stage.fill`, `Stage.flush`, `Stage.hook`: one lemma for each kind of step.
- `stage_step`: the step lemma.
-/

namespace Thirdparty.Glog

/-! ## The stages of the first FATAL message -/

/-- The site of an `obtained` event. -/
def Event.obtained? : Event → Option CallSite
  | .obtained site => some site
  | .recorded => none
  | .unlocked _ => none
  | .hook _ _ => none

variable {T : Type*} {cfg : Settings} {s s' : RunState T}

/-- The sites of the messages that obtained the exclusive data, in order. -/
def RunState.obtainedSites (s : RunState T) : List CallSite := s.history.filterMap Event.obtained?

/-- Every live message on the exclusive data is in a phase that meets `P`. -/
def ExclusiveFrames (s : RunState T) (P : Phase → Prop) : Prop :=
  ∀ u, ∀ f ∈ s.stack u, f.data.isExclusive = true → P f.phase

/-- `crash_reason` has its initial value. -/
structure Unrecorded (s : RunState T) : Prop where
  crash : s.statics.crashReason = .initial
  unlocked : .unlocked true ∉ s.history

/-- `Init` of the message at `site` ran to its end on the exclusive data. -/
structure FilledFrom (s : RunState T) (site : CallSite) : Prop where
  fullname : s.statics.fatalMsgDataExclusive.fullname = some site.file
  line : s.statics.fatalMsgDataExclusive.line = site.line

/-- How far the message with the exclusive data has come. -/
inductive Stage (s : RunState T) : Prop where
  /-- There is none yet. -/
  | unclaimed (hun : Unrecorded s) (hflag : s.statics.fatalMsgExclusive = true)
      (hsites : s.obtainedSites = []) (hframes : ExclusiveFrames s fun _ => False)
  /-- It is on top of `t`'s stack, in the middle of `Init`. -/
  | claimed (t : T) (site : CallSite) (severity : LogSeverity) (rest : List Frame) (hun : Unrecorded s)
      (hflag : s.statics.fatalMsgExclusive = false) (hsites : s.obtainedSites = [site])
      (hstack : s.stack t = ⟨site, severity, .exclusive, .constructing⟩ :: rest)
      (hrest : ∀ f ∈ rest, f.data.isExclusive = false)
      (hothers : ∀ u, u ≠ t → ∀ f ∈ s.stack u, f.data.isExclusive = false)
  /-- It is constructed, and not yet flushed. -/
  | filled (site : CallSite) (hun : Unrecorded s) (hflag : s.statics.fatalMsgExclusive = false)
      (hsites : s.obtainedSites = [site]) (hfilled : FilledFrom s site)
      (hframes : ExclusiveFrames s (· = .streaming))
  /-- It has gone through `SendToLog`. -/
  | recorded (site : CallSite) (hflag : s.statics.fatalMsgExclusive = false)
      (hsites : s.obtainedSites = [site]) (hfilled : FilledFrom s site)
      (hcrash : s.statics.crashReason = recordCrashReason s.statics)
      (hrecorded : .recorded ∈ s.history) (hunlocked : .unlocked true ∈ s.history)
      (hframes : ExclusiveFrames s (· ≠ .constructing))

theorem stage_initial : Stage (RunState.initial T) :=
  .unclaimed ⟨rfl, List.not_mem_nil⟩ rfl rfl fun _ _ hf => nomatch hf

theorem FilledFrom.congr {site : CallSite} (h : FilledFrom s site) (hrecord : SameRecord s.statics s'.statics) :
    FilledFrom s' site :=
  ⟨hrecord.exclusive.fullname.trans h.fullname, hrecord.exclusive.line.trans h.line⟩

/-- The frames under the one on top. -/
theorem ExclusiveFrames.below {P : Phase → Prop} (h : ExclusiveFrames s P) {t : T} {f : Frame}
    {rest : List Frame} (hstack : s.stack t = f :: rest) :
    ∀ g ∈ rest, g.data.isExclusive = true → P g.phase :=
  fun g hg => h t g (hstack ▸ List.mem_cons_of_mem _ hg)

theorem ExclusiveFrames.top {P : Phase → Prop} (h : ExclusiveFrames s P) {t : T} {f : Frame}
    {rest : List Frame} (hstack : s.stack t = f :: rest) : f.data.isExclusive = true → P f.phase :=
  h t f (hstack ▸ List.mem_cons_self)

/-! ## Quiet steps -/

namespace Quiet

variable {t : T}

theorem exclusiveFrames {P : Phase → Prop} (h : Quiet s s' t) (hP : ExclusiveFrames s P) :
    ExclusiveFrames s' P := by
  intro u f hf hex
  by_cases hu : u = t
  · subst hu
    obtain ⟨g, hg, hgex, hphase⟩ := h.frames f hf hex
    exact hphase ▸ hP u g hg hgex
  · rw [h.others u hu] at hf
    exact hP u f hf hex

theorem obtainedSites (h : Quiet s s' t) : s'.obtainedSites = s.obtainedSites := by
  unfold RunState.obtainedSites
  rcases h.history with hh | hh <;> rw [hh]
  simp [Event.obtained?]

theorem mem_history {e : Event} (h : Quiet s s' t) (he : e ∈ s.history) : e ∈ s'.history := by
  rcases h.history with hh | hh <;> rw [hh]
  · exact he
  · exact List.mem_append_left _ he

theorem unrecorded (h : Quiet s s' t) (hun : Unrecorded s) : Unrecorded s' where
  crash := h.record.crash.trans hun.crash
  unlocked := by
    rcases h.history with hh | hh <;> rw [hh]
    · exact hun.unlocked
    · simpa using hun.unlocked

/-- A message of `u` in the middle of `Init` keeps `u` from taking a quiet step. -/
theorem ne_claimer (h : Quiet s s' t) {u : T} {f : Frame} {rest : List Frame} (hstack : s.stack u = f :: rest)
    (hex : f.data.isExclusive = true) (hphase : f.phase = .constructing) : u ≠ t := by
  rintro rfl
  exact h.notClaimer f rest hstack hex hphase

end Quiet

theorem Stage.quiet {t : T} (h : Stage s) (hq : Quiet s s' t) : Stage s' := by
  cases h with
  | unclaimed hun hflag hsites hframes =>
    exact .unclaimed (hq.unrecorded hun) (hq.record.flag.trans hflag) (hq.obtainedSites.trans hsites)
      (hq.exclusiveFrames hframes)
  | claimed u site severity rest hun hflag hsites hstack hrest hothers =>
    -- the claimer is inside `Init`, so the quiet step is another thread's
    have hut : u ≠ t := hq.ne_claimer hstack rfl rfl
    refine .claimed u site severity rest (hq.unrecorded hun) (hq.record.flag.trans hflag)
      (hq.obtainedSites.trans hsites) ((hq.others u hut).trans hstack) hrest ?_
    intro v hv f hf
    by_cases hvt : v = t
    · subst hvt
      -- an exclusive message of `v` now was one before
      apply Bool.eq_false_iff.mpr
      intro hex
      obtain ⟨g, hg, hgex, -⟩ := hq.frames f hf hex
      rw [hothers v hv g hg] at hgex
      cases hgex
    · rw [hq.others v hvt] at hf
      exact hothers v hv f hf
  | filled site hun hflag hsites hfilled hframes =>
    exact .filled site (hq.unrecorded hun) (hq.record.flag.trans hflag) (hq.obtainedSites.trans hsites)
      (hfilled.congr hq.record) (hq.exclusiveFrames hframes)
  | recorded site hflag hsites hfilled hcrash hrecorded hunlocked hframes =>
    refine .recorded site (hq.record.flag.trans hflag) (hq.obtainedSites.trans hsites)
      (hfilled.congr hq.record) ?_ (hq.mem_history hrecorded) (hq.mem_history hunlocked)
      (hq.exclusiveFrames hframes)
    rw [hq.record.crash, hcrash, hq.record.recordCrashReason]

/-! ## The other steps -/

variable [DecidableEq T]

theorem obtainedSites_next (t : T) (statics : Statics) (stack : List Frame) (events : List Event) :
    (s.next t statics stack events).obtainedSites = s.obtainedSites ++ events.filterMap Event.obtained? :=
  List.filterMap_append

theorem Unrecorded.next (h : Unrecorded s) (t : T) {statics : Statics} (stack : List Frame) {events : List Event}
    (hcrash : statics.crashReason = s.statics.crashReason) (hevents : .unlocked true ∉ events) :
    Unrecorded (s.next t statics stack events) where
  crash := hcrash.trans h.crash
  unlocked := fun hmem => (List.mem_append.mp hmem).elim h.unlocked hevents

theorem ExclusiveFrames.next {P : Phase → Prop} (h : ExclusiveFrames s P) {t : T} {statics : Statics}
    {stack : List Frame} {events : List Event} (hstack : ∀ f ∈ stack, f.data.isExclusive = true → P f.phase) :
    ExclusiveFrames (s.next t statics stack events) P := by
  intro u f hf
  by_cases hu : u = t
  · subst hu
    simp only [RunState.next, Function.update_self] at hf
    exact hstack f hf
  · simp only [RunState.next, Function.update_of_ne hu] at hf
    exact h u f hf

theorem Stage.claim {t : T} {site : CallSite} {severity : LogSeverity} (h : Stage s)
    (hflag : s.statics.fatalMsgExclusive = true)
    (hs' : s' = s.next t
      { s.statics with
        fatalMsgExclusive := false
        fatalMsgDataExclusive := { s.statics.fatalMsgDataExclusive with firstFatal := true } }
      (⟨site, severity, .exclusive, .constructing⟩ :: s.stack t) [.obtained site]) : Stage s' := by
  cases h with
  | unclaimed hun _ hsites hframes =>
    subst hs'
    have hnone : ∀ u, ∀ f ∈ s.stack u, f.data.isExclusive = false := by
      intro u f hf
      exact Bool.eq_false_iff.mpr fun hex => hframes u f hf hex
    refine .claimed t site severity (s.stack t) (hun.next t _ rfl (by simp)) rfl ?_
      (Function.update_self _ _ _) (hnone t) ?_
    · rw [obtainedSites_next, hsites]; rfl
    · intro u hu f hf
      simp only [RunState.next, Function.update_of_ne hu] at hf
      exact hnone u f hf
  -- in all other stages the flag is down
  | claimed _ _ _ _ _ hclaimed => simp [hclaimed] at hflag
  | filled _ _ hclaimed => simp [hclaimed] at hflag
  | recorded _ hclaimed => simp [hclaimed] at hflag

theorem Stage.fill {t : T} {ctx : Context} {site : CallSite} {severity : LogSeverity} {rest : List Frame}
    (h : Stage s) (hstack : s.stack t = ⟨site, severity, .exclusive, .constructing⟩ :: rest)
    (hs' : s' = s.next t (s.statics.modify (LogMessageData.init cfg ctx site severity) .exclusive).1
      (⟨site, severity, .exclusive, .streaming⟩ :: rest) []) : Stage s' := by
  cases h with
  | unclaimed _ _ _ hframes => exact (hframes.top hstack rfl).elim
  | claimed u site' severity' rest' hun hflag hsites hclaimer hrest hothers =>
    -- the only message inside `Init` on the exclusive data is the claimer's
    obtain rfl : t = u := by
      by_contra htu
      have htop := hothers t htu _ (hstack ▸ List.mem_cons_self)
      cases htop
    rw [hstack] at hclaimer
    cases hclaimer
    subst hs'
    refine .filled site (hun.next t _ rfl List.not_mem_nil) hflag (by rw [obtainedSites_next, hsites]; rfl)
      ⟨rfl, rfl⟩ ?_
    intro u f hf hex
    by_cases hu : u = t
    · subst hu
      simp only [RunState.next, Function.update_self, List.mem_cons] at hf
      rcases hf with rfl | hf
      · rfl
      · rw [hrest f hf] at hex; cases hex
    · simp only [RunState.next, Function.update_of_ne hu] at hf
      rw [hothers u hu f hf] at hex; cases hex
  | filled _ _ _ _ _ hframes => cases hframes.top hstack rfl
  | recorded _ _ _ _ _ _ _ hframes => exact absurd rfl (hframes.top hstack rfl)

theorem Stage.flush {t : T} {site : CallSite} {severity : LogSeverity} {rest : List Frame} {s₀ : Statics}
    {text : Bytes} (h : Stage s) (hstack : s.stack t = ⟨site, severity, .exclusive, .streaming⟩ :: rest)
    (hrecord : SameRecord s.statics s₀)
    (hs' : s' = s.next t { s₀ with crashReason := recordCrashReason s₀, fatalMessage := text }
      (⟨site, severity, .exclusive, .unlocked⟩ :: rest) [.recorded, .unlocked true]) : Stage s' := by
  -- whatever was recorded before is recorded again
  have hdone : ∀ first, s.statics.fatalMsgExclusive = false → s.obtainedSites = [first] → FilledFrom s first →
      ExclusiveFrames s (· ≠ .constructing) → Stage s' := by
    intro first hflag hsites hfilled hframes
    subst hs'
    refine .recorded first (hrecord.flag.trans hflag)
      (by rw [obtainedSites_next, hsites]; rfl)
      ⟨hrecord.exclusive.fullname.trans hfilled.fullname, hrecord.exclusive.line.trans hfilled.line⟩ rfl
      (by simp [RunState.next]) (by simp [RunState.next]) (hframes.next ?_)
    exact List.forall_mem_cons.mpr ⟨fun _ hphase => Phase.noConfusion hphase, hframes.below hstack⟩
  cases h with
  | unclaimed _ _ _ hframes => exact (hframes.top hstack rfl).elim
  | claimed u _ _ _ _ _ _ hclaimer _ hothers =>
    exfalso
    by_cases htu : t = u
    · subst htu
      rw [hstack] at hclaimer
      cases hclaimer
    · have htop := hothers t htu _ (hstack ▸ List.mem_cons_self)
      cases htop
  | filled first _ hflag hsites hfilled hframes =>
    apply hdone first hflag hsites hfilled
    intro u f hf hex
    rw [hframes u f hf hex]
    exact Phase.noConfusion
  | recorded first hflag hsites hfilled _ _ _ hframes => exact hdone first hflag hsites hfilled hframes

theorem Stage.hook {t : T} {f : Frame} {rest : List Frame} (h : Stage s) (hstack : s.stack t = f :: rest)
    (hphase : f.phase = .unlocked)
    (hs' : s' = s.next t s.statics ({ f with phase := .hooked } :: rest)
      [.hook f.data.isExclusive s.statics.crashReason]) : Stage s' := by
  subst hs'
  have hsame : (s.next t s.statics ({ f with phase := .hooked } :: rest)
      [.hook f.data.isExclusive s.statics.crashReason]).obtainedSites = s.obtainedSites := by
    rw [obtainedSites_next]
    exact List.append_nil _
  cases h with
  | unclaimed hun hflag hsites hframes =>
    refine .unclaimed (hun.next t _ rfl (by simp)) hflag (hsame.trans hsites)
      (hframes.next ?_)
    exact List.forall_mem_cons.mpr ⟨fun hex => hframes.top hstack hex, hframes.below hstack⟩
  | claimed u site severity rest' hun hflag hsites hclaimer hrest hothers =>
    -- a hook call needs a message past `Init` on top
    have hut : u ≠ t := by
      rintro rfl
      rw [hstack] at hclaimer
      cases hclaimer
      cases hphase
    refine .claimed u site severity rest' (hun.next t _ rfl (by simp)) hflag
      (hsame.trans hsites) ((Function.update_of_ne hut _ _).trans hclaimer) hrest ?_
    intro v hv g hg
    by_cases hvt : v = t
    · subst hvt
      simp only [RunState.next, Function.update_self, List.mem_cons] at hg
      rcases hg with rfl | hg
      · exact hothers v hv f (hstack ▸ List.mem_cons_self)
      · exact hothers v hv g (hstack ▸ List.mem_cons_of_mem _ hg)
    · simp only [RunState.next, Function.update_of_ne hvt] at hg
      exact hothers v hv g hg
  | filled site hun hflag hsites hfilled hframes =>
    refine .filled site (hun.next t _ rfl (by simp)) hflag (hsame.trans hsites)
      ⟨hfilled.fullname, hfilled.line⟩ (hframes.next ?_)
    refine List.forall_mem_cons.mpr ⟨?_, hframes.below hstack⟩
    intro hex
    -- the first message is still being streamed, so the hook is not its own
    have hstreaming : f.phase = .streaming := hframes.top hstack hex
    rw [hphase] at hstreaming
    cases hstreaming
  | recorded site hflag hsites hfilled hcrash hrecorded hunlocked hframes =>
    refine .recorded site hflag (hsame.trans hsites) ⟨hfilled.fullname, hfilled.line⟩ hcrash
      (List.mem_append_left _ hrecorded) (List.mem_append_left _ hunlocked) (hframes.next ?_)
    exact List.forall_mem_cons.mpr ⟨fun _ hphase => Phase.noConfusion hphase, hframes.below hstack⟩

/-- **Step lemma.** -/
theorem stage_step {t : T} {m : Move} (hflags : FlagsAgree s) (h : Stage s)
    (hstep : fatalStep cfg s (t, m) = some s') : Stage s' := by
  cases fatalStep_kind hflags hstep with
  | quiet hq => exact h.quiet hq
  | claim site severity _ hflag hs' => exact h.claim hflag hs'
  | fill ctx site severity rest hstack hs' => exact h.fill hstack hs'
  | flush site severity rest s₀ text hstack hrecord hs' => exact h.flush hstack hrecord hs'
  | hook f rest hstack hphase hs' => exact h.hook hstack hphase hs'

end Thirdparty.Glog
