import Thirdparty.Glog.ConsoleNotice

/-!
# `Glog.ConsoleTexts` — what a call puts out on the terminal

A call puts out one text after another: the notice perhaps, then its own. Around each are the writes that set its colour
and take it back, so that a call which nobody interrupts leaves the terminal as it was.

## Contents
- `ConsoleCall.texts`, `textWrites`: the texts of a call, and the writes around each; `writes_toCall`.
- `two_le_loud`, `loud_ne_nil`: which calls have several writes, which have one.
- `display`, `OwnColours`: the colour that a text is shown in.
- `ownColours_of_serial`: in a serial output every text is shown in its own colour.
-/

namespace Thirdparty.Glog

open Writers

theorem ConsoleWrite.loud_iff (w : ConsoleWrite) : w.loud = true ↔ w.payload ≠ [] := by
  cases h : w.payload <;> simp [ConsoleWrite.loud, h]

/-! ## The texts of a call -/

/-- The call begins with the notice. -/
def ConsoleCall.notifies (cfg : ConsoleSettings) (c : ConsoleCall) (alreadyWarned : Bool) : Bool :=
  c.isSend && !alreadyWarned && !cfg.initialized

/-- The texts that the call puts out, each with its severity. -/
def ConsoleCall.texts (cfg : ConsoleSettings) (c : ConsoleCall) (alreadyWarned : Bool) :
    List (Option LogSeverity × Bytes) :=
  (if c.notifies cfg alreadyWarned then [(some .WARNING, loggingBeforeInit)] else []) ++
    if c.shown cfg then [(c.severity, c.line cfg)] else []

/-- The writes around a text. -/
def textWrites (cfg : ConsoleSettings) (x : Option LogSeverity × Bytes) : List ConsoleWrite :=
  match x.1.bind (setConsoleTextColor cfg) with
  | some colour => [.setColour colour, .text x.1 x.2, .recover]
  | none => [.text x.1 x.2]

section Calls

variable {cfg : ConsoleSettings} {c : ConsoleCall} {alreadyWarned : Bool} {x : Option LogSeverity × Bytes}

theorem writes_toCall (cfg : ConsoleSettings) (c : ConsoleCall) (alreadyWarned : Bool) :
    (c.toCall cfg).writes alreadyWarned = (c.texts cfg alreadyWarned).flatMap (textWrites cfg) := by
  cases c with
  | rawLog ctx site severity message =>
    show rawLog cfg ctx site severity message = _
    by_cases hthreshold : severity.toInt ≥ cfg.stderrthreshold <;> cases hlog : cfg.logtostderr <;>
      cases halso : cfg.alsologtostderr <;> cases hinit : cfg.initialized <;>
      simp [rawLog, ConsoleCall.texts, ConsoleCall.notifies, ConsoleCall.isSend, ConsoleCall.shown, hthreshold, hlog,
        halso, hinit] <;> rfl
  | sendToLog severity text =>
    show sendToStderr cfg alreadyWarned severity (flushedText text) = _
    by_cases hthreshold : severity.toInt ≥ cfg.stderrthreshold <;> cases hlog : cfg.logtostderr <;>
      cases halso : cfg.alsologtostderr <;> cases hinit : cfg.initialized <;> cases alreadyWarned <;>
      simp [sendToStderr, maybeLogToStderr, ConsoleCall.texts, ConsoleCall.notifies, ConsoleCall.isSend,
        ConsoleCall.shown, hthreshold, hlog, halso, hinit] <;> rfl
  | stackTraceLine => rfl

/-- The writes that put something out. -/
theorem loud_toCall (cfg : ConsoleSettings) (c : ConsoleCall) (alreadyWarned : Bool) :
    ((c.toCall cfg).writes alreadyWarned).filter ConsoleWrite.loud
      = (c.texts cfg alreadyWarned).flatMap fun x => (textWrites cfg x).filter ConsoleWrite.loud := by
  rw [writes_toCall, List.filter_flatMap]

theorem loud_textWrites (cfg : ConsoleSettings) (x : Option LogSeverity × Bytes) :
    (textWrites cfg x).filter ConsoleWrite.loud =
      match x.1.bind (setConsoleTextColor cfg) with
      | some colour => .setColour colour :: ([.text x.1 x.2].filter ConsoleWrite.loud ++ [.recover])
      | none => [.text x.1 x.2].filter ConsoleWrite.loud := by
  unfold textWrites
  cases x.1.bind (setConsoleTextColor cfg) with
  | none => rfl
  | some colour =>
    have hset : (ConsoleWrite.setColour colour).loud = true := by cases colour <;> rfl
    cases hline : (ConsoleWrite.text x.1 x.2).loud <;>
      simp [hset, hline, show ConsoleWrite.recover.loud = true from rfl]

theorem two_le_textWrites : 2 ≤ ((textWrites cfg x).filter ConsoleWrite.loud).length ↔
    (x.1.bind (setConsoleTextColor cfg)).isSome = true := by
  rw [loud_textWrites]
  cases x.1.bind (setConsoleTextColor cfg) with
  | none =>
    have hle := List.length_filter_le ConsoleWrite.loud [.text x.1 x.2]
    simp only [List.length_singleton] at hle
    simp
    omega
  | some colour => simp

theorem textWrites_ne_nil : (textWrites cfg x).filter ConsoleWrite.loud ≠ [] ↔
    ((x.1.bind (setConsoleTextColor cfg)).isSome || !x.2.isEmpty) = true := by
  rw [loud_textWrites]
  cases x.1.bind (setConsoleTextColor cfg) with
  | none => cases x.2 <;> simp [ConsoleWrite.loud, ConsoleWrite.payload]
  | some colour => simp

theorem flushedText_ne_nil (text : Bytes) : flushedText text ≠ [] := by
  cases text with
  | nil => exact List.cons_ne_nil _ _
  | cons b text => exact List.cons_ne_nil _ _

/-- A call that begins with the notice goes on with its message. -/
theorem visible_of_notifies (h : c.notifies cfg alreadyWarned = true) : c.shown cfg = true ∧ c.line cfg ≠ [] := by
  rw [ConsoleCall.notifies, Bool.and_eq_true, Bool.and_eq_true] at h
  obtain ⟨⟨hsend, -⟩, hinit⟩ := h
  cases c with
  | rawLog => cases hsend
  | sendToLog severity text => exact ⟨by simp [ConsoleCall.shown, hinit], flushedText_ne_nil text⟩
  | stackTraceLine => cases hsend

/-- A call with several writes has a coloured text, or begins with the notice. -/
theorem two_le_loud : 2 ≤ (((c.toCall cfg).writes alreadyWarned).filter ConsoleWrite.loud).length ↔
    c.coloured cfg = true ∨ c.notifies cfg alreadyWarned = true := by
  rw [loud_toCall, ConsoleCall.texts]
  cases hnotifies : c.notifies cfg alreadyWarned with
  | false =>
    rw [ConsoleCall.coloured, ConsoleCall.colour]
    cases c.shown cfg with
    | false => simp
    | true => simpa using two_le_textWrites (x := (c.severity, c.line cfg))
  | true =>
    obtain ⟨hshown, hline⟩ := visible_of_notifies hnotifies
    have hnotice : (textWrites cfg (some .WARNING, loggingBeforeInit)).filter ConsoleWrite.loud ≠ [] :=
      textWrites_ne_nil.mpr (by rw [Bool.or_eq_true]; exact Or.inr rfl)
    have hmessage : (textWrites cfg (c.severity, c.line cfg)).filter ConsoleWrite.loud ≠ [] :=
      textWrites_ne_nil.mpr (by simp [hline])
    have hlen := List.length_pos_iff.mpr hnotice
    have hlen' := List.length_pos_iff.mpr hmessage
    refine iff_of_true ?_ (Or.inr rfl)
    simp only [hshown, if_true, List.singleton_append, List.flatMap_cons, List.flatMap_nil, List.append_nil,
      List.length_append]
    omega

theorem loud_ne_nil (cfg : ConsoleSettings) (c : ConsoleCall) (alreadyWarned : Bool) :
    ((c.toCall cfg).writes alreadyWarned).filter ConsoleWrite.loud ≠ [] ↔ c.visible cfg = true := by
  rw [loud_toCall, ConsoleCall.texts, ConsoleCall.visible, ConsoleCall.colour]
  cases hnotifies : c.notifies cfg alreadyWarned with
  | false =>
    cases c.shown cfg with
    | false => simp
    | true => simpa using textWrites_ne_nil (x := (c.severity, c.line cfg))
  | true =>
    obtain ⟨hshown, hline⟩ := visible_of_notifies hnotifies
    have hmessage : (textWrites cfg (c.severity, c.line cfg)).filter ConsoleWrite.loud ≠ [] :=
      textWrites_ne_nil.mpr (by simp [hline])
    refine iff_of_true ?_ (by simp [hshown, hline])
    simp only [hshown, if_true, List.singleton_append, List.flatMap_cons, List.flatMap_nil, List.append_nil]
    exact List.append_ne_nil_of_right_ne_nil _ hmessage

end Calls

variable {T : Type*} {cfg : ConsoleSettings} {P : T → List LogStatement} {s : State T Bool ConsoleWrite}

/-! ## Colours -/

/-- The terminal after a write: which call has set which colour, if one is set. -/
def display (shown : Option (CallId T × Colour)) : CallId T × ConsoleWrite → Option (CallId T × Colour)
  | (id, .setColour colour) => some (id, colour)
  | (_, .text _ _) => shown
  | (_, .recover) => none

/-- Each text is shown in the colour of its own severity, set by its own call; in the default colour if it has none. -/
def OwnColours (cfg : ConsoleSettings) (s : State T Bool ConsoleWrite) : Prop :=
  ∀ pre id severity line post, s.out = pre ++ (id, .text severity line) :: post →
    pre.foldl display none = (severity.bind (setConsoleTextColor cfg)).map (id, ·)

/-- The writes around a text, as they are put out. -/
def piece (cfg : ConsoleSettings) (id : CallId T) (x : Option LogSeverity × Bytes) : List (CallId T × ConsoleWrite) :=
  ((textWrites cfg x).filter ConsoleWrite.loud).map (id, ·)

/-- They leave the terminal in the default colour. -/
theorem foldl_piece (id : CallId T) (x : Option LogSeverity × Bytes) :
    (piece cfg id x).foldl display none = none := by
  rw [piece, loud_textWrites]
  cases x.1.bind (setConsoleTextColor cfg) <;> cases hline : (ConsoleWrite.text x.1 x.2).loud <;>
    simp [hline, display]

theorem foldl_pieces (id : CallId T) (xs : List (Option LogSeverity × Bytes)) :
    (xs.flatMap (piece cfg id)).foldl display none = none := by
  induction xs with
  | nil => rfl
  | cons x xs ih => rw [List.flatMap_cons, List.foldl_append, foldl_piece, ih]

/-- A text comes right after its own colour. -/
theorem foldl_own {id id' : CallId T} {x : Option LogSeverity × Bytes} {severity : Option LogSeverity} {line : Bytes}
    {own rest : List (CallId T × ConsoleWrite)} (h : piece cfg id x = own ++ (id', .text severity line) :: rest) :
    own.foldl display none = (severity.bind (setConsoleTextColor cfg)).map (id', ·) := by
  rw [piece, loud_textWrites] at h
  -- a piece is the text alone, or the colour, the text and the reset; what is in front of the text is `own`
  cases hcolour : x.1.bind (setConsoleTextColor cfg) with
  | none =>
    rw [hcolour] at h
    cases hline : (ConsoleWrite.text x.1 x.2).loud with
    | false => simp [hline] at h
    | true =>
      cases own with
      | nil =>
        simp only [List.filter_cons_of_pos hline, List.filter_nil, List.map_cons, List.map_nil, List.nil_append,
          List.cons.injEq, Prod.mk.injEq, ConsoleWrite.text.injEq] at h
        obtain ⟨⟨rfl, rfl, rfl⟩, -⟩ := h
        rw [hcolour]
        rfl
      | cons y own => simp [hline] at h
  | some colour =>
    rw [hcolour] at h
    cases own with
    | nil => simp at h
    | cons y own =>
      simp only [List.map_cons, List.cons_append, List.cons.injEq] at h
      obtain ⟨rfl, h⟩ := h
      cases hline : (ConsoleWrite.text x.1 x.2).loud with
      | false =>
        cases own with
        | nil => simp [hline] at h
        | cons y own => simp [hline] at h
      | true =>
        cases own with
        | nil =>
          simp only [List.filter_cons_of_pos hline, List.filter_nil, List.map_cons, List.map_nil, List.cons_append,
            List.nil_append, List.cons.injEq, Prod.mk.injEq, ConsoleWrite.text.injEq] at h
          obtain ⟨⟨rfl, rfl, rfl⟩, -⟩ := h
          rw [hcolour]
          rfl
        | cons z own =>
          cases own with
          | nil => simp [hline] at h
          | cons w own => simp [hline] at h

/-- The output of a call consists of such pieces. -/
theorem block_eq_pieces {b : CallId T × List ConsoleWrite} (h : IsCall (programs cfg P) b) :
    ∃ xs : List (Option LogSeverity × Bytes), block ConsoleWrite.loud b = xs.flatMap (piece cfg b.1) := by
  obtain ⟨d, alreadyWarned, hd, hwrites⟩ := h
  obtain ⟨c, -, rfl⟩ := exists_consoleCall hd
  refine ⟨c.texts cfg alreadyWarned, ?_⟩
  rw [block, hwrites, loud_toCall, List.map_flatMap]
  rfl

theorem foldl_blocks {bs : List (CallId T × List ConsoleWrite)} (h : ∀ b ∈ bs, IsCall (programs cfg P) b) :
    (bs.flatMap (block ConsoleWrite.loud)).foldl display none = none := by
  induction bs with
  | nil => rfl
  | cons b bs ih =>
    obtain ⟨hb, hbs⟩ := List.forall_mem_cons.mp h
    obtain ⟨xs, hxs⟩ := block_eq_pieces hb
    rw [List.flatMap_cons, List.foldl_append, hxs, foldl_pieces, ih hbs]

/-- **A serial output shows every text in its own colour.** -/
theorem ownColours_of_serial (h : Serial (programs cfg P) ConsoleWrite.loud s.out) : OwnColours cfg s := by
  intro pre id severity line post hsplit
  obtain ⟨before, b, own, rest, rfl, hblock, hb, hbefore⟩ := h.isolated hsplit
  obtain ⟨xs, hxs⟩ := block_eq_pieces hb
  rw [hxs] at hblock
  obtain ⟨xs₁, x, xs₂, own', rest', -, rfl, hpiece⟩ := flatMap_eq_append_cons hblock
  rw [List.foldl_append, foldl_blocks hbefore, List.foldl_append, foldl_pieces]
  exact foldl_own hpiece

end Thirdparty.Glog
