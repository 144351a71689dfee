import Thirdparty.Glog.LogFile

/-!
# `Glog.LogFileLimits` — how much a log file holds, and how much is lost

Three quantities that `LogFileObject` counts: `file_length_`, `bytes_since_flush_` and `rollover_attempt_`. The first
two are `uint32`; the results ask that the sizes in use fit.

## Contents
- `Sized`: the length of the files; `sized_write`.
- `Buffered`: what is not flushed; `buffered_write`, `settled_write`.
- `write_stopped`: what a call does while writing is stopped.
- `writes_outage`: what is lost when no file can be made for some time.
-/

namespace Thirdparty.Glog

namespace LogFileObject

section
variable {flags : LogFlags} {machine : Machine} {env : WriteEnv} {statics : LogFileStatics} {o : LogFileObject}

/-! ## How long a file gets -/

theorem toNat_add_ofNat {a : UInt32} {n : Nat} (h : a.toNat + n < 2 ^ 32) :
    (a + UInt32.ofNat n).toNat = a.toNat + n := by
  have hn : n % 2 ^ 32 = n := Nat.mod_eq_of_lt (by omega)
  rw [UInt32.toNat_add, UInt32.toNat_ofNat', hn, Nat.mod_eq_of_lt h]

/-- A file is not longer than its object counts; the count is beyond `MaxLogSize` by at most `used` bytes, and closed
    files are by at most `slack`. -/
structure Sized (flags : LogFlags) (slack used : Nat) (o : LogFileObject) : Prop where
  fileLength : o.fileLength.toNat < flags.maxBytes + used
  file : ∀ f ∈ o.file, f.contents.length ≤ o.fileLength.toNat
  closed : ∀ f ∈ o.closed, f.contents.length < flags.maxBytes + slack

theorem sized_new (flags : LogFlags) (slack used : Nat) (severity : LogSeverity) (baseFilename : Option Bytes) :
    Sized flags slack used (new severity baseFilename) where
  fileLength := by
    have hpos := maxBytes_pos flags
    have hzero : (new severity baseFilename).fileLength.toNat = 0 := rfl
    omega
  file := by simp [new]
  closed := by simp [new]

variable {slack used : Nat}

/-- All files, the open one too. -/
theorem Sized.length_lt (h : Sized flags slack used o) (hused : used ≤ slack) {f : LogFile}
    (hf : f ∈ o.closed ++ o.file.toList) : f.contents.length < flags.maxBytes + slack := by
  rcases List.mem_append.mp hf with hf | hf
  · exact h.closed f hf
  · have hlength := h.file f (by simpa using hf)
    have hcount := h.fileLength
    omega

theorem Sized.closeFile (h : Sized flags slack used o) (hused : used ≤ slack) :
    ∀ f ∈ o.closeFile.closed, f.contents.length < flags.maxBytes + slack := by
  intro f hf
  rcases List.mem_append.mp hf with hf | hf
  · exact h.closed f hf
  · obtain ⟨g, hg, rfl⟩ := List.mem_map.mp hf
    show g.contents.length < _
    exact h.length_lt hused (List.mem_append_right _ hg)

theorem Renamed.sized {o' : LogFileObject} (hnew : Renamed o o') (h : Sized flags slack used o) (hused : used ≤ slack) :
    Sized flags slack used o' := by
  rcases hnew.file with ⟨hfile, hclosed, -⟩ | ⟨hfile, hclosed, -⟩
  · exact ⟨hnew.fileLength ▸ h.fileLength, by rw [hfile, hnew.fileLength]; exact h.file, hclosed ▸ h.closed⟩
  · refine ⟨hnew.fileLength ▸ h.fileLength, by simp [hfile], ?_⟩
    rw [hclosed]
    exact h.closeFile hused

theorem sized_flushUnlocked (h : Sized flags slack used o) (now : Int) :
    Sized flags slack used (o.flushUnlocked flags now) := by
  refine ⟨h.fileLength, ?_, h.closed⟩
  intro f hf
  obtain ⟨g, hg, rfl⟩ := Option.map_eq_some_iff.mp hf
  exact h.file g hg

theorem sized_rollover (h : Sized flags slack used o) (hused : used ≤ slack) (env : WriteEnv)
    (statics : LogFileStatics) : Sized flags slack 0 (o.rollover flags env statics).2 := by
  rcases rollover_object flags env statics o with ⟨hfull, hsame⟩ | hsame
  · rw [hsame]
    have hcount := fileLength_lt hfull
    exact ⟨by omega, h.file, h.closed⟩
  · rw [hsame]
    have hpos := maxBytes_pos flags
    have hzero : o.restart.fileLength.toNat = 0 := rfl
    refine ⟨by omega, ?_, h.closeFile hused⟩
    intro f hf
    cases hf

theorem sized_ready (h : Sized flags slack 0 o) (machine : Machine) (env : WriteEnv) (pid : Int)
    (hsize : flags.maxBytes + (fileHeaderString machine env.tm).length ≤ 2 ^ 32) :
    Sized flags slack (fileHeaderString machine env.tm).length (o.ready machine env pid) := by
  have hcount := h.fileLength
  rcases ready_cases machine env pid o with ⟨-, hsame⟩ | ⟨-, hwait⟩ | ⟨-, -, hopen⟩
  · rw [hsame]
    exact ⟨by omega, h.file, h.closed⟩
  · refine ⟨?_, by simp [hwait.file], hwait.closed ▸ h.closed⟩
    rw [hwait.fileLength]
    omega
  · obtain ⟨name, -, hfile⟩ := hopen.file
    have hlength : (o.ready machine env pid).fileLength.toNat =
        o.fileLength.toNat + (fileHeaderString machine env.tm).length := by
      rw [hopen.fileLength, toNat_add_ofNat (by omega)]
    refine ⟨by omega, ?_, hopen.closed ▸ h.closed⟩
    intro f hf
    rw [hfile] at hf
    cases hf
    have htake : ((fileHeaderString machine env.tm).take env.headerTaken).length ≤
        (fileHeaderString machine env.tm).length := List.length_take_le' _ _
    unfold LogFile.contents
    dsimp only
    rw [List.append_nil]
    omega

theorem sized_counted (h : Sized flags slack used o) {file : LogFile} (hfile : o.file = some file) (env : WriteEnv)
    {message : Bytes} (hsize : flags.maxBytes + (used + message.length) ≤ 2 ^ 32) :
    Sized flags slack (used + message.length) (o.counted file env message) := by
  have hcount := h.fileLength
  have hlength : (o.counted file env message).fileLength.toNat = o.fileLength.toNat + message.length :=
    toNat_add_ofNat (by omega)
  refine ⟨by omega, ?_, h.closed⟩
  intro f hf
  cases hf
  have hold := h.file file hfile
  have htake : (message.take env.taken).length ≤ message.length := List.length_take_le' _ _
  unfold LogFile.contents at hold ⊢
  dsimp only
  rw [hlength, ← List.append_assoc, List.length_append]
  omega

theorem Sized.mono {used' : Nat} (h : Sized flags slack used o) (hused : used ≤ used') : Sized flags slack used' o :=
  ⟨Nat.lt_of_lt_of_le h.fileLength (Nat.add_le_add_left hused _), h.file, h.closed⟩

/-- A call keeps the files short, if the sizes fit into an `uint32`. -/
theorem sized_write (hflag : flags.stopLoggingIfFullDisk = false) (hstop : statics.stopWriting = false)
    (h : Sized flags slack slack o) (machine : Machine) (env : WriteEnv) (forceFlush : Bool) {message : Bytes}
    (hmessage : (fileHeaderString machine env.tm).length + message.length ≤ slack)
    (hsize : flags.maxBytes + slack ≤ 2 ^ 32) :
    Sized flags slack slack (o.write flags machine env statics forceFlush message).2 := by
  cases hoff : o.off with
  | true =>
    rw [write_off hoff]
    exact h
  | false =>
    rw [write_eq hoff]
    have hready := sized_ready (sized_rollover h (Nat.le_refl slack) env statics) machine env
      (o.rollover flags env statics).1.mainThreadPid (by omega)
    cases hfile : ((o.rollover flags env statics).2.ready machine env
      (o.rollover flags env statics).1.mainThreadPid).file with
    | none =>
      rw [output_none _ _ _ hfile]
      exact hready.mono (by omega)
    | some file =>
      have hcounted := (sized_counted hready hfile env (by omega)).mono hmessage
      rcases output_cases flags env (o.rollover flags env statics).1 hfile forceFlush message with
        ⟨h, -⟩ | ⟨-, h, -⟩ | ⟨-, -, h⟩
      · rw [stopWriting_rollover, hstop] at h
        cases h
      · rw [hflag, Bool.false_and] at h
        cases h
      · rw [h]
        dsimp only
        split
        · exact sized_flushUnlocked hcounted env.flushNow
        · exact hcounted

/-- From 4096 megabytes on, no `uint32` is large enough. -/
theorem full_eq_false (h : 4096 ≤ flags.maxSize) (o : LogFileObject) : o.full flags = false := by
  have hlt := o.fileLength.toNat_lt
  have hshift : o.fileLength.toNat >>> ((20 : UInt32).toNat % 32) = o.fileLength.toNat / 2 ^ 20 :=
    Nat.shiftRight_eq_div_pow _ _
  unfold full
  rw [decide_eq_false_iff_not, Nat.not_le, UInt32.toNat_shiftRight, hshift]
  omega

theorem mainThreadPid_output (flags : LogFlags) (env : WriteEnv) (statics : LogFileStatics) (o : LogFileObject)
    (forceFlush : Bool) (message : Bytes) :
    (o.output flags env statics forceFlush message).1.mainThreadPid = statics.mainThreadPid := by
  cases hfile : o.file with
  | none => rw [output_none _ _ _ hfile]
  | some file =>
    rcases output_cases flags env statics hfile forceFlush message with ⟨-, h⟩ | ⟨-, -, h⟩ | ⟨-, -, h⟩ <;> rw [h]

theorem closed_output (flags : LogFlags) (env : WriteEnv) (statics : LogFileStatics) (o : LogFileObject)
    (forceFlush : Bool) (message : Bytes) : (o.output flags env statics forceFlush message).2.closed = o.closed := by
  cases hfile : o.file with
  | none => rw [output_none _ _ _ hfile]
  | some file =>
    rcases output_cases flags env statics hfile forceFlush message with ⟨-, h⟩ | ⟨-, -, h⟩ | ⟨-, -, h⟩
    · rw [h]
    · rw [h]
    · rw [h]
      dsimp only
      split <;> rfl

theorem closed_ready (machine : Machine) (env : WriteEnv) (pid : Int) (o : LogFileObject) :
    (o.ready machine env pid).closed = o.closed := by
  rcases ready_cases machine env pid o with ⟨-, h⟩ | ⟨-, h⟩ | ⟨-, -, h⟩
  · rw [h]
  · exact h.closed
  · exact h.closed

/-- A call on a file that is not full, by the same process, closes no file. -/
theorem closed_write (hfull : o.full flags = false) (hpid : statics.mainThreadPid = env.pid) (machine : Machine)
    (forceFlush : Bool) (message : Bytes) :
    (o.write flags machine env statics forceFlush message).2.closed = o.closed ∧
      (o.write flags machine env statics forceFlush message).1.mainThreadPid = env.pid := by
  cases hoff : o.off with
  | true =>
    rw [write_off hoff]
    exact ⟨rfl, hpid⟩
  | false =>
    have hroll : o.rollover flags env statics = (statics, o) := by
      rcases rollover_cases flags env statics o with ⟨h, -⟩ | ⟨-, -, h⟩ | ⟨-, h, -⟩
      · rw [hfull] at h
        cases h
      · exact h
      · exact absurd hpid h
    rw [write_eq hoff, hroll]
    exact ⟨(closed_output _ _ _ _ _ _).trans (closed_ready _ _ _ _), (mainThreadPid_output _ _ _ _ _ _).trans hpid⟩

/-! ## What is not flushed -/

/-- What is not flushed of the open file is counted, and the count is beyond a million by less than `used`. -/
structure Buffered (used : Nat) (o : LogFileObject) : Prop where
  pending : ∀ f ∈ o.file, f.contents.length ≤ f.flushed + o.bytesSinceFlush.toNat
  bound : o.bytesSinceFlush.toNat < 1000000 + used

theorem buffered_new (severity : LogSeverity) (baseFilename : Option Bytes) :
    Buffered 0 (new severity baseFilename) where
  pending := by simp [new]
  bound := by simp [new]

theorem Renamed.buffered {o' : LogFileObject} (hnew : Renamed o o') (h : Buffered used o) : Buffered used o' := by
  rcases hnew.file with ⟨hfile, -, -⟩ | ⟨hfile, -, -⟩
  · refine ⟨?_, hnew.bytesSinceFlush ▸ h.bound⟩
    rw [hfile, hnew.bytesSinceFlush]
    exact h.pending
  · exact ⟨by simp [hfile], hnew.bytesSinceFlush ▸ h.bound⟩

theorem buffered_flushUnlocked (h : Buffered used o) (flags : LogFlags) (now : Int) :
    Buffered used (o.flushUnlocked flags now) := by
  cases hfile : o.file with
  | none =>
    have hnone : (o.flushUnlocked flags now).file = none := by simp [flushUnlocked, hfile]
    have hcount : (o.flushUnlocked flags now).bytesSinceFlush = o.bytesSinceFlush := by simp [flushUnlocked, hfile]
    refine ⟨by simp [hnone], ?_⟩
    rw [hcount]
    exact h.bound
  | some file =>
    have hsome : (o.flushUnlocked flags now).file = some file.fflush := by simp [flushUnlocked, hfile]
    have hcount : (o.flushUnlocked flags now).bytesSinceFlush = 0 := by simp [flushUnlocked, hfile]
    refine ⟨?_, ?_⟩
    · intro f hf
      rw [hsome] at hf
      cases hf
      exact Nat.le_add_right _ _
    · rw [hcount]
      exact Nat.lt_of_lt_of_le (by decide) (Nat.le_add_right _ _)

theorem buffered_rollover (h : Buffered used o) (flags : LogFlags) (env : WriteEnv) (statics : LogFileStatics) :
    Buffered used (o.rollover flags env statics).2 := by
  rcases rollover_object flags env statics o with ⟨-, hsame⟩ | hsame
  · rw [hsame]
    exact h
  · rw [hsame]
    have hzero : o.restart.bytesSinceFlush.toNat = 0 := rfl
    refine ⟨?_, by omega⟩
    intro f hf
    cases hf

theorem buffered_ready (h : Buffered 0 o) (machine : Machine) (env : WriteEnv) (pid : Int)
    (hsize : (fileHeaderString machine env.tm).length ≤ 2 ^ 20) :
    Buffered (fileHeaderString machine env.tm).length (o.ready machine env pid) := by
  have hbound := h.bound
  rcases ready_cases machine env pid o with ⟨-, hsame⟩ | ⟨-, hwait⟩ | ⟨-, -, hopen⟩
  · rw [hsame]
    exact ⟨h.pending, by omega⟩
  · refine ⟨by simp [hwait.file], ?_⟩
    rw [hwait.bytesSinceFlush]
    omega
  · obtain ⟨name, -, hfile⟩ := hopen.file
    have hcount : (o.ready machine env pid).bytesSinceFlush.toNat =
        o.bytesSinceFlush.toNat + (fileHeaderString machine env.tm).length := by
      rw [hopen.bytesSinceFlush, toNat_add_ofNat (by omega)]
    refine ⟨?_, by omega⟩
    intro f hf
    rw [hfile] at hf
    cases hf
    have htake : ((fileHeaderString machine env.tm).take env.headerTaken).length ≤
        (fileHeaderString machine env.tm).length := List.length_take_le' _ _
    unfold LogFile.contents
    dsimp only
    rw [List.append_nil]
    omega

theorem pending_counted (h : Buffered used o) {file : LogFile} (hfile : o.file = some file) (env : WriteEnv)
    {message : Bytes} (hsize : used + message.length ≤ 2 ^ 20) :
    ∀ f ∈ (o.counted file env message).file,
      f.contents.length ≤ f.flushed + (o.counted file env message).bytesSinceFlush.toNat := by
  have hbound := h.bound
  have hcount : (o.counted file env message).bytesSinceFlush.toNat = o.bytesSinceFlush.toNat + message.length :=
    toNat_add_ofNat (by omega)
  intro f hf
  cases hf
  have hold := h.pending file hfile
  have htake : (message.take env.taken).length ≤ message.length := List.length_take_le' _ _
  unfold LogFile.contents at hold ⊢
  dsimp only
  rw [hcount, ← List.append_assoc, List.length_append]
  omega

/-- What the third part leaves: everything is flushed, or a flush is not due. -/
theorem output_settled (hflag : flags.stopLoggingIfFullDisk = false) (hstop : statics.stopWriting = false)
    (h : Buffered used o) (env : WriteEnv) (forceFlush : Bool) {message : Bytes}
    (hsize : used + message.length ≤ 2 ^ 20) {file : LogFile} (hfile : o.file = some file) :
    Buffered 0 (o.output flags env statics forceFlush message).2 ∧
      ∀ f ∈ (o.output flags env statics forceFlush message).2.file, f.flushed = f.contents.length ∨
        (forceFlush = false ∧ env.now < (o.output flags env statics forceFlush message).2.nextFlushTime) := by
  rcases output_cases flags env statics hfile forceFlush message with ⟨h, -⟩ | ⟨-, h, -⟩ | ⟨-, -, hout⟩
  · rw [hstop] at h
    cases h
  · rw [hflag, Bool.false_and] at h
    cases h
  · rw [hout]
    dsimp only
    by_cases hdue : (o.counted file env message).due env forceFlush = true
    · rw [if_pos hdue]
      constructor
      · refine ⟨?_, ?_⟩
        · intro f hf
          cases hf
          exact Nat.le_add_right _ _
        · show (0 : UInt32).toNat < 1000000 + 0
          decide
      · intro f hf
        cases hf
        exact Or.inl rfl
    · rw [if_neg hdue]
      unfold due at hdue
      simp only [Bool.or_eq_true, decide_eq_true_eq, not_or, Bool.not_eq_true, Int.not_le] at hdue
      obtain ⟨⟨hforce, hmillion⟩, hnow⟩ := hdue
      constructor
      · refine ⟨pending_counted h hfile env hsize, ?_⟩
        have hlt := UInt32.not_le.mp hmillion
        exact hlt
      · intro f _
        exact Or.inr ⟨hforce, hnow⟩

/-- An object that still has no file has counted nothing. -/
theorem buffered_ready_none (h : Buffered 0 o) {pid : Int} (hfile : (o.ready machine env pid).file = none) :
    Buffered 0 (o.ready machine env pid) := by
  rcases ready_cases machine env pid o with ⟨-, hsame⟩ | ⟨-, hwait⟩ | ⟨-, -, hopen⟩
  · rw [hsame]
    exact h
  · refine ⟨by simp [hfile], ?_⟩
    rw [hwait.bytesSinceFlush]
    exact h.bound
  · obtain ⟨name, -, hsome⟩ := hopen.file
    rw [hfile] at hsome
    cases hsome

/-- A call keeps the count of what is not flushed. -/
theorem buffered_write (hflag : flags.stopLoggingIfFullDisk = false) (hstop : statics.stopWriting = false)
    (h : Buffered 0 o) (machine : Machine) (env : WriteEnv) (forceFlush : Bool) {message : Bytes}
    (hsize : (fileHeaderString machine env.tm).length + message.length ≤ 2 ^ 20) :
    Buffered 0 (o.write flags machine env statics forceFlush message).2 := by
  cases hoff : o.off with
  | true =>
    rw [write_off hoff]
    exact h
  | false =>
    rw [write_eq hoff]
    have hrolled := buffered_rollover h flags env statics
    have hready := buffered_ready hrolled machine env (o.rollover flags env statics).1.mainThreadPid (by omega)
    cases hfile : ((o.rollover flags env statics).2.ready machine env
      (o.rollover flags env statics).1.mainThreadPid).file with
    | none =>
      rw [output_none _ _ _ hfile]
      exact buffered_ready_none hrolled hfile
    | some file =>
      exact (output_settled hflag ((stopWriting_rollover flags env statics o).trans hstop) hready env forceFlush hsize
        hfile).1

/-- **What is on the disk behind a call.** Everything is flushed, or the call did not ask for it and the time of the
    next flush has not come. -/
theorem settled_write (hflag : flags.stopLoggingIfFullDisk = false) (hstop : statics.stopWriting = false)
    (h : Buffered 0 o) (machine : Machine) (env : WriteEnv) (forceFlush : Bool) {message : Bytes}
    (hsize : (fileHeaderString machine env.tm).length + message.length ≤ 2 ^ 20) (hoff : o.off = false) :
    ∀ f ∈ (o.write flags machine env statics forceFlush message).2.file, f.flushed = f.contents.length ∨
      (forceFlush = false ∧ env.now < (o.write flags machine env statics forceFlush message).2.nextFlushTime) := by
  rw [write_eq hoff]
  have hready := buffered_ready (buffered_rollover h flags env statics) machine env
    (o.rollover flags env statics).1.mainThreadPid (by omega)
  cases hfile : ((o.rollover flags env statics).2.ready machine env
    (o.rollover flags env statics).1.mainThreadPid).file with
  | none =>
    rw [output_none _ _ _ hfile]
    simp [hfile]
  | some file =>
    exact (output_settled hflag ((stopWriting_rollover flags env statics o).trans hstop) hready env forceFlush hsize
      hfile).2

/-- A file that was closed was flushed. -/
theorem flushed_closeFile (h : ∀ f ∈ o.closed, f.flushed = f.contents.length) :
    ∀ f ∈ o.closeFile.closed, f.flushed = f.contents.length := by
  intro f hf
  rcases List.mem_append.mp hf with hf | hf
  · exact h f hf
  · obtain ⟨g, -, rfl⟩ := List.mem_map.mp hf
    rfl

theorem Renamed.flushed {o' : LogFileObject} (hnew : Renamed o o') (h : ∀ f ∈ o.closed, f.flushed = f.contents.length) :
    ∀ f ∈ o'.closed, f.flushed = f.contents.length := by
  rcases hnew.file with ⟨-, hclosed, -⟩ | ⟨-, hclosed, -⟩
  · rw [hclosed]
    exact h
  · rw [hclosed]
    exact flushed_closeFile h

theorem flushed_write (h : ∀ f ∈ o.closed, f.flushed = f.contents.length) (flags : LogFlags) (machine : Machine)
    (env : WriteEnv) (statics : LogFileStatics) (forceFlush : Bool) (message : Bytes) :
    ∀ f ∈ (o.write flags machine env statics forceFlush message).2.closed, f.flushed = f.contents.length := by
  cases hoff : o.off with
  | true =>
    rw [write_off hoff]
    exact h
  | false =>
    rw [write_eq hoff, closed_output, closed_ready]
    rcases rollover_object flags env statics o with ⟨-, hsame⟩ | hsame
    · rw [hsame]
      exact h
    · rw [hsame]
      exact flushed_closeFile h

/-! ## When writing is stopped -/

theorem nextFlushTime_rollover (flags : LogFlags) (env : WriteEnv) (statics : LogFileStatics) (o : LogFileObject) :
    (o.rollover flags env statics).2.nextFlushTime = o.nextFlushTime := by
  rcases rollover_object flags env statics o with ⟨-, h⟩ | h
  · rw [h]
  · rw [h]
    rfl

theorem nextFlushTime_ready (machine : Machine) (env : WriteEnv) (pid : Int) (o : LogFileObject) :
    (o.ready machine env pid).nextFlushTime = o.nextFlushTime := by
  rcases ready_cases machine env pid o with ⟨-, h⟩ | ⟨-, h⟩ | ⟨-, -, h⟩
  · rw [h]
  · exact h.nextFlushTime
  · exact h.nextFlushTime

/-- While writing is stopped, a call loses its message; before the time of the next flush it leaves writing stopped. -/
theorem write_stopped (hstop : statics.stopWriting = true) (flags : LogFlags) (machine : Machine) (env : WriteEnv)
    (o : LogFileObject) (forceFlush : Bool) (message : Bytes) :
    (o.write flags machine env statics forceFlush message).2.text = o.text ∧
      (o.write flags machine env statics forceFlush message).2.nextFlushTime = o.nextFlushTime ∧
      (env.now < o.nextFlushTime → (o.write flags machine env statics forceFlush message).1.stopWriting = true) := by
  cases hoff : o.off with
  | true =>
    rw [write_off hoff]
    exact ⟨rfl, rfl, fun _ => hstop⟩
  | false =>
    rw [write_eq hoff, ← text_rollover flags env statics o,
      ← text_ready machine env (o.rollover flags env statics).1.mainThreadPid (o.rollover flags env statics).2,
      ← nextFlushTime_rollover flags env statics o,
      ← nextFlushTime_ready machine env (o.rollover flags env statics).1.mainThreadPid (o.rollover flags env statics).2]
    have hstop' := (stopWriting_rollover flags env statics o).trans hstop
    cases hfile : ((o.rollover flags env statics).2.ready machine env
      (o.rollover flags env statics).1.mainThreadPid).file with
    | none =>
      rw [output_none _ _ _ hfile]
      exact ⟨rfl, rfl, fun _ => hstop'⟩
    | some file =>
      rcases output_cases flags env _ hfile forceFlush message with ⟨-, h⟩ | ⟨h, -⟩ | ⟨h, -⟩
      · rw [h]
        refine ⟨rfl, rfl, ?_⟩
        intro hnow
        simpa using hnow
      · rw [hstop'] at h
        cases h
      · rw [hstop'] at h
        cases h

/-! ## When no file can be made -/

/-- One call of `Write`. -/
structure LogWrite where
  env : WriteEnv
  forceFlush : Bool
  message : Bytes

/-- Calls one after the other. -/
def writes (flags : LogFlags) (machine : Machine) (s : LogFileStatics × LogFileObject) (ws : List LogWrite) :
    LogFileStatics × LogFileObject :=
  ws.foldl (fun s w => s.2.write flags machine w.env s.1 w.forceFlush w.message) s

theorem stopWriting_write (machine : Machine) (o : LogFileObject) (hstop : statics.stopWriting = false)
    (hspace : (flags.stopLoggingIfFullDisk && env.noSpace) = false) (forceFlush : Bool) (message : Bytes) :
    (o.write flags machine env statics forceFlush message).1.stopWriting = false := by
  cases hoff : o.off with
  | true =>
    rw [write_off hoff]
    exact hstop
  | false =>
    rw [write_eq hoff]
    have hstop' := (stopWriting_rollover flags env statics o).trans hstop
    cases hfile : ((o.rollover flags env statics).2.ready machine env
      (o.rollover flags env statics).1.mainThreadPid).file with
    | none =>
      rw [output_none _ _ _ hfile]
      exact hstop'
    | some file =>
      rcases output_cases flags env _ hfile forceFlush message with ⟨h, -⟩ | ⟨-, h, -⟩ | ⟨-, -, h⟩
      · rw [hstop'] at h
        cases h
      · rw [hspace] at h
        cases h
      · rw [h]
        exact hstop'

/-- Calls to which nothing goes wrong. -/
theorem writes_good (flags : LogFlags) (machine : Machine) {ws : List LogWrite} (hgood : ∀ w ∈ ws, Good w.env w.message)
    {s : LogFileStatics × LogFileObject} (hstop : s.1.stopWriting = false) (ho : Prepared s.2)
    (hoff : s.2.off = false) :
    (writes flags machine s ws).2.text = s.2.text ++ (ws.map LogWrite.message).flatten := by
  induction ws generalizing s with
  | nil => simp [writes]
  | cons w ws ih =>
    obtain ⟨hw, hws⟩ := List.forall_mem_cons.mp hgood
    have hspace : (flags.stopLoggingIfFullDisk && w.env.noSpace) = false := by rw [hw.noSpace, Bool.and_false]
    obtain ⟨htext, hfile⟩ := write_good hw flags machine hstop ho hoff w.forceFlush
    have hrest := ih hws (stopWriting_write machine s.2 hstop hspace w.forceFlush w.message)
      (fun hnone => by rw [hnone] at hfile; cases hfile) ((off_write flags machine w.env s.1 s.2 _ _).trans hoff)
    show (writes flags machine (s.2.write flags machine w.env s.1 w.forceFlush w.message) ws).2.text = _
    rw [hrest, htext, List.map_cons, List.flatten_cons, List.append_assoc]

/-- An object that has no file, with its count of attempts. -/
structure Stalled (flags : LogFlags) (pid : Int) (attempt : Nat) (s : LogFileStatics × LogFileObject) : Prop where
  stopWriting : s.1.stopWriting = false
  pid : s.1.mainThreadPid = pid
  off : s.2.off = false
  full : s.2.full flags = false
  file : s.2.file = none
  attempt : s.2.rolloverAttempt.toNat = attempt

/-- A call that makes no file: it is not its turn, or the file cannot be made. -/
theorem Stalled.write {pid : Int} {attempt : Nat} {s : LogFileStatics × LogFileObject}
    (h : Stalled flags pid attempt s) (hattempt : attempt < 32) (hpid : env.pid = pid)
    (hnot : attempt = 31 → ∀ name, env.creates name = false) (machine : Machine) (forceFlush : Bool) (message : Bytes) :
    Stalled flags pid ((attempt + 1) % 32) (s.2.write flags machine env s.1 forceFlush message) ∧
      (s.2.write flags machine env s.1 forceFlush message).2.text = s.2.text := by
  have hroll : s.2.rollover flags env s.1 = s := by
    rcases rollover_cases flags env s.1 s.2 with ⟨hfull, -⟩ | ⟨-, -, hsame⟩ | ⟨-, hne, -⟩
    · rw [h.full] at hfull
      cases hfull
    · exact hsame
    · exact absurd (h.pid.trans hpid.symm) hne
  have hnext : (s.2.rolloverAttempt + 1).toNat = attempt + 1 := by
    have hone : s.2.rolloverAttempt + 1 = s.2.rolloverAttempt + UInt32.ofNat 1 := rfl
    have hold := h.attempt
    rw [hone, toNat_add_ofNat (by omega), hold]
  have hturn : s.2.rolloverAttempt + 1 = kRolloverAttemptFrequency ↔ attempt = 31 := by
    have hfrequency : kRolloverAttemptFrequency.toNat = 32 := rfl
    rw [← UInt32.toNat_inj, hnext, hfrequency]
    omega
  have hwait : Waiting s.2 (s.2.ready machine env s.1.mainThreadPid) := by
    rcases ready_cases machine env s.1.mainThreadPid s.2 with ⟨hsome, -⟩ | ⟨-, hwait⟩ | ⟨-, hlast, hopen⟩
    · rw [h.file] at hsome
      cases hsome
    · exact hwait
    · obtain ⟨name, hname, -⟩ := hopen.file
      rw [hnot (hturn.mp hlast) name] at hname
      cases hname
  have hwrite : s.2.write flags machine env s.1 forceFlush message =
      (s.1, s.2.ready machine env s.1.mainThreadPid) := by
    rw [write_eq h.off, hroll, output_none _ _ _ hwait.file]
  rw [hwrite]
  refine ⟨⟨h.stopWriting, h.pid, hwait.off.trans h.off, ?_, hwait.file, ?_⟩, ?_⟩
  · have hfull := h.full
    unfold LogFileObject.full at hfull ⊢
    rw [hwait.fileLength]
    exact hfull
  · show (s.2.ready machine env s.1.mainThreadPid).rolloverAttempt.toNat = _
    rw [hwait.rolloverAttempt]
    by_cases hlast : attempt = 31
    · rw [if_pos (hturn.mpr hlast), hlast]
      rfl
    · rw [if_neg fun heq => hlast (hturn.mp heq), hnext]
      omega
  · exact text_congr hwait.closed (hwait.file.trans h.file.symm)

/-- Calls that fail to make a file. -/
theorem Stalled.writes (machine : Machine) {pid : Int} {ws : List LogWrite}
    (hfail : ∀ w ∈ ws, w.env.pid = pid ∧ ∀ name, w.env.creates name = false) {attempt : Nat}
    {s : LogFileStatics × LogFileObject} (h : Stalled flags pid attempt s) (hattempt : attempt < 32) :
    Stalled flags pid ((attempt + ws.length) % 32) (writes flags machine s ws) ∧
      (writes flags machine s ws).2.text = s.2.text := by
  induction ws generalizing s attempt with
  | nil =>
    refine ⟨?_, rfl⟩
    rw [List.length_nil, Nat.add_zero, Nat.mod_eq_of_lt hattempt]
    exact h
  | cons w ws ih =>
    obtain ⟨⟨hpid, hcreates⟩, hws⟩ := List.forall_mem_cons.mp hfail
    obtain ⟨hnext, htext⟩ := h.write hattempt hpid (fun _ => hcreates) machine w.forceFlush w.message
    obtain ⟨hlast, hrest⟩ := ih hws hnext (Nat.mod_lt _ (by decide))
    have hcount : ((attempt + 1) % 32 + ws.length) % 32 = (attempt + (w :: ws).length) % 32 := by
      rw [List.length_cons]
      omega
    rw [hcount] at hlast
    exact ⟨hlast, hrest.trans htext⟩

/-- Calls that could make a file: the first ones wait for their turn. -/
theorem Stalled.writes_good (machine : Machine) {pid : Int} {ws : List LogWrite}
    (hgood : ∀ w ∈ ws, w.env.pid = pid ∧ Good w.env w.message)
    {attempt : Nat} {s : LogFileStatics × LogFileObject} (h : Stalled flags pid attempt s) (hattempt : attempt < 32) :
    (LogFileObject.writes flags machine s ws).2.text =
      s.2.text ++ ((ws.drop (31 - attempt)).map LogWrite.message).flatten := by
  induction ws generalizing s attempt with
  | nil => simp [LogFileObject.writes]
  | cons w ws ih =>
    by_cases hturn : attempt = 31
    · subst hturn
      have ho : Prepared s.2 := fun _ => by
        rw [← UInt32.toNat_inj, h.attempt]
        rfl
      exact LogFileObject.writes_good flags machine (fun w hw => (hgood w hw).2) h.stopWriting ho h.off
    · obtain ⟨⟨hpid, -⟩, hws⟩ := List.forall_mem_cons.mp hgood
      obtain ⟨hnext, htext⟩ := h.write hattempt hpid (fun heq => absurd heq hturn) machine w.forceFlush
        w.message
      have hcount : (attempt + 1) % 32 = attempt + 1 := Nat.mod_eq_of_lt (by omega)
      rw [hcount] at hnext
      have hdrop : (w :: ws).drop (31 - attempt) = ws.drop (31 - (attempt + 1)) := by
        have hsub : 31 - attempt = (31 - (attempt + 1)) + 1 := by omega
        rw [hsub, List.drop_succ_cons]
      rw [hdrop, ← htext]
      exact ih hws hnext (by omega)

/-- **When no file can be made.** An object without a file tries at the first call, and then at every 32nd one. If
    calls fail to make a file, and then calls could make one again, the messages of the former are lost, and so many of
    the latter as are missing to a multiple of 32; all the others are written. -/
theorem writes_outage (flags : LogFlags) (machine : Machine) {pid : Int} {s : LogFileStatics × LogFileObject}
    (h : Stalled flags pid 31 s) {failing good : List LogWrite}
    (hfail : ∀ w ∈ failing, w.env.pid = pid ∧ ∀ name, w.env.creates name = false)
    (hgood : ∀ w ∈ good, w.env.pid = pid ∧ Good w.env w.message) :
    (writes flags machine s (failing ++ good)).2.text =
      s.2.text ++ ((good.drop ((32 - failing.length % 32) % 32)).map LogWrite.message).flatten := by
  obtain ⟨hstalled, htext⟩ := Stalled.writes machine hfail h (by decide)
  have hsplit : writes flags machine s (failing ++ good) = writes flags machine (writes flags machine s failing) good :=
    List.foldl_append
  have hlost : 31 - (31 + failing.length) % 32 = (32 - failing.length % 32) % 32 := by omega
  rw [hsplit, Stalled.writes_good machine hgood hstalled (Nat.mod_lt _ (by decide)), htext, hlost]

/-- An answer of a system on which all goes well: `fwrite` takes what it gets. -/
def sampleEnv : WriteEnv where
  pid := 4354
  tm := ⟨99, 7, 17, 15, 0, 0⟩
  creates _ := true
  headerTaken := 512
  taken := kMaxLogMessageLen
  noSpace := false
  now := 0
  flushNow := 0

theorem good_sampleEnv {message : Bytes} (h : message.length ≤ kMaxLogMessageLen) : Good sampleEnv message :=
  ⟨fun _ => rfl, rfl, h⟩

/-- A program that logs in `/tmp`. -/
def sampleMachine : Machine := ⟨lit "examplehost", lit "root", lit "webserver", [lit "/tmp"], by simp⟩

/-- Two calls fail, and 40 could make a file: the first 30 of these are lost, too. -/
theorem writes_outage_server :
    (writes {} sampleMachine (⟨false, 4354⟩, new .INFO none)
      (List.replicate 2 ⟨{ sampleEnv with creates := fun _ => false }, false, lit "lost\n"⟩ ++
        List.replicate 40 ⟨sampleEnv, false, lit "here\n"⟩)).2.text =
      (new .INFO none).text ++
        (((List.replicate 40 (⟨sampleEnv, false, lit "here\n"⟩ : LogWrite)).drop 30).map LogWrite.message).flatten := by
  have hstalled : Stalled {} 4354 31 (⟨false, 4354⟩, new .INFO none) := ⟨rfl, rfl, rfl, rfl, rfl, rfl⟩
  refine writes_outage {} sampleMachine hstalled ?_ ?_
  · intro w hw
    rw [List.eq_of_mem_replicate hw]
    exact ⟨rfl, fun _ => rfl⟩
  · intro w hw
    rw [List.eq_of_mem_replicate hw]
    exact ⟨rfl, good_sampleEnv (by decide)⟩

end

end LogFileObject

end Thirdparty.Glog
