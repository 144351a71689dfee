import Thirdparty.Glog.ConsoleTexts
import Mathlib.Data.Fin.VecNotation

/-!
# `Glog.ConsoleRun` — when coloured output is not mixed

Threads take turns under `log_mutex` with what `SendToLog` writes, and with nothing else. A line written without the
lock, by `RawLog__` or behind a FATAL message, can come in between the writes of any call of another thread; and in
between the writes of a coloured `RawLog__` can come every call. The condition that excludes this (`Apart`) is on the
programs of the threads, and it is exact.

## Contents
- `CallsUnmixed`: what stderr should look like; its colours are `OwnColours`.
- `Apart`: the condition on what the threads execute.
- `noOverlap_of_apart`, `serial_of_apart`: it leaves serial outputs only.
- `exists_mixed`, `exists_mixed_of_notice`: a run for each way to break it.
- `unmixed_iff_apart`: the condition is exact; `apart_of_log`: threads that only use `LOG`.
-/

namespace Thirdparty.Glog

open Trace Writers

variable {T : Type*}

/-- The bytes of each call are next to each other in stderr. -/
def CallsUnmixed (s : State T Bool ConsoleWrite) : Prop :=
  ∀ id : CallId T, Contiguous (fun x => x.1 = id) (bytes ConsoleWrite.payload s.out)

/-- **The condition.** -/
structure Apart (cfg : ConsoleSettings) (P : T → List LogStatement) : Prop where
  /-- Of two threads that make a coloured call and one that puts something out, both make theirs under `log_mutex`. -/
  colours : ∀ t u, t ≠ u → ∀ c ∈ consoleCalls cfg P t, ∀ d ∈ consoleCalls cfg P u,
    c.coloured cfg = true → d.visible cfg = true → c.isSend = true ∧ d.isSend = true
  /-- Before `InitGoogleLogging`, when one thread sends a message, each of the others puts nothing out until it sends
      one itself. -/
  notice : cfg.initialized = false → ∀ t u, t ≠ u → (∃ c ∈ consoleCalls cfg P t, c.isSend = true) →
    ∀ d ∈ (consoleCalls cfg P u).takeWhile fun e => !e.isSend, d.visible cfg = false

/-! ## Threads that are apart do not overlap -/

variable {cfg : ConsoleSettings} {P : T → List LogStatement} {s : State T Bool ConsoleWrite} {t u : T}

/-- The call that a thread is in. -/
theorem exists_call_of_begun {k : InCall Bool ConsoleWrite} (hbegun : Begun (programs cfg P) s)
    (hk : s.current t = some k) : ∃ c, (consoleCalls cfg P t)[s.index t]? = some c ∧
      ((c.toCall cfg).writes k.found).filter ConsoleWrite.loud
        = s.made ConsoleWrite.loud t ++ s.left ConsoleWrite.loud t := by
  obtain ⟨d, hd, hwrites⟩ := hbegun t k hk
  obtain ⟨c, hc, rfl⟩ := exists_consoleCall hd
  exact ⟨c, hc, by rw [← hwrites, List.filter_append, made_some hk, left_some hk]⟩

/-- A call at a place that no message was sent before. -/
theorem mem_takeWhile_of_not_sent {d : ConsoleCall} (hd : (consoleCalls cfg P t)[s.index t]? = some d)
    (hcurrent : s.current t ≠ none) (hnot : ¬ Sent cfg P s t) :
    d ∈ (consoleCalls cfg P t).takeWhile fun e => !e.isSend := by
  obtain ⟨hlt, hget⟩ := List.getElem?_eq_some_iff.mp hd
  have hbefore : ∀ e ∈ (consoleCalls cfg P t).take (s.index t + 1), (!e.isSend) = true := by
    intro e he
    obtain ⟨i, hi, rfl⟩ := List.mem_take_iff_getElem.mp he
    rw [Bool.not_eq_true']
    by_contra hsend
    refine hnot ⟨i, _, List.getElem?_eq_getElem (by omega), Bool.not_eq_false _ ▸ hsend, ?_⟩
    rcases Nat.lt_succ_iff_lt_or_eq.mp (Nat.lt_of_lt_of_le hi (Nat.min_le_left _ _)) with hlt' | heq
    · exact Or.inl hlt'
    · exact Or.inr ⟨heq, hcurrent⟩
  have hmem : d ∈ (consoleCalls cfg P t).take (s.index t + 1) := by
    rw [List.mem_take_iff_getElem]
    exact ⟨s.index t, by omega, hget⟩
  rw [← List.take_append_drop (s.index t + 1) (consoleCalls cfg P t), List.takeWhile_append_of_pos hbefore]
  exact List.mem_append_left _ hmem

theorem noOverlap_of_apart (hapart : Apart cfg P) (hbegun : Begun (programs cfg P) s)
    (hlock : LockHeld (programs cfg P) s) (hnotice : cfg.initialized = false → NoticeInv cfg P s) :
    NoOverlap ConsoleWrite.loud s := by
  intro t u hut hleft hmid
  have htcall : s.current t ≠ none := by
    intro hnone
    exact hleft (by rw [State.left, hnone]; rfl)
  obtain ⟨k, hk⟩ := Option.ne_none_iff_exists'.mp htcall
  obtain ⟨l, hl⟩ := Option.ne_none_iff_exists'.mp hmid.current_ne
  obtain ⟨d, hd, hdwrites⟩ := exists_call_of_begun hbegun hk
  obtain ⟨c, hc, hcwrites⟩ := exists_call_of_begun hbegun hl
  have hvisible : d.visible cfg = true := by
    rw [← loud_ne_nil cfg d k.found, hdwrites]
    exact List.append_ne_nil_of_right_ne_nil _ hleft
  have htwo : 2 ≤ (((c.toCall cfg).writes l.found).filter ConsoleWrite.loud).length := by
    have hmade := List.length_pos_iff.mpr hmid.1
    have hrest := List.length_pos_iff.mpr hmid.2
    rw [hcwrites, List.length_append]
    omega
  -- both under the lock: then they are the same thread
  have hnot : ¬ (c.isSend = true ∧ d.isSend = true) := by
    rintro ⟨hcsend, hdsend⟩
    exact hut (hlock.eq hmid.current_ne htcall ((lockedOf_programs hc).trans hcsend)
      ((lockedOf_programs hd).trans hdsend))
  rcases two_le_loud.mp htwo with hcoloured | hnotifies
  · exact hnot (hapart.colours u t hut c (List.mem_of_getElem? hc) d (List.mem_of_getElem? hd) hcoloured hvisible)
  · rw [ConsoleCall.notifies, Bool.and_eq_true, Bool.and_eq_true, Bool.not_eq_true', Bool.not_eq_true'] at hnotifies
    obtain ⟨⟨hsend, hfound⟩, hinit⟩ := hnotifies
    -- `u` writes the notice, so `t` has not come to its first message
    have hsent := (hnotice hinit).first u l hl hfound ((lockedOf_programs hc).trans hsend) t (Ne.symm hut)
    have hfalse := hapart.notice hinit u t hut ⟨c, List.mem_of_getElem? hc, hsend⟩ d
      (mem_takeWhile_of_not_sent hd htcall hsent)
    rw [hvisible] at hfalse
    cases hfalse

/-! ## Threads that are not apart -/

variable [DecidableEq T]

/-- A call with several writes that another thread's write can come in between. -/
theorem exists_mixed {i j : Nat} {c d : ConsoleCall} (htu : t ≠ u) (hc : (consoleCalls cfg P t)[i]? = some c)
    (hd : (consoleCalls cfg P u)[j]? = some d) (hlock : ¬ (c.isSend = true ∧ d.isSend = true)) {found : Bool}
    (hfound : sharedAfter ((programs cfg P u).take j) (sharedAfter ((programs cfg P t).take i) false) = found)
    (htwo : 2 ≤ (((c.toCall cfg).writes found).filter ConsoleWrite.loud).length) (hvisible : d.visible cfg = true) :
    ∃ as s, run (consoleStep cfg P) (consoleInitial T) as = some s ∧ ¬ CallsUnmixed s := by
  obtain ⟨as, s, hrun, p, q, r, x, y, z, hout, hx, hy, hz⟩ := exists_interrupted ConsoleWrite.loud false
    (Ne.symm htu) (getElem?_programs hc) (getElem?_programs hd) (by rw [locked_toCall, locked_toCall]; exact hlock)
    hfound htwo ((loud_ne_nil cfg d _).mpr hvisible)
  refine ⟨as, s, hrun, ?_⟩
  intro hunmixed
  have hcontig := hunmixed (t, i)
  rw [hout] at hcontig
  refine bytes_not_contiguous ?_ ((ConsoleWrite.loud_iff x).mp hx) ((ConsoleWrite.loud_iff y).mp hy)
    ((ConsoleWrite.loud_iff z).mp hz) hcontig
  intro heq
  exact htu (congrArg Prod.fst heq).symm

omit [DecidableEq T] in
/-- Calls that send nothing leave `already_warned_before_initgoogle` alone. -/
theorem sharedAfter_of_not_send {cs : List ConsoleCall} (h : ∀ c ∈ cs, c.isSend = false) (alreadyWarned : Bool) :
    sharedAfter (cs.map (ConsoleCall.toCall cfg)) alreadyWarned = alreadyWarned := by
  induction cs with
  | nil => rfl
  | cons c cs ih =>
    obtain ⟨hc, hcs⟩ := List.forall_mem_cons.mp h
    show sharedAfter (cs.map (ConsoleCall.toCall cfg)) ((c.toCall cfg).update alreadyWarned) = alreadyWarned
    rw [update_toCall, hc, Bool.false_and, Bool.or_false]
    exact ih hcs

omit [DecidableEq T] in
/-- A call in front of all messages of its thread. -/
theorem exists_getElem?_of_mem_takeWhile {d : ConsoleCall}
    (h : d ∈ (consoleCalls cfg P u).takeWhile fun e => !e.isSend) :
    d.isSend = false ∧ ∃ j, (consoleCalls cfg P u)[j]? = some d ∧
      ∀ e ∈ (consoleCalls cfg P u).take j, e.isSend = false := by
  obtain ⟨before, after, hsplit⟩ := List.append_of_mem h
  have hall : ∀ e ∈ before ++ d :: after, e.isSend = false := by
    intro e he
    rw [← hsplit] at he
    simpa using List.mem_takeWhile_imp he
  have hcalls : consoleCalls cfg P u
      = before ++ d :: (after ++ (consoleCalls cfg P u).dropWhile fun e => !e.isSend) := by
    rw [← List.cons_append, ← List.append_assoc, ← hsplit, List.takeWhile_append_dropWhile]
  refine ⟨hall d (by simp), before.length, ?_, ?_⟩
  · rw [hcalls]; simp
  · intro e he
    rw [hcalls, List.take_left] at he
    exact hall e (List.mem_append_left _ he)

theorem exists_mixed_of_notice (hinit : cfg.initialized = false) (htu : t ≠ u)
    (hsend : ∃ c ∈ consoleCalls cfg P t, c.isSend = true) {d : ConsoleCall}
    (hd : d ∈ (consoleCalls cfg P u).takeWhile fun e => !e.isSend) (hvisible : d.visible cfg = true) :
    ∃ as s, run (consoleStep cfg P) (consoleInitial T) as = some s ∧ ¬ CallsUnmixed s := by
  -- `t` comes to its first message, and `u` to `d`, before anybody has sent one
  obtain ⟨pre, c, post, hcalls, hc, hpre⟩ := exists_first hsend
  obtain ⟨hdsend, j, hj, hbefore⟩ := exists_getElem?_of_mem_takeWhile hd
  have hfound : sharedAfter ((programs cfg P u).take j) (sharedAfter ((programs cfg P t).take pre.length) false)
      = false := by
    rw [programs, programs, ← List.map_take, ← List.map_take, hcalls, List.take_left, sharedAfter_of_not_send hpre,
      sharedAfter_of_not_send hbefore]
  refine exists_mixed (c := c) htu (by rw [hcalls]; simp) hj ?_ hfound (two_le_loud.mpr (Or.inr ?_)) hvisible
  · rintro ⟨-, hsend'⟩
    rw [hdsend] at hsend'
    cases hsend'
  · rw [ConsoleCall.notifies, hc, hinit]
    rfl

/-! ## Every interleaving -/

/-- Threads that are apart put out whole calls, one after the other. -/
theorem serial_of_apart (hapart : Apart cfg P) {as : List (T × Act)}
    (hrun : run (consoleStep cfg P) (consoleInitial T) as = some s) :
    Serial (programs cfg P) ConsoleWrite.loud s.out := by
  refine serial_of_noOverlap
    (fun s => LockHeld (programs cfg P) s ∧ (cfg.initialized = false → NoticeInv cfg P s)) ?_ ?_ ⟨?_, ?_⟩ hrun
  · rintro s a s' ⟨hlock, hnotice⟩ hstep
    exact ⟨lockHeld_step hlock hstep, fun hinit => noticeInv_step hinit hlock (hnotice hinit) hstep⟩
  · rintro s hbegun ⟨hlock, hnotice⟩
    exact noOverlap_of_apart hapart hbegun hlock hnotice
  · intro t hcurrent
    exact absurd rfl hcurrent
  · intro hinit
    exact noticeInv_initial

/-- **Coloured output is never mixed, in any interleaving, exactly when the threads are apart.** -/
theorem unmixed_iff_apart (cfg : ConsoleSettings) (P : T → List LogStatement) :
    (∀ as s, run (consoleStep cfg P) (consoleInitial T) as = some s → CallsUnmixed s ∧ OwnColours cfg s) ↔
      Apart cfg P := by
  constructor
  · intro h
    have hnever : ¬ ∃ as s, run (consoleStep cfg P) (consoleInitial T) as = some s ∧ ¬ CallsUnmixed s := by
      rintro ⟨as, s, hrun, hmixed⟩
      exact hmixed (h as s hrun).1
    refine ⟨?_, ?_⟩
    · intro t u htu c hc d hd hcoloured hvisible
      by_contra hlock
      obtain ⟨i, hi⟩ := List.getElem?_of_mem hc
      obtain ⟨j, hj⟩ := List.getElem?_of_mem hd
      exact hnever (exists_mixed htu hi hj hlock rfl (two_le_loud.mpr (Or.inl hcoloured)) hvisible)
    · intro hinit t u htu hsend d hd
      by_contra hvisible
      exact hnever (exists_mixed_of_notice hinit htu hsend hd (Bool.not_eq_false _ ▸ hvisible))
  · intro hapart as s hrun
    have hserial := serial_of_apart hapart hrun
    exact ⟨fun id => bytes_contiguous (hserial.contiguous id), ownColours_of_serial hserial⟩

omit [DecidableEq T] in
/-- Threads that only use `LOG`, below FATAL, are apart. -/
theorem apart_of_log (h : ∀ t, ∀ st ∈ P t, ∃ severity text, st = .log severity text ∧ severity ≠ .FATAL) :
    Apart cfg P := by
  have hsend : ∀ t, ∀ c ∈ consoleCalls cfg P t, c.isSend = true := by
    intro t c hc
    obtain ⟨st, hst, hc⟩ := List.mem_flatMap.mp hc
    obtain ⟨severity, text, rfl, hfatal⟩ := h t st hst
    rw [LogStatement.calls] at hc
    split at hc
    · cases hc
    · simp only [hfatal, decide_false, Bool.false_and, Bool.false_eq_true, if_false, List.mem_singleton] at hc
      exact hc ▸ rfl
  refine ⟨fun t u _ c hc d hd _ _ => ⟨hsend t c hc, hsend u d hd⟩, ?_⟩
  intro _ t u _ _ d hd
  obtain ⟨hnot, j, hj, -⟩ := exists_getElem?_of_mem_takeWhile hd
  rw [hsend u d (List.mem_of_getElem? hj)] at hnot
  cases hnot

/-- Everything goes to the terminal. -/
def allToStderr : ConsoleSettings := { logtostderr := true }

/-- `RAW_LOG(WARNING, "low on memory")` in one thread, `RAW_LOG(INFO, "ready")` in another. -/
def twoRawThreads : Fin 2 → List LogStatement :=
  ![[.raw sampleContext sampleSite .WARNING (lit "low on memory")],
    [.raw sampleContext sampleSite .INFO (lit "ready")]]

/-- The text that `RAW_LOG` writes there. -/
def rawSample (severity : LogSeverity) (message : Bytes) : ConsoleWrite :=
  .text severity (rawLine (rawPrefix {} sampleContext sampleSite severity) message)

theorem loud_rawSample (severity : LogSeverity) {message : Bytes} (h : nul ∉ message) :
    (rawSample severity message).loud = true := by
  obtain ⟨c, hc, hne⟩ := head?_rawPrefix {} sampleContext sampleSite severity
  exact (ConsoleWrite.loud_iff _).mpr (rawLine_ne_nil hc hne h)

/-- The second thread writes its line between the colour and the text of the first one. -/
theorem twoRawThreads_run :
    ∃ s, run (consoleStep allToStderr twoRawThreads) (consoleInitial (Fin 2))
        [(0, .start), (0, .write), (1, .start), (1, .write), (0, .write), (0, .write)] = some s ∧
      s.out = [((0, 0), .setColour .yellow), ((1, 0), rawSample .INFO (lit "ready")),
        ((0, 0), rawSample .WARNING (lit "low on memory")), ((0, 0), .recover)] := by
  refine ⟨_, rfl, ?_⟩
  show ([((0, 0), .setColour .yellow)] : List (CallId (Fin 2) × ConsoleWrite))
      ++ (if (rawSample .INFO (lit "ready")).loud then [((1, 0), rawSample .INFO (lit "ready"))] else [])
      ++ (if (rawSample .WARNING (lit "low on memory")).loud then
          [((0, 0), rawSample .WARNING (lit "low on memory"))] else [])
      ++ [((0, 0), .recover)] = _
  rw [if_pos (loud_rawSample .INFO (by decide)), if_pos (loud_rawSample .WARNING (by decide))]
  rfl

/-- So the call of the first one is broken up, and the line of the second one is shown in yellow. -/
theorem twoRawThreads_mixed :
    ∃ s, run (consoleStep allToStderr twoRawThreads) (consoleInitial (Fin 2))
        [(0, .start), (0, .write), (1, .start), (1, .write), (0, .write), (0, .write)] = some s ∧
      ¬ CallsUnmixed s ∧ ¬ OwnColours allToStderr s := by
  obtain ⟨s, hrun, hout⟩ := twoRawThreads_run
  refine ⟨s, hrun, ?_, ?_⟩
  · intro hunmixed
    have hcontig := hunmixed (0, 0)
    rw [hout] at hcontig
    exact bytes_not_contiguous (p := []) (q := []) (r := [((0, 0), rawSample .WARNING (lit "low on memory"))])
      (x := .setColour .yellow) (y := rawSample .INFO (lit "ready")) (z := .recover)
      (show ((1, 0) : CallId (Fin 2)) ≠ (0, 0) by decide) (by decide)
      ((ConsoleWrite.loud_iff _).mp (loud_rawSample .INFO (by decide))) (by decide) hcontig
  · intro hown
    have hshown := hown [((0, 0), .setColour .yellow)] (1, 0) _ _ _ hout
    cases hshown

end Thirdparty.Glog
