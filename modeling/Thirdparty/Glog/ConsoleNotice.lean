import Thirdparty.Glog.Console

/-!
# `Glog.ConsoleNotice` — who writes the notice

Before `InitGoogleLogging`, the first message that comes to `SendToLog` writes the notice. All of `SendToLog` is under
`log_mutex`, so while it does so no other thread has sent a message, and none is sending one.

## Contents
- `Sent`: the thread has begun to send a message.
- `NoticeInv`, `noticeInv_step`: the invariant and its step lemma.
-/

namespace Thirdparty.Glog

open Writers

variable {T : Type*} {cfg : ConsoleSettings} {P : T → List LogStatement}

/-! ## The calls of a program -/

theorem locked_toCall (cfg : ConsoleSettings) (c : ConsoleCall) : (c.toCall cfg).locked = c.isSend := by
  cases c <;> rfl

theorem update_toCall (cfg : ConsoleSettings) (c : ConsoleCall) (alreadyWarned : Bool) :
    (c.toCall cfg).update alreadyWarned = (alreadyWarned || c.isSend && !cfg.initialized) := by
  cases c with
  | rawLog => exact (Bool.or_false _).symm
  | sendToLog => rfl
  | stackTraceLine => exact (Bool.or_false _).symm

theorem getElem?_programs {t : T} {i : Nat} {c : ConsoleCall} (h : (consoleCalls cfg P t)[i]? = some c) :
    (programs cfg P t)[i]? = some (c.toCall cfg) := by
  rw [programs, List.getElem?_map, h, Option.map_some]

theorem exists_consoleCall {t : T} {i : Nat} {d : Call Bool ConsoleWrite} (h : (programs cfg P t)[i]? = some d) :
    ∃ c, (consoleCalls cfg P t)[i]? = some c ∧ d = c.toCall cfg := by
  rw [programs, List.getElem?_map] at h
  obtain ⟨c, hc, rfl⟩ := Option.map_eq_some_iff.mp h
  exact ⟨c, hc, rfl⟩

theorem lockedOf_programs {id : CallId T} {c : ConsoleCall} (h : (consoleCalls cfg P id.1)[id.2]? = some c) :
    lockedOf (programs cfg P) id = c.isSend := by
  rw [lockedOf_of_some (getElem?_programs h), locked_toCall]

/-! ## The threads that have sent a message -/

/-- The thread has begun to send a message, or has sent one. -/
def Sent (cfg : ConsoleSettings) (P : T → List LogStatement) (s : State T Bool ConsoleWrite) (t : T) : Prop :=
  ∃ i c, (consoleCalls cfg P t)[i]? = some c ∧ c.isSend = true ∧
    (i < s.index t ∨ i = s.index t ∧ s.current t ≠ none)

variable [DecidableEq T] {s s' : State T Bool ConsoleWrite} {t u : T}

/-- A thread that begins a call begins to send at most the message of this call. -/
theorem sent_begin {c : ConsoleCall} (hc : (consoleCalls cfg P t)[s.index t]? = some c)
    (h : Sent cfg P (s.begin t (c.toCall cfg)) u) : Sent cfg P s u ∨ u = t ∧ c.isSend = true := by
  obtain ⟨i, d, hd, hsend, hi⟩ := h
  rcases hi with hlt | ⟨rfl, hcurrent⟩
  · exact Or.inl ⟨i, d, hd, hsend, Or.inl hlt⟩
  · by_cases hut : u = t
    · subst hut
      obtain rfl : c = d := Option.some.inj (hc.symm.trans hd)
      exact Or.inr ⟨rfl, hsend⟩
    · rw [begin_current_ne hut] at hcurrent
      exact Or.inl ⟨_, d, hd, hsend, Or.inr ⟨rfl, hcurrent⟩⟩

theorem sent_emit {k : InCall Bool ConsoleWrite} {w : ConsoleWrite} {left : List ConsoleWrite}
    (hk : s.current t = some k) (h : Sent cfg P (s.emit ConsoleWrite.loud t k w left) u) : Sent cfg P s u := by
  obtain ⟨i, d, hd, hsend, hi⟩ := h
  refine ⟨i, d, hd, hsend, hi.imp_right ?_⟩
  rintro ⟨hidx, hcurrent⟩
  by_cases hut : u = t
  · subst hut
    exact ⟨hidx, by simp [hk]⟩
  · rw [emit_current_ne hut] at hcurrent
    exact ⟨hidx, hcurrent⟩

theorem sent_leave {k : InCall Bool ConsoleWrite} (hk : s.current t = some k)
    (h : Sent cfg P (s.leave (programs cfg P) t) u) : Sent cfg P s u := by
  obtain ⟨i, d, hd, hsend, hi⟩ := h
  refine ⟨i, d, hd, hsend, ?_⟩
  by_cases hut : u = t
  · subst hut
    rcases hi with hlt | ⟨-, hcurrent⟩
    · -- the call that was left is behind it now
      rw [leave_index] at hlt
      exact (Nat.lt_succ_iff_lt_or_eq.mp hlt).imp_right fun heq => ⟨heq, by simp [hk]⟩
    · exact absurd leave_current hcurrent
  · rw [leave_index_ne hut, leave_current_ne hut] at hi
    exact hi

/-! ## The invariant -/

/-- As long as the notice was not begun, nobody has sent a message; while a thread sends a message with the notice, no
    other thread has sent one. -/
structure NoticeInv (cfg : ConsoleSettings) (P : T → List LogStatement) (s : State T Bool ConsoleWrite) : Prop where
  fresh : s.shared = false → ∀ t, ¬ Sent cfg P s t
  first : ∀ t k, s.current t = some k → k.found = false → lockedOf (programs cfg P) (s.id t) = true →
    ∀ u, u ≠ t → ¬ Sent cfg P s u

omit [DecidableEq T] in
theorem noticeInv_initial : NoticeInv cfg P (consoleInitial T) where
  fresh := by
    rintro - t ⟨i, d, -, -, hlt | ⟨-, hcurrent⟩⟩
    · exact absurd hlt (Nat.not_lt_zero _)
    · exact hcurrent rfl
  first := by
    intro t k hk
    cases hk

omit [DecidableEq T] in
/-- A step that leaves the notice alone, in which nobody begins a call. -/
theorem NoticeInv.mono (h : NoticeInv cfg P s) (hshared : s'.shared = s.shared)
    (hsent : ∀ u, Sent cfg P s' u → Sent cfg P s u)
    (hcurrent : ∀ t k, s'.current t = some k → s'.id t = s.id t ∧ ∃ k₀, s.current t = some k₀ ∧ k.found = k₀.found) :
    NoticeInv cfg P s' where
  fresh := fun hfresh u hu => h.fresh (hshared.symm.trans hfresh) u (hsent u hu)
  first := by
    intro t k hk hfound hlocked u hut hu
    obtain ⟨hid, k₀, hk₀, hsame⟩ := hcurrent t k hk
    exact h.first t k₀ hk₀ (hsame.symm.trans hfound) (hid ▸ hlocked) u hut (hsent u hu)

/-- The begin of a call: one that sends a message takes the lock, and sees to it that the notice is not written
    again. -/
theorem NoticeInv.begin {c : ConsoleCall} (hinit : cfg.initialized = false) (hlock : LockHeld (programs cfg P) s)
    (h : NoticeInv cfg P s) (hc : (consoleCalls cfg P t)[s.index t]? = some c)
    (hfree : c.isSend = true → s.holder = none) : NoticeInv cfg P (s.begin t (c.toCall cfg)) where
  fresh := by
    intro hfresh u hu
    have hupdate : (s.shared || c.isSend && !cfg.initialized) = false :=
      (update_toCall cfg c s.shared).symm.trans hfresh
    rw [hinit, Bool.not_false, Bool.and_true, Bool.or_eq_false_iff] at hupdate
    rcases sent_begin hc hu with hold | ⟨-, hsend⟩
    · exact h.fresh hupdate.1 u hold
    · rw [hupdate.2] at hsend
      cases hsend
  first := by
    intro v k hk hfound hlocked u huv hu
    by_cases hvt : v = t
    · -- `t` itself found no notice, so nobody has sent before
      subst hvt
      rw [begin_current] at hk
      cases hk
      rcases sent_begin hc hu with hold | ⟨hut, -⟩
      · exact h.fresh hfound u hold
      · exact huv hut
    · rw [begin_current_ne hvt] at hk
      rcases sent_begin hc hu with hold | ⟨-, hsend⟩
      · exact h.first v k hk hfound hlocked u huv hold
      · -- `v` holds the lock, so `t` did not begin to send
        have hheld : s.holder = some v := hlock v (by simp [hk]) hlocked
        rw [hfree hsend] at hheld
        cases hheld

/-- **Step lemma.** -/
theorem noticeInv_step {a : T × Act} (hinit : cfg.initialized = false) (hlock : LockHeld (programs cfg P) s)
    (h : NoticeInv cfg P s) (hstep : consoleStep cfg P s a = some s') : NoticeInv cfg P s' := by
  obtain ⟨t, act⟩ := a
  cases act with
  | start =>
    obtain ⟨d, hd, -, hfree, rfl⟩ := start_step hstep
    obtain ⟨c, hc, rfl⟩ := exists_consoleCall hd
    rw [locked_toCall] at hfree
    exact h.begin hinit hlock hc hfree
  | write =>
    obtain ⟨k₀, w, left, hk₀, -, rfl⟩ := write_step hstep
    refine h.mono rfl (fun u hu => sent_emit hk₀ hu) fun u k hk => ⟨rfl, ?_⟩
    by_cases hut : u = t
    · subst hut
      rw [emit_current] at hk
      cases hk
      exact ⟨k₀, hk₀, rfl⟩
    · rw [emit_current_ne hut] at hk
      exact ⟨k, hk, rfl⟩
  | finish =>
    obtain ⟨k₀, hk₀, -, rfl⟩ := finish_step hstep
    refine h.mono rfl (fun u hu => sent_leave hk₀ hu) fun u k hk => ?_
    have hut : u ≠ t := by
      rintro rfl
      rw [leave_current] at hk
      cases hk
    rw [leave_current_ne hut] at hk
    exact ⟨leave_id_ne hut, k, hk, rfl⟩

end Thirdparty.Glog
