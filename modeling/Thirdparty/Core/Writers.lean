import Thirdparty.Core.Contiguous
import Mathlib.Logic.Function.Basic

/-!
# `Core.Writers` — threads that write to one descriptor, some under a lock

Every thread makes a sequence of calls, and a call is a sequence of writes, made while holding the one lock or
without it. Which writes these are may depend on shared data, which a call reads, and changes, when it begins. A write
is atomic; between two writes of a call the other threads may write. Writes that put nothing out (`loud w = false`)
leave no trace.

## Contents
- `Call`, `State`, `step`: the system; `State.out` is what was put out, each write with the call it belongs to.
- `start_step`, `write_step`, `finish_step`: what a step does.
- `LockHeld`, `lockHeld_step`: a thread in a locked call holds the lock.
- `Begun`, `begun_step`: a thread makes the writes that its call began with.
-/

namespace Thirdparty.Writers

open Trace

/-- A call, by whether it holds the lock, by the writes it makes when it finds the shared data as they are, and by what
    it leaves there. -/
structure Call (σ γ : Type*) where
  locked : Bool
  writes : σ → List γ
  update : σ → σ

/-- The call of a thread with a given index. -/
abbrev CallId (T : Type*) := T × Nat

/-- The call that a thread is in: the shared data it found, the writes it has made, and those it has left. -/
structure InCall (σ γ : Type*) where
  found : σ
  made : List γ
  left : List γ

/-- A state: the shared data, the call that each thread is at, what it did of it if it has begun, and the output. -/
structure State (T σ γ : Type*) where
  shared : σ
  index : T → Nat
  current : T → Option (InCall σ γ)
  holder : Option T
  out : List (CallId T × γ)

/-- Nobody has begun. -/
def State.initial (T γ : Type*) {σ : Type*} (shared : σ) : State T σ γ :=
  ⟨shared, fun _ => 0, fun _ => none, none, []⟩

/-- What a thread may do. -/
inductive Act where
  /-- Begin the next call, with the lock if the call takes it. -/
  | start
  /-- Make the next write. -/
  | write
  /-- Return from the call, and release the lock. -/
  | finish
  deriving DecidableEq, Repr

variable {T σ γ : Type*}

/-- The call a thread is at, or comes to next. -/
def State.id (s : State T σ γ) (t : T) : CallId T := (t, s.index t)

section Programs

variable (P : T → List (Call σ γ)) (loud : γ → Bool)

/-- Does the call hold the lock? -/
def lockedOf (id : CallId T) : Bool := ((P id.1)[id.2]?.map Call.locked).getD false

variable [DecidableEq T]

/-- `t` begins its next call, which is `c`. -/
def State.begin (s : State T σ γ) (t : T) (c : Call σ γ) : State T σ γ where
  shared := c.update s.shared
  index := s.index
  current := Function.update s.current t (some ⟨s.shared, [], c.writes s.shared⟩)
  holder := if c.locked then some t else s.holder
  out := s.out

/-- `t` makes the write `w` of its call, and has `left` then. -/
def State.emit (s : State T σ γ) (t : T) (k : InCall σ γ) (w : γ) (left : List γ) : State T σ γ where
  shared := s.shared
  index := s.index
  current := Function.update s.current t (some ⟨k.found, k.made ++ [w], left⟩)
  holder := s.holder
  out := s.out ++ if loud w then [(s.id t, w)] else []

/-- `t` returns from its call. -/
def State.leave (s : State T σ γ) (t : T) : State T σ γ where
  shared := s.shared
  index := Function.update s.index t (s.index t + 1)
  current := Function.update s.current t none
  holder := if lockedOf P (s.id t) then none else s.holder
  out := s.out

/-- One step of a thread. -/
def step (s : State T σ γ) : T × Act → Option (State T σ γ)
  | (t, .start) =>
    (P t)[s.index t]?.bind fun c =>
      if (s.current t).isNone && (!c.locked || s.holder.isNone) then some (s.begin t c) else none
  | (t, .write) =>
    (s.current t).bind fun k =>
      match k.left with
      | w :: left => some (s.emit loud t k w left)
      | [] => none
  | (t, .finish) =>
    (s.current t).bind fun k => if k.left.isEmpty then some (s.leave P t) else none

end Programs

/-! ## What a step does -/

section Steps

variable {P : T → List (Call σ γ)} {loud : γ → Bool} [DecidableEq T] {s s' : State T σ γ} {t u : T}

omit [DecidableEq T] in
theorem lockedOf_of_some {id : CallId T} {c : Call σ γ} (h : (P id.1)[id.2]? = some c) :
    lockedOf P id = c.locked := by
  rw [lockedOf, h]
  rfl

theorem start_step (h : step P loud s (t, .start) = some s') :
    ∃ c, (P t)[s.index t]? = some c ∧ s.current t = none ∧ (c.locked = true → s.holder = none) ∧
      s' = s.begin t c := by
  obtain ⟨c, hc, h⟩ := Option.bind_eq_some_iff.mp h
  split at h
  · rename_i hguard
    cases h
    obtain ⟨hnone, hfree⟩ := Bool.and_eq_true_iff.mp hguard
    refine ⟨c, hc, Option.isNone_iff_eq_none.mp hnone, ?_, rfl⟩
    intro hlocked
    simpa [hlocked] using hfree
  · cases h

theorem write_step (h : step P loud s (t, .write) = some s') :
    ∃ k w left, s.current t = some k ∧ k.left = w :: left ∧ s' = s.emit loud t k w left := by
  obtain ⟨k, hk, h⟩ := Option.bind_eq_some_iff.mp h
  split at h
  · rename_i w left hleft
    cases h
    exact ⟨k, w, left, hk, hleft, rfl⟩
  · cases h

theorem finish_step (h : step P loud s (t, .finish) = some s') :
    ∃ k, s.current t = some k ∧ k.left = [] ∧ s' = s.leave P t := by
  obtain ⟨k, hk, h⟩ := Option.bind_eq_some_iff.mp h
  split at h
  · rename_i hempty
    cases h
    exact ⟨k, hk, List.isEmpty_iff.mp hempty, rfl⟩
  · cases h

/-! The other threads are where they were. -/

theorem begin_current_ne {c : Call σ γ} (h : u ≠ t) : (s.begin t c).current u = s.current u :=
  Function.update_of_ne h _ _

theorem emit_current_ne {k : InCall σ γ} {w : γ} {left : List γ} (h : u ≠ t) :
    (s.emit loud t k w left).current u = s.current u := Function.update_of_ne h _ _

theorem leave_current_ne (h : u ≠ t) : (s.leave P t).current u = s.current u := Function.update_of_ne h _ _

theorem leave_index_ne (h : u ≠ t) : (s.leave P t).index u = s.index u := Function.update_of_ne h _ _

theorem leave_id_ne (h : u ≠ t) : (s.leave P t).id u = s.id u := by
  rw [State.id, leave_index_ne h, State.id]

/-! The thread itself. -/

@[simp] theorem begin_current {c : Call σ γ} :
    (s.begin t c).current t = some ⟨s.shared, [], c.writes s.shared⟩ := Function.update_self _ _ _

@[simp] theorem emit_current {k : InCall σ γ} {w : γ} {left : List γ} :
    (s.emit loud t k w left).current t = some ⟨k.found, k.made ++ [w], left⟩ := Function.update_self _ _ _

@[simp] theorem leave_current : (s.leave P t).current t = none := Function.update_self _ _ _

@[simp] theorem leave_index : (s.leave P t).index t = s.index t + 1 := Function.update_self _ _ _

@[simp] theorem begin_id {c : Call σ γ} : (s.begin t c).id u = s.id u := rfl

@[simp] theorem emit_id {k : InCall σ γ} {w : γ} {left : List γ} : (s.emit loud t k w left).id u = s.id u := rfl

end Steps

/-! ## Mutual exclusion -/

section Locks

variable {P : T → List (Call σ γ)} {loud : γ → Bool} {s s' : State T σ γ}

/-- A thread in a locked call holds the lock. -/
def LockHeld (P : T → List (Call σ γ)) (s : State T σ γ) : Prop :=
  ∀ t, s.current t ≠ none → lockedOf P (s.id t) = true → s.holder = some t

/-- Two threads are not in locked calls at the same time. -/
theorem LockHeld.eq (h : LockHeld P s) {t u : T} (ht : s.current t ≠ none) (hu : s.current u ≠ none)
    (hlt : lockedOf P (s.id t) = true) (hlu : lockedOf P (s.id u) = true) : t = u :=
  Option.some.inj ((h t ht hlt).symm.trans (h u hu hlu))

variable [DecidableEq T]

theorem lockHeld_step {a : T × Act} (h : LockHeld P s) (hstep : step P loud s a = some s') :
    LockHeld P s' := by
  obtain ⟨t, act⟩ := a
  cases act with
  | start =>
    obtain ⟨c, hc, -, hfree, rfl⟩ := start_step hstep
    have hcall : lockedOf P (s.id t) = c.locked := lockedOf_of_some hc
    intro u hu hlocked
    by_cases hut : u = t
    · subst hut
      exact if_pos (hcall.symm.trans hlocked)
    · -- somebody else holds it, so `t` cannot have taken it
      rw [begin_current_ne hut] at hu
      have hold : s.holder = some u := h u hu hlocked
      have htaken : ¬ c.locked = true := by
        intro ht
        rw [hfree ht] at hold
        cases hold
      exact (if_neg htaken).trans hold
  | write =>
    obtain ⟨k, w, left, hk, -, rfl⟩ := write_step hstep
    intro u hu hlocked
    by_cases hut : u = t
    · subst hut
      exact h u (by simp [hk]) hlocked
    · rw [emit_current_ne hut] at hu
      exact h u hu hlocked
  | finish =>
    obtain ⟨k, hk, -, rfl⟩ := finish_step hstep
    intro u hu hlocked
    by_cases hut : u = t
    · subst hut
      exact absurd leave_current hu
    · rw [leave_current_ne hut] at hu
      rw [leave_id_ne hut] at hlocked
      have hold : s.holder = some u := h u hu hlocked
      -- `u` holds the lock, so the call that `t` leaves did not
      have hfree : ¬ lockedOf P (s.id t) = true := by
        intro ht
        exact hut (h.eq hu (by simp [hk]) hlocked ht)
      exact (if_neg hfree).trans hold

end Locks

/-! ## The writes of a call -/

section Begun

variable {P : T → List (Call σ γ)} {loud : γ → Bool} {s s' : State T σ γ}

/-- What each thread has made and has left of its call are the writes that the call began with. -/
def Begun (P : T → List (Call σ γ)) (s : State T σ γ) : Prop :=
  ∀ t k, s.current t = some k → ∃ c, (P t)[s.index t]? = some c ∧ k.made ++ k.left = c.writes k.found

theorem begun_initial (shared : σ) : Begun P (State.initial T γ shared) := by
  intro t k hk
  cases hk

variable [DecidableEq T]

theorem begun_step {a : T × Act} (h : Begun P s) (hstep : step P loud s a = some s') : Begun P s' := by
  obtain ⟨t, act⟩ := a
  cases act with
  | start =>
    obtain ⟨c, hc, -, -, rfl⟩ := start_step hstep
    intro u k hk
    by_cases hut : u = t
    · subst hut
      rw [begin_current] at hk
      cases hk
      exact ⟨c, hc, rfl⟩
    · rw [begin_current_ne hut] at hk
      exact h u k hk
  | write =>
    obtain ⟨k₀, w, left, hk₀, hleft, rfl⟩ := write_step hstep
    intro u k hk
    by_cases hut : u = t
    · subst hut
      rw [emit_current] at hk
      cases hk
      obtain ⟨c, hc, hwrites⟩ := h u k₀ hk₀
      refine ⟨c, hc, ?_⟩
      rw [← hwrites, hleft, List.append_assoc, List.singleton_append]
    · rw [emit_current_ne hut] at hk
      exact h u k hk
  | finish =>
    obtain ⟨k₀, -, -, rfl⟩ := finish_step hstep
    intro u k hk
    by_cases hut : u = t
    · subst hut
      rw [leave_current] at hk
      cases hk
    · rw [leave_current_ne hut] at hk
      rw [leave_index_ne hut]
      exact h u k hk

end Begun

end Thirdparty.Writers
