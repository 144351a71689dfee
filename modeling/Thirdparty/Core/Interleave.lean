import Thirdparty.Core.Trace

/-!
# `Core.Interleave` — interleavings of the programs of several threads

A program is the list of the moves that one thread makes. A schedule interleaves the programs when it gives each
thread the beginning of its own, so the interleavings of given programs reach every state that any order of their
steps reaches.

What a move of a thread does may depend on the whole state; whether it is possible often depends on the thread
alone. `Projects` says so: a view of the state, one for each thread, that only the thread's own moves change, with a
step function of its own.

## Contents
- `ofThread`: the moves of one thread in a schedule; `Interleaves`.
- `Projects`: the threads can be looked at one by one.
- `Projects.run_ofThread`: a run shows each thread a run of its own moves.
- `Projects.exists_run`: what a thread can do by its view, it can do in the system when it is left alone.
-/

namespace Thirdparty.Trace

variable {T α : Type*} [DecidableEq T]

/-- The moves of `t`, in order. -/
def ofThread (t : T) : List (T × α) → List α
  | [] => []
  | (u, m) :: as => if u = t then m :: ofThread t as else ofThread t as

/-- Each thread makes the first moves of its program. -/
def Interleaves (P : T → List α) (as : List (T × α)) : Prop := ∀ t, ofThread t as <+: P t

/-! ## The moves of one thread -/

@[simp] theorem ofThread_nil (t : T) : ofThread t ([] : List (T × α)) = [] := rfl

@[simp] theorem ofThread_cons_self (t : T) (m : α) (as : List (T × α)) :
    ofThread t ((t, m) :: as) = m :: ofThread t as := if_pos rfl

theorem ofThread_cons_ne {t u : T} (h : u ≠ t) (m : α) (as : List (T × α)) :
    ofThread t ((u, m) :: as) = ofThread t as := if_neg h

theorem ofThread_append (t : T) (as bs : List (T × α)) :
    ofThread t (as ++ bs) = ofThread t as ++ ofThread t bs := by
  induction as with
  | nil => rfl
  | cons a as ih =>
    obtain ⟨u, m⟩ := a
    by_cases hut : u = t
    · subst hut
      simp [ih]
    · rw [List.cons_append, ofThread_cons_ne hut, ofThread_cons_ne hut, ih]

theorem mem_ofThread {t : T} {m : α} {as : List (T × α)} : m ∈ ofThread t as ↔ (t, m) ∈ as := by
  induction as with
  | nil => simp
  | cons a as ih =>
    obtain ⟨u, n⟩ := a
    by_cases hut : u = t
    · subst hut
      simp [ih]
    · rw [ofThread_cons_ne hut, ih, List.mem_cons]
      simp [Ne.symm hut]

/-- Moves of `t` alone. -/
theorem ofThread_map_self (t : T) (ms : List α) : ofThread t (ms.map (t, ·)) = ms := by
  induction ms with
  | nil => rfl
  | cons m ms ih => rw [List.map_cons, ofThread_cons_self, ih]

theorem ofThread_map_ne {t u : T} (h : u ≠ t) (ms : List α) : ofThread t (ms.map (u, ·)) = [] := by
  induction ms with
  | nil => rfl
  | cons m ms ih => rw [List.map_cons, ofThread_cons_ne h, ih]

/-! ## Interleavings -/

section Interleavings

variable {P : T → List α}

/-- An interleaving may stop earlier. -/
theorem Interleaves.of_append {as bs : List (T × α)} (h : Interleaves P (as ++ bs)) : Interleaves P as := by
  intro t
  have hprefix := h t
  rw [ofThread_append] at hprefix
  exact (List.prefix_append _ _).trans hprefix

/-- A move of an interleaving is one of the program. -/
theorem Interleaves.mem {as : List (T × α)} (h : Interleaves P as) {t : T} {m : α} (hm : (t, m) ∈ as) : m ∈ P t :=
  (h t).subset (mem_ofThread.mpr hm)

/-- One thread runs alone. -/
theorem interleaves_map {t : T} {ms : List α} (h : ms <+: P t) : Interleaves P (ms.map (t, ·)) := by
  intro u
  by_cases htu : t = u
  · subst htu
    rwa [ofThread_map_self]
  · rw [ofThread_map_ne htu]
    exact List.nil_prefix

/-- One thread runs, and then another one. -/
theorem interleaves_map_append {t u : T} (htu : t ≠ u) {ms ns : List α} (hms : ms <+: P t) (hns : ns <+: P u) :
    Interleaves P (ms.map (t, ·) ++ ns.map (u, ·)) := by
  intro v
  rw [ofThread_append]
  by_cases hv : v = u
  · subst hv
    rwa [ofThread_map_ne htu, ofThread_map_self, List.nil_append]
  · rw [ofThread_map_ne (Ne.symm hv), List.append_nil]
    exact interleaves_map hms v

end Interleavings

/-! ## Threads looked at one by one -/

section Views

variable {σ ℓ : Type*}

/-- In the states that meet `Inv`, the view of a thread says what the thread can do and what becomes of the view, and
    the other threads do not change it. -/
structure Projects (step : σ → T × α → Option σ) (Inv : σ → Prop) (view : σ → T → ℓ)
    (localStep : ℓ → α → Option ℓ) : Prop where
  inv : ∀ s a s', Inv s → step s a = some s' → Inv s'
  own : ∀ s t m, Inv s → (step s (t, m)).map (view · t) = localStep (view s t) m
  others : ∀ s t m s', step s (t, m) = some s' → ∀ u, u ≠ t → view s' u = view s u

variable {step : σ → T × α → Option σ} {Inv : σ → Prop} {view : σ → T → ℓ} {localStep : ℓ → α → Option ℓ}

omit [DecidableEq T] in
theorem Projects.own_step (h : Projects step Inv view localStep) {s s' : σ} {t : T} {m : α} (hs : Inv s)
    (hstep : step s (t, m) = some s') : localStep (view s t) m = some (view s' t) := by
  rw [← h.own s t m hs, hstep, Option.map_some]

/-- **Projection.** -/
theorem Projects.run_ofThread (h : Projects step Inv view localStep) {s s' : σ} {as : List (T × α)} (hs : Inv s)
    (hrun : run step s as = some s') (t : T) : run localStep (view s t) (ofThread t as) = some (view s' t) := by
  induction as generalizing s with
  | nil =>
    cases hrun
    rfl
  | cons a as ih =>
    obtain ⟨u, m⟩ := a
    obtain ⟨s₁, hstep, hrun'⟩ := run_cons_eq_some.mp hrun
    have hrest := ih (h.inv _ _ _ hs hstep) hrun'
    by_cases hut : u = t
    · subst hut
      rw [ofThread_cons_self]
      exact run_cons_eq_some.mpr ⟨_, h.own_step hs hstep, hrest⟩
    · rw [ofThread_cons_ne hut, ← h.others _ _ _ _ hstep t (Ne.symm hut)]
      exact hrest

omit [DecidableEq T] in
/-- **A thread left alone** does in the system what its view says that it can do. -/
theorem Projects.exists_run (h : Projects step Inv view localStep) {s : σ} {t : T} {ms : List α} {l : ℓ} (hs : Inv s)
    (hrun : run localStep (view s t) ms = some l) :
    ∃ s', run step s (ms.map (t, ·)) = some s' ∧ view s' t = l := by
  induction ms generalizing s with
  | nil =>
    cases hrun
    exact ⟨s, rfl, rfl⟩
  | cons m ms ih =>
    obtain ⟨l₁, hlocal, hrun'⟩ := run_cons_eq_some.mp hrun
    rw [← h.own s t m hs] at hlocal
    obtain ⟨s₁, hstep, rfl⟩ := Option.map_eq_some_iff.mp hlocal
    obtain ⟨s', hrun₁, hl⟩ := ih (h.inv _ _ _ hs hstep) hrun'
    exact ⟨s', run_cons_eq_some.mpr ⟨s₁, hstep, hrun₁⟩, hl⟩

end Views

end Thirdparty.Trace
