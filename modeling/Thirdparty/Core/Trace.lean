import Mathlib.Tactic.Common

/-!
# `Core.Trace` — runs of a partial labelled step function

A concurrent program is a step function `step : σ → α → Option σ`: the label says which thread moves and how, and
`none` that the move is not possible there. A schedule is a list of labels; every reachable state is the end of
one, so a property of all interleavings is a property of `run step s as` for all `as`.

## Contents
- `run`, with its behaviour on `++`, and `Reaches` for the existence of a schedule.
- `run_invariant`: an inductive invariant holds at the end of every run.
- `Along`: a condition that every step of a run meets, and `run_invariant_along`, the induction rule under it.
- `exists_first`, `append_eq_append_cons`: places in a schedule or a history.
-/

namespace Thirdparty.Trace

variable {σ α : Type*} {step : σ → α → Option σ}

/-- Execute a schedule; `none` if one of its moves is not possible. -/
def run (step : σ → α → Option σ) : σ → List α → Option σ
  | s, [] => some s
  | s, a :: as => (step s a).bind fun s' => run step s' as

@[simp] theorem run_nil (s : σ) : run step s [] = some s := rfl

theorem run_cons_eq_some {s t : σ} {a : α} {as : List α} :
    run step s (a :: as) = some t ↔ ∃ s', step s a = some s' ∧ run step s' as = some t := by
  simp [run, Option.bind_eq_some_iff]

theorem run_append (s : σ) (as bs : List α) :
    run step s (as ++ bs) = (run step s as).bind fun s' => run step s' bs := by
  induction as generalizing s with
  | nil => rfl
  | cons a as ih =>
    rw [List.cons_append, run, run]
    cases step s a with
    | none => rfl
    | some s' => exact ih s'

theorem run_append_eq_some {s t : σ} {as bs : List α} :
    run step s (as ++ bs) = some t ↔ ∃ s', run step s as = some s' ∧ run step s' bs = some t := by
  rw [run_append, Option.bind_eq_some_iff]

/-- Some schedule leads from `s` to `t`. -/
def Reaches (step : σ → α → Option σ) (s t : σ) : Prop := ∃ as, run step s as = some t

theorem Reaches.refl (s : σ) : Reaches step s s := ⟨[], rfl⟩

theorem Reaches.single {s t : σ} {a : α} (h : step s a = some t) : Reaches step s t :=
  ⟨[a], run_cons_eq_some.mpr ⟨t, h, rfl⟩⟩

theorem Reaches.trans {s t u : σ} (h₁ : Reaches step s t) (h₂ : Reaches step t u) :
    Reaches step s u := by
  obtain ⟨as, has⟩ := h₁
  obtain ⟨bs, hbs⟩ := h₂
  exact ⟨as ++ bs, run_append_eq_some.mpr ⟨t, has, hbs⟩⟩

/-- **Invariant rule.** What every step preserves holds at the end of every run. -/
theorem run_invariant (Inv : σ → Prop) (hstep : ∀ s a s', Inv s → step s a = some s' → Inv s')
    {s t : σ} {as : List α} (hs : Inv s) (hrun : run step s as = some t) : Inv t := by
  induction as generalizing s with
  | nil => exact Option.some.inj hrun ▸ hs
  | cons a as ih =>
    obtain ⟨s', hs', hrun'⟩ := run_cons_eq_some.mp hrun
    exact ih (hstep s a s' hs hs') hrun'

/-- Every step of the run from `s` is taken in a state, and with a label, that meet `P`. -/
def Along (step : σ → α → Option σ) (P : σ → α → Prop) : σ → List α → Prop
  | _, [] => True
  | s, a :: as => P s a ∧ ∀ s', step s a = some s' → Along step P s' as

/-- A condition that each step meets in the state that the steps before it lead to. -/
theorem along_of_split {P : σ → α → Prop} {s : σ} {as : List α}
    (h : ∀ pre a post s', as = pre ++ a :: post → run step s pre = some s' → P s' a) : Along step P s as := by
  induction as generalizing s with
  | nil => trivial
  | cons a as ih =>
    refine ⟨h [] a as s rfl rfl, fun s' hs' => ih ?_⟩
    rintro pre b post t rfl hrun
    exact h (a :: pre) b post t rfl (run_cons_eq_some.mpr ⟨s', hs', hrun⟩)

/-- A condition that all labels of the schedule meet in every state. -/
theorem along_of_forall {P : σ → α → Prop} {as : List α} (h : ∀ a ∈ as, ∀ s, P s a) (s : σ) :
    Along step P s as := by
  induction as generalizing s with
  | nil => trivial
  | cons a as ih =>
    exact ⟨h a List.mem_cons_self s, fun s' _ => ih (fun b hb => h b (List.mem_cons_of_mem _ hb)) s'⟩

/-- **Invariant rule under a condition.** A step that meets the condition preserves the invariant; so does a run
    all of whose steps meet it. -/
theorem run_invariant_along (Inv : σ → Prop) {P : σ → α → Prop}
    (hstep : ∀ s a s', Inv s → P s a → step s a = some s' → Inv s')
    {s t : σ} {as : List α} (hs : Inv s) (hP : Along step P s as) (hrun : run step s as = some t) :
    Inv t := by
  induction as generalizing s with
  | nil => exact Option.some.inj hrun ▸ hs
  | cons a as ih =>
    obtain ⟨s', hs', hrun'⟩ := run_cons_eq_some.mp hrun
    exact ih (hstep s a s' hs hP.1 hs') (hP.2 s' hs') hrun'

/-- A list with elements that meet `p` has a first one. -/
theorem exists_first {ε : Type*} {xs : List ε} {p : ε → Bool} (h : ∃ x ∈ xs, p x = true) :
    ∃ pre x post, xs = pre ++ x :: post ∧ p x = true ∧ ∀ y ∈ pre, p y = false := by
  obtain ⟨x, hx⟩ := Option.isSome_iff_exists.mp (List.find?_isSome.mpr h)
  obtain ⟨hp, pre, post, rfl, hpre⟩ := List.find?_eq_some_iff_append.mp hx
  exact ⟨pre, x, post, rfl, hp, fun y hy => by simpa using hpre y hy⟩

/-- An event of a lengthened history is an old one, at its old place, or a new one. -/
theorem append_eq_append_cons {ε : Type*} {xs ys pre post : List ε} {e : ε} (h : xs ++ ys = pre ++ e :: post) :
    (∃ mid, xs = pre ++ e :: mid) ∨ ∃ mid, pre = xs ++ mid ∧ ys = mid ++ e :: post := by
  rcases List.append_eq_append_iff.mp h with ⟨mid, hpre, hys⟩ | ⟨mid, hxs, hmid⟩
  · exact Or.inr ⟨mid, hpre, hys⟩
  · cases mid with
    | nil => exact Or.inr ⟨[], by simpa using hxs.symm, hmid.symm⟩
    | cons e' mid =>
      cases hmid
      exact Or.inl ⟨mid, hxs⟩

end Thirdparty.Trace
