import Thirdparty.Core.Trace

/-!
# `Core.Erase` — deleting given strings from a text

`erase marks s` deletes every occurrence of a string of `marks` from `s`, reading from the left. When all marks begin
with one symbol, and none is the beginning of another, the result for a concatenation can be read off its parts.

## Contents
- `erase`, by a count of symbols still to be deleted.
- `Marks`: the marks begin with `lead`, and are unambiguous.
- `Erases`: what a part of a text leaves, whatever follows; `erases_mark`, `erases_plain`, `Erases.append`.
-/

namespace Thirdparty

variable {α : Type*} [DecidableEq α]

/-- Delete `n` symbols, and from there on every occurrence of a mark. -/
def eraseFrom (marks : List (List α)) : Nat → List α → List α
  | _, [] => []
  | n + 1, _ :: s => eraseFrom marks n s
  | 0, c :: s =>
    match marks.find? (·.isPrefixOf (c :: s)) with
    | some m => eraseFrom marks (m.length - 1) s
    | none => c :: eraseFrom marks 0 s

/-- The text without the marks. -/
def erase (marks : List (List α)) (s : List α) : List α := eraseFrom marks 0 s

/-- Marks that begin with `lead`, none of which is the beginning of another. -/
structure Marks (lead : α) (marks : List (List α)) : Prop where
  led : ∀ m ∈ marks, m.head? = some lead
  unambiguous : ∀ m ∈ marks, ∀ m' ∈ marks, m <+: m' → m = m'

/-- `x` leaves `v`, whatever follows it. -/
def Erases (marks : List (List α)) (x v : List α) : Prop :=
  ∀ rest, erase marks (x ++ rest) = v ++ erase marks rest

variable {marks : List (List α)} {lead : α} {x y v w : List α}

theorem eraseFrom_drop (n : Nat) (s : List α) : eraseFrom marks n s = erase marks (s.drop n) := by
  induction s generalizing n with
  | nil => cases n <;> rfl
  | cons c s ih =>
    cases n with
    | zero => rfl
    | succ n => rw [eraseFrom, ih, List.drop_succ_cons]

theorem erases_nil : Erases marks [] [] := fun _ => rfl

theorem Erases.append (hx : Erases marks x v) (hy : Erases marks y w) : Erases marks (x ++ y) (v ++ w) := by
  intro rest
  rw [List.append_assoc, hx, hy, List.append_assoc]

theorem Erases.eq (h : Erases marks x v) : erase marks x = v := by
  have hnil := h []
  rwa [List.append_nil, show erase marks [] = [] from rfl, List.append_nil] at hnil

/-- A mark leaves nothing. -/
theorem erases_mark (hmarks : Marks lead marks) {m : List α} (hm : m ∈ marks) : Erases marks m [] := by
  intro rest
  have hlead := hmarks.led m hm
  cases m with
  | nil => cases hlead
  | cons c m =>
    have hfound : marks.find? (·.isPrefixOf ((c :: m) ++ rest)) = some (c :: m) := by
      cases hfind : marks.find? (·.isPrefixOf ((c :: m) ++ rest)) with
      | none =>
        have hnot := List.find?_eq_none.mp hfind _ hm
        exact absurd (List.isPrefixOf_iff_prefix.mpr (List.prefix_append _ _)) hnot
      | some m' =>
        have hm' : m' ∈ marks := List.mem_of_find?_eq_some hfind
        have htest : m'.isPrefixOf ((c :: m) ++ rest) = true  :=
          List.find?_some (p := fun m₀ => List.isPrefixOf m₀ ((c :: m) ++ rest)) hfind
        have hpre : m' <+: (c :: m) ++ rest := List.isPrefixOf_iff_prefix.mp htest
        rcases List.prefix_or_prefix_of_prefix hpre (List.prefix_append (c :: m) rest) with h | h
        · rw [hmarks.unambiguous m' hm' _ hm h]
        · rw [hmarks.unambiguous _ hm m' hm' h]
    rw [List.cons_append] at hfound ⊢
    rw [erase, eraseFrom, hfound]
    show eraseFrom marks m.length (m ++ rest) = _
    rw [eraseFrom_drop, List.drop_left, List.nil_append]

/-- A text without the leading symbol stays as it is. -/
theorem erases_plain (hmarks : Marks lead marks) (hx : lead ∉ x) : Erases marks x x := by
  intro rest
  induction x with
  | nil => rfl
  | cons c x ih =>
    have hc : c ≠ lead := by
      intro h
      exact hx (h ▸ List.mem_cons_self)
    have hnone : marks.find? (·.isPrefixOf (c :: (x ++ rest))) = none := by
      apply List.find?_eq_none.mpr
      intro m hm hpre
      have hlead := hmarks.led m hm
      cases m with
      | nil => cases hlead
      | cons c' m =>
        have hhead := (List.cons_prefix_cons.mp (List.isPrefixOf_iff_prefix.mp hpre)).1
        exact hc (hhead ▸ Option.some.inj hlead)
    rw [List.cons_append, erase, eraseFrom, hnone]
    exact congrArg (c :: ·) (ih fun h => hx (List.mem_cons_of_mem _ h))

end Thirdparty
