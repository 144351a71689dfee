import Mathlib.Data.List.Infix

/-!
# `Core.Glob` — patterns with wildcards

A pattern is a list of glyphs: a symbol stands for itself, one wildcard for one symbol, the other for any number of
them. `Matches` is the meaning of a pattern; the lemmas take it apart from the left, which is how a matcher reads it.

## Contents
- `Glyph`, `Matches`.
- `matches_*_iff`: inversion, one lemma for each glyph.
- `matches_many_iff`, `matches_some`: what the wildcard stands for.
-/

namespace Thirdparty

universe u

/-- One place of a pattern. -/
inductive Glyph (α : Type u) where
  /-- The symbol itself. -/
  | sym (a : α)
  /-- Any one symbol. -/
  | one
  /-- Any number of symbols. -/
  | many
  deriving DecidableEq

namespace Glyph

variable {α : Type u}

/-- The string is one that the pattern stands for. -/
inductive Matches : List (Glyph α) → List α → Prop where
  | nil : Matches [] []
  | sym (a : α) {g : List (Glyph α)} {s : List α} : Matches g s → Matches (.sym a :: g) (a :: s)
  | one (a : α) {g : List (Glyph α)} {s : List α} : Matches g s → Matches (.one :: g) (a :: s)
  | many (t : List α) {g : List (Glyph α)} {s : List α} : Matches g s → Matches (.many :: g) (t ++ s)

variable {a b : α} {g h : List (Glyph α)} {s : List α}

@[simp] theorem matches_nil_iff : Matches [] s ↔ s = [] := by
  constructor
  · intro hs
    cases hs
    rfl
  · rintro rfl
    exact Matches.nil

@[simp] theorem not_matches_sym_nil : ¬ Matches (.sym a :: g) [] := by
  intro hs
  cases hs

@[simp] theorem not_matches_one_nil : ¬ Matches (.one :: g) [] := by
  intro hs
  cases hs

@[simp] theorem matches_sym_cons_iff : Matches (.sym a :: g) (b :: s) ↔ a = b ∧ Matches g s := by
  constructor
  · intro hs
    cases hs with
    | sym _ hs => exact ⟨rfl, hs⟩
  · rintro ⟨rfl, hs⟩
    exact Matches.sym a hs

@[simp] theorem matches_one_cons_iff : Matches (.one :: g) (b :: s) ↔ Matches g s := by
  constructor
  · intro hs
    cases hs with
    | one _ hs => exact hs
  · exact Matches.one b

/-- The rest of the pattern matches a suffix. -/
theorem matches_many_iff : Matches (.many :: g) s ↔ ∃ t, t <:+ s ∧ Matches g t := by
  constructor
  · generalize hp : (.many :: g : List (Glyph α)) = p
    intro hs
    cases hs with
    | nil => cases hp
    | sym _ _ => cases hp
    | one _ _ => cases hp
    | many t hs =>
      cases hp
      exact ⟨_, List.suffix_append t _, hs⟩
  · rintro ⟨t, ⟨front, rfl⟩, ht⟩
    exact Matches.many front ht

@[simp] theorem matches_many_nil_iff : Matches (.many :: g) [] ↔ Matches g [] := by
  rw [matches_many_iff]
  constructor
  · rintro ⟨t, ht, hg⟩
    rw [List.suffix_nil.mp ht] at hg
    exact hg
  · intro hg
    exact ⟨[], List.suffix_refl [], hg⟩

/-- The wildcard alone matches everything. -/
@[simp] theorem matches_many (s : List α) : Matches [.many] s :=
  matches_many_iff.mpr ⟨[], List.nil_suffix, Matches.nil⟩

/-- One symbol or more. -/
@[simp] theorem matches_some : Matches [.one, .many] s ↔ s ≠ [] := by
  cases s with
  | nil => simp
  | cons b s => simp

end Glyph

end Thirdparty
