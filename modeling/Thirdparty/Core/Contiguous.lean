import Thirdparty.Core.Trace

/-!
# `Core.Contiguous` — elements of a list that stand together

`Contiguous p l`: the elements of `l` that meet `p` form one segment.

## Contents
- `Contiguous.take` / `Contiguous.flatMap`: it passes to prefixes, and to the pieces that elements expand to.
- `not_contiguous`: an element between two others.
- `flatMap_eq_append_cons`: which piece an element of all the pieces is in.
-/

namespace Thirdparty

/-- The elements that meet `p` are next to each other. -/
def Contiguous {α : Type*} (p : α → Prop) (l : List α) : Prop :=
  ∃ pre blk post, l = pre ++ blk ++ post ∧ (∀ x ∈ pre, ¬ p x) ∧ (∀ x ∈ blk, p x) ∧ ∀ x ∈ post, ¬ p x

variable {α β : Type*} {p : α → Prop} {l : List α}

theorem contiguous_of_forall_not (h : ∀ x ∈ l, ¬ p x) : Contiguous p l :=
  ⟨l, [], [], by simp, h, nofun, nofun⟩

theorem Contiguous.take (h : Contiguous p l) (n : Nat) : Contiguous p (l.take n) := by
  obtain ⟨pre, blk, post, rfl, hpre, hblk, hpost⟩ := h
  refine ⟨pre.take n, blk.take (n - pre.length), post.take (n - (pre ++ blk).length), ?_, ?_, ?_, ?_⟩
  · rw [List.take_append, List.take_append]
  · intro x hx
    exact hpre x (List.mem_of_mem_take hx)
  · intro x hx
    exact hblk x (List.mem_of_mem_take hx)
  · intro x hx
    exact hpost x (List.mem_of_mem_take hx)

theorem Contiguous.prefix_of {l' : List α} (h : Contiguous p l) (hl : l' <+: l) : Contiguous p l' := by
  rw [List.prefix_iff_eq_take.mp hl]
  exact h.take _

/-- Every element is replaced by pieces that meet `q` when it meets `p`. -/
theorem Contiguous.flatMap {q : β → Prop} {f : α → List β} (h : Contiguous p l)
    (hf : ∀ x, ∀ y ∈ f x, q y ↔ p x) : Contiguous q (l.flatMap f) := by
  obtain ⟨pre, blk, post, rfl, hpre, hblk, hpost⟩ := h
  have hnot : ∀ part : List α, (∀ x ∈ part, ¬ p x) → ∀ y ∈ part.flatMap f, ¬ q y := by
    intro part hpart y hy
    obtain ⟨x, hx, hyx⟩ := List.mem_flatMap.mp hy
    intro hq
    exact hpart x hx ((hf x y hyx).mp hq)
  refine ⟨pre.flatMap f, blk.flatMap f, post.flatMap f, by simp, hnot pre hpre, ?_, hnot post hpost⟩
  intro y hy
  obtain ⟨x, hx, hyx⟩ := List.mem_flatMap.mp hy
  exact (hf x y hyx).mpr (hblk x hx)

/-- An element that does not meet `p`, between two that do. -/
theorem not_contiguous {a b c d : List α} {x y z : α} (hx : p x) (hy : ¬ p y) (hz : p z) :
    ¬ Contiguous p ((a ++ x :: b) ++ y :: (c ++ z :: d)) := by
  rintro ⟨pre, blk, post, hl, hpre, hblk, hpost⟩
  have hsplit : pre ++ (blk ++ post) = (a ++ x :: b) ++ y :: (c ++ z :: d) := by
    rw [← List.append_assoc, hl]
  rcases Trace.append_eq_append_cons hsplit with ⟨mid, hmid⟩ | ⟨mid, -, hrest⟩
  · exact hpre x (by simp [hmid]) hx
  · rcases Trace.append_eq_append_cons hrest with ⟨mid', hmid'⟩ | ⟨mid', -, hpost'⟩
    · exact hy (hblk y (by simp [hmid']))
    · exact hpost z (by simp [hpost']) hz

/-- An element of the pieces together stands in one of them, behind whole pieces and the beginning of its own. -/
theorem flatMap_eq_append_cons {f : α → List β} {xs : List α} {pre post : List β} {y : β}
    (h : xs.flatMap f = pre ++ y :: post) :
    ∃ before x after own rest, xs = before ++ x :: after ∧ pre = before.flatMap f ++ own ∧ f x = own ++ y :: rest := by
  induction xs generalizing pre with
  | nil =>
    rw [List.flatMap_nil] at h
    exact absurd h.symm (List.append_ne_nil_of_right_ne_nil _ (List.cons_ne_nil _ _))
  | cons x xs ih =>
    rw [List.flatMap_cons] at h
    rcases Trace.append_eq_append_cons h with ⟨mid, hmid⟩ | ⟨mid, rfl, hrest⟩
    · exact ⟨[], x, xs, pre, mid, rfl, rfl, hmid⟩
    · obtain ⟨before, x', after, own, rest, rfl, rfl, hpiece⟩ := ih hrest
      exact ⟨x :: before, x', after, own, rest, rfl, by rw [List.flatMap_cons, List.append_assoc], hpiece⟩

end Thirdparty
