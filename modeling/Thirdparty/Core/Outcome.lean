import Mathlib.Order.Monotone.Basic

/-!
# `Core.Outcome` — programs that return, exit, or are still running

A recursive program is evaluated with a bound on the depth of its calls. It returns a value, it ends the process, or
the bound was too small; a higher bound gives the same result or a better one, which the order on outcomes says. A
program that is still running under every bound does not terminate.

## Contents
- `Outcome`, its monad, and `bind_eq_returned`, the inversion of a sequence.
- `Ensures`: what holds of the value if one is returned, with rules for sequences and loops.
- `Stops`: it is not running still, with the same rules.
- The order by which `running` is below everything; sequences and loops are monotone in it.
-/

namespace Thirdparty

universe u v

/-- How a program ends. -/
inductive Outcome (ε : Type u) (α : Type v) where
  /-- It returned a value. -/
  | returned (value : α)
  /-- It ended the process. -/
  | exited (how : ε)
  /-- It was still running at the bound. -/
  | running
  deriving DecidableEq

namespace Outcome

variable {ε : Type u} {α β : Type v}

/-- One program, and with its value the next. -/
def bind : Outcome ε α → (α → Outcome ε β) → Outcome ε β
  | returned a, f => f a
  | exited e, _ => exited e
  | running, _ => running

instance : Monad (Outcome ε) where
  pure := returned
  bind := bind

@[simp] theorem pure_eq (a : α) : (pure a : Outcome ε α) = returned a := rfl

@[simp] theorem returned_bind (a : α) (f : α → Outcome ε β) : returned a >>= f = f a := rfl

@[simp] theorem exited_bind (e : ε) (f : α → Outcome ε β) : exited e >>= f = exited e := rfl

@[simp] theorem running_bind (f : α → Outcome ε β) : running >>= f = running := rfl

instance : LawfulMonad (Outcome ε) :=
  LawfulMonad.mk' (Outcome ε) (fun x => by cases x <;> rfl) (fun _ _ => rfl) fun x _ _ => by cases x <;> rfl

/-- A sequence returns if both its parts do. -/
theorem bind_eq_returned {x : Outcome ε α} {f : α → Outcome ε β} {b : β} :
    x >>= f = returned b ↔ ∃ a, x = returned a ∧ f a = returned b := by
  cases x <;> simp

/-- A check that ends the program was passed. -/
theorem ite_exited_eq_returned {c : Prop} [Decidable c] {e : ε} {x : Outcome ε α} {a : α} :
    (if c then exited e else x) = returned a ↔ ¬ c ∧ x = returned a := by
  by_cases hc : c
  · simp [hc]
  · simp [hc]

/-! ## What holds of a returned value -/

/-- If a value is returned, it has the property. -/
def Ensures (x : Outcome ε α) (P : α → Prop) : Prop := ∀ a, x = returned a → P a

@[simp] theorem ensures_returned {a : α} {P : α → Prop} : Ensures (returned a : Outcome ε α) P ↔ P a := by
  constructor
  · intro h
    exact h a rfl
  · intro h b hb
    cases hb
    exact h

@[simp] theorem ensures_exited (e : ε) (P : α → Prop) : Ensures (exited e) P := by
  intro a h
  cases h

@[simp] theorem ensures_running (P : α → Prop) : Ensures (running : Outcome ε α) P := by
  intro a h
  cases h

theorem Ensures.mono {x : Outcome ε α} {P Q : α → Prop} (hx : Ensures x P) (h : ∀ a, P a → Q a) : Ensures x Q :=
  fun a ha => h a (hx a ha)

theorem Ensures.bind {x : Outcome ε α} {f : α → Outcome ε β} {P : α → Prop} {Q : β → Prop} (hx : Ensures x P)
    (hf : ∀ a, P a → Ensures (f a) Q) : Ensures (x >>= f) Q := by
  intro b hb
  obtain ⟨a, ha, hfa⟩ := bind_eq_returned.mp hb
  exact hf a (hx a ha) b hfa

/-- The second part is entered only with a value that the first one returned. -/
theorem ensures_bind {x : Outcome ε α} {f : α → Outcome ε β} {Q : β → Prop}
    (hf : ∀ a, x = returned a → Ensures (f a) Q) : Ensures (x >>= f) Q := by
  intro b hb
  obtain ⟨a, ha, hfa⟩ := bind_eq_returned.mp hb
  exact hf a ha b hfa

/-- Two sequences agree if they do on every value that the first part can return. -/
theorem Ensures.bind_congr {x : Outcome ε α} {f g : α → Outcome ε β} {P : α → Prop} (hx : Ensures x P)
    (hfg : ∀ a, P a → f a = g a) : x >>= f = x >>= g := by
  cases x with
  | returned a => exact hfg a (hx a rfl)
  | exited e => rfl
  | running => rfl

/-- **Loop rule.** What every round keeps holds at the end. -/
theorem Ensures.foldlM {ι : Type*} {f : α → ι → Outcome ε α} {P : α → Prop} {xs : List ι}
    (hf : ∀ a, P a → ∀ i ∈ xs, Ensures (f a i) P) {a : α} (ha : P a) : Ensures (xs.foldlM f a) P := by
  induction xs generalizing a with
  | nil => exact ensures_returned.mpr ha
  | cons i xs ih =>
    rw [List.foldlM_cons]
    refine Ensures.bind (hf a ha i List.mem_cons_self) ?_
    intro b hb
    exact ih (fun c hc j hj => hf c hc j (List.mem_cons_of_mem i hj)) hb

/-- Every round of a loop that returned was entered, and returned, between two others that keep the property. -/
theorem exists_round {ι : Type*} {f : α → ι → Outcome ε α} {P : α → Prop} {xs : List ι} {i : ι} {a b : α} (hi : i ∈ xs)
    (hrun : xs.foldlM f a = returned b) (ha : P a) (hf : ∀ a, P a → ∀ i ∈ xs, Ensures (f a i) P) :
    ∃ (c d : α) (ys : List ι), P c ∧ f c i = returned d ∧ P d ∧ ys.foldlM f d = returned b ∧ ∀ j ∈ ys, j ∈ xs := by
  induction xs generalizing a with
  | nil => exact absurd hi List.not_mem_nil
  | cons j xs ih =>
    rw [List.foldlM_cons] at hrun
    obtain ⟨c, hc, hrest⟩ := bind_eq_returned.mp hrun
    have hPc : P c := hf a ha j List.mem_cons_self c hc
    rcases List.mem_cons.mp hi with rfl | hi
    · exact ⟨a, c, xs, ha, hc, hPc, hrest, fun k hk => List.mem_cons_of_mem i hk⟩
    · obtain ⟨c', d, ys, hc', hd, hPd, hys, hsub⟩ :=
        ih hi hrest hPc fun e he k hk => hf e he k (List.mem_cons_of_mem j hk)
      exact ⟨c', d, ys, hc', hd, hPd, hys, fun k hk => List.mem_cons_of_mem j (hsub k hk)⟩

/-! ## Programs that stop -/

/-- It is not running still. -/
def Stops (x : Outcome ε α) : Prop := x ≠ running

@[simp] theorem stops_returned (a : α) : Stops (returned a : Outcome ε α) := by
  intro h
  cases h

@[simp] theorem stops_exited (e : ε) : Stops (exited e : Outcome ε α) := by
  intro h
  cases h

theorem Stops.bind {x : Outcome ε α} {f : α → Outcome ε β} (hx : Stops x)
    (hf : ∀ a, x = returned a → Stops (f a)) : Stops (x >>= f) := by
  cases x with
  | returned a => exact hf a rfl
  | exited e => exact stops_exited e
  | running => exact absurd rfl hx

/-- A loop stops if every round does. -/
theorem Stops.foldlM {ι : Type*} {f : α → ι → Outcome ε α} {P : α → Prop} {xs : List ι}
    (hf : ∀ a, P a → ∀ i ∈ xs, Stops (f a i) ∧ Ensures (f a i) P) {a : α} (ha : P a) : Stops (xs.foldlM f a) := by
  induction xs generalizing a with
  | nil => exact stops_returned a
  | cons i xs ih =>
    rw [List.foldlM_cons]
    have hi := hf a ha i List.mem_cons_self
    apply hi.1.bind
    intro b hb
    exact ih (fun c hc j hj => hf c hc j (List.mem_cons_of_mem i hj)) (hi.2 b hb)

/-! ## Programs that do not return -/

/-- No value is returned. -/
def Never (x : Outcome ε α) : Prop := Ensures x fun _ => False

theorem Never.bind {x : Outcome ε α} (hx : Never x) (f : α → Outcome ε β) : Never (x >>= f) :=
  Ensures.bind hx fun _ ha => ha.elim

/-- A loop does not return if a round that it comes to does not. -/
theorem never_foldlM {ι : Type*} {f : α → ι → Outcome ε α} {P : α → Prop} {xs : List ι} {i : ι} (hi : i ∈ xs)
    (hf : ∀ a, P a → ∀ j ∈ xs, Ensures (f a j) P) (hnever : ∀ a, P a → Never (f a i)) {a : α} (ha : P a) :
    Never (xs.foldlM f a) := by
  induction xs generalizing a with
  | nil => exact absurd hi List.not_mem_nil
  | cons j xs ih =>
    rw [List.foldlM_cons]
    rcases List.mem_cons.mp hi with rfl | hi
    · exact (hnever a ha).bind _
    · refine ensures_bind ?_
      intro b hb
      exact ih hi (fun c hc k hk => hf c hc k (List.mem_cons_of_mem j hk)) (hf a ha j List.mem_cons_self b hb)

/-! ## Higher bounds -/

/-- A better result: the same one, or any where the program was still running. -/
instance : PartialOrder (Outcome ε α) where
  le x y := x = running ∨ x = y
  le_refl x := Or.inr rfl
  le_trans x y z hxy hyz := by
    rcases hxy with rfl | rfl
    · exact Or.inl rfl
    · exact hyz
  le_antisymm x y hxy hyx := by
    rcases hxy with rfl | rfl
    · rcases hyx with rfl | rfl <;> rfl
    · rfl

theorem running_le (x : Outcome ε α) : running ≤ x := Or.inl rfl

/-- A result is final. -/
theorem Stops.eq_of_le {x y : Outcome ε α} (hx : Stops x) (h : x ≤ y) : y = x :=
  (h.resolve_left hx).symm

theorem bind_le_bind {x y : Outcome ε α} {f g : α → Outcome ε β} (hxy : x ≤ y) (hfg : ∀ a, f a ≤ g a) :
    x >>= f ≤ y >>= g := by
  rcases hxy with rfl | rfl
  · exact running_le _
  · cases x with
    | returned a => exact hfg a
    | exited e => exact le_refl _
    | running => exact le_refl _

theorem foldlM_le_foldlM {ι : Type*} {f g : α → ι → Outcome ε α} (hfg : ∀ a i, f a i ≤ g a i) (xs : List ι) (a : α) :
    xs.foldlM f a ≤ xs.foldlM g a := by
  induction xs generalizing a with
  | nil => exact le_refl _
  | cons i xs ih =>
    rw [List.foldlM_cons, List.foldlM_cons]
    exact bind_le_bind (hfg a i) ih

/-- What stops under a bound has the same result under every higher one. -/
theorem eq_of_stops {run : Nat → Outcome ε α} (hrun : Monotone run) {m n : Nat} (hm : Stops (run m)) (h : m ≤ n) :
    run n = run m :=
  hm.eq_of_le (hrun h)

/-- What holds of each of finitely many things from some bound on holds of all from some bound on. -/
theorem exists_bound {ι : Type*} {P : Nat → ι → Prop} (hmono : ∀ i m n, m ≤ n → P m i → P n i) {xs : List ι}
    (h : ∀ i ∈ xs, ∃ n, P n i) : ∃ n, ∀ i ∈ xs, P n i := by
  induction xs with
  | nil => exact ⟨0, fun i hi => absurd hi List.not_mem_nil⟩
  | cons j xs ih =>
    obtain ⟨m, hm⟩ := h j List.mem_cons_self
    obtain ⟨n, hn⟩ := ih fun i hi => h i (List.mem_cons_of_mem j hi)
    refine ⟨max m n, ?_⟩
    intro i hi
    rcases List.mem_cons.mp hi with rfl | hi
    · exact hmono i m _ (le_max_left m n) hm
    · exact hmono i n _ (le_max_right m n) (hn i hi)

end Outcome

end Thirdparty
