import Thirdparty.Gflags.Reporting

/-!
# `Gflags.Cells` — a text with escape sequences in it

The text that `DescribeOneFlag` wraps is a list of cells: characters, some with an escape sequence in front of them.
The loop sees all bytes, or only the characters when colour is off. No byte of an escape sequence is white space, so
whatever the loop does at white space it does at a cell.

## Contents
- `Cell`, `chars`, `bytes`, `col`: the text as the loop sees it, and the column of a cell.
- `bytes_split`: white space among the bytes is the character of a cell.
- `skip`, `EndsDark`: what is left behind white space.
-/

namespace Thirdparty.Gflags

/-! ## Cells -/

/-- A character, and what stands in front of it: an escape sequence, which has no white space, or nothing. -/
structure Cell where
  mark : Bytes
  char : Byte
  mark_space : NoSpace mark

/-- A character with nothing in front of it. -/
def Cell.plain (c : Byte) : Cell := ⟨[], c, List.forall_mem_nil _⟩

/-- The escape sequence as far as it is printed. -/
def Cell.shown (colour : Bool) (x : Cell) : Bytes := if colour then x.mark else []

/-- The characters of a text. -/
def chars (X : List Cell) : Bytes := X.map Cell.char

/-- The bytes of a text. -/
def bytes (colour : Bool) (X : List Cell) : Bytes := X.flatMap fun x => x.shown colour ++ [x.char]

/-- The column of the character of `x` behind `P`, counted from the beginning of `P`. -/
def col (colour : Bool) (P : List Cell) (x : Cell) : Nat := (bytes colour P).length + (x.shown colour).length

section Cells

variable {colour : Bool} {X P Q P' Q' : List Cell} {x x' : Cell}

@[simp] theorem shown_false (x : Cell) : x.shown false = [] := rfl

@[simp] theorem shown_true (x : Cell) : x.shown true = x.mark := rfl

@[simp] theorem chars_append : chars (P ++ Q) = chars P ++ chars Q := List.map_append

@[simp] theorem chars_cons : chars (x :: X) = x.char :: chars X := rfl

theorem bytes_append : bytes colour (P ++ Q) = bytes colour P ++ bytes colour Q := List.flatMap_append

theorem bytes_cons : bytes colour (x :: X) = x.shown colour ++ x.char :: bytes colour X := by
  rw [bytes, List.flatMap_cons, List.append_assoc]
  rfl

theorem bytes_false (X : List Cell) : bytes false X = chars X := by
  induction X with
  | nil => rfl
  | cons x X ih => rw [bytes_cons, ih]; rfl

theorem shown_space (colour : Bool) (x : Cell) : NoSpace (x.shown colour) := by
  cases colour with
  | false => exact List.forall_mem_nil _
  | true => exact x.mark_space

theorem char_mem_bytes (h : x ∈ X) : x.char ∈ bytes colour X :=
  List.mem_flatMap.mpr ⟨x, h, List.mem_append_right _ List.mem_cons_self⟩

/-- The characters are among the bytes. -/
theorem mem_bytes_of_mem_chars {b : Byte} (h : b ∈ chars X) : b ∈ bytes colour X := by
  obtain ⟨x, hx, rfl⟩ := List.mem_map.mp h
  exact char_mem_bytes hx

/-- A byte that is white space is a character of the text. -/
theorem bytes_split {p r : Bytes} {s : Byte} (h : bytes colour X = p ++ s :: r) (hs : isspace s = true) :
    ∃ P x Q, X = P ++ x :: Q ∧ x.char = s ∧ p = bytes colour P ++ x.shown colour ∧ r = bytes colour Q := by
  induction X generalizing p with
  | nil => exact absurd h.symm (List.append_ne_nil_of_right_ne_nil _ (List.cons_ne_nil _ _))
  | cons x X ih =>
    rw [bytes_cons] at h
    rcases Trace.append_eq_append_cons h with ⟨mid, hmid⟩ | ⟨mid, rfl, hrest⟩
    · have hmark := shown_space colour x s (hmid ▸ List.mem_append_right _ List.mem_cons_self)
      rw [hs] at hmark
      cases hmark
    · cases mid with
      | nil =>
        cases hrest
        exact ⟨[], x, X, rfl, rfl, List.append_nil _, rfl⟩
      | cons b mid =>
        rw [List.cons_append, List.cons.injEq] at hrest
        obtain ⟨rfl, hrest⟩ := hrest
        obtain ⟨P, y, Q, rfl, hy, rfl, hr⟩ := ih hrest
        refine ⟨x :: P, y, Q, rfl, hy, ?_, hr⟩
        rw [bytes_cons, List.append_assoc, List.cons_append]

theorem bytes_cell (P : List Cell) (x : Cell) (Q : List Cell) :
    bytes colour (P ++ x :: Q) = (bytes colour P ++ x.shown colour) ++ x.char :: bytes colour Q := by
  rw [bytes_append, bytes_cons, List.append_assoc]

theorem length_shown_append (P : List Cell) (x : Cell) :
    (bytes colour P ++ x.shown colour).length = col colour P x := List.length_append

theorem length_chars (X : List Cell) : (chars X).length = X.length := List.length_map _

/-- The character of a cell, by its index. -/
theorem getElem?_cell (P : List Cell) (x : Cell) (Q : List Cell) :
    (chars (P ++ x :: Q))[P.length]? = some x.char := by
  rw [chars_append, ← length_chars P, List.getElem?_append_right (Nat.le_refl _), Nat.sub_self]
  rfl

/-- Of two cells of a text, one comes first. -/
theorem exists_of_length_lt (h : P ++ x :: Q = P' ++ x' :: Q') (hlt : P.length < P'.length) :
    ∃ M, P' = P ++ x :: M := by
  rcases Trace.append_eq_append_cons h.symm with hmid | ⟨mid, hP, -⟩
  · exact hmid
  · rw [hP, List.length_append] at hlt
    omega

theorem col_lt_of_length_lt (colour : Bool) (h : P ++ x :: Q = P' ++ x' :: Q') (hlt : P.length < P'.length) :
    col colour P x < col colour P' x' := by
  obtain ⟨M, rfl⟩ := exists_of_length_lt h hlt
  rw [col, col, bytes_cell, List.length_append, List.length_append, List.length_cons]
  omega

theorem eq_of_length_eq (h : P ++ x :: Q = P' ++ x' :: Q') (hlen : P.length = P'.length) :
    P = P' ∧ x = x' ∧ Q = Q' := by
  obtain ⟨hP, hrest⟩ := List.append_inj h hlen
  exact ⟨hP, (List.cons.injEq _ _ _ _ ▸ hrest).1, (List.cons.injEq _ _ _ _ ▸ hrest).2⟩

/-- Escape sequences only make a text longer. -/
theorem length_le_bytes (colour : Bool) (X : List Cell) : X.length ≤ (bytes colour X).length := by
  induction X with
  | nil => exact Nat.le_refl _
  | cons x X ih =>
    rw [bytes_cons, List.length_append, List.length_cons, List.length_cons]
    omega

theorem length_le_col (colour : Bool) (P : List Cell) (x : Cell) : P.length ≤ col colour P x :=
  Nat.le_trans (length_le_bytes colour P) (Nat.le_add_right _ _)

@[simp] theorem col_false (P : List Cell) (x : Cell) : col false P x = P.length := by
  rw [col, bytes_false, chars, List.length_map]
  rfl

end Cells

/-! ## Skipping white space -/

/-- The cells from the first one on that is no white space, or has an escape sequence in front of it. -/
def skip (colour : Bool) (X : List Cell) : List Cell :=
  X.dropWhile fun x => isspace x.char && (x.shown colour).isEmpty

theorem bytes_skip (colour : Bool) (X : List Cell) :
    (bytes colour X).dropWhile isspace = bytes colour (skip colour X) := by
  induction X with
  | nil => rfl
  | cons x X ih =>
    rw [skip, List.dropWhile_cons, bytes_cons]
    cases hmark : x.shown colour with
    | nil =>
      cases hspace : isspace x.char with
      | true => simpa [hspace, skip] using ih
      | false => simp [hspace, bytes_cons, hmark]
    | cons b mark =>
      have hb : isspace b = false := shown_space colour x b (by rw [hmark]; exact List.mem_cons_self)
      simp [hb, bytes_cons, hmark]

/-- The last character is no white space. -/
def EndsDark (X : List Cell) : Prop := ∃ Y y, X = Y ++ [y] ∧ isspace y.char = false

/-- What follows white space is not empty, and ends as the text does. -/
theorem EndsDark.of_space {P Q : List Cell} {x : Cell} (h : EndsDark (P ++ x :: Q)) (hx : isspace x.char = true) :
    EndsDark Q := by
  obtain ⟨Y, y, hY, hy⟩ := h
  rcases List.eq_nil_or_concat Q with rfl | ⟨Q', y', rfl⟩
  · have hlast := (List.append_inj' hY rfl).2
    cases hlast
    rw [hx] at hy
    cases hy
  · rw [List.concat_eq_append, ← List.cons_append, ← List.append_assoc] at hY
    have hlast := (List.append_inj' hY rfl).2
    cases hlast
    exact ⟨Q', _, List.concat_eq_append, hy⟩

theorem EndsDark.ne_nil {X : List Cell} (h : EndsDark X) : X ≠ [] := by
  obtain ⟨Y, y, rfl, -⟩ := h
  exact List.append_ne_nil_of_right_ne_nil _ (List.cons_ne_nil _ _)

theorem EndsDark.skip {X : List Cell} (h : EndsDark X) (colour : Bool) : EndsDark (skip colour X) := by
  induction X with
  | nil => exact absurd rfl h.ne_nil
  | cons x X ih =>
    rw [Gflags.skip, List.dropWhile_cons]
    split
    · rename_i hx
      exact ih (EndsDark.of_space (P := []) h (Bool.and_eq_true_iff.mp hx).1)
    · exact h

end Thirdparty.Gflags
