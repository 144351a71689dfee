import Thirdparty.Gflags.Lines

/-!
# `Gflags.Wraps` — the wrapped text

`Wraps colour c X O c'` says that the text `X`, begun in column `c`, is wrapped to `O`, whose last line ends in column
`c'`: line after line ends where `EndsLine` says. The loop of `DescribeOneFlag` computes it; every round takes at
least one character off the text, so the fuel that `describeOneFlag` has is enough.

Wrapping changes nothing but white space, so of two wrapped texts that agree as far as the shorter one goes, each
character that is no white space is at the same place.

## Contents
- `Wraps`, with an inversion lemma for each way the first line can end; `wrapLoop_wraps`.
- `Wraps.begins`: how a wrapped text begins.
- `Wraps.same_dark`, `Wraps.endsDark`: the characters that are no white space; `eq_of_dark`.
- `Clean`: a text whose marks can be told from its characters; `erases_bytes`, `Wraps.clean`.
-/

namespace Thirdparty.Gflags

variable {colour : Bool} {c c' : Nat} {X O : List Cell}

/-- **The wrapped text**, and the column it ends in. -/
inductive Wraps (colour : Bool) : Nat → List Cell → List Cell → Nat → Prop where
  | whole {c : Nat} {X : List Cell} (h : EndsLine colour c X .whole) :
      Wraps colour c X X (c + (bytes colour X).length)
  | atNewline {c c' : Nat} {X P Q O : List Cell} {x : Cell} (h : EndsLine colour c X (.atNewline P x Q))
      (hQ : Wraps colour 6 Q O c') : Wraps colour c X (P ++ lineBreak x ++ O) c'
  | atSpace {c c' : Nat} {X P Q O : List Cell} {x : Cell} (h : EndsLine colour c X (.atSpace P x Q))
      (hQ : Wraps colour 6 (skip colour Q) O c') : Wraps colour c X (P ++ lineBreak x ++ O) c'
  | rest {c : Nat} {X : List Cell} (h : EndsLine colour c X .rest) : Wraps colour c X X kLineLength

/-! ## What a line end says about the text -/

theorem EndsLine.of_newline {P Q : List Cell} {x : Cell} (h : EndsLine colour c X (.atNewline P x Q)) :
    X = P ++ x :: Q ∧ x.char = newline ∧ newline ∉ chars P ∧ c + col colour P x < kLineLength := by
  cases h with
  | atNewline hX hx hP hcol => exact ⟨hX, hx, hP, hcol⟩

theorem EndsLine.of_space {P Q : List Cell} {x : Cell} (h : EndsLine colour c X (.atSpace P x Q)) :
    X = P ++ x :: Q ∧ isspace x.char = true ∧ c + col colour P x < kLineLength := by
  cases h with
  | atSpace hX hx _ hcol => exact ⟨hX, hx, hcol⟩

/-- A line that ends at white space holds no newline. -/
theorem EndsLine.char_ne_newline {P Q : List Cell} {x : Cell} (h : EndsLine colour c X (.atSpace P x Q)) :
    x.char ≠ newline := by
  cases h with
  | atSpace hX hx _ hcol hlast => exact (hlast _ _ _ hX hx hcol).1

/-! ## What the end of the first line says about the wrapped text -/

theorem Wraps.of_whole {k : Nat} (h : Wraps colour c X O k) (he : EndsLine colour c X .whole) :
    O = X ∧ k = c + (bytes colour X).length := by
  cases h with
  | whole => exact ⟨rfl, rfl⟩
  | atNewline he' => cases he.unique he'
  | atSpace he' => cases he.unique he'
  | rest he' => cases he.unique he'

theorem Wraps.of_newline {k : Nat} {P Q : List Cell} {x : Cell} (h : Wraps colour c X O k)
    (he : EndsLine colour c X (.atNewline P x Q)) : ∃ O', Wraps colour 6 Q O' k ∧ O = P ++ lineBreak x ++ O' := by
  cases h with
  | whole he' => cases he.unique he'
  | atNewline he' hQ =>
    cases he.unique he'
    exact ⟨_, hQ, rfl⟩
  | atSpace he' => cases he.unique he'
  | rest he' => cases he.unique he'

theorem Wraps.of_space {k : Nat} {P Q : List Cell} {x : Cell} (h : Wraps colour c X O k)
    (he : EndsLine colour c X (.atSpace P x Q)) :
    ∃ O', Wraps colour 6 (skip colour Q) O' k ∧ O = P ++ lineBreak x ++ O' := by
  cases h with
  | whole he' => cases he.unique he'
  | atNewline he' => cases he.unique he'
  | atSpace he' hQ =>
    cases he.unique he'
    exact ⟨_, hQ, rfl⟩
  | rest he' => cases he.unique he'

theorem Wraps.of_rest {k : Nat} (h : Wraps colour c X O k) (he : EndsLine colour c X .rest) :
    O = X ∧ k = kLineLength := by
  cases h with
  | whole he' => cases he.unique he'
  | atNewline he' => cases he.unique he'
  | atSpace he' => cases he.unique he'
  | rest => exact ⟨rfl, rfl⟩

theorem length_skip_le (colour : Bool) (X : List Cell) : (skip colour X).length ≤ X.length :=
  List.length_dropWhile_le _ _

/-! ## The loop -/

/-- **The loop wraps the text**: with more fuel than characters it runs to its end. -/
theorem wrapLoop_wraps {fuel : Nat} (hdark : EndsDark X) (hc : c < kLineLength) (hfuel : X.length < fuel)
    (finalString : Bytes) :
    ∃ O c', Wraps colour c X O c' ∧
      wrapLoop fuel (stateOn colour X finalString c) = (finalString ++ bytes colour O, c') := by
  induction fuel generalizing X c finalString with
  | zero => exact absurd hfuel (Nat.not_lt_zero _)
  | succ fuel ih =>
    obtain ⟨e, he, hstep⟩ := wrapStep_spec finalString hdark hc
    rw [wrapLoop, hstep]
    cases e with
    | whole => exact ⟨X, _, .whole he, rfl⟩
    | rest => exact ⟨X, _, .rest he, rfl⟩
    | atNewline P x Q =>
      -- `x` itself is gone from what is left, so the fuel lasts
      obtain ⟨rfl, hx, -, -⟩ := he.of_newline
      rw [List.length_append, List.length_cons] at hfuel
      obtain ⟨O, c', hO, hloop⟩ := ih (hdark.of_space (isspace_of_newline hx)) (show 6 < kLineLength by decide)
        (by omega) (finalString ++ bytes colour (P ++ lineBreak x))
      refine ⟨P ++ lineBreak x ++ O, c', .atNewline he hO, ?_⟩
      show wrapLoop fuel _ = _
      rw [hloop, bytes_append (P := P ++ lineBreak x), List.append_assoc]
    | atSpace P x Q =>
      obtain ⟨rfl, hx, -⟩ := he.of_space
      rw [List.length_append, List.length_cons] at hfuel
      have hlen := length_skip_le colour Q
      obtain ⟨O, c', hO, hloop⟩ := ih ((hdark.of_space hx).skip colour) (show 6 < kLineLength by decide)
        (by omega) (finalString ++ bytes colour (P ++ lineBreak x))
      refine ⟨P ++ lineBreak x ++ O, c', .atSpace he hO, ?_⟩
      show wrapLoop fuel _ = _
      rw [hloop, bytes_append (P := P ++ lineBreak x), List.append_assoc]

/-! ## How it begins -/

/-- `y` is `x`, or a newline in place of white space. -/
def Begins (x : Byte) (s : Bytes) : Prop := ∃ y s', s = y :: s' ∧ (y = x ∨ y = newline ∧ isspace x = true)

theorem begins_of_break {P Q O : List Cell} {x x₀ : Cell} {X' : List Cell} (hX : x₀ :: X' = P ++ x :: Q)
    (hx : isspace x.char = true) : Begins x₀.char (chars (P ++ lineBreak x ++ O)) := by
  cases P with
  | nil =>
    cases hX
    exact ⟨newline, _, rfl, .inr ⟨rfl, hx⟩⟩
  | cons p P =>
    cases hX
    exact ⟨x₀.char, _, rfl, .inl rfl⟩

/-- The wrapped text begins with the first character of the text, or with a newline for it. -/
theorem Wraps.begins {x₀ : Cell} {X' : List Cell} (h : Wraps colour c (x₀ :: X') O c') :
    Begins x₀.char (chars O) := by
  cases h with
  | whole => exact ⟨_, _, rfl, .inl rfl⟩
  | atNewline h => exact begins_of_break h.of_newline.1 (isspace_of_newline h.of_newline.2.1)
  | atSpace h => exact begins_of_break h.of_space.1 h.of_space.2.1
  | rest => exact ⟨_, _, rfl, .inl rfl⟩

/-! ## What is no white space -/

/-- The characters that are no white space. -/
def dark (s : Bytes) : Bytes := s.filter fun b => !isspace b

theorem dark_append (s s' : Bytes) : dark (s ++ s') = dark s ++ dark s' := List.filter_append _ _

theorem dark_newLine : dark newLine = [] := by decide

theorem dark_chars_skip (colour : Bool) (X : List Cell) : dark (chars (skip colour X)) = dark (chars X) := by
  induction X with
  | nil => rfl
  | cons x X ih =>
    rw [skip, List.dropWhile_cons]
    split
    · rename_i hx
      have hspace : isspace x.char = true := (Bool.and_eq_true_iff.mp hx).1
      rw [← skip, ih, chars_cons, dark, dark, List.filter_cons_of_neg (by rw [hspace]; decide)]
    · rfl

theorem dark_cell {P Q : List Cell} {x : Cell} (hx : isspace x.char = true) :
    dark (chars (P ++ x :: Q)) = dark (chars P) ++ dark (chars Q) := by
  rw [chars_append, chars_cons, dark_append, dark, dark, dark, List.filter_cons_of_neg (by rw [hx]; decide)]

theorem dark_lineBreak (P : List Cell) (x : Cell) (O : List Cell) :
    dark (chars (P ++ lineBreak x ++ O)) = dark (chars P) ++ dark (chars O) := by
  rw [chars_append, chars_append, chars_lineBreak, dark_append, dark_append, dark_newLine, List.append_nil]

/-- **Wrapping changes nothing but white space.** -/
theorem Wraps.same_dark (h : Wraps colour c X O c') : dark (chars O) = dark (chars X) := by
  induction h with
  | whole => rfl
  | rest => rfl
  | atNewline h _ ih =>
    obtain ⟨rfl, hx, -, -⟩ := h.of_newline
    rw [dark_lineBreak, dark_cell (isspace_of_newline hx), ih]
  | atSpace h _ ih =>
    obtain ⟨rfl, hx, -⟩ := h.of_space
    rw [dark_lineBreak, dark_cell hx, ih, dark_chars_skip]

theorem EndsDark.append {P : List Cell} (h : EndsDark X) : EndsDark (P ++ X) := by
  obtain ⟨Y, y, rfl, hy⟩ := h
  exact ⟨P ++ Y, y, (List.append_assoc _ _ _).symm, hy⟩

theorem Wraps.endsDark (h : Wraps colour c X O c') (hdark : EndsDark X) : EndsDark O := by
  induction h with
  | whole => exact hdark
  | rest => exact hdark
  | atNewline h _ ih =>
    obtain ⟨rfl, hx, -, -⟩ := h.of_newline
    exact (ih (hdark.of_space (isspace_of_newline hx))).append
  | atSpace h _ ih =>
    obtain ⟨rfl, hx, -⟩ := h.of_space
    exact (ih ((hdark.of_space hx).skip colour)).append

/-- A text that ends dark has no dark character less than itself up to there. -/
theorem eq_nil_of_dark {p m : Bytes} {Y : List Cell} (hY : EndsDark Y) (h : chars Y = p ++ m)
    (hdark : dark (chars Y) = dark p) : m = [] := by
  rcases List.eq_nil_or_concat m with rfl | ⟨m', b, rfl⟩
  · rfl
  · -- the last character of `m` is the dark one that the text ends in, and `p` has no place for it
    obtain ⟨Y', y, rfl, hy⟩ := hY
    rw [chars_append, List.concat_eq_append, ← List.append_assoc] at h
    obtain ⟨rfl⟩ : y.char = b := (List.cons.injEq _ _ _ _ ▸ (List.append_inj' h rfl).2).1
    rw [chars_append, h, dark_append, dark_append] at hdark
    have hlen := congrArg List.length hdark
    have hone : dark [y.char] = [y.char] := List.filter_cons_of_pos (by rw [hy]; rfl)
    rw [hone, List.length_append, List.length_append, List.length_singleton] at hlen
    omega

/-- Texts with the same dark characters, each ending in one, are equal if they agree as far as the shorter one
    goes. -/
theorem eq_of_dark {Y Z : List Cell} {u v : Bytes} (h : chars Y ++ u = chars Z ++ v) (hY : EndsDark Y)
    (hZ : EndsDark Z) (hdark : dark (chars Y) = dark (chars Z)) : chars Y = chars Z := by
  rcases List.append_eq_append_iff.mp h with ⟨m, hm, -⟩ | ⟨m, hm, -⟩
  · rw [hm, eq_nil_of_dark hZ hm hdark.symm, List.append_nil]
  · rw [hm, eq_nil_of_dark hY hm hdark, List.append_nil]

/-! ## Marks and characters -/

/-- The marks are those of `marks`, and no character is the one they begin with. -/
def Clean (lead : Byte) (marks : List Bytes) (X : List Cell) : Prop :=
  ∀ x ∈ X, (x.mark = [] ∨ x.mark ∈ marks) ∧ x.char ≠ lead

variable {lead : Byte} {marks : List Bytes}

/-- Without its marks, the text is its characters. -/
theorem erases_bytes (hmarks : Marks lead marks) (h : Clean lead marks X) :
    Erases marks (bytes true X) (chars X) := by
  induction X with
  | nil => exact erases_nil
  | cons x X ih =>
    obtain ⟨hmark, hchar⟩ := h x List.mem_cons_self
    have hrest : Erases marks (bytes true X) (chars X) := ih fun y hy => h y (List.mem_cons_of_mem _ hy)
    have hx : Erases marks [x.char] [x.char] :=
      erases_plain hmarks fun hmem => hchar (List.mem_singleton.mp hmem).symm
    have hmark' : Erases marks x.mark [] := by
      rcases hmark with hnil | hmem
      · rw [hnil]
        exact erases_nil
      · exact erases_mark hmarks hmem
    rw [bytes_cons]
    exact hmark'.append (hx.append hrest)

theorem clean_lineBreak {x : Cell} (h : x.mark = [] ∨ x.mark ∈ marks) (hlead : isspace lead = false) :
    Clean lead marks (lineBreak x) := by
  intro y hy
  rcases List.mem_cons.mp hy with rfl | hy
  · exact ⟨h, fun h => by rw [← h] at hlead; cases hlead⟩
  · rw [List.eq_of_mem_replicate hy]
    exact ⟨.inl rfl, fun h => by rw [← h] at hlead; cases hlead⟩

theorem Clean.lineBreak_append {P Q O : List Cell} {x : Cell} (hlead : isspace lead = false)
    (h : Clean lead marks (P ++ x :: Q)) (hO : Clean lead marks O) : Clean lead marks (P ++ lineBreak x ++ O) := by
  intro y hy
  rcases List.mem_append.mp hy with hy | hy
  · rcases List.mem_append.mp hy with hy | hy
    · exact h y (List.mem_append_left _ hy)
    · exact clean_lineBreak (h x (by simp)).1 hlead y hy
  · exact hO y hy

/-- Wrapping does not mix marks and characters. -/
theorem Wraps.clean (hlead : isspace lead = false) (h : Wraps colour c X O c') (hX : Clean lead marks X) :
    Clean lead marks O := by
  induction h with
  | whole => exact hX
  | rest => exact hX
  | atNewline h _ ih =>
    obtain ⟨rfl, -, -, -⟩ := h.of_newline
    exact hX.lineBreak_append hlead (ih fun y hy => hX y (by simp [hy]))
  | atSpace h _ ih =>
    obtain ⟨rfl, -, -⟩ := h.of_space
    exact hX.lineBreak_append hlead (ih fun y hy => hX y (by simp [(List.dropWhile_sublist _).mem hy]))

end Thirdparty.Gflags
