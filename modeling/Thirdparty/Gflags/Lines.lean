import Mathlib.Data.List.GetD
import Thirdparty.Gflags.Cells

/-!
# `Gflags.Lines` — where the lines of the wrapped text end

One round of the loop of `DescribeOneFlag` ends a line: at the end of the text, at a newline, at white space, or
nowhere, and then the rest of the text is put out as it is. `EndsLine` says which, in terms of cells; it is a function
of the text and of the column the line begins in.

## Contents
- `LineEnd`, `EndsLine`, `EndsLine.unique`; `EndsLine.before_word`, the usual way a line ends.
- `lineBreak`, `afterLine`: what the loop puts out at the end of a line.
- `wrapStep_spec`: one round of the loop ends the line where `EndsLine` says.
-/

namespace Thirdparty.Gflags

/-- The end of a line, with the cells before, at and behind it. -/
inductive LineEnd where
  | whole
  | atNewline (P : List Cell) (x : Cell) (Q : List Cell)
  | atSpace (P : List Cell) (x : Cell) (Q : List Cell)
  | rest

/-- The white space that could end the line is no newline and meets `p`. -/
def SpacesMeet (colour : Bool) (c : Nat) (X : List Cell) (p : List Cell → Cell → Prop) : Prop :=
  ∀ P x Q, X = P ++ x :: Q → isspace x.char = true → c + col colour P x < kLineLength →
    x.char ≠ newline ∧ p P x

/-- **The end of the line** that begins in column `c` with the text `X`. -/
inductive EndsLine (colour : Bool) (c : Nat) (X : List Cell) : LineEnd → Prop where
  /-- The rest of the text fits. -/
  | whole (hnl : newline ∉ chars X) (hfits : c + (bytes colour X).length < kLineLength) :
      EndsLine colour c X .whole
  /-- The first newline is on the line. -/
  | atNewline {P : List Cell} {x : Cell} {Q : List Cell} (hX : X = P ++ x :: Q) (hx : x.char = newline)
      (hP : newline ∉ chars P) (hcol : c + col colour P x < kLineLength) :
      EndsLine colour c X (.atNewline P x Q)
  /-- Otherwise, the last white space on the line that has something before it. -/
  | atSpace {P : List Cell} {x : Cell} {Q : List Cell} (hX : X = P ++ x :: Q) (hx : isspace x.char = true)
      (hpos : 0 < col colour P x) (hcol : c + col colour P x < kLineLength)
      (hlast : SpacesMeet colour c X fun P' _ => P'.length ≤ P.length)
      (hlong : kLineLength ≤ c + (bytes colour X).length) : EndsLine colour c X (.atSpace P x Q)
  /-- There is none. -/
  | rest (hnone : SpacesMeet colour c X fun P x => col colour P x = 0)
      (hlong : kLineLength ≤ c + (bytes colour X).length) : EndsLine colour c X .rest

variable {colour : Bool} {c : Nat} {X : List Cell}

theorem newline_mem_chars {P Q : List Cell} {x : Cell} (hx : x.char = newline) : newline ∈ chars (P ++ x :: Q) :=
  List.mem_map.mpr ⟨x, by simp, hx⟩

theorem isspace_of_newline {x : Cell} (hx : x.char = newline) : isspace x.char = true := hx ▸ isspace_newline

/-- The first newline is at one place. -/
theorem newline_unique {P Q P' Q' : List Cell} {x x' : Cell} (h : P ++ x :: Q = P' ++ x' :: Q')
    (hx : x.char = newline) (hP : newline ∉ chars P) (hx' : x'.char = newline) (hP' : newline ∉ chars P') :
    P = P' ∧ x = x' ∧ Q = Q' := by
  rcases Nat.lt_trichotomy P.length P'.length with hlt | heq | hgt
  · obtain ⟨M, rfl⟩ := exists_of_length_lt h hlt
    exact absurd (newline_mem_chars hx) hP'
  · exact eq_of_length_eq h heq
  · obtain ⟨M, rfl⟩ := exists_of_length_lt h.symm hgt
    exact absurd (newline_mem_chars hx') hP

/-- A text has one line end. -/
theorem EndsLine.unique {e e' : LineEnd} (h : EndsLine colour c X e) (h' : EndsLine colour c X e') : e = e' := by
  cases h with
  | whole hnl hfits =>
    cases h' with
    | whole => rfl
    | atNewline hX hx => exact absurd (hX ▸ newline_mem_chars hx) hnl
    | atSpace _ _ _ _ _ hlong => omega
    | rest _ hlong => omega
  | atNewline hX hx hP hcol =>
    cases h' with
    | whole hnl => exact absurd (hX ▸ newline_mem_chars hx) hnl
    | atNewline hX' hx' hP' =>
      obtain ⟨rfl, rfl, rfl⟩ := newline_unique (hX.symm.trans hX') hx hP hx' hP'
      rfl
    | atSpace _ _ _ _ hlast => exact absurd hx (hlast _ _ _ hX (isspace_of_newline hx) hcol).1
    | rest hnone => exact absurd hx (hnone _ _ _ hX (isspace_of_newline hx) hcol).1
  | atSpace hX hx hpos hcol hlast hlong =>
    cases h' with
    | whole _ hfits => omega
    | atNewline hX' hx' _ hcol' => exact absurd hx' (hlast _ _ _ hX' (isspace_of_newline hx') hcol').1
    | atSpace hX' hx' _ hcol' hlast' =>
      have hlen := Nat.le_antisymm (hlast' _ _ _ hX hx hcol).2 (hlast _ _ _ hX' hx' hcol').2
      obtain ⟨rfl, rfl, rfl⟩ := eq_of_length_eq (hX.symm.trans hX') hlen
      rfl
    | rest hnone => exact absurd (hnone _ _ _ hX hx hcol).2 (Nat.ne_of_gt hpos)
  | rest hnone hlong =>
    cases h' with
    | whole _ hfits => omega
    | atNewline hX' hx' _ hcol' => exact absurd hx' (hnone _ _ _ hX' (isspace_of_newline hx') hcol').1
    | atSpace hX' hx' hpos' hcol' => exact absurd (hnone _ _ _ hX' hx' hcol').2 (Nat.ne_of_gt hpos')
    | rest => rfl

/-- A word that does not fit on the line ends it at the white space in front. -/
theorem EndsLine.before_word {P W R : List Cell} {x : Cell} (hX : X = P ++ x :: (W ++ R))
    (hx : isspace x.char = true) (hnl : newline ∉ chars (P ++ [x])) (hpos : 0 < col colour P x)
    (hcol : c + col colour P x < kLineLength) (hword : ∀ y ∈ W, isspace y.char = false)
    (hlong : kLineLength ≤ c + (bytes colour (P ++ x :: W)).length) :
    EndsLine colour c X (.atSpace P x (W ++ R)) := by
  have hwhole : bytes colour X = bytes colour (P ++ x :: W) ++ bytes colour R := by
    rw [hX, ← List.cons_append, ← List.append_assoc, bytes_append]
  refine .atSpace hX hx hpos hcol ?_ (by rw [hwhole, List.length_append]; omega)
  intro P' x' Q' hX' hx' hcol'
  have hsplit := hX.symm.trans hX'
  rcases Nat.lt_trichotomy P'.length P.length with hlt | heq | hgt
  · obtain ⟨M, rfl⟩ := exists_of_length_lt hsplit.symm hlt
    refine ⟨fun hnl' => hnl ?_, Nat.le_of_lt hlt⟩
    rw [List.append_assoc, List.cons_append]
    exact newline_mem_chars hnl'
  · obtain ⟨rfl, rfl, -⟩ := eq_of_length_eq hsplit.symm heq
    exact ⟨fun hnl' => hnl (newline_mem_chars hnl'), Nat.le_refl _⟩
  · obtain ⟨M, rfl⟩ := exists_of_length_lt hsplit hgt
    have hrest : W ++ R = M ++ x' :: Q' := by simpa using hsplit
    rcases Trace.append_eq_append_cons hrest with ⟨mid, hmid⟩ | ⟨mid, rfl, -⟩
    · -- no white space is in the word
      rw [hword x' (by simp [hmid])] at hx'
      cases hx'
    · -- what is behind the word is not on the line
      rw [← List.cons_append, ← List.append_assoc, col, bytes_append, List.length_append] at hcol'
      omega

/-! ## One round of the loop -/

/-- A new line in the place of `x`; the escape sequence in front of `x` stays. -/
def lineBreak (x : Cell) : List Cell := { x with char := newline } :: List.replicate 6 (Cell.plain blank)

@[simp] theorem chars_lineBreak (x : Cell) : chars (lineBreak x) = newLine := rfl

theorem bytes_lineBreak (x : Cell) : bytes colour (lineBreak x) = x.shown colour ++ newLine := by
  rw [lineBreak, bytes_cons]
  cases colour <;> rfl

/-- The state of the loop on the text `X`. -/
def stateOn (colour : Bool) (X : List Cell) (finalString : Bytes) (c : Nat) : WrapState :=
  ⟨bytes colour X, (bytes colour X).length, finalString, c⟩

/-- What a round does when the line ends at `e`. -/
def afterLine (colour : Bool) (c : Nat) (X : List Cell) (finalString : Bytes) : LineEnd → WrapState ⊕ Bytes × Nat
  | .whole => .inr (finalString ++ bytes colour X, c + (bytes colour X).length)
  | .atNewline P x Q => .inl (stateOn colour Q (finalString ++ bytes colour (P ++ lineBreak x)) 6)
  | .atSpace P x Q => .inl (stateOn colour (skip colour Q) (finalString ++ bytes colour (P ++ lineBreak x)) 6)
  | .rest => .inr (finalString ++ bytes colour X, kLineLength)

theorem bytes_ne_nil (h : X ≠ []) : bytes colour X ≠ [] := by
  obtain ⟨x, X', rfl⟩ := List.exists_cons_of_ne_nil h
  rw [bytes_cons]
  exact List.append_ne_nil_of_right_ne_nil _ (List.cons_ne_nil _ _)

/-- The end of a round that leaves `Q` of the text. -/
theorem endLine_spec {Q P : List Cell} {x : Cell} {s : WrapState} {finalString : Bytes} (hQ : Q ≠ [])
    (hc : s.cString = bytes colour Q) (hleft : s.charsLeft = (bytes colour Q).length)
    (hf : s.finalString = finalString ++ (bytes colour P ++ x.shown colour)) :
    s.endLine = .inl (stateOn colour Q (finalString ++ bytes colour (P ++ lineBreak x)) 6) := by
  have hne : s.cString ≠ [] := by
    rw [hc]
    exact bytes_ne_nil hQ
  rw [WrapState.endLine, if_neg hne, hc, hleft, hf, bytes_append, bytes_lineBreak, stateOn]
  simp only [List.append_assoc]

theorem getD_length (p : Bytes) (s : Byte) (r : Bytes) : (p ++ s :: r).getD p.length nul = s := by
  rw [List.getD_append_right _ _ _ _ (Nat.le_refl _), Nat.sub_self]
  rfl

/-- The bytes at an index within the text. -/
theorem exists_split {s : Bytes} {i : Nat} (hi : i < s.length) :
    ∃ p r, s = p ++ s.getD i nul :: r ∧ p.length = i := by
  refine ⟨s.take i, s.drop (i + 1), ?_, List.length_take_of_le (Nat.le_of_lt hi)⟩
  rw [List.getD_eq_getElem _ _ hi, List.getElem_cons_drop, List.take_append_drop]

/-- The branch for white space, when no newline is on the line. -/
theorem breakAtSpace_spec (finalString : Bytes) (hdark : EndsDark X) (hc : c < kLineLength)
    (hnl : ∀ P x Q, X = P ++ x :: Q → x.char = newline → kLineLength ≤ c + col colour P x)
    (hlong : kLineLength ≤ c + (bytes colour X).length) :
    ∃ e, EndsLine colour c X e ∧
      (stateOn colour X finalString c).breakAtSpace = afterLine colour c X finalString e := by
  -- white space on the line is where the search could stop
  have hcand : ∀ P x Q, X = P ++ x :: Q → isspace x.char = true → c + col colour P x < kLineLength →
      x.char ≠ newline ∧ col colour P x ≤ backToSpace (bytes colour X) (kLineLength - c - 1) := by
    intro P x Q hX hx hcol
    refine ⟨fun h => absurd (hnl P x Q hX h) (by omega), le_backToSpace (by omega) ?_⟩
    rw [hX, bytes_cell, ← length_shown_append, getD_length]
    exact hx
  by_cases hzero : backToSpace (bytes colour X) (kLineLength - c - 1) = 0
  · -- the search came down to index 0, so the rest is put out as it is
    refine ⟨.rest, .rest ?_ hlong, ?_⟩
    · intro P x Q hX hx hcol
      obtain ⟨hne, hle⟩ := hcand P x Q hX hx hcol
      exact ⟨hne, by omega⟩
    · simp only [stateOn, WrapState.breakAtSpace, hzero, if_true, afterLine]
  · -- it stopped at white space, which is a character of the text and not in an escape sequence
    have hle := backToSpace_le (bytes colour X) (kLineLength - c - 1)
    obtain ⟨p, r, hsplit, hlen⟩ := exists_split (s := bytes colour X)
      (i := backToSpace (bytes colour X) (kLineLength - c - 1)) (by omega)
    obtain ⟨P, x, Q, hX, hx, hp, hr⟩ := bytes_split hsplit (isspace_backToSpace hzero)
    have hcol : col colour P x = backToSpace (bytes colour X) (kLineLength - c - 1) := by
      rw [← hlen, hp, length_shown_append]
    have hspace : isspace x.char = true := hx ▸ isspace_backToSpace hzero
    refine ⟨.atSpace P x Q, .atSpace hX hspace (by omega) (by omega) ?_ hlong, ?_⟩
    · intro P' x' Q' hX' hx' hcol'
      obtain ⟨hne, hle'⟩ := hcand P' x' Q' hX' hx' hcol'
      refine ⟨hne, ?_⟩
      by_contra hgt
      have hlt := col_lt_of_length_lt colour (hX.symm.trans hX') (Nat.lt_of_not_le hgt)
      omega
    · -- what the branch cuts off and skips, in terms of cells
      have hdrop : (bytes colour X).drop (col colour P x) = x.char :: bytes colour Q := by
        rw [hX, bytes_cell, ← length_shown_append, List.drop_left]
      have htake : (bytes colour X).take (col colour P x) = bytes colour P ++ x.shown colour := by
        rw [hX, bytes_cell, ← length_shown_append, List.take_left]
      have hskip : (x.char :: bytes colour Q).dropWhile isspace = bytes colour (skip colour Q) := by
        rw [List.dropWhile_cons_of_pos hspace, bytes_skip]
      have hlenle : (bytes colour (skip colour Q)).length ≤ (bytes colour X).length := by
        rw [← hskip]
        apply Nat.le_trans (List.length_dropWhile_le _ _)
        rw [hX, bytes_cell, List.length_append]
        omega
      have hne : skip colour Q ≠ [] := ((EndsDark.of_space (hX ▸ hdark) hspace).skip colour).ne_nil
      rw [WrapState.breakAtSpace, stateOn, if_neg hzero, ← hcol, hdrop, hskip, htake]
      refine endLine_spec hne rfl ?_ rfl
      show (bytes colour X).length - ((bytes colour X).length - (bytes colour (skip colour Q)).length) = _
      omega

/-- **One round of the loop** ends the line where `EndsLine` says. -/
theorem wrapStep_spec (finalString : Bytes) (hdark : EndsDark X) (hc : c < kLineLength) :
    ∃ e, EndsLine colour c X e ∧ wrapStep (stateOn colour X finalString c) = afterLine colour c X finalString e := by
  cases hfind : strchr (bytes colour X) newline with
  | none =>
    have hnone : newline ∉ chars X := by
      intro hmem
      exact strchr_eq_none.mp hfind (mem_bytes_of_mem_chars hmem)
    rw [wrapStep, stateOn, hfind]
    by_cases hfits : c + (bytes colour X).length < kLineLength
    · exact ⟨.whole, .whole hnone hfits, if_pos hfits⟩
    · obtain ⟨e, he, hstep⟩ := breakAtSpace_spec finalString hdark hc
        (fun P x Q hX hx => absurd (hX ▸ newline_mem_chars hx) hnone) (Nat.le_of_not_lt hfits)
      refine ⟨e, he, ?_⟩
      show (if c + (bytes colour X).length < kLineLength then _ else _) = _
      rw [if_neg hfits]
      exact hstep
  | some n =>
    obtain ⟨p, r, hsplit, hp, hn⟩ := strchr_eq_some hfind
    obtain ⟨P, x, Q, hX, hx, hpP, hr⟩ := bytes_split hsplit isspace_newline
    have hcol : col colour P x = n := by rw [← hn, hpP, length_shown_append]
    have hP : newline ∉ chars P := by
      intro hmem
      exact hp (hpP ▸ List.mem_append_left _ (mem_bytes_of_mem_chars hmem))
    rw [wrapStep, stateOn, hfind]
    -- `newline - c_string < kLineLength - chars_in_line`
    by_cases hline : n < kLineLength - c
    · refine ⟨.atNewline P x Q, .atNewline hX hx hP (by omega), ?_⟩
      have hlen : n + 1 + r.length = (bytes colour X).length := by
        rw [hsplit, List.length_append, List.length_cons]
        omega
      have hdrop : (bytes colour X).drop (n + 1) = bytes colour Q := by
        rw [← hr, hsplit, ← hn, ← List.drop_drop, List.drop_left]
        rfl
      have htake : (bytes colour X).take n = bytes colour P ++ x.shown colour := by
        rw [hsplit, ← hn, List.take_left, hpP]
      show (if n < kLineLength - c then _ else _) = _
      rw [if_pos hline, hdrop, htake]
      refine endLine_spec (EndsDark.of_space (hX ▸ hdark) (isspace_of_newline hx)).ne_nil rfl ?_ rfl
      show (bytes colour X).length - (n + 1) = _
      rw [← hr]
      omega
    · -- the first newline is beyond the line, so all of them are
      have hnl : ∀ P' x' Q', X = P' ++ x' :: Q' → x'.char = newline → kLineLength ≤ c + col colour P' x' := by
        intro P' x' Q' hX' hx'
        -- no newline comes before the first one
        have hle : P.length ≤ P'.length := by
          by_contra hlt
          obtain ⟨M, rfl⟩ := exists_of_length_lt (hX'.symm.trans hX) (Nat.lt_of_not_le hlt)
          exact hP (newline_mem_chars hx')
        rcases Nat.lt_or_eq_of_le hle with hlt | heq
        · have := col_lt_of_length_lt colour (hX.symm.trans hX') hlt
          omega
        · obtain ⟨rfl, rfl, rfl⟩ := eq_of_length_eq (hX.symm.trans hX') heq
          omega
      have hlong : kLineLength ≤ c + (bytes colour X).length := by
        rw [hsplit, List.length_append, List.length_cons]
        omega
      obtain ⟨e, he, hstep⟩ := breakAtSpace_spec finalString hdark hc hnl hlong
      refine ⟨e, he, ?_⟩
      show (if n < kLineLength - c then _ else _) = _
      rw [if_neg hline]
      exact hstep

end Thirdparty.Gflags
