import Thirdparty.Gflags.Kept
import Thirdparty.Gflags.Parts

/-!
# `Gflags.Alike` — when escape sequences do not change the wrapping

A text is wrapped twice, once with the escape sequences counted and once without, and strings are added to both. The
two look the same if and only if every line up to the last escape sequence ends at the same character both times, the
text that is left is put out as it is, and the added strings go on new lines alike.

## Contents
- `Alike`: that condition, in terms of the text without escape sequences and of the columns that its characters get.
- `EndsLine.coloured_newline`, `EndsLine.coloured_space`: a line that has room for its escape sequences.
- `Alike.shown_eq`: the condition is enough.
- `alike_of_shown_eq`: it is necessary.
-/

namespace Thirdparty.Gflags

variable {extra : Nat} {ns : List Nat} {c c₁ c₂ : Nat} {X O₁ O₂ : List Cell}

/-- **Wrapped alike** from column `c`, with strings of the lengths `ns` behind. -/
inductive Alike (extra : Nat) (ns : List Nat) : Nat → List Cell → Prop where
  /-- The rest of the text fits on the line, escape sequences and all. -/
  | whole {c : Nat} {X : List Cell} (hnl : newline ∉ chars X) (hfits : c + (bytes true X).length < kLineLength)
      (hns : BreakAlike extra (c + (chars X).length) (c + (bytes true X).length) ns) : Alike extra ns c X
  /-- With the escape sequences counted the rest of the text has no white space to end the line at, and without
      them it is put out as it is, too. -/
  | rest {c k : Nat} {X : List Cell} (hk : Kept c X k) (h : EndsLine true c X .rest)
      (hns : BreakAlike extra k kLineLength ns) : Alike extra ns c X
  /-- The line ends at a newline that has room on it, escape sequences and all. -/
  | atNewline {c : Nat} {X P Q : List Cell} {x : Cell} (h : EndsLine false c X (.atNewline P x Q))
      (hcol : c + col true P x < kLineLength) (hQ : Alike extra ns 6 Q) : Alike extra ns c X
  /-- The line ends at white space that has room on it, escape sequences and all; no escape sequence stands in
      front of the white space behind. -/
  | atSpace {c : Nat} {X P Q : List Cell} {x : Cell} (h : EndsLine false c X (.atSpace P x Q))
      (hcol : c + col true P x < kLineLength) (hskip : skip true Q = skip false Q)
      (hQ : Alike extra ns 6 (skip false Q)) : Alike extra ns c X

/-! ## Lines with room for their escape sequences -/

theorem col_le (P : List Cell) (x : Cell) : col false P x ≤ col true P x := by
  rw [col_false]
  exact length_le_col true P x

theorem length_chars_le (X : List Cell) : (bytes false X).length ≤ (bytes true X).length := by
  induction X with
  | nil => exact Nat.le_refl _
  | cons x X ih =>
    rw [bytes_cons, bytes_cons, List.length_append, List.length_append, List.length_cons, List.length_cons]
    rw [shown_false, List.length_nil]
    omega

theorem EndsLine.uncoloured_whole (h : EndsLine true c X .whole) : EndsLine false c X .whole := by
  cases h with
  | whole hnl hfits =>
    have hle := length_chars_le X
    exact .whole hnl (by omega)

theorem EndsLine.uncoloured_newline {P Q : List Cell} {x : Cell} (h : EndsLine true c X (.atNewline P x Q)) :
    EndsLine false c X (.atNewline P x Q) := by
  obtain ⟨hX, hx, hP, hcol⟩ := h.of_newline
  have hle := col_le P x
  exact .atNewline hX hx hP (by omega)

theorem EndsLine.coloured_newline {P Q : List Cell} {x : Cell} (h : EndsLine false c X (.atNewline P x Q))
    (hcol : c + col true P x < kLineLength) : EndsLine true c X (.atNewline P x Q) := by
  obtain ⟨hX, hx, hP, -⟩ := h.of_newline
  exact .atNewline hX hx hP hcol

theorem EndsLine.coloured_space {P Q : List Cell} {x : Cell} (h : EndsLine false c X (.atSpace P x Q))
    (hcol : c + col true P x < kLineLength) : EndsLine true c X (.atSpace P x Q) := by
  cases h with
  | atSpace hX hx hpos _ hlast hlong =>
    refine .atSpace hX hx (Nat.lt_of_lt_of_le hpos (col_le P x)) hcol ?_
      (Nat.le_trans hlong (Nat.add_le_add_left (length_chars_le X) c))
    intro P' x' Q' hX' hx' hcol'
    -- escape sequences only push white space off the line
    have hle := col_le P' x'
    exact hlast P' x' Q' hX' hx' (by omega)

/-! ## The condition, by the end of the line

When colour is on, the line has white space to end at or the text fits. -/

theorem alike_whole_iff (he : EndsLine false c X .whole) (hrest : ¬ EndsLine true c X .rest) :
    Alike extra ns c X ↔ c + (bytes true X).length < kLineLength ∧
      BreakAlike extra (c + (chars X).length) (c + (bytes true X).length) ns := by
  constructor
  · intro h
    cases h with
    | whole _ hfits hns => exact ⟨hfits, hns⟩
    | rest _ he₂ => exact absurd he₂ hrest
    | atNewline he' => cases he.unique he'
    | atSpace he' => cases he.unique he'
  · rintro ⟨hfits, hns⟩
    cases he with
    | whole hnl => exact .whole hnl hfits hns

theorem alike_newline_iff {P Q : List Cell} {x : Cell} (he : EndsLine false c X (.atNewline P x Q))
    (hrest : ¬ EndsLine true c X .rest) :
    Alike extra ns c X ↔ c + col true P x < kLineLength ∧ Alike extra ns 6 Q := by
  constructor
  · intro h
    cases h with
    | whole hnl => exact absurd (he.of_newline.1 ▸ newline_mem_chars he.of_newline.2.1) hnl
    | rest _ he₂ => exact absurd he₂ hrest
    | atNewline he' hcol hQ =>
      cases he.unique he'
      exact ⟨hcol, hQ⟩
    | atSpace he' => cases he.unique he'
  · rintro ⟨hcol, hQ⟩
    exact .atNewline he hcol hQ

theorem alike_space_iff {P Q : List Cell} {x : Cell} (he : EndsLine false c X (.atSpace P x Q))
    (hrest : ¬ EndsLine true c X .rest) :
    Alike extra ns c X ↔
      c + col true P x < kLineLength ∧ skip true Q = skip false Q ∧ Alike extra ns 6 (skip false Q) := by
  constructor
  · intro h
    cases h with
    | whole hnl hfits => cases he.unique (EndsLine.uncoloured_whole (.whole hnl hfits))
    | rest _ he₂ => exact absurd he₂ hrest
    | atNewline he' => cases he.unique he'
    | atSpace he' hcol hskip hQ =>
      cases he.unique he'
      exact ⟨hcol, hskip, hQ⟩
  · rintro ⟨hcol, hskip, hQ⟩
    exact .atSpace he hcol hskip hQ

/-! ## The condition is enough -/

theorem shown_break (P : List Cell) (x : Cell) (O : List Cell) (u : Bytes) :
    chars (P ++ lineBreak x ++ O) ++ u = chars P ++ (newLine ++ (chars O ++ u)) := by
  rw [chars_append, chars_append, chars_lineBreak, List.append_assoc, List.append_assoc]

/-- **Texts that are wrapped alike look the same.** -/
theorem Alike.shown_eq {vs : List Bytes} (h : Alike extra (vs.map List.length) c X) (h₁ : Wraps false c X O₁ c₁)
    (h₂ : Wraps true c X O₂ c₂) : chars O₁ ++ added 0 c₁ vs = chars O₂ ++ added extra c₂ vs := by
  induction h generalizing O₁ O₂ with
  | whole hnl hfits hns =>
    have he₂ : EndsLine true _ _ .whole := .whole hnl hfits
    obtain ⟨rfl, rfl⟩ := h₁.of_whole he₂.uncoloured_whole
    obtain ⟨rfl, rfl⟩ := h₂.of_whole he₂
    rw [bytes_false, (added_eq_iff vs).mpr hns]
  | rest hk he₂ hns =>
    obtain ⟨hO₁, rfl⟩ := hk.wraps h₁
    obtain ⟨rfl, rfl⟩ := h₂.of_rest he₂
    rw [hO₁, (added_eq_iff vs).mpr hns]
  | atNewline he₁ hcol _ ih =>
    obtain ⟨O₁', hO₁, rfl⟩ := h₁.of_newline he₁
    obtain ⟨O₂', hO₂, rfl⟩ := h₂.of_newline (he₁.coloured_newline hcol)
    rw [shown_break, shown_break, ih hO₁ hO₂]
  | atSpace he₁ hcol hskip _ ih =>
    obtain ⟨O₁', hO₁, rfl⟩ := h₁.of_space he₁
    obtain ⟨O₂', hO₂, rfl⟩ := h₂.of_space (he₁.coloured_space hcol)
    rw [hskip] at hO₂
    rw [shown_break, shown_break, ih hO₁ hO₂]

/-! ## It is necessary -/

/-- A new line in the place of `x` differs from `x`. -/
theorem newline_of_break {P O : List Cell} {x : Cell} {t u : Bytes}
    (h : chars P ++ x.char :: t = chars (P ++ lineBreak x ++ O) ++ u) : x.char = newline := by
  rw [shown_break] at h
  exact (List.cons.inj (List.append_cancel_left h)).1

theorem skip_cons_true {x : Cell} {Q : List Cell} {colour : Bool} (hx : isspace x.char = true)
    (hshown : x.shown colour = []) : skip colour (x :: Q) = skip colour Q := by
  rw [skip, List.dropWhile_cons_of_pos (by rw [hx, hshown]; rfl), skip]

/-- `skip` stops at the same cell if it stops at a character that is no white space. -/
theorem skip_eq {Q : List Cell} (h : DarkLed (skip true Q)) : skip true Q = skip false Q := by
  induction Q with
  | nil => rfl
  | cons x Q ih =>
    cases hspace : isspace x.char with
    | false =>
      rw [skip, List.dropWhile_cons_of_neg (by simp [hspace]), skip, List.dropWhile_cons_of_neg (by simp [hspace])]
    | true =>
      cases hmark : x.mark with
      | nil =>
        have htrue : skip true (x :: Q) = skip true Q := skip_cons_true hspace hmark
        rw [htrue] at h ⊢
        rw [ih h, skip_cons_true hspace rfl]
      | cons b m =>
        -- an escape sequence in front of white space stops `skip` there, and white space is not dark
        obtain ⟨y, Y, hy, hdark⟩ := h
        rw [skip, List.dropWhile_cons_of_neg (by simp [hmark])] at hy
        cases hy
        rw [hspace] at hdark
        cases hdark

/-- What is left behind white space begins dark when colour is off, so the same must be left when it is on. -/
theorem skip_eq_of_shown {Q : List Cell} (hdark : EndsDark Q) {u v : Bytes}
    (h₁ : Wraps false 6 (skip false Q) O₁ c₁) (h₂ : Wraps true 6 (skip true Q) O₂ c₂)
    (h : chars O₁ ++ u = chars O₂ ++ v) : skip true Q = skip false Q := by
  apply skip_eq
  obtain ⟨b, s, hs, hb⟩ := h₁.begins_dark (darkLed_skip hdark)
  obtain ⟨x, X', hX⟩ := List.exists_cons_of_ne_nil (hdark.skip true).ne_nil
  rw [hX] at h₂ ⊢
  obtain ⟨y, s', hs', hy⟩ := h₂.begins
  rw [hs, hs'] at h
  obtain rfl : b = y := (List.cons.inj h).1
  refine ⟨x, X', rfl, ?_⟩
  rcases hy with rfl | ⟨rfl, -⟩
  · exact hb
  · rw [isspace_newline] at hb
    cases hb

/-- A line that ends at white space when colour is on ends there when it is off. -/
theorem atSpace_of_shown {P Q : List Cell} {x : Cell} {u v : Bytes} (h₁ : Wraps false c X O₁ c₁)
    (he₂ : EndsLine true c X (.atSpace P x Q)) (h : chars O₁ ++ u = chars (P ++ lineBreak x ++ O₂) ++ v) :
    EndsLine false c X (.atSpace P x Q) ∧
      ∃ O, Wraps false 6 (skip false Q) O c₁ ∧ O₁ = P ++ lineBreak x ++ O := by
  have hne := he₂.char_ne_newline
  obtain ⟨hX, hx, hcol⟩ := he₂.of_space
  -- `x` would have to stand where the other text has a new line
  have hkept : ∀ t, chars O₁ ++ u ≠ chars P ++ x.char :: t := by
    intro t heq
    exact hne (newline_of_break (heq.symm.trans h))
  have hbefore : ∀ {P' Q' O' : List Cell} {x' : Cell}, X = P' ++ x' :: Q' → O₁ = P' ++ lineBreak x' ++ O' →
      P'.length ≤ P.length := by
    intro P' Q' O' x' hX' hO₁
    by_contra hlt
    obtain ⟨M, rfl⟩ := exists_of_length_lt (hX.symm.trans hX') (Nat.lt_of_not_le hlt)
    apply hkept (chars M ++ chars (lineBreak x') ++ chars O' ++ u)
    rw [hO₁]
    simp only [chars_append, chars_cons, List.append_assoc, List.cons_append]
  cases h₁ with
  | whole =>
    refine absurd ?_ (hkept (chars Q ++ u))
    rw [hX, chars_append, chars_cons, List.append_assoc, List.cons_append]
  | rest =>
    refine absurd ?_ (hkept (chars Q ++ u))
    rw [hX, chars_append, chars_cons, List.append_assoc, List.cons_append]
  | @atNewline _ _ _ P' Q' O' x' he hO =>
    obtain ⟨hX', hx', -, -⟩ := he.of_newline
    rcases Nat.lt_or_eq_of_le (hbefore hX' rfl) with hlt | heq
    · -- the newline would be on the line when colour is on
      have hcol' := col_lt_of_length_lt true (hX'.symm.trans hX) hlt
      cases he₂ with
      | atSpace _ _ _ _ hlast =>
        exact absurd hx' (hlast _ _ _ hX' (isspace_of_newline hx') (by omega)).1
    · obtain ⟨rfl, rfl, rfl⟩ := eq_of_length_eq (hX'.symm.trans hX) heq
      exact absurd hx' hne
  | @atSpace _ _ _ P' Q' O' x' he hO =>
    -- the white space at `x` is on the line without the escape sequences, too, so the line ends no earlier
    obtain ⟨hX', -, -⟩ := he.of_space
    have hle := col_le P x
    have hge : P.length ≤ P'.length := by
      cases he with
      | atSpace _ _ _ _ hlast => exact (hlast _ _ _ hX hx (by omega)).2
    obtain ⟨rfl, rfl, rfl⟩ := eq_of_length_eq (hX'.symm.trans hX) (Nat.le_antisymm (hbefore hX' rfl) hge)
    exact ⟨he, O', hO, rfl⟩

/-- **Texts that look the same are wrapped alike.** -/
theorem alike_of_shown_eq {vs : List Bytes} (hdark : EndsDark X) (h₁ : Wraps false c X O₁ c₁)
    (h₂ : Wraps true c X O₂ c₂) (h : chars O₁ ++ added 0 c₁ vs = chars O₂ ++ added extra c₂ vs) :
    Alike extra (vs.map List.length) c X := by
  induction h₂ generalizing O₁ with
  | whole he₂ =>
    obtain ⟨rfl, rfl⟩ := h₁.of_whole he₂.uncoloured_whole
    rw [bytes_false] at h
    cases he₂ with
    | whole hnl hfits => exact .whole hnl hfits ((added_eq_iff vs).mp (List.append_cancel_left h))
  | rest he₂ =>
    -- both texts end in a dark character, and have the same ones
    have hO₁ := eq_of_dark h (h₁.endsDark hdark) hdark h₁.same_dark
    rw [hO₁] at h
    exact .rest (kept_of_wraps h₁ hdark hO₁) he₂ ((added_eq_iff vs).mp (List.append_cancel_left h))
  | atNewline he₂ hO₂ ih =>
    -- a newline with room for the escape sequences has room without them
    have he₁ := he₂.uncoloured_newline
    obtain ⟨rfl, hx, -, hcol⟩ := he₂.of_newline
    obtain ⟨O, hO, rfl⟩ := h₁.of_newline he₁
    rw [shown_break, shown_break] at h
    have hrest := List.append_cancel_left (List.append_cancel_left h)
    exact .atNewline he₁ hcol (ih (hdark.of_space (isspace_of_newline hx)) hO hrest)
  | atSpace he₂ hO₂ ih =>
    obtain ⟨he₁, O, hO, rfl⟩ := atSpace_of_shown h₁ he₂ h
    obtain ⟨rfl, hx, hcol⟩ := he₂.of_space
    rw [shown_break, shown_break] at h
    have hrest := List.append_cancel_left (List.append_cancel_left h)
    have hdarkQ := hdark.of_space hx
    have hskip := skip_eq_of_shown hdarkQ hO hO₂ hrest
    refine .atSpace he₁ hcol hskip ?_
    have hQ := ih (hdarkQ.skip true) (hskip ▸ hO) hrest
    rwa [hskip] at hQ

end Thirdparty.Gflags
