import Thirdparty.Gflags.Wraps

/-!
# `Gflags.Kept` — texts that wrapping leaves as they are

Without escape sequences, a text comes out of the loop unchanged if all of it fits on its line, or if its line has
no white space to end at. There is one more way. At a newline the loop puts in six blanks, and where it ends a line
at white space it takes all the white space there away and puts a newline and six blanks in its place. If the newline
of the text is followed by 79 blanks, a newline and six blanks, then that is what the loop makes of it: the six
blanks, 73 of the 79 blanks up to column 79, and for the other blanks, the newline and the blanks behind it a newline
and six blanks.

## Contents
- `Kept`: the three ways.
- `kept_of_wraps`, `Kept.wraps`: they are what `Wraps` says.
-/

namespace Thirdparty.Gflags

variable {c c' : Nat} {X O : List Cell}

/-- The first character is no white space. -/
def DarkLed (X : List Cell) : Prop := ∃ x X', X = x :: X' ∧ isspace x.char = false

/-- 79 blanks, a newline and six blanks. -/
def indent : Bytes := List.replicate 79 blank ++ newLine

/-- **A text that wrapping leaves as it is**, and the column it ends in. -/
inductive Kept : Nat → List Cell → Nat → Prop where
  | whole {c : Nat} {X : List Cell} (h : EndsLine false c X .whole) : Kept c X (c + (chars X).length)
  | atNewline {c c' : Nat} {X P B R : List Cell} {x : Cell} (h : EndsLine false c X (.atNewline P x (B ++ R)))
      (hB : chars B = indent) (hR : DarkLed R) (hk : Kept 6 R c') : Kept c X c'
  | rest {c : Nat} {X : List Cell} (h : EndsLine false c X .rest) : Kept c X kLineLength

/-! ## Lists -/

/-- Where a list first fails a test is at one place. -/
theorem prefix_unique {α : Type*} {f : α → Prop} {p q u v : List α} {a b : α} (h : p ++ a :: u = q ++ b :: v)
    (hp : ∀ s ∈ p, f s) (ha : ¬ f a) (hq : ∀ s ∈ q, f s) (hb : ¬ f b) : p = q ∧ a :: u = b :: v := by
  rcases Trace.append_eq_append_cons h with ⟨m, rfl⟩ | ⟨m, rfl, hm⟩
  · exact absurd (hp b (by simp)) hb
  · cases m with
    | nil => exact ⟨(List.append_nil _).symm, hm⟩
    | cons d m =>
      obtain ⟨rfl, -⟩ := List.cons.injEq _ _ _ _ ▸ hm
      exact absurd (hq a (by simp)) ha

/-- A list that comes back `k + 1` places later, behind as many `b`, is made of `b`. -/
theorem eq_replicate_of_shift {α : Type*} {p r t : List α} {s b : α} {k : Nat}
    (h : p ++ s :: r = List.replicate (k + 1) b ++ (p ++ t)) : p = List.replicate p.length b ∧ s = b := by
  induction p with
  | nil =>
    rw [List.replicate_succ, List.cons_append, List.nil_append, List.cons.injEq] at h
    exact ⟨rfl, h.1⟩
  | cons a p ih =>
    rw [List.replicate_succ, List.cons_append, List.cons_append, List.cons.injEq] at h
    obtain ⟨rfl, h⟩ := h
    -- the first `b` of the list closes the row of `b` in front of the rest
    have hrow : p ++ s :: r = List.replicate (k + 1) a ++ (p ++ t) := by
      rw [h, List.replicate_succ', List.append_assoc]
      rfl
    obtain ⟨hp, hs⟩ := ih hrow
    exact ⟨by rw [List.length_cons, List.replicate_succ, ← hp], hs⟩

/-! ## White space -/

theorem white_newLine : White newLine := by decide

/-- White space in front of what is no white space. -/
theorem white_unique {s s' u v : Bytes} {a b : Byte} (h : s ++ a :: u = s' ++ b :: v) (hs : White s)
    (ha : isspace a = false) (hs' : White s') (hb : isspace b = false) : s = s' ∧ a :: u = b :: v :=
  prefix_unique h hs (by rw [ha]; decide) hs' (by rw [hb]; decide)

theorem darkLed_skip (h : EndsDark X) : DarkLed (skip false X) := by
  induction X with
  | nil => exact absurd rfl h.ne_nil
  | cons x X ih =>
    rw [skip, List.dropWhile_cons]
    split
    · rename_i hx
      exact ih (EndsDark.of_space (P := []) h (Bool.and_eq_true_iff.mp hx).1)
    · rename_i hx
      exact ⟨x, X, rfl, by simpa using hx⟩

/-- The white space that `skip` drops. -/
theorem exists_skip (X : List Cell) : ∃ W, X = W ++ skip false X ∧ White (chars W) := by
  induction X with
  | nil => exact ⟨[], rfl, List.forall_mem_nil _⟩
  | cons x X ih =>
    rw [skip, List.dropWhile_cons]
    split
    · rename_i hx
      obtain ⟨W, hW, hwhite⟩ := ih
      exact ⟨x :: W, congrArg (x :: ·) hW, hwhite.cons (Bool.and_eq_true_iff.mp hx).1⟩
    · exact ⟨[], rfl, List.forall_mem_nil _⟩

theorem skip_append {W R : List Cell} (hW : White (chars W)) (hR : DarkLed R) : skip false (W ++ R) = R := by
  obtain ⟨r, R', rfl, hr⟩ := hR
  rw [skip, List.dropWhile_append_of_pos fun x hx => by rw [hW _ (List.mem_map_of_mem hx)]; rfl]
  exact List.dropWhile_cons_of_neg (by simp [hr])

/-- A wrapped text begins dark if the text does. -/
theorem Wraps.begins_dark {colour : Bool} (h : Wraps colour c X O c') (hX : DarkLed X) :
    ∃ b s, chars O = b :: s ∧ isspace b = false := by
  obtain ⟨x, X', rfl, hx⟩ := hX
  obtain ⟨y, s', hO, rfl | ⟨-, hspace⟩⟩ := h.begins
  · exact ⟨x.char, s', hO, hx⟩
  · rw [hx] at hspace
    cases hspace

/-! ## Unchanged by the loop -/

/-- If white space follows the white space that ends the line, it is not on the line. -/
theorem last_space {P W R : List Cell} {x w : Cell} (h : EndsLine false c X (.atSpace P x (w :: W ++ R)))
    (hw : isspace w.char = true) : kLineLength ≤ c + (P.length + 1) := by
  cases h with
  | atSpace hX hx hpos hcol hlast hlong =>
    have hX' : X = (P ++ [x]) ++ w :: (W ++ R) := by rw [hX, List.append_assoc]; rfl
    by_contra hlt
    have hon : c + col false (P ++ [x]) w < kLineLength := by
      rw [col_false, List.length_append, List.length_singleton]
      omega
    have hle : (P ++ [x]).length ≤ P.length := (hlast _ _ _ hX' hw hon).2
    rw [List.length_append, List.length_singleton] at hle
    omega

/-- A line ended at white space comes out as it was, behind six blanks, only if the text is an indented text. -/
theorem indent_of_atSpace {P Q : List Cell} {x : Cell} (hdark : EndsDark X)
    (h : EndsLine false 6 X (.atSpace P x Q)) (hO : Wraps false 6 (skip false Q) O c')
    (heq : chars X = List.replicate 6 blank ++ chars (P ++ lineBreak x ++ O)) :
    ∃ B, X = B ++ skip false Q ∧ chars B = indent ∧ DarkLed (skip false Q) ∧ chars O = chars (skip false Q) := by
  obtain ⟨hX, hx, hcol⟩ := h.of_space
  have hled : DarkLed (skip false Q) := darkLed_skip ((hX ▸ hdark).of_space hx)
  obtain ⟨W, hQ, hW⟩ := exists_skip Q
  obtain ⟨b, s, hs, hb⟩ := hO.begins_dark hled
  obtain ⟨r, R, hR, hr⟩ := hled
  have hshift : chars P ++ x.char :: chars Q = List.replicate 6 blank ++ (chars P ++ (newLine ++ chars O)) := by
    rw [hX] at heq
    simpa only [chars_append, chars_cons, chars_lineBreak, List.append_assoc] using heq
  obtain ⟨hP, -⟩ := eq_replicate_of_shift hshift
  have hPwhite : White (chars P) := hP ▸ white_replicate _
  -- both sides are white up to the first character behind the white space of `Q`
  have hsplit : (chars P ++ x.char :: chars W) ++ r.char :: chars R
      = (List.replicate 6 blank ++ (chars P ++ newLine)) ++ b :: s := by
    rw [hQ, chars_append, hR, chars_cons, hs] at hshift
    simpa only [List.append_assoc, List.cons_append] using hshift
  obtain ⟨hfront, hrest⟩ := white_unique hsplit (hPwhite.append (hW.cons hx)) hr
    ((white_replicate 6).append (hPwhite.append white_newLine)) hb
  have hlen : W.length = 12 := by
    have hlens := congrArg List.length hfront
    have hnl : newLine.length = 7 := rfl
    simp only [List.length_append, List.length_cons, List.length_replicate, length_chars, hnl] at hlens
    omega
  -- `W` begins with white space that is not on the line, so `x` is in the last column
  have hlast : P.length = 73 := by
    obtain ⟨w, W', rfl⟩ := List.exists_cons_of_ne_nil (List.ne_nil_of_length_pos (by omega : 0 < W.length))
    rw [hQ] at h
    have hnext := last_space h (hW w.char List.mem_cons_self)
    rw [col_false] at hcol
    simp only [kLineLength] at hcol hnext
    omega
  refine ⟨P ++ x :: W, ?_, ?_, ⟨r, R, hR, hr⟩, ?_⟩
  · rw [List.append_assoc, List.cons_append, ← hQ, hX]
  · rw [chars_append, chars_cons, hfront, hP, length_chars, hlast]
    rfl
  · rw [hs, hR, chars_cons, hrest]

/-- Half of `kept_of_wraps`, together with what is needed behind a newline. -/
theorem kept_of_wraps' (h : Wraps false c X O c') (hdark : EndsDark X) :
    (chars O = chars X → Kept c X c') ∧
      (c = 6 → chars X = List.replicate 6 blank ++ chars O →
        ∃ B R, X = B ++ R ∧ chars B = indent ∧ DarkLed R ∧ Kept 6 R c') := by
  induction h with
  | whole h =>
    constructor
    · intro _
      rw [bytes_false]
      exact .whole h
    · intro _ heq
      have := congrArg List.length heq
      rw [List.length_append, List.length_replicate] at this
      omega
  | rest h =>
    constructor
    · intro _
      exact .rest h
    · intro _ heq
      have := congrArg List.length heq
      rw [List.length_append, List.length_replicate] at this
      omega
  | @atNewline c c' X P Q O x h hO ih =>
    obtain ⟨hX, hx, hP, -⟩ := h.of_newline
    rw [hX] at hdark
    constructor
    · intro heq
      -- six blanks have been put in behind the newline
      simp only [hX, chars_append, chars_cons, chars_lineBreak, hx, newLine, List.append_assoc,
        List.append_cancel_left_eq, List.cons_append, List.cons.injEq, true_and] at heq
      obtain ⟨B, R, rfl, hB, hR, hk⟩ := (ih (hdark.of_space (isspace_of_newline hx))).2 rfl heq.symm
      exact .atNewline h hB hR hk
    · intro _ heq
      -- the first newline would have to be at two places
      simp only [hX, chars_append, chars_cons, chars_lineBreak, hx, newLine, List.append_assoc,
        List.cons_append] at heq
      rw [← List.append_assoc] at heq
      have hfront : ∀ b ∈ List.replicate 6 blank ++ chars P, b ≠ newline := by
        intro b hb hnl
        rcases List.mem_append.mp hb with hb | hb
        · rw [List.eq_of_mem_replicate hb] at hnl
          exact absurd hnl (by decide)
        · exact hP (hnl ▸ hb)
      have hfirst := prefix_unique (f := fun b => b ≠ newline) heq (fun b hb hnl => hP (hnl ▸ hb)) (fun h => h rfl)
        hfront (fun h => h rfl)
      have := congrArg List.length hfirst.1
      rw [List.length_append, List.length_replicate] at this
      omega
  | @atSpace c c' X P Q O x h hO ih =>
    obtain ⟨hX, hx, -⟩ := h.of_space
    have hdark' : EndsDark (skip false Q) := ((hX ▸ hdark).of_space hx).skip false
    constructor
    · intro heq
      simp only [hX, chars_append, chars_cons, chars_lineBreak, newLine, List.append_assoc,
        List.append_cancel_left_eq, List.cons_append, List.cons.injEq] at heq
      exact absurd heq.1.symm h.char_ne_newline
    · intro hc heq
      subst hc
      obtain ⟨B, hBR, hB, hR, hkept⟩ := indent_of_atSpace hdark h hO heq
      exact ⟨B, _, hBR, hB, hR, (ih hdark').1 hkept⟩

/-- A text that comes out as it went in is one of those. -/
theorem kept_of_wraps (h : Wraps false c X O c') (hdark : EndsDark X) (heq : chars O = chars X) : Kept c X c' :=
  (kept_of_wraps' h hdark).1 heq

/-- An indented text: its line ends at the 74th blank, and what is left is the text behind the indentation. -/
theorem EndsLine.of_indent {B R : List Cell} (hB : chars B = indent) (hR : DarkLed R) :
    ∃ P x Q, EndsLine false 6 (B ++ R) (.atSpace P x Q) ∧ chars P = List.replicate 73 blank ∧ skip false Q = R := by
  have hlen : B.length = 86 := by
    have hlens := congrArg List.length hB
    rwa [length_chars] at hlens
  obtain ⟨P, x, W, rfl, hP⟩ : ∃ P x W, B = P ++ x :: W ∧ P.length = 73 := by
    refine ⟨B.take 73, B[73], B.drop 74, ?_, by rw [List.length_take]; omega⟩
    rw [List.getElem_cons_drop, List.take_append_drop]
  have hsplit : chars P ++ x.char :: chars W
      = List.replicate 73 blank ++ blank :: (List.replicate 5 blank ++ newLine) := by
    rw [← chars_cons, ← chars_append, hB]
    rfl
  obtain ⟨hcharsP, hrest⟩ := List.append_inj hsplit (by rw [length_chars, hP, List.length_replicate])
  obtain ⟨hx, hW⟩ := List.cons.injEq _ _ _ _ ▸ hrest
  have hX : (P ++ x :: W) ++ R = P ++ x :: (W ++ R) := by rw [List.append_assoc, List.cons_append]
  have hlong : kLineLength ≤ 6 + (bytes false ((P ++ x :: W) ++ R)).length := by
    rw [bytes_false, length_chars, List.length_append, hlen]
    simp only [kLineLength]
    omega
  refine ⟨P, x, W ++ R, .atSpace hX (by rw [hx]; decide) ?_ ?_ ?_ hlong, hcharsP,
    skip_append (hW ▸ (white_replicate 5).append white_newLine) hR⟩
  · rw [col_false, hP]
    decide
  · rw [col_false, hP]
    decide
  · intro P' x' Q' hX' hx' hcol'
    rw [col_false] at hcol'
    have hlt : P'.length < 79 := by
      simp only [kLineLength] at hcol'
      omega
    -- up to the last column there are only blanks
    have hblank : x'.char = blank := by
      have hat : (chars ((P ++ x :: W) ++ R))[P'.length]? = some x'.char := by
        rw [hX', getElem?_cell]
      rw [chars_append, hB, indent, List.append_assoc, List.getElem?_append_left (by
        rw [List.length_replicate]
        exact hlt), List.getElem?_replicate_of_lt hlt] at hat
      exact (Option.some.inj hat).symm
    refine ⟨by rw [hblank]; decide, ?_⟩
    rw [hP]
    simp only [kLineLength] at hcol'
    omega

/-- **Such a text comes out as it went in**, and ends in the column that `Kept` says. -/
theorem Kept.wraps {k : Nat} (hk : Kept c X k) (h : Wraps false c X O c') : chars O = chars X ∧ c' = k := by
  induction hk generalizing O with
  | whole he =>
    obtain ⟨rfl, rfl⟩ := h.of_whole he
    rw [bytes_false]
    exact ⟨rfl, rfl⟩
  | rest he =>
    obtain ⟨rfl, rfl⟩ := h.of_rest he
    exact ⟨rfl, rfl⟩
  | atNewline he hB hR _ ih =>
    obtain ⟨P', x', Q', he₂, hP', hskip⟩ := EndsLine.of_indent hB hR
    obtain ⟨O₁, hO₁, rfl⟩ := h.of_newline he
    obtain ⟨O₂, hO₂, rfl⟩ := hO₁.of_space he₂
    obtain ⟨hchars, hcol⟩ := ih (hskip ▸ hO₂)
    refine ⟨?_, hcol⟩
    -- the two new lines and the blanks between them are the newline and the indentation of the text
    obtain ⟨rfl, hx, -, -⟩ := he.of_newline
    simp only [chars_append, chars_lineBreak, chars_cons, hx, hP', hB, hchars, List.append_assoc]
    rfl

end Thirdparty.Gflags
