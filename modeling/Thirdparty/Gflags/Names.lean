import Thirdparty.Gflags.HelpColour

/-!
# `Gflags.Names` — flags whose name is a word

The `DEFINE_` macros make the name of a flag from an identifier, so it has no white space. Then all that counts is
the first line: behind its end there are no more escape sequences, or nothing is left to break at. The condition can
be read off the text and the column it ends in.

## Contents
- `Unmarked`: texts without escape sequences; `alike_iff_of_wraps`: only the columns are left to compare.
- `white_cell`: where a flag with such a name has white space.
- `Room`: the first line has room for both escape sequences.
- `wrappedAlike_iff`: the condition for such a name.
-/

namespace Thirdparty.Gflags

variable {extra c k : Nat} {X O : List Cell}

/-! ## Texts without escape sequences -/

/-- No escape sequence is in the text. -/
def Unmarked (X : List Cell) : Prop := ∀ x ∈ X, x.mark = []

theorem Unmarked.of_append {P Q : List Cell} (h : Unmarked (P ++ Q)) : Unmarked P ∧ Unmarked Q :=
  ⟨fun x hx => h x (List.mem_append_left _ hx), fun x hx => h x (List.mem_append_right _ hx)⟩

theorem unmarked_plainText (s : Bytes) : Unmarked (plainText s) := by
  intro x hx
  obtain ⟨b, -, rfl⟩ := List.mem_map.mp hx
  rfl

theorem bytes_unmarked (h : Unmarked X) : bytes true X = chars X := by
  induction X with
  | nil => rfl
  | cons x X ih =>
    rw [bytes_cons, shown_true, h x List.mem_cons_self, ih fun y hy => h y (List.mem_cons_of_mem _ hy)]
    rfl

theorem col_unmarked {P Q : List Cell} {x : Cell} (h : Unmarked (P ++ x :: Q)) : col true P x = P.length := by
  rw [col, shown_true, h x (by simp), bytes_unmarked h.of_append.1, length_chars, List.length_nil, Nat.add_zero]

theorem skip_unmarked (h : Unmarked X) : skip true X = skip false X := by
  induction X with
  | nil => rfl
  | cons x X ih =>
    have hmark : x.mark = [] := h x List.mem_cons_self
    rw [skip, skip, List.dropWhile_cons, List.dropWhile_cons, ← skip, ← skip,
      ih fun y hy => h y (List.mem_cons_of_mem _ hy), shown_true, shown_false, hmark]

theorem EndsLine.unmarked {e : LineEnd} (h : EndsLine false c X e) (hX : Unmarked X) : EndsLine true c X e := by
  have hbytes : bytes true X = bytes false X := by rw [bytes_unmarked hX, bytes_false]
  cases h with
  | whole hnl hfits => exact .whole hnl (hbytes ▸ hfits)
  | atNewline hX' hx hP hcol =>
    rw [col_false, ← col_unmarked (hX' ▸ hX)] at hcol
    exact .atNewline hX' hx hP hcol
  | atSpace hX' hx hpos hcol hlast hlong =>
    have hcol' := hcol
    rw [col_false, ← col_unmarked (hX' ▸ hX)] at hcol'
    exact (EndsLine.atSpace hX' hx hpos hcol hlast hlong).coloured_space hcol'
  | rest hnone hlong =>
    refine .rest ?_ (hbytes ▸ hlong)
    intro P x Q hX' hx hcol
    show _ ∧ col true P x = 0
    rw [col_unmarked (hX' ▸ hX), ← col_false P x] at hcol ⊢
    exact hnone P x Q hX' hx hcol

/-- Without escape sequences, the same is put out. -/
theorem Wraps.unmarked (h : Wraps false c X O k) (hX : Unmarked X) : Wraps true c X O k := by
  induction h with
  | whole h =>
    rw [bytes_false, ← bytes_unmarked hX]
    exact .whole (h.unmarked hX)
  | rest h => exact .rest (h.unmarked hX)
  | atNewline h _ ih =>
    have hQ := (h.of_newline.1 ▸ hX).of_append.2
    exact .atNewline (h.unmarked hX) (ih fun y hy => hQ y (List.mem_cons_of_mem _ hy))
  | @atSpace c k X P Q O x h hO ih =>
    have hQ : Unmarked Q := by
      intro y hy
      exact (h.of_space.1 ▸ hX).of_append.2 y (List.mem_cons_of_mem _ hy)
    have hskip : Unmarked (skip false Q) := by
      intro y hy
      exact hQ y ((List.dropWhile_sublist _).mem hy)
    apply Wraps.atSpace (h.unmarked hX)
    rw [skip_unmarked hQ]
    exact ih hskip

/-- Where the same is put out, only the columns of the added strings count. -/
theorem alike_iff_of_wraps {vs : List Bytes} (hdark : EndsDark X) (h : Wraps false c X O k)
    (h' : Wraps true c X O k) :
    Alike extra (vs.map List.length) c X ↔ BreakAlike extra k k (vs.map List.length) := by
  rw [← added_eq_iff vs]
  constructor
  · intro halike
    exact List.append_cancel_left (halike.shown_eq h h')
  · intro heq
    exact alike_of_shown_eq hdark h h' (by rw [heq])

/-! ## Where the white space is -/

variable {flag : CommandLineFlagInfo}

/-- The name has no white space. -/
def Word (flag : CommandLineFlagInfo) : Prop := NoSpace (cStr flag.name)

instance (flag : CommandLineFlagInfo) : Decidable (Word flag) := inferInstanceAs (Decidable (NoSpace _))

theorem isspace_of_mem_plainText {s : Bytes} (h : NoSpace s) {x : Cell} (hx : x ∈ plainText s) :
    isspace x.char = false := by
  obtain ⟨b, hb, rfl⟩ := List.mem_map.mp hx
  exact h b hb

theorem length_plainText (s : Bytes) : (plainText s).length = s.length := List.length_map _

/-- The text in front of the second escape sequence. -/
def nameText (flag : CommandLineFlagInfo) : List Cell :=
  plainText (lit "    ") ++ nameBegin :: plainText (lit "-" ++ cStr flag.name)

/-- The text behind it. -/
def descriptionText (flag : CommandLineFlagInfo) : List Cell :=
  plainText (lit "(" ++ cStr flag.description ++ lit ")")

theorem mainText_eq (flag : CommandLineFlagInfo) :
    mainText flag = nameText flag ++ nameEnd :: descriptionText flag := by
  rw [nameText, List.append_assoc]
  rfl

theorem length_bytes_nameText (flag : CommandLineFlagInfo) :
    (bytes true (nameText flag)).length = (nameText flag).length + (colorBegin true).length := by
  rw [nameText, bytes_append, bytes_cons, bytes_plainText, bytes_plainText]
  have hmark : nameBegin.shown true = colorBegin true := rfl
  simp only [List.length_append, List.length_cons, length_plainText, hmark]
  omega

/-- In front of the second escape sequence, only the four blanks are white space. -/
theorem white_nameText (hword : Word flag) {P Q : List Cell} {x : Cell} (h : nameText flag = P ++ x :: Q)
    (hx : isspace x.char = true) : P.length < 4 ∧ x.char = blank ∧ col true P x = P.length := by
  rcases Trace.append_eq_append_cons h with ⟨mid, hmid⟩ | ⟨mid, -, hmid⟩
  · have hblanks : lit "    " = List.replicate 4 blank := rfl
    have hlen := congrArg List.length hmid
    rw [length_plainText, hblanks, List.length_replicate, List.length_append, List.length_cons] at hlen
    obtain ⟨b, hb, rfl⟩ := List.mem_map.mp (hmid ▸ by simp : x ∈ plainText (lit "    "))
    exact ⟨by omega, List.eq_of_mem_replicate (hblanks ▸ hb), col_unmarked (hmid ▸ unmarked_plainText _)⟩
  · -- the name and the two dashes are no white space
    exfalso
    have hname : NoSpace (lit "-" ++ cStr flag.name) := by
      intro b hb
      rcases List.mem_append.mp hb with hb | hb
      · rw [List.mem_singleton.mp hb]
        decide
      · exact hword b hb
    have hmem : x ∈ nameBegin :: plainText (lit "-" ++ cStr flag.name) := by rw [hmid]; simp
    rcases List.mem_cons.mp hmem with rfl | hmem
    · cases hx
    · rw [isspace_of_mem_plainText hname hmem] at hx
      cases hx

/-- Behind the name, both escape sequences are counted, and none is left. -/
theorem col_behind_name {P Q : List Cell} {x : Cell} (h : nameEnd :: descriptionText flag = P ++ x :: Q) :
    col true (nameText flag ++ P) x = (nameText flag ++ P).length + marksLength ∧ Unmarked Q := by
  have hplain : Unmarked (descriptionText flag) := unmarked_plainText _
  have hcol : col true P x = P.length + (colorEnd true).length ∧ Unmarked Q := by
    cases P with
    | nil =>
      obtain ⟨rfl, rfl⟩ := List.cons.inj h
      exact ⟨(Nat.zero_add _).symm, hplain⟩
    | cons y P =>
      obtain ⟨rfl, htail⟩ := List.cons.inj h
      rw [htail] at hplain
      refine ⟨?_, fun z hz => hplain.of_append.2 z (List.mem_cons_of_mem _ hz)⟩
      have hrest := col_unmarked hplain
      have hmark : nameEnd.shown true = colorEnd true := rfl
      rw [col, bytes_cons, hmark, List.length_append, List.length_cons, List.length_cons]
      rw [col] at hrest
      omega
  refine ⟨?_, hcol.2⟩
  have hsum := hcol.1
  rw [col] at hsum
  rw [col, bytes_append, List.length_append, length_bytes_nameText, List.length_append, marksLength]
  omega

/-- White space stands in front of both escape sequences, or behind the first of them. -/
theorem white_cell (hword : Word flag) {P Q : List Cell} {x : Cell} (h : mainText flag = P ++ x :: Q)
    (hx : isspace x.char = true) :
    (P.length < 4 ∧ x.char = blank ∧ col true P x = P.length) ∨
      (col true P x = P.length + marksLength ∧ Unmarked Q) := by
  rw [mainText_eq] at h
  rcases Trace.append_eq_append_cons h with ⟨mid, hmid⟩ | ⟨mid, rfl, hmid⟩
  · exact .inl (white_nameText hword hmid hx)
  · exact .inr (col_behind_name hmid)

/-- The text begins with white space. -/
theorem leading_blank (flag : CommandLineFlagInfo) {i : Nat} (hi : i < 4) :
    ∃ P x Q, mainText flag = P ++ x :: Q ∧ isspace x.char = true ∧ P.length = i ∧ col true P x = i := by
  refine ⟨plainText (List.replicate i blank), Cell.plain blank, plainText (List.replicate (3 - i) blank) ++
    nameBegin :: (plainText (lit "-" ++ cStr flag.name) ++ nameEnd :: descriptionText flag), ?_, rfl, ?_, ?_⟩
  · have hblanks : lit "    " = List.replicate i blank ++ blank :: List.replicate (3 - i) blank := by
      rw [← List.replicate_succ, List.replicate_append_replicate]
      have hsum : i + (3 - i + 1) = 4 := by omega
      rw [hsum]
      rfl
    rw [mainText, hblanks, plainText, List.map_append, List.map_cons, ← plainText, ← plainText, List.append_assoc]
    rfl
  · rw [length_plainText, List.length_replicate]
  · rw [col, bytes_plainText, List.length_replicate]
    rfl

theorem not_rest {colour : Bool} : ¬ EndsLine colour 0 (mainText flag) .rest := by
  intro h
  obtain ⟨P, x, Q, hX, hx, hP, hcol⟩ := leading_blank flag (show 1 < 4 by decide)
  cases h with
  | rest hnone =>
    have hcol' : col colour P x = 1 := by
      cases colour with
      | false => rw [col_false, hP]
      | true => exact hcol
    have hzero : col colour P x = 0 := (hnone P x Q hX hx (by rw [hcol']; decide)).2
    rw [hcol'] at hzero
    cases hzero

/-! ## Behind the first line -/

theorem skip_of_darkLed {colour : Bool} (h : DarkLed X) : skip colour X = X := by
  obtain ⟨x, X', rfl, hx⟩ := h
  rw [skip, List.dropWhile_cons_of_neg (by simp [hx])]

/-- The first line does not end before the fourth blank. -/
theorem three_le {P Q : List Cell} {x : Cell} (h : EndsLine false 0 (mainText flag) (.atSpace P x Q)) :
    3 ≤ P.length := by
  obtain ⟨P', x', Q', hX', hx', hP', -⟩ := leading_blank flag (show 3 < 4 by decide)
  cases h with
  | atSpace _ _ _ _ hlast =>
    rw [← hP']
    exact (hlast P' x' Q' hX' hx' (by rw [col_false, hP']; decide)).2

/-- Behind the fourth blank comes the name. -/
theorem behind_blanks {P Q : List Cell} {x : Cell} (hX : mainText flag = P ++ x :: Q) (hP : P.length = 3) :
    ∃ R, Q = nameBegin :: R := by
  have hsplit : (P ++ [x]) ++ Q = plainText (lit "    ") ++ nameBegin :: (plainText (lit "-" ++ cStr flag.name)
      ++ nameEnd :: descriptionText flag) := by
    rw [List.append_assoc]
    exact hX.symm
  refine ⟨_, (List.append_inj hsplit ?_).2⟩
  rw [List.length_append, hP]
  rfl

/-- A first line that ends in front of the name: the name is too long, and there is nothing to break the rest at. -/
theorem rest_of_long {P Q : List Cell} {x : Cell}
    (h : EndsLine false 0 (mainText flag) (.atSpace P x Q)) (hP : P.length < 4) (colour : Bool) :
    DarkLed Q ∧ EndsLine colour 6 Q .rest := by
  have hthree : P.length = 3 := Nat.le_antisymm (Nat.le_of_lt_succ hP) (three_le h)
  obtain ⟨R, hR⟩ := behind_blanks h.of_space.1 hthree
  cases h with
  | atSpace hX hx hpos hcol hlast hlong =>
    have hspaces : SpacesMeet colour 6 Q fun P x => col colour P x = 0 := by
      intro P' y Q' hQ' hy hcol'
      -- as white space behind the fourth blank, `y` is not on the first line
      have hcell : mainText flag = (P ++ x :: P') ++ y :: Q' := by rw [hX, hQ', List.append_assoc, List.cons_append]
      have hlen : (P ++ x :: P').length = 4 + P'.length := by
        rw [List.length_append, List.length_cons, hthree]
        omega
      have hfar : 80 ≤ 4 + P'.length := by
        by_contra hlt
        have hle : (P ++ x :: P').length ≤ P.length :=
          (hlast _ _ _ hcell hy (by rw [col_false, hlen, kLineLength]; omega)).2
        omega
      have hle := length_le_col colour P' y
      simp only [kLineLength] at hcol'
      omega
    have hlen : kLineLength ≤ 6 + (bytes colour Q).length := by
      have hle := length_le_bytes colour Q
      rw [bytes_false, length_chars, hX, List.length_append, List.length_cons] at hlong
      omega
    exact ⟨⟨nameBegin, R, hR, by decide⟩, .rest hspaces hlen⟩

/-- Behind a first line that ends at white space, the same is put out with colour and without. -/
theorem wraps_behind (hword : Word flag) {P Q : List Cell} {x : Cell}
    (h : EndsLine false 0 (mainText flag) (.atSpace P x Q)) (hO : Wraps false 6 (skip false Q) O k) :
    skip true Q = skip false Q ∧ Wraps true 6 (skip false Q) O k := by
  obtain ⟨hX, hx, -⟩ := h.of_space
  rcases white_cell hword hX hx with ⟨hP, -, -⟩ | ⟨-, hQ⟩
  · obtain ⟨hled, hrest⟩ := rest_of_long h hP false
    have hrest' := (rest_of_long h hP true).2
    have hfalse : skip false Q = Q := skip_of_darkLed hled
    have htrue : skip true Q = Q := skip_of_darkLed hled
    rw [hfalse] at hO ⊢
    obtain ⟨rfl, rfl⟩ := hO.of_rest hrest
    exact ⟨htrue, .rest hrest'⟩
  · exact ⟨skip_unmarked hQ, hO.unmarked fun y hy => hQ y ((List.dropWhile_sublist _).mem hy)⟩

/-! ## The first line -/

/-- The first line has room for both escape sequences: it ends at a newline that has, or none of the last places on
    it is white space or the end of the text. -/
def Room (text : Bytes) : Prop :=
  newline ∈ text.take (kLineLength - marksLength) ∨
    NoSpace ((text.drop (kLineLength - marksLength)).take marksLength) ∧
      (text.length < kLineLength - marksLength ∨ kLineLength ≤ text.length)

instance (text : Bytes) : Decidable (Room text) := inferInstanceAs (Decidable (_ ∨ _))

/-- All of the text is on the first line, with room for both escape sequences. -/
def OneLine (text : Bytes) : Prop := newline ∉ text ∧ text.length < kLineLength - marksLength

instance (text : Bytes) : Decidable (OneLine text) := inferInstanceAs (Decidable (_ ∧ _))

/-- The first 72 characters. -/
theorem mem_take_iff {s : Bytes} {b : Byte} :
    b ∈ s.take (kLineLength - marksLength) ↔ ∃ i, i < 72 ∧ s[i]? = some b := by
  show b ∈ s.take 72 ↔ _
  rw [List.mem_iff_getElem?]
  simp only [List.getElem?_take, Option.ite_none_right_eq_some]

/-- The last eight places of the first line. -/
theorem mem_last_iff {s : Bytes} {b : Byte} :
    b ∈ (s.drop (kLineLength - marksLength)).take marksLength ↔ ∃ i, 72 ≤ i ∧ i < 80 ∧ s[i]? = some b := by
  show b ∈ (s.drop 72).take 8 ↔ _
  rw [List.mem_iff_getElem?]
  simp only [List.getElem?_take, List.getElem?_drop, Option.ite_none_right_eq_some]
  constructor
  · rintro ⟨i, hi, h⟩
    exact ⟨72 + i, by omega, by omega, h⟩
  · rintro ⟨i, hle, hlt, h⟩
    refine ⟨i - 72, by omega, ?_⟩
    rwa [Nat.add_sub_cancel' hle]

/-- A character of the text, as a cell. -/
theorem exists_cell {X : List Cell} {i : Nat} {b : Byte} (h : (chars X)[i]? = some b) :
    ∃ P x Q, X = P ++ x :: Q ∧ P.length = i ∧ x.char = b := by
  rw [chars, List.getElem?_map, Option.map_eq_some_iff] at h
  obtain ⟨x, hx, rfl⟩ := h
  obtain ⟨hi, rfl⟩ := List.getElem?_eq_some_iff.mp hx
  refine ⟨X.take i, X[i], X.drop (i + 1), ?_, List.length_take_of_le (Nat.le_of_lt hi), rfl⟩
  rw [List.getElem_cons_drop, List.take_append_drop]

theorem mainPart_false (flag : CommandLineFlagInfo) : mainPart false flag = chars (mainText flag) := by
  rw [mainPart_eq, bytes_false]

theorem length_mainPart_true (flag : CommandLineFlagInfo) :
    (bytes true (mainText flag)).length = (chars (mainText flag)).length + marksLength := by
  rw [← mainPart_eq, ← mainPart_false, mainPart, mainPart]
  have hbegin : (colorBegin false).length = 0 := rfl
  have hend : (colorEnd false).length = 0 := rfl
  simp only [List.length_append, marksLength]
  omega

/-! ## The condition for such a name -/

/-- White space on the first line has room for both escape sequences, or stands in front of the name. -/
theorem col_lt_iff (hword : Word flag) {P Q : List Cell} {x : Cell} (h : mainText flag = P ++ x :: Q)
    (hx : isspace x.char = true) : col true P x < kLineLength ↔ P.length < kLineLength - marksLength := by
  rcases white_cell hword h hx with ⟨hP, -, hcol⟩ | ⟨hcol, -⟩
  · rw [hcol]
    exact iff_of_true (Nat.lt_trans hP (by decide)) (Nat.lt_trans hP (by decide))
  · rw [hcol, Nat.lt_sub_iff_add_lt]

/-- The columns that type and values are added in. -/
def AddedAlike (flag : CommandLineFlagInfo) : Prop :=
  BreakAlike marksLength (wrapped false flag).2
    ((wrapped false flag).2 + if OneLine (mainPart false flag) then marksLength else 0)
    ((parts false flag).map List.length)

instance (flag : CommandLineFlagInfo) : Decidable (AddedAlike flag) := decidableBreakAlike _ _ _ _

/-- The first newline has room if and only if the first line has. -/
theorem room_newline {P Q : List Cell} {x : Cell} (he : EndsLine false 0 X (.atNewline P x Q)) :
    Room (chars X) ↔ P.length < kLineLength - marksLength := by
  obtain ⟨rfl, hx, hP, hcol⟩ := he.of_newline
  have hat := getElem?_cell P x Q
  rw [col_false, Nat.zero_add] at hcol
  rw [Room, mem_take_iff]
  constructor
  · rintro (⟨i, hi, hnl⟩ | ⟨hlast, -⟩)
    · -- no newline comes before `x`
      obtain ⟨P', x', Q', hX', rfl, hx'⟩ := exists_cell hnl
      refine Nat.lt_of_le_of_lt ?_ hi
      by_contra hlt
      obtain ⟨M, rfl⟩ := exists_of_length_lt hX'.symm (Nat.lt_of_not_le hlt)
      exact hP (newline_mem_chars hx')
    · by_contra hge
      have hdark := hlast x.char (mem_last_iff.mpr ⟨P.length, Nat.le_of_not_lt hge, hcol, hat⟩)
      rw [isspace_of_newline hx] at hdark
      cases hdark
  · intro hroom
    exact .inl ⟨P.length, hroom, hx ▸ hat⟩

/-- The white space that ends the first line has room if and only if the first line has. -/
theorem room_space {P Q : List Cell} {x : Cell} (he : EndsLine false 0 X (.atSpace P x Q)) :
    Room (chars X) ↔ P.length < kLineLength - marksLength := by
  cases he with
  | atSpace hX hx hpos hcol hlast hlong =>
    have hon : ∀ {P' Q' : List Cell} {x' : Cell}, X = P' ++ x' :: Q' → isspace x'.char = true →
        P'.length < kLineLength → x'.char ≠ newline ∧ P'.length ≤ P.length := by
      intro P' Q' x' hX' hx' hlt
      exact hlast P' x' Q' hX' hx' (by rwa [col_false, Nat.zero_add])
    have hat : (chars X)[P.length]? = some x.char := hX ▸ getElem?_cell P x Q
    rw [col_false, Nat.zero_add] at hcol
    rw [Room, mem_take_iff]
    constructor
    · rintro (⟨i, hi, hnl⟩ | ⟨hdark, -⟩)
      · obtain ⟨P', x', Q', hX', rfl, hx'⟩ := exists_cell hnl
        exact absurd hx' (hon hX' (isspace_of_newline hx') (Nat.lt_trans hi (by decide))).1
      · by_contra hge
        have hnot := hdark x.char (mem_last_iff.mpr ⟨P.length, Nat.le_of_not_lt hge, hcol, hat⟩)
        rw [hx] at hnot
        cases hnot
    · intro hroom
      refine .inr ⟨?_, .inr ?_⟩
      · intro b hb
        -- white space behind `x` would end the line
        obtain ⟨i, hle, hlt, hi⟩ := mem_last_iff.mp hb
        obtain ⟨P', x', Q', hX', rfl, rfl⟩ := exists_cell hi
        by_contra hspace
        have hbefore := (hon hX' (by simpa using hspace) hlt).2
        exact absurd (Nat.lt_of_le_of_lt (Nat.le_trans hle hbefore) hroom) (by decide)
      · rwa [bytes_false, Nat.zero_add] at hlong

/-- **A flag whose name is a word is wrapped alike** if and only if its first line has room, and type and values go
    on new lines alike. -/
theorem wrappedAlike_iff (hword : Word flag) :
    WrappedAlike flag ↔ Room (mainPart false flag) ∧ AddedAlike flag := by
  obtain ⟨O, hO, -⟩ := wrapped_wraps false flag
  have hdark := endsDark_mainText flag
  rw [WrappedAlike, AddedAlike, mainPart_false]
  generalize (wrapped false flag).2 = k at hO ⊢
  cases hO with
  | rest he => exact absurd he not_rest
  | whole he =>
    rw [alike_whole_iff he not_rest, length_mainPart_true, bytes_false, ← Nat.add_assoc, Nat.zero_add]
    cases he with
    | whole hnl hfits =>
      by_cases hroom : (chars (mainText flag)).length < kLineLength - marksLength
      · rw [if_pos ⟨hnl, hroom⟩]
        have hnone : NoSpace (((chars (mainText flag)).drop (kLineLength - marksLength)).take marksLength) := by
          rw [List.drop_of_length_le (Nat.le_of_lt hroom), List.take_nil]
          exact List.forall_mem_nil _
        exact and_congr_left' (iff_of_true (Nat.add_lt_of_lt_sub hroom) (.inr ⟨hnone, .inl hroom⟩))
      · -- 72 to 79 characters: one line without the escape sequences, two with them
        refine iff_of_false (fun h => hroom (Nat.lt_sub_of_add_lt h.1)) ?_
        intro h
        rw [bytes_false, Nat.zero_add] at hfits
        rcases h.1 with hmem | ⟨-, hlt | hge⟩
        · exact hnl (List.mem_of_mem_take hmem)
        · exact hroom hlt
        · omega
  | @atNewline _ _ _ P Q O x he hO =>
    -- no blank of the front is a newline, so both escape sequences are in front of it
    obtain ⟨hX, hx, -, -⟩ := he.of_newline
    have hQ : Unmarked Q := by
      rcases white_cell hword hX (isspace_of_newline hx) with ⟨-, hblank, -⟩ | ⟨-, hQ⟩
      · rw [hx] at hblank
        cases hblank
      · exact hQ
    rw [alike_newline_iff he not_rest, room_newline he, Nat.zero_add, col_lt_iff hword hX (isspace_of_newline hx),
      alike_iff_of_wraps ((hX ▸ hdark).of_space (isspace_of_newline hx)) hO (hO.unmarked hQ),
      if_neg fun h => h.1 (hX ▸ newline_mem_chars hx), Nat.add_zero]
  | @atSpace _ _ _ P Q O x he hO =>
    obtain ⟨hX, hx, -⟩ := he.of_space
    obtain ⟨hskip, hO'⟩ := wraps_behind hword he hO
    -- a line that ends at white space is followed by another, so the strings are added in the same column
    have hlong : ¬ OneLine (chars (mainText flag)) := by
      cases he with
      | atSpace _ _ _ _ _ hlong =>
        rw [bytes_false, Nat.zero_add] at hlong
        intro h
        exact absurd (Nat.lt_of_lt_of_le h.2 (Nat.sub_le _ _)) (Nat.not_lt_of_le hlong)
    rw [alike_space_iff he not_rest, room_space he, Nat.zero_add, col_lt_iff hword hX hx,
      alike_iff_of_wraps (((hX ▸ hdark).of_space hx).skip false) hO hO', if_neg hlong, Nat.add_zero]
    exact and_congr_right' (and_iff_right hskip)

/-- A flag that goes on to a second line, and one that fills the first. -/
theorem wrappedAlike_iff_flags : WrappedAlike levelFlag ∧ ¬ WrappedAlike helpFlag := by
  rw [wrappedAlike_iff (by decide), wrappedAlike_iff (by decide)]
  decide +kernel

end Thirdparty.Gflags
