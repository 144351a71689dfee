import Mathlib.Data.List.Forall2
import Thirdparty.Gflags.Alike

/-!
# `Gflags.HelpColour` — `--help` with colour and without

`DescribeOneFlag` puts escape sequences around the name and the values of a flag when stdout is a terminal. Whether
the description, with the escape sequences deleted, is the one that goes to a file depends on the flag: the escape
sequences are counted like characters, so the lines break earlier where one of them is near the end of a line.

## Contents
- `mainText`: name and description as cells; `mainPart_eq`.
- `parts_shows`: type and values with their escape sequences.
- `stripColor_describeOneFlag`, `describeOneFlag_false`: the two descriptions, in terms of `Wraps`.
- `colour_iff`: they are the same if and only if the flag is wrapped alike.
- `helpFlag_breaks`: gflags' own `--help` is not.
-/

namespace Thirdparty.Gflags

/-! ## Name and description -/

/-- Characters with no escape sequence in front of them. -/
def plainText (s : Bytes) : List Cell := s.map Cell.plain

/-- The `'-'` behind the sequence that sets the colour. -/
def nameBegin : Cell := ⟨colorBegin true, 45, by decide⟩

/-- The blank behind the sequence that takes it back. -/
def nameEnd : Cell := ⟨colorEnd true, blank, by decide⟩

/-- The text that `describeOneFlag` wraps. -/
def mainText (flag : CommandLineFlagInfo) : List Cell :=
  plainText (lit "    ") ++ nameBegin :: (plainText (lit "-" ++ cStr flag.name)
    ++ nameEnd :: plainText (lit "(" ++ cStr flag.description ++ lit ")"))

theorem bytes_plainText (colour : Bool) (s : Bytes) : bytes colour (plainText s) = s := by
  induction s with
  | nil => rfl
  | cons b s ih =>
    rw [plainText, List.map_cons, bytes_cons, ← plainText, ih]
    cases colour <;> rfl

theorem mainPart_eq (colour : Bool) (flag : CommandLineFlagInfo) :
    mainPart colour flag = bytes colour (mainText flag) := by
  rw [mainText, bytes_append, bytes_cons, bytes_append, bytes_cons, bytes_plainText, bytes_plainText, bytes_plainText,
    mainPart]
  cases colour <;> simp only [List.append_assoc] <;> rfl

theorem endsDark_mainText (flag : CommandLineFlagInfo) : EndsDark (mainText flag) := by
  have hend : EndsDark (plainText (lit "(" ++ cStr flag.description ++ lit ")")) := by
    refine ⟨plainText (lit "(" ++ cStr flag.description), Cell.plain 41, ?_, by decide⟩
    rw [plainText, List.map_append]
    rfl
  have hname : EndsDark (nameEnd :: plainText (lit "(" ++ cStr flag.description ++ lit ")")) :=
    hend.append (P := [nameEnd])
  have hbegin := (hname.append (P := plainText (lit "-" ++ cStr flag.name))).append (P := [nameBegin])
  exact hbegin.append

theorem length_mainText_le (flag : CommandLineFlagInfo) (colour : Bool) :
    (mainText flag).length ≤ (mainPart colour flag).length := by
  rw [mainPart_eq]
  exact length_le_bytes colour (mainText flag)

/-! ## The escape sequences -/

/-- The two escape sequences. -/
def marks : List Bytes := [colorBegin true, colorEnd true]

/-- The characters of both. -/
def marksLength : Nat := (colorBegin true).length + (colorEnd true).length

theorem marks_marks : Marks esc marks where
  led := by decide
  unambiguous := by decide

/-- No text of the flag holds `'\033'`. -/
structure NoEscape (flag : CommandLineFlagInfo) : Prop where
  name : esc ∉ flag.name
  type : esc ∉ flag.type
  description : esc ∉ flag.description
  defaultValue : esc ∉ flag.defaultValue
  currentValue : esc ∉ flag.currentValue

variable {flag : CommandLineFlagInfo}

theorem clean_plainText {s : Bytes} (h : esc ∉ s) : Clean esc marks (plainText s) := by
  intro x hx
  obtain ⟨b, hb, rfl⟩ := List.mem_map.mp hx
  exact ⟨.inl rfl, fun hesc => h (hesc ▸ hb)⟩

theorem Clean.append {P Q : List Cell} (hP : Clean esc marks P) (hQ : Clean esc marks Q) :
    Clean esc marks (P ++ Q) := fun x hx => (List.mem_append.mp hx).elim (hP x) (hQ x)

theorem Clean.cons {x : Cell} {P : List Cell} (hmark : x.mark ∈ marks) (hchar : x.char ≠ esc)
    (hP : Clean esc marks P) : Clean esc marks (x :: P) := by
  intro y hy
  rcases List.mem_cons.mp hy with rfl | hy
  · exact ⟨.inr hmark, hchar⟩
  · exact hP y hy

theorem esc_notMem_append {s s' : Bytes} (h : esc ∉ s) (h' : esc ∉ s') : esc ∉ s ++ s' := by
  rw [List.mem_append]
  exact fun hmem => hmem.elim h h'

theorem esc_notMem_cStr {s : Bytes} (h : esc ∉ s) : esc ∉ cStr s := fun hmem => h (mem_of_mem_cStr hmem)

theorem NoEscape.clean_mainText (h : NoEscape flag) : Clean esc marks (mainText flag) := by
  have hname : esc ∉ lit "-" ++ cStr flag.name := esc_notMem_append (by decide) (esc_notMem_cStr h.name)
  have hdescription : esc ∉ lit "(" ++ cStr flag.description ++ lit ")" :=
    esc_notMem_append (esc_notMem_append (by decide) (esc_notMem_cStr h.description)) (by decide)
  apply (clean_plainText (by decide)).append
  apply Clean.cons (by decide) (by decide)
  apply (clean_plainText hname).append
  exact Clean.cons (by decide) (by decide) (clean_plainText hdescription)

/-! ## Type and values -/

/-- With its escape sequences, `p` is `v`, and counts as many characters more. -/
def Shows (p v : Bytes) : Prop := Erases marks p v ∧ p.length = v.length + marksLength

/-- A text with `b` in colour. -/
theorem shows_coloured {a b : Bytes} (ha : esc ∉ a) (hb : esc ∉ b) :
    Shows (a ++ (colorBegin true ++ (b ++ colorEnd true))) (a ++ b) := by
  constructor
  · have hbegin : Erases marks (colorBegin true) [] := erases_mark marks_marks (by decide)
    have hend : Erases marks (colorEnd true) [] := erases_mark marks_marks (by decide)
    have hall := (erases_plain marks_marks ha).append (hbegin.append ((erases_plain marks_marks hb).append hend))
    rwa [List.nil_append, List.append_nil] at hall
  · simp only [List.length_append, marksLength]
    omega

theorem shows_printStringFlagsWithQuotes (h : NoEscape flag) (text : Bytes) (htext : esc ∉ text) (current : Bool) :
    Shows (printStringFlagsWithQuotes true flag text current)
      (printStringFlagsWithQuotes false flag text current) := by
  have hvalue : esc ∉ cStr (if current then flag.currentValue else flag.defaultValue) := by
    cases current with
    | false => exact esc_notMem_cStr h.defaultValue
    | true => exact esc_notMem_cStr h.currentValue
  have hlead : esc ∉ text ++ lit ": " := esc_notMem_append htext (by decide)
  have hquote : esc ∉ lit "\"" := by decide
  have hquotes := esc_notMem_append hquote (esc_notMem_append hvalue hquote)
  rw [printStringFlagsWithQuotes, printStringFlagsWithQuotes]
  by_cases hstring : cStr flag.type = lit "string"
  · rw [if_pos hstring, if_pos hstring]
    simpa [colorBegin, colorEnd] using shows_coloured hlead hquotes
  · rw [if_neg hstring, if_neg hstring]
    simpa [colorBegin, colorEnd] using shows_coloured hlead hvalue

theorem parts_shows (h : NoEscape flag) : List.Forall₂ Shows (parts true flag) (parts false flag) := by
  have htype : Shows (lit "type: " ++ colorBegin true ++ flag.type ++ colorEnd true)
      (lit "type: " ++ colorBegin false ++ flag.type ++ colorEnd false) := by
    simpa [colorBegin, colorEnd] using shows_coloured (a := lit "type: ") (by decide) h.type
  have hdefault := shows_printStringFlagsWithQuotes h (lit "default") (by decide) false
  have hcurrent := shows_printStringFlagsWithQuotes h (lit "currently") (by decide) true
  rw [parts, parts]
  cases flag.isDefault with
  | true => exact .cons htype (.cons hdefault .nil)
  | false => exact .cons htype (.cons hdefault (.cons hcurrent .nil))

/-! ## The two descriptions -/

theorem esc_notMem_separator (c n : Nat) : esc ∉ separator c n := by
  rw [separator]
  split <;> decide

/-- The loop on name and description. -/
def wrapped (colour : Bool) (flag : CommandLineFlagInfo) : Bytes × Nat :=
  wrapLoop ((mainPart colour flag).length + 1) ⟨mainPart colour flag, (mainPart colour flag).length, [], 0⟩

theorem wrapped_wraps (colour : Bool) (flag : CommandLineFlagInfo) :
    ∃ O, Wraps colour 0 (mainText flag) O (wrapped colour flag).2 ∧ (wrapped colour flag).1 = bytes colour O := by
  obtain ⟨O, c, hO, hloop⟩ := wrapLoop_wraps (endsDark_mainText flag) (show 0 < kLineLength by decide)
    (Nat.lt_succ_of_le (length_mainText_le flag colour)) []
  rw [stateOn, ← mainPart_eq, List.nil_append] at hloop
  rw [wrapped, hloop]
  exact ⟨O, hO, rfl⟩

/-- Without colour. -/
theorem describeOneFlag_false (flag : CommandLineFlagInfo) :
    ∃ O, Wraps false 0 (mainText flag) O (wrapped false flag).2 ∧
      describeOneFlag false flag = chars O ++ added 0 (wrapped false flag).2 (parts false flag) ++ [newline] := by
  obtain ⟨O, hO, hshown⟩ := wrapped_wraps false flag
  refine ⟨O, hO, ?_⟩
  have hparts : List.Forall₂ (fun p v : Bytes => p = v ∧ p.length = v.length + 0) (parts false flag)
      (parts false flag) := List.forall₂_same.mpr fun p _ => ⟨rfl, rfl⟩
  have hadded := addStrings_shows (R := Eq) (fun h h' => by rw [h, h']) (fun _ _ => rfl) hparts
    (hshown.trans (bytes_false O)) (wrapped false flag).2
  show addStrings (wrapped false flag).1 (wrapped false flag).2 (parts false flag) ++ [newline] = _
  rw [hadded]

/-- With colour, and without the escape sequences. -/
theorem stripColor_describeOneFlag (h : NoEscape flag) :
    ∃ O, Wraps true 0 (mainText flag) O (wrapped true flag).2 ∧
      stripColor (describeOneFlag true flag) =
        chars O ++ added marksLength (wrapped true flag).2 (parts false flag) ++ [newline] := by
  obtain ⟨O, hO, hshown⟩ := wrapped_wraps true flag
  refine ⟨O, hO, ?_⟩
  have hwrapped : Erases marks (wrapped true flag).1 (chars O) := by
    rw [hshown]
    exact erases_bytes marks_marks (hO.clean (by decide) h.clean_mainText)
  have hadded := addStrings_shows (R := Erases marks) (fun h h' => h.append h')
    (fun c n => erases_plain marks_marks (esc_notMem_separator c n)) (parts_shows h) hwrapped (wrapped true flag).2
  exact (hadded.append (erases_plain marks_marks (by decide))).eq

/-- The flag is wrapped alike with colour and without. -/
def WrappedAlike (flag : CommandLineFlagInfo) : Prop :=
  Alike marksLength ((parts false flag).map List.length) 0 (mainText flag)

/-- **Colour changes nothing but colour if and only if the flag is wrapped alike.** -/
theorem colour_iff (flag : CommandLineFlagInfo) (h : NoEscape flag) :
    stripColor (describeOneFlag true flag) = describeOneFlag false flag ↔ WrappedAlike flag := by
  obtain ⟨O₁, h₁, hfalse⟩ := describeOneFlag_false flag
  obtain ⟨O₂, h₂, htrue⟩ := stripColor_describeOneFlag h
  rw [hfalse, htrue]
  constructor
  · intro heq
    exact alike_of_shown_eq (endsDark_mainText flag) h₁ h₂ (List.append_cancel_right heq).symm
  · intro halike
    rw [halike.shown_eq h₁ h₂]

/-- A flag whose description takes two lines, colour or not. -/
def levelFlag : CommandLineFlagInfo where
  name := lit "v"
  type := lit "int32"
  description := lit "Show all VLOG(m) messages for m <= this. Overridable by --vmodule=<module>=<level>."
  currentValue := lit "0"
  defaultValue := lit "0"
  isDefault := true

/-- The word with `--vmodule` goes on a new line both times. -/
theorem colour_iff_levelFlag :
    stripColor (describeOneFlag true levelFlag) = describeOneFlag false levelFlag :=
  (colour_iff levelFlag ⟨by decide, by decide, by decide, by decide, by decide⟩).mpr
    (.atSpace (P := (mainText levelFlag).take 64) (x := Cell.plain blank)
      (.before_word (W := (mainText levelFlag).drop 65) (R := []) rfl (by decide) (by decide) (by decide)
        (by decide) (by decide) (by decide))
      (by decide) rfl (.whole (by decide) (by decide) (by decide)))

/-- The flag `help` of gflags itself, as `--helpfull` describes it. -/
def helpFlag : CommandLineFlagInfo where
  name := lit "help"
  type := lit "bool"
  description := lit "show help on all flags [tip: all flags can have two dashes]"
  currentValue := lit "false"
  defaultValue := lit "false"
  isDefault := true

/-- The last word fits on the first line when the escape sequences are not counted. -/
theorem helpFlag_breaks : NoEscape helpFlag ∧
    stripColor (describeOneFlag true helpFlag) ≠ describeOneFlag false helpFlag :=
  ⟨⟨by decide, by decide, by decide, by decide, by decide⟩, by decide +kernel⟩

end Thirdparty.Gflags
