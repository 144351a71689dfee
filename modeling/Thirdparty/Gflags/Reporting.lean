import Thirdparty.Core.Bytes
import Thirdparty.Core.Erase

/-!
# `Gflags.Reporting` — how `--help` describes one flag

`DescribeOneFlag` of `gflags_reporting.cc`: the name and the description of a flag, wrapped to lines of less than 80
characters, then its type, its default value and, if it was changed, its current value, each on the line it still
fits on. When stdout is a terminal, the name and the values are put between two escape sequences, which take part in
the wrapping like any other characters.

`ShouldUseColor()` is a parameter here. Lengths are natural numbers; the source keeps them in `int`s, so texts are
taken to be shorter than 2 GiB. Bytes above 127 are no white space (`isspace` in the "C" locale).

## Contents
- `CommandLineFlagInfo`, `colorBegin`, `colorEnd`.
- `addString`, `printStringFlagsWithQuotes`.
- `wrapStep`, `wrapLoop`: the loop over the lines; `describeOneFlag`.
- `stripColor`: a text without the escape sequences.
-/

namespace Thirdparty.Gflags

/-- The fields of `CommandLineFlagInfo` that `DescribeOneFlag` reads. -/
structure CommandLineFlagInfo where
  name : Bytes
  type : Bytes
  description : Bytes
  currentValue : Bytes
  defaultValue : Bytes
  isDefault : Bool

/-- `kLineLength`. -/
def kLineLength : Nat := 80

/-- `'\033'`. -/
def esc : Byte := 27

/-- The sequence that sets the colour: `"\033[32m"`, or nothing. -/
def colorBegin (useColor : Bool) : Bytes := if useColor then esc :: lit "[32m" else []

/-- The sequence that takes it back: `"\033[m"`, or nothing. -/
def colorEnd (useColor : Bool) : Bytes := if useColor then esc :: lit "[m" else []

/-- `"\n      "`, the beginning of a continuation line. -/
def newLine : Bytes := newline :: List.replicate 6 blank

/-! ## `AddString` -/

/-- `AddString`. -/
def addString (s finalString : Bytes) (charsInLine : Nat) : Bytes × Nat :=
  if charsInLine + 1 + s.length ≥ kLineLength then (finalString ++ newLine ++ s, 6 + s.length)
  else (finalString ++ [blank] ++ s, charsInLine + 1 + s.length)

/-- `PrintStringFlagsWithQuotes`; `text` is a literal of the source, the value goes through a `%s`. -/
def printStringFlagsWithQuotes (useColor : Bool) (flag : CommandLineFlagInfo) (text : Bytes) (current : Bool) :
    Bytes :=
  let cString := cStr (if current then flag.currentValue else flag.defaultValue)
  if cStr flag.type = lit "string" then
    text ++ lit ": " ++ colorBegin useColor ++ lit "\"" ++ cString ++ lit "\"" ++ colorEnd useColor
  else text ++ lit ": " ++ colorBegin useColor ++ cString ++ colorEnd useColor

/-! ## The loop over the lines -/

/-- `strchr`, as an index. -/
def strchr : Bytes → Byte → Option Nat
  | [], _ => none
  | b :: s, c => if b = c then some 0 else (strchr s c).map (· + 1)

/-- The search for white space from index `k` down; it stops at 0, whatever is there. -/
def backToSpace (s : Bytes) : Nat → Nat
  | 0 => 0
  | k + 1 => if isspace (s.getD (k + 1) nul) then k + 1 else backToSpace s k

theorem strchr_eq_none {s : Bytes} {c : Byte} : strchr s c = none ↔ c ∉ s := by
  induction s with
  | nil => simp [strchr]
  | cons b s ih =>
    by_cases hb : b = c
    · simp [strchr, hb]
    · simp [strchr, hb, ih, Ne.symm hb]

/-- The index is that of the first occurrence. -/
theorem strchr_eq_some {s : Bytes} {c : Byte} {n : Nat} (h : strchr s c = some n) :
    ∃ p r, s = p ++ c :: r ∧ c ∉ p ∧ p.length = n := by
  induction s generalizing n with
  | nil => cases h
  | cons b s ih =>
    by_cases hb : b = c
    · rw [strchr, if_pos hb] at h
      cases h
      exact ⟨[], s, by rw [hb]; rfl, List.not_mem_nil, rfl⟩
    · rw [strchr, if_neg hb] at h
      obtain ⟨m, hm, rfl⟩ := Option.map_eq_some_iff.mp h
      obtain ⟨p, r, rfl, hp, rfl⟩ := ih hm
      exact ⟨b :: p, r, rfl, by simp [hp, Ne.symm hb], rfl⟩

theorem backToSpace_le (s : Bytes) (k : Nat) : backToSpace s k ≤ k := by
  induction k with
  | zero => exact Nat.le_refl _
  | succ k ih =>
    rw [backToSpace]
    split <;> omega

/-- It stops at white space, or at 0. -/
theorem isspace_backToSpace {s : Bytes} {k : Nat} (h : backToSpace s k ≠ 0) :
    isspace (s.getD (backToSpace s k) nul) = true := by
  induction k with
  | zero => exact absurd rfl h
  | succ k ih =>
    rw [backToSpace] at h ⊢
    split
    · assumption
    · rename_i hspace
      rw [if_neg hspace] at h
      exact ih h

/-- It stops at the last white space. -/
theorem le_backToSpace {s : Bytes} {k i : Nat} (hi : i ≤ k) (h : isspace (s.getD i nul) = true) :
    i ≤ backToSpace s k := by
  induction k with
  | zero => exact hi
  | succ k ih =>
    rw [backToSpace]
    split
    · exact hi
    · rename_i hspace
      rcases Nat.le_succ_iff.mp hi with hle | rfl
      · exact ih hle
      · exact absurd h hspace

/-- The variables of the loop; `cString` is what is left of the text. -/
structure WrapState where
  cString : Bytes
  charsLeft : Nat
  finalString : Bytes
  charsInLine : Nat

/-- The end of the loop body: done if nothing is left, or on to a new line. -/
def WrapState.endLine (s : WrapState) : WrapState ⊕ Bytes × Nat :=
  if s.cString = [] then .inr (s.finalString, s.charsInLine)
  else .inl { s with finalString := s.finalString ++ newLine, charsInLine := 6 }

/-- The branch that breaks the line at white space, or gives up. -/
def WrapState.breakAtSpace (s : WrapState) : WrapState ⊕ Bytes × Nat :=
  let whitespace := backToSpace s.cString (kLineLength - s.charsInLine - 1)
  if whitespace = 0 then .inr (s.finalString ++ s.cString, kLineLength)
  else
    let rest := (s.cString.drop whitespace).dropWhile isspace
    WrapState.endLine
      { cString := rest
        charsLeft := s.charsLeft - (s.cString.length - rest.length)
        finalString := s.finalString ++ s.cString.take whitespace
        charsInLine := s.charsInLine + whitespace }

/-- One round of the loop: the next state, or the text and the column it ends in. -/
def wrapStep (s : WrapState) : WrapState ⊕ Bytes × Nat :=
  match strchr s.cString newline with
  | none =>
    if s.charsInLine + s.charsLeft < kLineLength then
      .inr (s.finalString ++ s.cString, s.charsInLine + s.charsLeft)
    else s.breakAtSpace
  | some n =>
    if n < kLineLength - s.charsInLine then
      WrapState.endLine
        { cString := s.cString.drop (n + 1)
          charsLeft := s.charsLeft - (n + 1)
          finalString := s.finalString ++ s.cString.take n
          charsInLine := s.charsInLine }
    else s.breakAtSpace

/-- The loop, for at most `fuel` rounds. -/
def wrapLoop : Nat → WrapState → Bytes × Nat
  | 0, s => (s.finalString, s.charsInLine)
  | fuel + 1, s =>
    match wrapStep s with
    | .inl s' => wrapLoop fuel s'
    | .inr result => result

/-- The text that is wrapped. -/
def mainPart (useColor : Bool) (flag : CommandLineFlagInfo) : Bytes :=
  lit "    " ++ colorBegin useColor ++ lit "--" ++ cStr flag.name ++ colorEnd useColor
    ++ lit " (" ++ cStr flag.description ++ lit ")"

/-- What is added to it: type, default value, and current value. -/
def parts (useColor : Bool) (flag : CommandLineFlagInfo) : List Bytes :=
  [lit "type: " ++ colorBegin useColor ++ flag.type ++ colorEnd useColor,
    printStringFlagsWithQuotes useColor flag (lit "default") false]
    ++ if flag.isDefault then [] else [printStringFlagsWithQuotes useColor flag (lit "currently") true]

/-- The calls of `AddString`, one after the other. -/
def addStrings (finalString : Bytes) (charsInLine : Nat) (strings : List Bytes) : Bytes :=
  (strings.foldl (fun (r : Bytes × Nat) s => addString s r.1 r.2) (finalString, charsInLine)).1

/-- `DescribeOneFlag`. Every round of the loop but the last takes a character off the text, so the text's length is
    enough fuel (`wrapLoop_wraps`). -/
def describeOneFlag (useColor : Bool) (flag : CommandLineFlagInfo) : Bytes :=
  let text := mainPart useColor flag
  let wrapped := wrapLoop (text.length + 1) ⟨text, text.length, [], 0⟩
  addStrings wrapped.1 wrapped.2 (parts useColor flag) ++ [newline]

/-- Every occurrence of the two escape sequences deleted. -/
def stripColor (s : Bytes) : Bytes := erase [colorBegin true, colorEnd true] s

end Thirdparty.Gflags
