import Mathlib.Data.List.TakeWhile

/-!
# `Core.Bytes` — byte strings and the C character functions

Program text is handled as lists of bytes (`char` values as unsigned octets). A `std::string` is any list; a
C string is what `%s` or `strlen` sees of one, the bytes before the first NUL (`cStr`).

## Contents
- `lit` / `decimal` / `setw`: ASCII literals, decimal output and `std::setw` padding.
- `isspace`, `newline`, `nul`: the character tests, in the "C" locale; `White` and `NoSpace` for all of a string.
- `cStr`: the part of a string before its first NUL.
-/

namespace Thirdparty

/-- A `char`, as an unsigned octet. -/
abbrev Byte := UInt8

/-- A byte string. -/
abbrev Bytes := List Byte

/-- The bytes of an ASCII literal. -/
def lit (s : String) : Bytes := s.toList.map fun c => UInt8.ofNat c.toNat

/-- `'\0'`. -/
def nul : Byte := 0

/-- `'\n'`. -/
def newline : Byte := 10

/-- `' '`. -/
def blank : Byte := 32

/-- `isspace` in the "C" locale: blank, and `\t \n \v \f \r`. -/
def isspace (c : Byte) : Bool := c == blank || (9 ≤ c && c ≤ 13)

@[simp] theorem isspace_newline : isspace newline = true := rfl
@[simp] theorem isspace_blank : isspace blank = true := rfl

/-- All of it is white space. -/
def White (s : Bytes) : Prop := ∀ b ∈ s, isspace b = true

/-- None of it is white space. -/
def NoSpace (s : Bytes) : Prop := ∀ b ∈ s, isspace b = false

instance (s : Bytes) : Decidable (White s) := List.decidableBAll _ s

instance (s : Bytes) : Decidable (NoSpace s) := List.decidableBAll _ s

theorem White.append {s s' : Bytes} (h : White s) (h' : White s') : White (s ++ s') := fun b hb =>
  (List.mem_append.mp hb).elim (h b) (h' b)

theorem White.cons {s : Bytes} {b : Byte} (hb : isspace b = true) (h : White s) : White (b :: s) := by
  intro b' hb'
  rcases List.mem_cons.mp hb' with rfl | hb'
  · exact hb
  · exact h b' hb'

theorem white_replicate (n : Nat) : White (List.replicate n blank) := by
  intro b hb
  rw [List.eq_of_mem_replicate hb]
  decide

/-- A non-negative or negative `int` as `operator<<` prints it in base ten. -/
def decimal (n : Int) : Bytes := lit (toString n)

/-- `setw(width)` with fill character `fill`, for one item of output: padding goes on the left. -/
def setw (width : Nat) (fill : Byte) (item : Bytes) : Bytes :=
  List.replicate (width - item.length) fill ++ item

/-- What `c_str()` gives to a consumer of C strings: the bytes before the first NUL. -/
def cStr (s : Bytes) : Bytes := s.takeWhile (· ≠ nul)

theorem mem_of_mem_cStr {s : Bytes} {c : Byte} (h : c ∈ cStr s) : c ∈ s :=
  List.takeWhile_subset _ h

/-- A string without NUL is its own C string. -/
theorem cStr_of_notMem {s : Bytes} (h : nul ∉ s) : cStr s = s := by
  rw [cStr, List.takeWhile_eq_self_iff]
  intro c hc
  have hne : c ≠ nul := by
    intro he
    exact h (he ▸ hc)
  simpa using hne

/-- Nothing behind a NUL is read. -/
theorem cStr_append (s rest : Bytes) : cStr (s ++ nul :: rest) = cStr s := by
  induction s with
  | nil => simp [cStr]
  | cons c s ih =>
    by_cases hc : c = nul
    · simp [cStr, hc]
    · simpa [cStr, hc] using ih

/-- Reading stops at the first NUL, whatever follows. -/
theorem cStr_append_nul {s : Bytes} (h : nul ∉ s) (rest : Bytes) : cStr (s ++ nul :: rest) = s := by
  rw [cStr_append, cStr_of_notMem h]

/-- Only a string that begins with NUL is empty to a consumer of C strings. -/
theorem cStr_ne_nil {c : Byte} (hc : c ≠ nul) (s : Bytes) : cStr (c :: s) ≠ [] := by
  simp [cStr, hc]

end Thirdparty
