import Thirdparty.Core.Bytes
import Mathlib.Tactic.Common

/-!
# `Core.CharArray` — fixed `char` arrays, and output streams over them

A `char buf[n]` is a vector of `n` bytes; every access states its index, and an index outside the array gives
`none` (the C program's behaviour is undefined there). A `std::ostrstream` constructed over such an array
stores at most `capacity` bytes, drops the rest, and writes no terminator.

## Contents
- `CharArray`: `load?` / `store?` / `blit` / `cString?` (the scan of a C string, which must end inside the array).
- `FixedStream`: the stream; its bounds are fields, so a stream that overran its array cannot be built.
- `FixedStream.contents_write` / `FixedStream.Clean.write`: what a write appends, and that it leaves the bytes
  beyond `pcount` as they were.
-/

namespace Thirdparty

/-- A `char` array of `n` bytes. -/
abbrev CharArray (n : Nat) := Vector Byte n

namespace CharArray

variable {n : Nat}

/-- An array in static storage: all bytes zero. -/
def zeros (n : Nat) : CharArray n := Vector.replicate n nul

/-- The value of `a[i]`. -/
def load? (a : CharArray n) (i : Nat) : Option Byte := a.toList[i]?

/-- `a[i] = c`. -/
def store? (a : CharArray n) (i : Nat) (c : Byte) : Option (CharArray n) :=
  if h : i < n then some (a.set i c) else none

/-- The C string at `a + p`: the bytes up to the first NUL, which the scan must find inside the array. -/
def cString? (a : CharArray n) (p : Nat) : Option Bytes :=
  if nul ∈ a.toList.drop p then some (cStr (a.toList.drop p)) else none

/-- Text followed by zeros is a C string as soon as there is one zero. -/
theorem cString?_zeros {a : CharArray n} {p k : Nat} {s : Bytes}
    (h : a.toList.drop p = s ++ List.replicate k nul) (hs : nul ∉ s) :
    a.cString? p = if k = 0 then none else some s := by
  unfold cString?
  rw [h]
  cases k with
  | zero => simpa using hs
  | succ k => rw [if_pos (by simp [List.replicate_succ]), List.replicate_succ, cStr_append_nul hs]; rfl

theorem store?_eq_some {a : CharArray n} {i : Nat} (h : i < n) (c : Byte) :
    a.store? i c = some (a.set i c) := dif_pos h

/-- The bytes `s` written from `a + p` on. -/
def blit (a : CharArray n) (p : Nat) (s : Bytes) (h : p + s.length ≤ n) : CharArray n :=
  ⟨(a.toList.take p ++ s ++ a.toList.drop (p + s.length)).toArray, by simp; omega⟩

theorem toList_blit (a : CharArray n) (p : Nat) (s : Bytes) (h : p + s.length ≤ n) :
    (a.blit p s h).toList = a.toList.take p ++ s ++ a.toList.drop (p + s.length) := rfl

/-- A C string may hold a NUL of its own, and then ends there. -/
theorem cString?_of_toList {a : CharArray n} {s rest : Bytes} (h : a.toList = s ++ nul :: rest) :
    a.cString? 0 = some (cStr s) := by
  rw [cString?, List.drop_zero, h, if_pos (by simp), cStr_append]

end CharArray

/-- A `std::ostrstream` over a fixed array: `pcount` bytes stored so far, at most `capacity`. -/
structure FixedStream (n : Nat) where
  buf : CharArray n
  capacity : Nat
  pcount : Nat
  capacity_le : capacity ≤ n
  pcount_le : pcount ≤ capacity

namespace FixedStream

variable {n : Nat}

/-- A new stream over an array in static storage. -/
def blank (capacity : Nat) (h : capacity ≤ n) : FixedStream n :=
  { buf := CharArray.zeros n, capacity, pcount := 0, capacity_le := h, pcount_le := Nat.zero_le _ }

/-- Put one byte: stored while there is room, dropped afterwards. -/
def put (s : FixedStream n) (c : Byte) : FixedStream n :=
  if h : s.pcount < s.capacity then
    { s with
      buf := s.buf.set s.pcount c (Nat.lt_of_lt_of_le h s.capacity_le)
      pcount := s.pcount + 1
      pcount_le := h }
  else s

/-- `operator<<` of a piece of text. -/
def write (s : FixedStream n) (text : Bytes) : FixedStream n := text.foldl put s

/-- The bytes stored so far. -/
def contents (s : FixedStream n) : Bytes := s.buf.toList.take s.pcount

/-- Nothing was stored beyond `pcount`: the rest of the array still holds its initial zeros. -/
def Clean (s : FixedStream n) : Prop :=
  s.buf.toList.drop s.pcount = List.replicate (n - s.pcount) nul

@[simp] theorem write_nil (s : FixedStream n) : s.write [] = s := rfl

@[simp] theorem write_cons (s : FixedStream n) (c : Byte) (text : Bytes) :
    s.write (c :: text) = (s.put c).write text := rfl

theorem write_append (s : FixedStream n) (a b : Bytes) :
    s.write (a ++ b) = (s.write a).write b := List.foldl_append

@[simp] theorem capacity_blank {capacity : Nat} (h : capacity ≤ n) :
    (blank capacity h).capacity = capacity := rfl

@[simp] theorem pcount_blank {capacity : Nat} (h : capacity ≤ n) :
    (blank capacity h).pcount = 0 := rfl

@[simp] theorem contents_blank {capacity : Nat} (h : capacity ≤ n) :
    (blank capacity h).contents = [] := rfl

@[simp] theorem length_contents (s : FixedStream n) : s.contents.length = s.pcount := by
  have hle := Nat.le_trans s.pcount_le s.capacity_le
  simp [contents, hle]

theorem put_full {s : FixedStream n} (h : ¬s.pcount < s.capacity) (c : Byte) : s.put c = s :=
  dif_neg h

@[simp] theorem capacity_put (s : FixedStream n) (c : Byte) : (s.put c).capacity = s.capacity := by
  unfold put; split <;> rfl

@[simp] theorem capacity_write (s : FixedStream n) (text : Bytes) :
    (s.write text).capacity = s.capacity := by
  induction text generalizing s with
  | nil => rfl
  | cons c text ih => rw [write_cons, ih, capacity_put]

theorem pcount_put {s : FixedStream n} (h : s.pcount < s.capacity) (c : Byte) :
    (s.put c).pcount = s.pcount + 1 := by
  simp [put, h]

theorem contents_put {s : FixedStream n} (h : s.pcount < s.capacity) (c : Byte) :
    (s.put c).contents = s.contents ++ [c] := by
  have hn : s.pcount < s.buf.toList.length := by
    have := s.capacity_le
    simp; omega
  simp only [put, h, dite_true, contents, Vector.toList_set]
  rw [List.take_add_one, List.take_set_of_le (Nat.le_refl _)]
  simp [List.getElem?_set_self hn]

/-- A write appends what still fits. -/
theorem contents_write (s : FixedStream n) (text : Bytes) :
    (s.write text).contents = s.contents ++ text.take (s.capacity - s.pcount) := by
  induction text generalizing s with
  | nil => simp
  | cons c text ih =>
    rw [write_cons, ih, capacity_put]
    by_cases h : s.pcount < s.capacity
    · have hroom : s.capacity - s.pcount = (s.capacity - (s.pcount + 1)) + 1 := by omega
      rw [contents_put h, pcount_put h, hroom, List.take_succ_cons, List.append_assoc]
      rfl
    · rw [put_full h]
      have hroom : s.capacity - s.pcount = 0 := by omega
      simp [hroom]

/-- From an empty stream, a write stores the first `capacity` bytes. -/
theorem contents_write_blank {capacity : Nat} (h : capacity ≤ n) (text : Bytes) :
    ((blank capacity h).write text).contents = text.take capacity := by
  rw [contents_write]
  simp

/-- The array is its contents followed by the untouched rest. -/
theorem contents_append_rest (s : FixedStream n) :
    s.contents ++ s.buf.toList.drop s.pcount = s.buf.toList := List.take_append_drop _ _

theorem Clean.toList {s : FixedStream n} (h : s.Clean) :
    s.buf.toList = s.contents ++ List.replicate (n - s.pcount) nul := by
  rw [← h, contents_append_rest]

theorem clean_blank {capacity : Nat} (h : capacity ≤ n) : (blank capacity h).Clean := by
  simp [Clean, blank, CharArray.zeros]

theorem Clean.put {s : FixedStream n} (h : s.Clean) (c : Byte) : (s.put c).Clean := by
  by_cases hroom : s.pcount < s.capacity
  · have hdrop : s.buf.toList.drop (s.pcount + 1) = List.replicate (n - (s.pcount + 1)) nul := by
      have hd := congrArg (List.drop 1) h
      rw [List.drop_drop, List.drop_replicate] at hd
      rw [hd, Nat.sub_sub]
    simp only [Clean, FixedStream.put, hroom, dite_true, Vector.toList_set]
    rw [List.drop_set_of_lt (Nat.lt_succ_self _), hdrop]
  · rw [put_full hroom]; exact h

theorem Clean.write {s : FixedStream n} (h : s.Clean) (text : Bytes) : (s.write text).Clean := by
  induction text generalizing s with
  | nil => exact h
  | cons c text ih => exact ih (h.put c)

end FixedStream

end Thirdparty
