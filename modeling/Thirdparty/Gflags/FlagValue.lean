import Thirdparty.Core.Numerals
import Mathlib.Data.UInt

/-!
# `Gflags.FlagValue` — the values of flags, and their texts

`FlagValue` of `gflags.cc`: a value of one of six types, read from a C string and printed to one. A `double` is its
64 bits; `strtod` and `printf` with `%.17g` are a parameter (`Libc`), the other conversions are those of
`Core.Numerals`.

## Contents
- `ValueType`, `FlagValue`, `typeName`, `equal`, `fresh` (`New`).
- `parseFrom` and `toText` (`ToString`).
- `parseFrom_toText`: the text of a value is read back.
- `Numeral`, `parseFrom_int32`, `parseFrom_int64`, `parseFrom_uint64`: which texts are numbers, exactly.
-/

namespace Thirdparty.Gflags

/-- `FlagValue::ValueType`. -/
inductive ValueType where
  | bool
  | int32
  | int64
  | uint64
  | double
  | string
  deriving DecidableEq

/-- A `double`, as its IEEE 754 encoding. -/
structure Double where
  bits : UInt64
  deriving DecidableEq

namespace Double

/-- All bits of the exponent are set, and one of the fraction. -/
def isNaN (d : Double) : Bool := d.bits &&& 0x7fffffffffffffff > 0x7ff0000000000000

/-- Positive or negative zero. -/
def isZero (d : Double) : Bool := d.bits &&& 0x7fffffffffffffff == 0

/-- `==` of two `double`s. -/
def eq (d e : Double) : Bool := !d.isNaN && !e.isNaN && (d.bits == e.bits || d.isZero && e.isZero)

end Double

/-- The conversions of `double` in the C library. -/
structure Libc where
  strtod : Bytes → Converted Double
  /-- `"%.17g"`. -/
  printDouble : Double → Bytes

/-- What `value_buffer_` points to. -/
abbrev FlagValue : ValueType → Type
  | .bool => Bool
  | .int32 => Int32
  | .int64 => Int64
  | .uint64 => UInt64
  | .double => Double
  | .string => Bytes

namespace FlagValue

/-- `TypeName`. -/
def typeName : ValueType → Bytes
  | .bool => lit "bool"
  | .int32 => lit "int32"
  | .int64 => lit "int64"
  | .uint64 => lit "uint64"
  | .double => lit "double"
  | .string => lit "string"

/-- `Equal`, of two values of one type. -/
def equal : {type : ValueType} → FlagValue type → FlagValue type → Bool
  | .bool, a, b => a == b
  | .int32, a, b => a == b
  | .int64, a, b => a == b
  | .uint64, a, b => a == b
  | .double, a, b => a.eq b
  | .string, a, b => a == b

/-- `New`. -/
def fresh : (type : ValueType) → FlagValue type
  | .bool => false
  | .int32 => (0 : Int32)
  | .int64 => (0 : Int64)
  | .uint64 => (0 : UInt64)
  | .double => Double.mk 0
  | .string => ([] : Bytes)

/-! ## `ParseFrom` and `ToString` -/

/-- `tolower` in the "C" locale. -/
def tolower (b : Byte) : Byte := if 65 ≤ b ∧ b ≤ 90 then b + 32 else b

/-- `strcasecmp(s, t) == 0`. -/
def caseEqual (s t : Bytes) : Bool := s.map tolower == t.map tolower

/-- `kTrue`. -/
def kTrue : List Bytes := [lit "1", lit "t", lit "true", lit "y", lit "yes"]

/-- `kFalse`. -/
def kFalse : List Bytes := [lit "0", lit "f", lit "false", lit "n", lit "no"]

/-- The loop over both arrays. -/
def parseBool (value : Bytes) : List (Bytes × Bytes) → Option Bool
  | [] => none
  | (yes, no) :: spellings =>
    if caseEqual value yes then some true
    else if caseEqual value no then some false
    else parseBool value spellings

/-- Leading `0x` puts us in base 16, but leading `0` does not put us in base 8. -/
def numericBase : Bytes → Nat
  | 48 :: x :: _ => if x = 120 ∨ x = 88 then 16 else 10
  | _ => 10

/-- `ParseFrom`. -/
def parseFrom (libc : Libc) : (type : ValueType) → (value : Bytes) → Option (FlagValue type)
  | .bool, value => parseBool value (kTrue.zip kFalse)
  | .string, value => some value
  | .int32, value =>
    if value = [] then none
    else
      (strtoll (numericBase value) value).whole.bind fun r =>
        if (Int32.ofInt r).toInt ≠ r then none else some (Int32.ofInt r)
  | .int64, value =>
    if value = [] then none
    else (strtoll (numericBase value) value).whole.map Int64.ofInt
  | .uint64, value =>
    if value = [] then none
    else
      let unblanked := value.dropWhile (· == blank)
      if unblanked.head? = some 45 then none
      else (strtoull (numericBase value) unblanked).whole.map UInt64.ofNat
  | .double, value => if value = [] then none else (libc.strtod value).whole

/-- `ToString`. -/
def toText (libc : Libc) : {type : ValueType} → FlagValue type → Bytes
  | .bool, b => if b then lit "true" else lit "false"
  | .int32, n => decimal n.toInt
  | .int64, n => decimal n.toInt
  | .uint64, n => decimal n.toNat
  | .double, d => libc.printDouble d
  | .string, s => s

/-! ## The text of a value is read back -/

/-- The C library reads this `double` back; 17 digits are enough for every normal number and for zero. -/
def Exact (libc : Libc) (d : Double) : Prop :=
  libc.strtod (libc.printDouble d) = ⟨d, [], false⟩ ∧ libc.printDouble d ≠ []

/-- A value whose text can be read back: `ParseFrom` is no obstacle for any but `double`s. -/
def Readable (libc : Libc) : {type : ValueType} → FlagValue type → Prop
  | .double, d => Exact libc d
  | _, _ => True

theorem numericBase_of_row {digits : Bytes} (h : Row 10 digits) : numericBase digits = 10 := by
  unfold numericBase
  split
  · rename_i x s
    rw [if_neg]
    intro hx
    have hdigit := h.2 x (by simp)
    rcases hx with rfl | rfl
    · exact absurd hdigit (by decide)
    · exact absurd hdigit (by decide)
  · rfl

theorem numericBase_decimal (n : Int) : numericBase (decimal n) = 10 := by
  cases n with
  | ofNat n => exact numericBase_of_row (row_decimal n)
  | negSucc n =>
    rw [decimal_negSucc]
    rfl

theorem decimal_ne_nil' (n : Int) : decimal n ≠ [] := by
  cases n with
  | ofNat n => exact decimal_ne_nil n
  | negSucc n =>
    rw [decimal_negSucc]
    exact List.cons_ne_nil _ _

theorem dropWhile_blank_decimal (n : Nat) : (decimal n).dropWhile (· == blank) = decimal n := by
  obtain ⟨b, s, hs⟩ := List.exists_cons_of_ne_nil (decimal_ne_nil n)
  have hmem : b ∈ decimal n := by
    rw [hs]
    exact List.mem_cons_self
  have hb : isspace b = false := isspace_of_isDigit (by decide) ((row_decimal n).2 b hmem)
  rw [hs, List.dropWhile_cons_of_neg]
  intro hblank
  rw [eq_of_beq hblank] at hb
  exact absurd hb (by decide)

theorem head?_decimal (n : Nat) : (decimal n).head? ≠ some 45 := by
  intro h
  have hmem : (45 : Byte) ∈ decimal n := List.mem_of_mem_head? h
  exact absurd ((row_decimal n).2 45 hmem) (by decide)

/-- **The text of a value is read back.** -/
theorem parseFrom_toText (libc : Libc) {type : ValueType} (v : FlagValue type) (h : Readable libc v) :
    parseFrom libc type (toText libc v) = some v := by
  cases type with
  | bool =>
    cases v with
    | false => rfl
    | true => rfl
  | int32 =>
    have hlo : -2 ^ 31 ≤ v.toInt := v.le_toInt
    have hhi : v.toInt < 2 ^ 31 := v.toInt_lt
    have hwhole : (strtoll 10 (decimal v.toInt)).whole = some v.toInt :=
      Converted.whole_eq_some.mpr (strtoll_decimal v.toInt (by omega) (by omega))
    simp only [parseFrom, toText, decimal_ne_nil', if_false, numericBase_decimal, hwhole, Option.bind_some]
    rw [if_neg (by simp), Int32.ofInt_toInt]
  | int64 =>
    have hwhole : (strtoll 10 (decimal v.toInt)).whole = some v.toInt :=
      Converted.whole_eq_some.mpr (strtoll_decimal v.toInt v.le_toInt v.toInt_lt)
    simp only [parseFrom, toText, decimal_ne_nil', if_false, numericBase_decimal, hwhole, Option.map_some]
    rw [Int64.ofInt_toInt]
  | uint64 =>
    have hwhole : (strtoull 10 (decimal v.toNat)).whole = some v.toNat :=
      Converted.whole_eq_some.mpr (strtoull_decimal v.toNat v.toNat_lt)
    simp only [parseFrom, toText, decimal_ne_nil', if_false, numericBase_decimal, dropWhile_blank_decimal,
      head?_decimal, hwhole, Option.map_some, UInt64.ofNat_toNat]
  | double =>
    have hwhole : (libc.strtod (libc.printDouble v)).whole = some v := Converted.whole_eq_some.mpr h.1
    simp only [parseFrom, toText, h.2, if_false, hwhole]
  | string => rfl

/-! ## Which texts are numbers -/

/-- A text with its value: white space, a sign and decimal digits, or `0x` and hexadecimal digits. -/
inductive Numeral : Bytes → Int → Prop where
  | decimal {white sign digits : Bytes} {negative : Bool} : White white → SignText negative sign → Row 10 digits →
      Numeral (white ++ (sign ++ digits)) (signed negative (positional 10 digits))
  | hex {x : Byte} {digits : Bytes} : x = 120 ∨ x = 88 → Row 16 digits →
      Numeral (48 :: x :: digits) (positional 16 digits)

theorem Numeral.ne_nil {s : Bytes} {n : Int} (h : Numeral s n) : s ≠ [] := by
  cases h with
  | decimal _ _ hrow =>
    intro hnil
    exact hrow.1 (List.append_eq_nil_iff.mp (List.append_eq_nil_iff.mp hnil).2).2
  | hex _ _ => exact List.cons_ne_nil _ _

/-- The base that is chosen fits the text. -/
theorem numericBase_numeral {white sign digits : Bytes} {negative : Bool} (hwhite : White white)
    (hsign : SignText negative sign) (hrow : Row 10 digits) : numericBase (white ++ (sign ++ digits)) = 10 := by
  cases white with
  | nil =>
    cases hsign with
    | none => exact numericBase_of_row hrow
    | plus => rfl
    | minus => rfl
  | cons b white =>
    have hb : b ≠ 48 := by
      rintro rfl
      exact absurd (hwhite 48 List.mem_cons_self) (by decide)
    rw [List.cons_append]
    unfold numericBase
    split
    · rename_i heq
      exact absurd (List.cons.inj heq).1 hb
    · rfl

theorem scan_numeral_iff {s : Bytes} {n : Int} :
    Numeral s n ↔ ∃ negative digits, (scan (numericBase s) s = ⟨negative, digits, []⟩ ∧ digits ≠ []) ∧
      n = signed negative (positional (numericBase s) digits) := by
  constructor
  · intro h
    cases h with
    | @decimal white sign digits negative hwhite hsign hrow =>
      rw [numericBase_numeral hwhite hsign hrow]
      exact ⟨negative, digits, scan_ten_iff.mpr ⟨white, sign, hwhite, hsign, hrow, rfl⟩, rfl⟩
    | @hex x digits hx hrow =>
      have hbase : numericBase (48 :: x :: digits) = 16 := if_pos hx
      rw [hbase]
      exact ⟨false, digits, (scan_sixteen_iff hx).mpr ⟨rfl, hrow, rfl⟩, rfl⟩
  · rintro ⟨negative, digits, hscan, rfl⟩
    by_cases hbase : numericBase s = 10
    · rw [hbase] at hscan ⊢
      obtain ⟨white, sign, hwhite, hsign, hrow, rfl⟩ := scan_ten_iff.mp hscan
      exact Numeral.decimal hwhite hsign hrow
    · unfold numericBase at hbase
      split at hbase
      · rename_i x s
        split at hbase
        · rename_i hx
          have hsixteen : numericBase (48 :: x :: s) = 16 := if_pos hx
          rw [hsixteen] at hscan ⊢
          obtain ⟨rfl, hrow, rfl⟩ := (scan_sixteen_iff hx).mp hscan
          exact Numeral.hex hx hrow
        · exact absurd rfl hbase
      · exact absurd rfl hbase

/-- `strtoll` in the base that is chosen. -/
theorem strtoll_iff {s : Bytes} {n : Int} (hs : s ≠ []) :
    (strtoll (numericBase s) s).whole = some n ↔ Numeral s n ∧ -2 ^ 63 ≤ n ∧ n < 2 ^ 63 := by
  rw [Converted.whole_eq_some, strtoll_whole_iff hs, scan_numeral_iff]
  constructor
  · rintro ⟨negative, digits, hscan, hn, hrange⟩
    exact ⟨⟨negative, digits, hscan, hn⟩, hrange⟩
  · rintro ⟨⟨negative, digits, hscan, hn⟩, hrange⟩
    exact ⟨negative, digits, hscan, hn, hrange⟩

/-- **What an `int64` flag accepts.** -/
theorem parseFrom_int64 (libc : Libc) (s : Bytes) (v : Int64) :
    parseFrom libc .int64 s = some v ↔ Numeral s v.toInt := by
  by_cases hs : s = []
  · subst hs
    exact iff_of_false (by simp [parseFrom]) fun h => h.ne_nil rfl
  · simp only [parseFrom, hs, if_false, Option.map_eq_some_iff, strtoll_iff hs]
    constructor
    · rintro ⟨n, ⟨hn, hlo, hhi⟩, rfl⟩
      rw [Int64.toInt_ofInt_of_le hlo hhi]
      exact hn
    · intro h
      exact ⟨v.toInt, ⟨h, v.le_toInt, v.toInt_lt⟩, Int64.ofInt_toInt v⟩

/-- **What an `int32` flag accepts.** -/
theorem parseFrom_int32 (libc : Libc) (s : Bytes) (v : Int32) :
    parseFrom libc .int32 s = some v ↔ Numeral s v.toInt := by
  by_cases hs : s = []
  · subst hs
    exact iff_of_false (by simp [parseFrom]) fun h => h.ne_nil rfl
  · simp only [parseFrom, hs, if_false, Option.bind_eq_some_iff, strtoll_iff hs]
    constructor
    · rintro ⟨n, ⟨hn, _⟩, hv⟩
      split at hv
      · cases hv
      · rename_i hfits
        cases hv
        rw [not_not.mp hfits]
        exact hn
    · intro h
      have hlo : -2 ^ 31 ≤ v.toInt := v.le_toInt
      have hhi : v.toInt < 2 ^ 31 := v.toInt_lt
      refine ⟨v.toInt, ⟨h, by omega, by omega⟩, ?_⟩
      rw [Int32.ofInt_toInt, if_neg (not_not.mpr rfl)]

/-- Blanks in front change nothing for the scanner. -/
theorem scan_dropWhile_blank (base : Nat) (s : Bytes) : scan base (s.dropWhile (· == blank)) = scan base s := by
  have hspace : (s.dropWhile (· == blank)).dropWhile isspace = s.dropWhile isspace := by
    induction s with
    | nil => rfl
    | cons b s ih =>
      by_cases hb : (b == blank) = true
      · have hbspace : isspace b = true := by
          rw [eq_of_beq hb]
          rfl
        rw [List.dropWhile_cons_of_pos (p := (· == blank)) hb, List.dropWhile_cons_of_pos hbspace, ih]
      · rw [List.dropWhile_cons_of_neg (p := (· == blank)) hb]
  simp only [scan, hspace]

theorem not_numeral_of_blank {s : Bytes} {n : Int} (hs : s.dropWhile (· == blank) = []) : ¬ Numeral s n := by
  intro h
  obtain ⟨negative, digits, ⟨hscan, hne⟩, -⟩ := scan_numeral_iff.mp h
  rw [← scan_dropWhile_blank, hs] at hscan
  have hdigits : digits = [] := by
    have hnil := congrArg Scan.digits hscan
    unfold scan scanSign skipHex at hnil
    exact hnil.symm
  exact hne hdigits

/-- **What a `uint64` flag accepts.** A minus sign is refused only behind blanks; behind other white space the number
    is negated modulo 2^64. Blanks alone are read as 0. -/
theorem parseFrom_uint64 (libc : Libc) (s : Bytes) (v : UInt64) :
    parseFrom libc .uint64 s = some v ↔
      (s ≠ [] ∧ s.dropWhile (· == blank) = [] ∧ v = 0) ∨
        ((s.dropWhile (· == blank)).head? ≠ some 45 ∧
          ∃ n, Numeral s n ∧ n.natAbs < 2 ^ 64 ∧ (v.toNat : Int) = n % 2 ^ 64) := by
  by_cases hs : s = []
  · subst hs
    refine iff_of_false (by simp [parseFrom]) ?_
    rintro (⟨hne, -⟩ | ⟨-, n, hn, -⟩)
    · exact hne rfl
    · exact hn.ne_nil rfl
  · simp only [parseFrom, hs, if_false, ne_eq, not_false_eq_true, true_and]
    by_cases hblank : s.dropWhile (· == blank) = []
    · have hzero : (strtoull (numericBase s) []).whole = some 0 := Converted.whole_eq_some.mpr rfl
      simp only [hblank, List.head?_nil, reduceCtorEq, if_false, hzero, Option.map_some, Option.some.injEq, true_and,
        not_false_eq_true]
      constructor
      · rintro rfl
        exact Or.inl rfl
      · rintro (rfl | ⟨n, hn, -⟩)
        · rfl
        · exact absurd hn (not_numeral_of_blank hblank)
    · simp only [hblank, false_and, false_or]
      by_cases hminus : (s.dropWhile (· == blank)).head? = some 45
      · simp [hminus]
      · simp only [hminus, if_false, not_false_eq_true, true_and, Option.map_eq_some_iff, Converted.whole_eq_some,
          strtoull_whole_iff hblank, scan_dropWhile_blank]
        constructor
        · rintro ⟨m, ⟨negative, digits, hscan, hlt, hm⟩, rfl⟩
          have hm64 : m < 2 ^ 64 := by omega
          refine ⟨signed negative (positional (numericBase s) digits),
            scan_numeral_iff.mpr ⟨negative, digits, hscan, rfl⟩, ?_, ?_⟩
          · rw [natAbs_signed]
            exact hlt
          · rw [← hm, UInt64.toNat_ofNat_of_lt' hm64]
        · rintro ⟨n, hn, hlt, hv⟩
          obtain ⟨negative, digits, hscan, rfl⟩ := scan_numeral_iff.mp hn
          rw [natAbs_signed] at hlt
          exact ⟨v.toNat, ⟨negative, digits, hscan, hlt, hv⟩, UInt64.ofNat_toNat⟩

/-- **The integer flags.** Exactly these texts are accepted, with these values; a signed value that does not fit is
    refused. -/
theorem parseFrom_integer (libc : Libc) (s : Bytes) :
    (∀ v : Int32, parseFrom libc .int32 s = some v ↔ Numeral s v.toInt) ∧
    (∀ v : Int64, parseFrom libc .int64 s = some v ↔ Numeral s v.toInt) ∧
    ∀ v : UInt64, parseFrom libc .uint64 s = some v ↔
      (s ≠ [] ∧ s.dropWhile (· == blank) = [] ∧ v = 0) ∨
        ((s.dropWhile (· == blank)).head? ≠ some 45 ∧
          ∃ n, Numeral s n ∧ n.natAbs < 2 ^ 64 ∧ (v.toNat : Int) = n % 2 ^ 64) :=
  ⟨parseFrom_int32 libc s, parseFrom_int64 libc s, parseFrom_uint64 libc s⟩

end FlagValue

end Thirdparty.Gflags
