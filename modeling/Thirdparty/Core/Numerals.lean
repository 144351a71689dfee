import Thirdparty.Core.Bytes
import Mathlib.Tactic.IntervalCases

/-!
# `Core.Numerals` — numbers as text

`strtoll` and `strtoull` of the C library, and what they read of the decimal output of `Core.Bytes`.

## Contents
- `digitVal`, `positional`: digits and their value in a base.
- `Scan`, `scan`: white space, a sign, `0x` in base 16, and digits.
- `strtoll`, `strtoull`: the value, the text behind it, and whether it was out of range.
- `Row`, `SignText`: texts that are a number to the end; `scan_ten_iff`, `scan_sixteen_iff`, `strtoll_whole_iff`.
- `strtoll_decimal`, `strtoull_decimal`: decimal output is read back.
-/

namespace Thirdparty

/-! ## Digits -/

/-- The value of a digit or a letter as a digit; 36 for any other byte. -/
def digitVal (b : Byte) : Nat :=
  if 48 ≤ b ∧ b ≤ 57 then b.toNat - 48
  else if 97 ≤ b ∧ b ≤ 122 then b.toNat - 87
  else if 65 ≤ b ∧ b ≤ 90 then b.toNat - 55
  else 36

/-- Is it a digit in this base? -/
def isDigit (base : Nat) (b : Byte) : Bool := digitVal b < base

/-- The value of a row of digits. -/
def positional (base : Nat) (digits : Bytes) : Nat :=
  digits.foldl (fun n b => base * n + digitVal b) 0

theorem positional_concat (base : Nat) (digits : Bytes) (b : Byte) :
    positional base (digits ++ [b]) = base * positional base digits + digitVal b := by
  unfold positional
  rw [List.foldl_append]
  rfl

/-- No digit is white space or a sign. -/
theorem isspace_of_isDigit {base : Nat} (hbase : base ≤ 36) {b : Byte} (h : isDigit base b = true) :
    isspace b = false := by
  have hlt : digitVal b < base := of_decide_eq_true h
  cases hspace : isspace b with
  | false => rfl
  | true =>
    have hval : digitVal b = 36 := by
      revert hspace
      unfold isspace digitVal blank
      simp only [Bool.or_eq_true, beq_iff_eq, Bool.and_eq_true, decide_eq_true_eq, UInt8.le_iff_toNat_le,
        ← UInt8.toNat_inj]
      intro hspace
      simp only [UInt8.reduceToNat] at hspace ⊢
      rw [if_neg (by omega), if_neg (by omega), if_neg (by omega)]
    omega

/-! ## Scanning -/

/-- What was read: the sign, the digits, and what is behind them. -/
structure Scan where
  negative : Bool
  digits : Bytes
  rest : Bytes
  deriving DecidableEq

/-- The sign, if there is one. -/
def scanSign : Bytes → Bool × Bytes
  | 45 :: s => (true, s)
  | 43 :: s => (false, s)
  | s => (false, s)

/-- In base 16, `0x` in front of a digit is passed over. -/
def skipHex (base : Nat) : Bytes → Bytes
  | 48 :: x :: d :: s => if base = 16 ∧ (x = 120 ∨ x = 88) ∧ isDigit base d then d :: s else 48 :: x :: d :: s
  | s => s

/-- White space, a sign, and digits. -/
def scan (base : Nat) (s : Bytes) : Scan :=
  let signed := scanSign (s.dropWhile isspace)
  let unsigned := skipHex base signed.2
  ⟨signed.1, unsigned.takeWhile (isDigit base), unsigned.dropWhile (isDigit base)⟩

/-- The result of a conversion: the value, the text behind the number, and `errno == ERANGE`. -/
structure Converted (ν : Type) where
  value : ν
  rest : Bytes
  erange : Bool

/-- The value, if the whole text was read and nothing was out of range. -/
def Converted.whole {ν : Type} (r : Converted ν) : Option ν :=
  if r.erange = true ∨ r.rest ≠ [] then none else some r.value

theorem Converted.whole_eq_some {ν : Type} {r : Converted ν} {v : ν} : r.whole = some v ↔ r = ⟨v, [], false⟩ := by
  obtain ⟨value, rest, erange⟩ := r
  unfold whole
  constructor
  · intro h
    split at h
    · cases h
    · rename_i hwhole
      simp only [not_or, Bool.not_eq_true, ne_eq, not_not] at hwhole
      obtain ⟨rfl, rfl⟩ := hwhole
      cases h
      rfl
  · intro h
    cases h
    rfl

/-- The value under a sign. -/
def signed (negative : Bool) (n : Nat) : Int := if negative then -(n : Int) else n

@[simp] theorem natAbs_signed (negative : Bool) (n : Nat) : (signed negative n).natAbs = n := by
  cases negative with
  | false => exact Int.natAbs_natCast n
  | true =>
    show (-(n : Int)).natAbs = n
    rw [Int.natAbs_neg, Int.natAbs_natCast]

/-- `strtoll`. Without digits nothing is converted. -/
def strtoll (base : Nat) (s : Bytes) : Converted Int :=
  let r := scan base s
  if r.digits = [] then ⟨0, s, false⟩
  else
    let value := signed r.negative (positional base r.digits)
    if value < -2 ^ 63 then ⟨-2 ^ 63, r.rest, true⟩
    else if 2 ^ 63 ≤ value then ⟨2 ^ 63 - 1, r.rest, true⟩
    else ⟨value, r.rest, false⟩

/-- `strtoull`. A minus sign negates the value modulo 2^64. -/
def strtoull (base : Nat) (s : Bytes) : Converted Nat :=
  let r := scan base s
  if r.digits = [] then ⟨0, s, false⟩
  else
    let value := positional base r.digits
    if 2 ^ 64 ≤ value then ⟨2 ^ 64 - 1, r.rest, true⟩
    else ⟨if r.negative then (2 ^ 64 - value) % 2 ^ 64 else value, r.rest, false⟩

/-! ## Texts that are a number to the end -/

/-- One digit or more. -/
def Row (base : Nat) (digits : Bytes) : Prop := digits ≠ [] ∧ ∀ b ∈ digits, isDigit base b = true

/-- The sign, as it is written. -/
inductive SignText : Bool → Bytes → Prop where
  | none : SignText false []
  | plus : SignText false [43]
  | minus : SignText true [45]

theorem skipHex_ten (s : Bytes) : skipHex 10 s = s := by
  unfold skipHex
  split
  · rw [if_neg (fun h => absurd h.1 (by decide))]
  · rfl

theorem Row.takeWhile_eq {base : Nat} {digits : Bytes} (h : Row base digits) :
    digits.takeWhile (isDigit base) = digits := List.takeWhile_eq_self_iff.mpr h.2

theorem Row.dropWhile_eq {base : Nat} {digits : Bytes} (h : Row base digits) :
    digits.dropWhile (isDigit base) = [] := List.dropWhile_eq_nil_iff.mpr h.2

/-- Digits to the end. -/
theorem row_of_scan {base : Nat} {s digits : Bytes} (htake : s.takeWhile (isDigit base) = digits)
    (hdrop : s.dropWhile (isDigit base) = []) (hne : digits ≠ []) : s = digits ∧ Row base digits := by
  have hs : s = digits := by
    rw [← List.takeWhile_append_dropWhile (p := isDigit base) (l := s), htake, hdrop, List.append_nil]
  subst hs
  exact ⟨rfl, hne, List.dropWhile_eq_nil_iff.mp hdrop⟩

theorem dropWhile_white {white : Bytes} (hwhite : White white) (s : Bytes) :
    (white ++ s).dropWhile isspace = s.dropWhile isspace := by
  rw [List.dropWhile_append, List.dropWhile_eq_nil_iff.mpr hwhite]
  rfl

/-- A digit is no sign. -/
theorem scanSign_row {digits : Bytes} (h : Row 10 digits) : scanSign digits = (false, digits) := by
  unfold scanSign
  split
  · exact absurd (h.2 45 List.mem_cons_self) (by decide)
  · exact absurd (h.2 43 List.mem_cons_self) (by decide)
  · rfl

theorem Row.not_space {digits : Bytes} (h : Row 10 digits) : digits.dropWhile isspace = digits := by
  obtain ⟨b, s, rfl⟩ := List.exists_cons_of_ne_nil h.1
  have hb : isspace b = false := isspace_of_isDigit (by decide) (h.2 b List.mem_cons_self)
  rw [List.dropWhile_cons_of_neg (by simp [hb])]

/-- What is behind the white space. -/
theorem SignText.scan {negative : Bool} {sign digits : Bytes} (h : SignText negative sign) (hrow : Row 10 digits) :
    (sign ++ digits).dropWhile isspace = sign ++ digits ∧ scanSign (sign ++ digits) = (negative, digits) := by
  cases h with
  | none => exact ⟨hrow.not_space, scanSign_row hrow⟩
  | plus => exact ⟨List.dropWhile_cons_of_neg (by decide), rfl⟩
  | minus => exact ⟨List.dropWhile_cons_of_neg (by decide), rfl⟩

/-- **What is scanned to the end in base ten.** -/
theorem scan_ten_iff {s digits : Bytes} {negative : Bool} :
    scan 10 s = ⟨negative, digits, []⟩ ∧ digits ≠ [] ↔
      ∃ white sign, White white ∧ SignText negative sign ∧ Row 10 digits ∧ s = white ++ (sign ++ digits) := by
  constructor
  · rintro ⟨h, hne⟩
    unfold scan at h
    simp only [skipHex_ten, Scan.mk.injEq] at h
    obtain ⟨hsign, htake, hdrop⟩ := h
    obtain ⟨hunsigned, hrow⟩ := row_of_scan htake hdrop hne
    have hwhite : White (s.takeWhile isspace) := fun b hb => List.mem_takeWhile_imp hb
    have hs : s = s.takeWhile isspace ++ s.dropWhile isspace := List.takeWhile_append_dropWhile.symm
    refine ⟨s.takeWhile isspace, ?_⟩
    unfold scanSign at hsign hunsigned
    split at hsign
    · rename_i t ht
      rw [ht] at hs hunsigned
      refine ⟨[45], hwhite, ?_, hrow, ?_⟩
      · rw [← hsign]
        exact SignText.minus
      · rw [← hunsigned]
        exact hs
    · rename_i t ht
      rw [ht] at hs hunsigned
      refine ⟨[43], hwhite, ?_, hrow, ?_⟩
      · rw [← hsign]
        exact SignText.plus
      · rw [← hunsigned]
        exact hs
    · rename_i hminus hplus
      refine ⟨[], hwhite, ?_, hrow, ?_⟩
      · rw [← hsign]
        exact SignText.none
      · split at hunsigned
        · rename_i t ht
          exact absurd ht (hminus t)
        · rename_i t ht
          exact absurd ht (hplus t)
        · rw [List.nil_append, ← hunsigned]
          exact hs
  · rintro ⟨white, sign, hwhite, hsign, hrow, rfl⟩
    obtain ⟨hspace, hscan⟩ := hsign.scan hrow
    refine ⟨?_, hrow.1⟩
    simp only [scan, dropWhile_white hwhite, hspace, hscan, skipHex_ten, hrow.takeWhile_eq, hrow.dropWhile_eq]

/-- **What is scanned to the end in base 16**, if it begins with `0x`. -/
theorem scan_sixteen_iff {s digits : Bytes} {x : Byte} {negative : Bool} (hx : x = 120 ∨ x = 88) :
    scan 16 (48 :: x :: s) = ⟨negative, digits, []⟩ ∧ digits ≠ [] ↔
      negative = false ∧ Row 16 digits ∧ s = digits := by
  have hspace : (48 :: x :: s).dropWhile isspace = 48 :: x :: s := List.dropWhile_cons_of_neg (by decide)
  have hsign : scanSign (48 :: x :: s) = (false, 48 :: x :: s) := rfl
  have hxdigit : isDigit 16 x = false := by
    rcases hx with rfl | rfl <;> decide
  simp only [scan, hspace, hsign]
  constructor
  · rintro ⟨h, hne⟩
    simp only [Scan.mk.injEq] at h
    obtain ⟨hnegative, htake, hdrop⟩ := h
    obtain ⟨hunsigned, hrow⟩ := row_of_scan htake hdrop hne
    refine ⟨hnegative.symm, hrow, ?_⟩
    cases s with
    | nil =>
      -- only the `0` is a digit
      have hmem : x ∈ digits := hunsigned ▸ List.mem_cons_of_mem 48 List.mem_cons_self
      exact absurd (hrow.2 x hmem) (by simp [hxdigit])
    | cons d s =>
      by_cases hd : isDigit 16 d = true
      · rw [skipHex, if_pos ⟨rfl, hx, hd⟩] at hunsigned
        exact hunsigned
      · rw [skipHex, if_neg (fun h => hd h.2.2)] at hunsigned
        have hmem : x ∈ digits := hunsigned ▸ List.mem_cons_of_mem 48 List.mem_cons_self
        exact absurd (hrow.2 x hmem) (by simp [hxdigit])
  · rintro ⟨rfl, hrow, rfl⟩
    obtain ⟨d, t, rfl⟩ := List.exists_cons_of_ne_nil hrow.1
    have hd : isDigit 16 d = true := hrow.2 d List.mem_cons_self
    have hskip : skipHex 16 (48 :: x :: d :: t) = d :: t := by
      rw [skipHex, if_pos ⟨rfl, hx, hd⟩]
    rw [hskip, hrow.takeWhile_eq, hrow.dropWhile_eq]
    exact ⟨rfl, hrow.1⟩

/-- **When `strtoll` reads a text to its end.** -/
theorem strtoll_whole_iff {base : Nat} {s : Bytes} (hs : s ≠ []) {n : Int} :
    strtoll base s = ⟨n, [], false⟩ ↔ ∃ negative digits, (scan base s = ⟨negative, digits, []⟩ ∧ digits ≠ []) ∧
      n = signed negative (positional base digits) ∧ -2 ^ 63 ≤ n ∧ n < 2 ^ 63 := by
  unfold strtoll
  obtain ⟨negative, digits, rest⟩ := scan base s
  simp only [Scan.mk.injEq]
  constructor
  · intro h
    split at h
    · rename_i hnil
      exact absurd (congrArg Converted.rest h) hs
    · rename_i hne
      split at h
      · simp at h
      · rename_i hlo
        split at h
        · simp at h
        · rename_i hhi
          simp only [Converted.mk.injEq, and_true] at h
          obtain ⟨rfl, rfl⟩ := h
          exact ⟨negative, digits, ⟨⟨rfl, rfl, rfl⟩, hne⟩, rfl, Int.not_lt.mp hlo, Int.not_le.mp hhi⟩
  · rintro ⟨_, _, ⟨⟨rfl, rfl, rfl⟩, hne⟩, rfl, hlo, hhi⟩
    rw [if_neg hne, if_neg (Int.not_lt.mpr hlo), if_neg (Int.not_le.mpr hhi)]

/-- **When `strtoull` reads a text to its end.** -/
theorem strtoull_whole_iff {base : Nat} {s : Bytes} (hs : s ≠ []) {n : Nat} :
    strtoull base s = ⟨n, [], false⟩ ↔ ∃ negative digits, (scan base s = ⟨negative, digits, []⟩ ∧ digits ≠ []) ∧
      positional base digits < 2 ^ 64 ∧ (n : Int) = signed negative (positional base digits) % 2 ^ 64 := by
  unfold strtoull
  obtain ⟨negative, digits, rest⟩ := scan base s
  simp only [Scan.mk.injEq]
  have hvalue : positional base digits < 2 ^ 64 →
      ((if negative then (2 ^ 64 - positional base digits) % 2 ^ 64 else positional base digits : Nat) : Int) =
        signed negative (positional base digits) % 2 ^ 64 := by
    intro hlt
    cases negative with
    | false =>
      simp only [signed, Bool.false_eq_true, if_false]
      omega
    | true =>
      simp only [signed, if_true]
      omega
  constructor
  · intro h
    split at h
    · exact absurd (congrArg Converted.rest h) hs
    · rename_i hne
      split at h
      · simp at h
      · rename_i hhi
        simp only [Converted.mk.injEq, and_true] at h
        obtain ⟨rfl, rfl⟩ := h
        exact ⟨negative, digits, ⟨⟨rfl, rfl, rfl⟩, hne⟩, Nat.not_le.mp hhi, hvalue (Nat.not_le.mp hhi)⟩
  · rintro ⟨_, _, ⟨⟨rfl, rfl, rfl⟩, hne⟩, hhi, hn⟩
    rw [if_neg hne, if_neg (Nat.not_le.mpr hhi)]
    congr 1
    exact Int.ofNat_inj.mp ((hvalue hhi).trans hn.symm)

/-! ## Decimal output -/

/-- The digits of a number. -/
theorem decimal_ofNat (n : Nat) : decimal n = (Nat.toDigits 10 n).map fun c => UInt8.ofNat c.toNat := by
  show lit (toString n) = _
  unfold lit
  rw [Nat.toString_eq_repr, Nat.toList_repr]

theorem decimal_negSucc (n : Nat) : decimal (Int.negSucc n) = 45 :: decimal (n + 1 : Nat) := by
  show lit ("-" ++ Nat.repr (n + 1)) = 45 :: lit (toString (n + 1))
  unfold lit
  rw [String.toList_append, Nat.toString_eq_repr]
  rfl

theorem digitVal_digitChar {d : Nat} (h : d < 10) : digitVal (UInt8.ofNat d.digitChar.toNat) = d := by
  rw [Nat.toNat_digitChar_of_lt_ten h]
  interval_cases d <;> rfl

theorem decimal_of_lt {n : Nat} (h : n < 10) : decimal n = [UInt8.ofNat n.digitChar.toNat] := by
  rw [decimal_ofNat, Nat.toDigits_of_lt_base h]
  rfl

theorem decimal_of_ge {n : Nat} (h : 10 ≤ n) :
    decimal n = decimal (n / 10 : Nat) ++ [UInt8.ofNat (n % 10).digitChar.toNat] := by
  rw [decimal_ofNat, decimal_ofNat, Nat.toDigits_of_base_le (by decide) h, List.map_append]
  rfl

theorem decimal_ne_nil (n : Nat) : decimal n ≠ [] := by
  rw [decimal_ofNat]
  simp [Nat.toDigits_ne_nil]

theorem isDigit_of_mem_decimal {n : Nat} {b : Byte} (h : b ∈ decimal n) : isDigit 10 b = true := by
  induction n using Nat.strong_induction_on with
  | _ n ih =>
    by_cases hn : n < 10
    · rw [decimal_of_lt hn, List.mem_singleton] at h
      rw [h, isDigit, digitVal_digitChar hn]
      exact decide_eq_true hn
    · have hge : 10 ≤ n := Nat.le_of_not_lt hn
      have hmod : n % 10 < 10 := Nat.mod_lt n (by decide)
      rw [decimal_of_ge hge, List.mem_append, List.mem_singleton] at h
      rcases h with h | rfl
      · exact ih (n / 10) (Nat.div_lt_self (by omega) (by decide)) h
      · rw [isDigit, digitVal_digitChar hmod]
        exact decide_eq_true hmod

/-- **The digits of a number have its value.** -/
theorem positional_decimal (n : Nat) : positional 10 (decimal n) = n := by
  induction n using Nat.strong_induction_on with
  | _ n ih =>
    by_cases hn : n < 10
    · rw [decimal_of_lt hn]
      show 10 * 0 + digitVal _ = n
      rw [digitVal_digitChar hn]
      omega
    · have hge : 10 ≤ n := Nat.le_of_not_lt hn
      rw [decimal_of_ge hge, positional_concat, ih (n / 10) (Nat.div_lt_self (by omega) (by decide)),
        digitVal_digitChar (Nat.mod_lt n (by decide))]
      omega

/-! ## Reading it back -/

theorem row_decimal (n : Nat) : Row 10 (decimal n) := ⟨decimal_ne_nil n, fun _ => isDigit_of_mem_decimal⟩

theorem scan_decimal (n : Nat) : scan 10 (decimal n) = ⟨false, decimal n, []⟩ :=
  (scan_ten_iff.mpr ⟨[], [], fun _ h => absurd h List.not_mem_nil, SignText.none, row_decimal n, rfl⟩).1

theorem scan_minus_decimal (n : Nat) : scan 10 (45 :: decimal n) = ⟨true, decimal n, []⟩ :=
  (scan_ten_iff.mpr ⟨[], [45], fun _ h => absurd h List.not_mem_nil, SignText.minus, row_decimal n, rfl⟩).1

/-- **`strtoll` reads back what is printed.** -/
theorem strtoll_decimal (n : Int) (hlo : -2 ^ 63 ≤ n) (hhi : n < 2 ^ 63) :
    strtoll 10 (decimal n) = ⟨n, [], false⟩ := by
  cases n with
  | ofNat n =>
    apply (strtoll_whole_iff (decimal_ne_nil n)).mpr
    refine ⟨false, decimal n, ⟨scan_decimal n, decimal_ne_nil n⟩, ?_, hlo, hhi⟩
    rw [positional_decimal]
    rfl
  | negSucc n =>
    rw [decimal_negSucc]
    apply (strtoll_whole_iff (List.cons_ne_nil _ _)).mpr
    refine ⟨true, decimal (n + 1 : Nat), ⟨scan_minus_decimal (n + 1), decimal_ne_nil (n + 1)⟩, ?_, hlo, hhi⟩
    rw [positional_decimal]
    rfl

theorem Row.scanSign_append {digits : Bytes} (h : Row 10 digits) (rest : Bytes) :
    (digits ++ rest).dropWhile isspace = digits ++ rest ∧ scanSign (digits ++ rest) = (false, digits ++ rest) := by
  obtain ⟨b, tail, rfl⟩ := List.exists_cons_of_ne_nil h.1
  have hdigit : isDigit 10 b = true := h.2 b List.mem_cons_self
  have hb : isspace b = false := isspace_of_isDigit (by decide) hdigit
  constructor
  · rw [List.cons_append, List.dropWhile_cons_of_neg (by simp [hb])]
  · rw [List.cons_append]
    unfold scanSign
    split
    · rename_i heq
      cases heq
      exact absurd hdigit (by decide)
    · rename_i heq
      cases heq
      exact absurd hdigit (by decide)
    · rfl

/-- The scanner stops where the digits do. -/
theorem scan_append {s digits rest : Bytes} {negative : Bool} (h : scan 10 s = ⟨negative, digits, []⟩ ∧ digits ≠ [])
    (hrest : ∀ b ∈ rest.head?, isDigit 10 b = false) : scan 10 (s ++ rest) = ⟨negative, digits, rest⟩ := by
  obtain ⟨white, sign, hwhite, hsign, hrow, rfl⟩ := scan_ten_iff.mp h
  have hstop : (digits ++ rest).takeWhile (isDigit 10) = digits ∧ (digits ++ rest).dropWhile (isDigit 10) = rest := by
    rw [List.takeWhile_append_of_pos hrow.2, List.dropWhile_append_of_pos hrow.2]
    cases rest with
    | nil => exact ⟨List.append_nil digits, rfl⟩
    | cons b rest =>
      have hb : ¬ isDigit 10 b = true := by simp [hrest b rfl]
      rw [List.takeWhile_cons_of_neg hb, List.dropWhile_cons_of_neg hb]
      exact ⟨List.append_nil digits, rfl⟩
  have hsigned : (sign ++ (digits ++ rest)).dropWhile isspace = sign ++ (digits ++ rest) ∧
      scanSign (sign ++ (digits ++ rest)) = (negative, digits ++ rest) := by
    cases hsign with
    | none => exact hrow.scanSign_append rest
    | plus => exact ⟨List.dropWhile_cons_of_neg (by decide), rfl⟩
    | minus => exact ⟨List.dropWhile_cons_of_neg (by decide), rfl⟩
  unfold scan
  rw [List.append_assoc, dropWhile_white hwhite, List.append_assoc, hsigned.1, hsigned.2]
  dsimp only
  rw [skipHex_ten, hstop.1, hstop.2]

/-- The conversion leaves the rest. -/
theorem strtoll_append {s rest : Bytes} {n : Int} (hs : s ≠ []) (h : strtoll 10 s = ⟨n, [], false⟩)
    (hrest : ∀ b ∈ rest.head?, isDigit 10 b = false) : strtoll 10 (s ++ rest) = ⟨n, rest, false⟩ := by
  obtain ⟨negative, digits, hscan, rfl, hlo, hhi⟩ := (strtoll_whole_iff hs).mp h
  unfold strtoll
  rw [scan_append hscan hrest]
  dsimp only
  rw [if_neg hscan.2, if_neg (not_lt.mpr hlo), if_neg (not_le.mpr hhi)]

/-- **`strtoull` reads back what is printed.** -/
theorem strtoull_decimal (n : Nat) (h : n < 2 ^ 64) : strtoull 10 (decimal n) = ⟨n, [], false⟩ := by
  apply (strtoull_whole_iff (decimal_ne_nil n)).mpr
  refine ⟨false, decimal n, ⟨scan_decimal n, decimal_ne_nil n⟩, ?_, ?_⟩
  · rw [positional_decimal]
    exact h
  · rw [positional_decimal]
    show (n : Int) = (n : Int) % 2 ^ 64
    omega

end Thirdparty
