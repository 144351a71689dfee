import Thirdparty.Gflags.Reporting

/-!
# `Gflags.Parts` — type, default and current value

`AddString` puts a string on the line if it fits there, and on a new line otherwise. Each of the strings that
`DescribeOneFlag` adds holds both escape sequences when colour is on, and counts eight characters more then.

## Contents
- `separator`, `nextColumn`: what `AddString` puts in front of a string, and the column it ends in.
- `added`: what is added, without the escape sequences; `addStrings_shows`.
- `BreakAlike`: the strings go on new lines alike; `added_eq_iff`.
-/

namespace Thirdparty.Gflags

/-! ## `AddString` -/

/-- What goes in front of a string of `n` characters. -/
def separator (charsInLine n : Nat) : Bytes := if kLineLength ≤ charsInLine + 1 + n then newLine else [blank]

/-- The column it ends in. -/
def nextColumn (charsInLine n : Nat) : Nat :=
  if kLineLength ≤ charsInLine + 1 + n then 6 + n else charsInLine + 1 + n

theorem addString_eq (s finalString : Bytes) (c : Nat) :
    addString s finalString c = (finalString ++ separator c s.length ++ s, nextColumn c s.length) := by
  rw [addString, separator, nextColumn]
  by_cases hbreak : kLineLength ≤ c + 1 + s.length
  · rw [if_pos hbreak, if_pos hbreak, if_pos hbreak]
  · rw [if_neg hbreak, if_neg hbreak, if_neg hbreak]

theorem addStrings_cons (finalString : Bytes) (c : Nat) (s : Bytes) (ss : List Bytes) :
    addStrings finalString c (s :: ss) =
      addStrings (finalString ++ separator c s.length ++ s) (nextColumn c s.length) ss := by
  rw [addStrings, List.foldl_cons, addString_eq]
  rfl

/-- What is added for `strings`, each of which counts `extra` characters more than it has. -/
def added (extra : Nat) : Nat → List Bytes → Bytes
  | _, [] => []
  | c, s :: ss => separator c (s.length + extra) ++ s ++ added extra (nextColumn c (s.length + extra)) ss

section Shows

-- `R p v`: without its escape sequences, `p` is `v`
variable {R : Bytes → Bytes → Prop} {extra : Nat}

/-- The calls of `AddString` add what is shown of the strings. -/
theorem addStrings_shows (happend : ∀ {p v q w}, R p v → R q w → R (p ++ q) (v ++ w))
    (hseparator : ∀ c n, R (separator c n) (separator c n)) {ps vs : List Bytes}
    (h : List.Forall₂ (fun p v => R p v ∧ p.length = v.length + extra) ps vs) {finalString shown : Bytes}
    (hfinal : R finalString shown) (c : Nat) :
    R (addStrings finalString c ps) (shown ++ added extra c vs) := by
  induction h generalizing finalString shown c with
  | nil => rwa [added, List.append_nil]
  | @cons p v ps vs hp _ ih =>
    obtain ⟨hR, hlen⟩ := hp
    -- both are added with the length that is counted, `extra` more than what is shown
    rw [addStrings_cons, hlen, added, ← List.append_assoc, ← List.append_assoc]
    exact ih (happend (happend hfinal (hseparator _ _)) hR) _

end Shows

/-! ## On new lines alike -/

/-- Strings of the lengths `ns`, added from column `c`, go on a new line where they do from column `c'` when each
    counts `extra` more. -/
def BreakAlike (extra : Nat) : Nat → Nat → List Nat → Prop
  | _, _, [] => True
  | c, c', n :: ns =>
    (kLineLength ≤ c + 1 + n ↔ kLineLength ≤ c' + 1 + (n + extra)) ∧
      BreakAlike extra (nextColumn c n) (nextColumn c' (n + extra)) ns

instance decidableBreakAlike (extra c c' : Nat) : (ns : List Nat) → Decidable (BreakAlike extra c c' ns)
  | [] => .isTrue trivial
  | n :: ns =>
    haveI := decidableBreakAlike extra (nextColumn c n) (nextColumn c' (n + extra)) ns
    inferInstanceAs (Decidable (_ ∧ _))

/-- The first character in front of a string tells whether it is on a new line. -/
theorem separator_eq_iff {c c' n n' : Nat} {u v : Bytes} (h : separator c n ++ u = separator c' n' ++ v) :
    (kLineLength ≤ c + 1 + n ↔ kLineLength ≤ c' + 1 + n') := by
  rw [separator, separator] at h
  by_cases hc : kLineLength ≤ c + 1 + n
  · by_cases hc' : kLineLength ≤ c' + 1 + n'
    · exact iff_of_true hc hc'
    · rw [if_pos hc, if_neg hc'] at h
      exact absurd (List.cons.inj h).1 (by decide)
  · by_cases hc' : kLineLength ≤ c' + 1 + n'
    · rw [if_neg hc, if_pos hc'] at h
      exact absurd (List.cons.inj h).1 (by decide)
    · exact iff_of_false hc hc'

theorem separator_congr {c c' n n' : Nat} (h : kLineLength ≤ c + 1 + n ↔ kLineLength ≤ c' + 1 + n') :
    separator c n = separator c' n' := by
  rw [separator, separator]
  exact if_congr h rfl rfl

/-- **The same is added if and only if the strings go on new lines alike.** -/
theorem added_eq_iff {extra c c' : Nat} (vs : List Bytes) :
    added 0 c vs = added extra c' vs ↔ BreakAlike extra c c' (vs.map List.length) := by
  induction vs generalizing c c' with
  | nil => exact iff_of_true rfl trivial
  | cons v vs ih =>
    rw [added, added, List.map_cons, BreakAlike, Nat.add_zero, ← ih, List.append_assoc, List.append_assoc]
    constructor
    · intro h
      have hbreak := separator_eq_iff h
      rw [separator_congr hbreak] at h
      exact ⟨hbreak, List.append_cancel_left (List.append_cancel_left h)⟩
    · rintro ⟨hbreak, hrest⟩
      rw [separator_congr hbreak, hrest]

end Thirdparty.Gflags
