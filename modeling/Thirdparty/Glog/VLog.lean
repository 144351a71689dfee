import Thirdparty.Core.Glob
import Thirdparty.Gflags.Parser
import Thirdparty.Glog.LogMessage

/-!
# `Glog.VLog` — verbose levels by module

`vlog_is_on.cc`: the patterns of `--vmodule`, the list of levels, and `SetVLOGLevel`. The elements of the list are
never deleted, and a logging statement keeps a pointer into one of them; here the pointer is the address of the element,
and the list carries the proof that its addresses are all different.

`sscanf` with `%d` is `strtol`, cut down to an `int`. `errno` and the message of `RAW_VLOG` are left out.

## Contents
- `safeFNMatch`, and `safeFNMatch_spec`, the strings it accepts.
- `VModuleInfo`, `VModuleList`, `VLogState`.
- `parseVmodule`, `vlog2Initializer`: the flag; `parseVmodule_render` reads it back.
- `setVLOGLevel`, and `setVLOGLevel_spec`, what it returns and what it changes.
- `moduleName`, `initVLog3`.
-/

namespace Thirdparty.Glog

open Gflags (strchr strchr_append equals comma)

/-- `'*'`. -/
def star : Byte := 42

/-- `'?'`. -/
def question : Byte := 63

/-- `'.'`. -/
def dot : Byte := 46

/-! ## `SafeFNMatch_` -/

/-- The loop `do … while (s != str_len)`: some suffix that is not empty. -/
def anySuffix (f : Bytes → Bool) : Bytes → Bool
  | [] => false
  | b :: s => f (b :: s) || anySuffix f s

/-- `SafeFNMatch_`. -/
def safeFNMatch : Bytes → Bytes → Bool
  | [], str => str.isEmpty
  | c :: pattern, [] => pattern.isEmpty && c == star
  | c :: pattern, b :: str =>
    if c == b || c == question then safeFNMatch pattern str
    else if c == star then pattern.isEmpty || anySuffix (safeFNMatch pattern) (b :: str)
    else false

/-- What a character of a pattern stands for. -/
def glyph (c : Byte) : Glyph Byte := if c = question then .one else if c = star then .many else .sym c

/-- The meaning of a pattern. -/
def glob (pattern : Bytes) : List (Glyph Byte) := pattern.map glyph

/-- The meaning that `SafeFNMatch_` gives to it: two stars or more at the end are one character or more. -/
def acceptedGlob : Bytes → List (Glyph Byte)
  | [] => []
  | c :: pattern =>
    if c == star && !pattern.isEmpty && pattern.all (· == star) then [.one, .many]
    else glyph c :: acceptedGlob pattern

theorem anySuffix_iff {f : Bytes → Bool} {str : Bytes} :
    anySuffix f str = true ↔ ∃ t, t <:+ str ∧ t ≠ [] ∧ f t = true := by
  induction str with
  | nil =>
    simp only [anySuffix, Bool.false_eq_true, List.suffix_nil, false_iff, not_exists]
    rintro t ⟨ht, hne, -⟩
    exact hne ht
  | cons b str ih =>
    simp only [anySuffix, Bool.or_eq_true, ih]
    constructor
    · rintro (h | ⟨t, ht, hne, h⟩)
      · exact ⟨b :: str, List.suffix_refl _, List.cons_ne_nil _ _, h⟩
      · exact ⟨t, List.suffix_cons_iff.mpr (Or.inr ht), hne, h⟩
    · rintro ⟨t, ht, hne, h⟩
      rcases List.suffix_cons_iff.mp ht with rfl | ht
      · exact Or.inl h
      · exact Or.inr ⟨t, ht, hne, h⟩

/-- A string matches itself as a pattern. -/
@[simp] theorem safeFNMatch_self (str : Bytes) : safeFNMatch str str = true := by
  induction str with
  | nil => rfl
  | cons b str ih =>
    unfold safeFNMatch
    rw [if_pos (by simp), ih]

@[simp] theorem glyph_question : glyph question = .one := rfl

@[simp] theorem glyph_star : glyph star = .many := rfl

theorem glyph_sym {c : Byte} (hquestion : c ≠ question) (hstar : c ≠ star) : glyph c = .sym c := by
  unfold glyph
  rw [if_neg hquestion, if_neg hstar]

/-- A character that is compared equal can be taken by its glyph. -/
theorem matches_glyph_cons {c b : Byte} (h : c = b ∨ c = question) {g : List (Glyph Byte)} {str : Bytes}
    (hg : Glyph.Matches g str) : Glyph.Matches (glyph c :: g) (b :: str) := by
  by_cases hquestion : c = question
  · subst hquestion
    exact Glyph.Matches.one b hg
  · have hcb := h.resolve_right hquestion
    subst hcb
    by_cases hstar : c = star
    · subst hstar
      exact Glyph.Matches.many [star] hg
    · rw [glyph_sym hquestion hstar]
      exact Glyph.Matches.sym c hg

/-- **Nothing else is accepted**: what `SafeFNMatch_` accepts, the pattern stands for. -/
theorem matches_of_safeFNMatch {pattern str : Bytes} (h : safeFNMatch pattern str = true) :
    Glyph.Matches (glob pattern) str := by
  induction pattern generalizing str with
  | nil =>
    unfold safeFNMatch at h
    rw [List.isEmpty_iff.mp h]
    exact Glyph.Matches.nil
  | cons c pattern ih =>
    show Glyph.Matches (glyph c :: glob pattern) str
    cases str with
    | nil =>
      simp only [safeFNMatch, Bool.and_eq_true, List.isEmpty_iff, beq_iff_eq] at h
      obtain ⟨rfl, rfl⟩ := h
      exact Glyph.matches_many []
    | cons b str =>
      unfold safeFNMatch at h
      split at h
      · rename_i hone
        simp only [Bool.or_eq_true, beq_iff_eq] at hone
        exact matches_glyph_cons hone (ih h)
      · split at h
        · rename_i hstar
          rw [beq_iff_eq.mp hstar, glyph_star]
          simp only [Bool.or_eq_true, List.isEmpty_iff, anySuffix_iff] at h
          rcases h with rfl | ⟨t, ht, -, hmatch⟩
          · exact Glyph.matches_many _
          · exact Glyph.matches_many_iff.mpr ⟨t, ht, ih hmatch⟩
        · cases h

/-- The rest of a pattern that accepts nothing: it is empty, or a star. -/
theorem safeFNMatch_nil_iff {pattern : Bytes} : safeFNMatch pattern [] = true ↔ pattern = [] ∨ pattern = [star] := by
  cases pattern with
  | nil => simp [safeFNMatch]
  | cons c pattern =>
    simp only [safeFNMatch, Bool.and_eq_true, List.isEmpty_iff, beq_iff_eq]
    constructor
    · rintro ⟨rfl, rfl⟩
      exact Or.inr rfl
    · rintro (h | h)
      · cases h
      · cases h
        exact ⟨rfl, rfl⟩

theorem acceptedGlob_stars {pattern : Bytes} (hne : pattern ≠ []) (hstars : ∀ b ∈ pattern, b = star) :
    acceptedGlob (star :: pattern) = [.one, .many] := by
  rw [acceptedGlob]
  exact if_pos (by simpa using ⟨hne, hstars⟩)

theorem acceptedGlob_cons {c : Byte} {pattern : Bytes} (h : ¬ (c = star ∧ pattern ≠ [] ∧ ∀ b ∈ pattern, b = star)) :
    acceptedGlob (c :: pattern) = glyph c :: acceptedGlob pattern := by
  rw [acceptedGlob]
  refine if_neg ?_
  simpa [and_assoc] using h

/-- Stars alone stand for everything, but two or more of them not for nothing. -/
theorem matches_acceptedGlob_stars {pattern : Bytes} (hne : pattern ≠ []) (hstars : ∀ b ∈ pattern, b = star) (b : Byte)
    (str : Bytes) : Glyph.Matches (acceptedGlob pattern) (b :: str) := by
  cases pattern with
  | nil => exact absurd rfl hne
  | cons c pattern =>
    obtain ⟨rfl, hrest⟩ := List.forall_mem_cons.mp hstars
    by_cases hpattern : pattern = []
    · subst hpattern
      exact Glyph.matches_many _
    · rw [acceptedGlob_stars hpattern hrest]
      exact Glyph.matches_some.mpr (List.cons_ne_nil _ _)

/-- A star in the pattern. -/
theorem safeFNMatch_star_cons {pattern str : Bytes} {b : Byte} (hb : b ≠ star) :
    safeFNMatch (star :: pattern) (b :: str) = true ↔
      pattern = [] ∨ ∃ t, t <:+ b :: str ∧ t ≠ [] ∧ safeFNMatch pattern t = true := by
  have hnot : ¬ (star == b || star == question) = true := by
    have hne : (star == b) = false := beq_eq_false_iff_ne.mpr (Ne.symm hb)
    rw [hne]
    decide
  rw [safeFNMatch, if_neg hnot, if_pos (beq_self_eq_true star), Bool.or_eq_true, List.isEmpty_iff, anySuffix_iff]

/-- **What `SafeFNMatch_` accepts**, for strings without a star of their own. -/
theorem safeFNMatch_iff {pattern str : Bytes} (hstr : star ∉ str) :
    safeFNMatch pattern str = true ↔ Glyph.Matches (acceptedGlob pattern) str := by
  induction pattern generalizing str with
  | nil =>
    unfold safeFNMatch acceptedGlob
    rw [List.isEmpty_iff, Glyph.matches_nil_iff]
  | cons c pattern ih =>
    by_cases hstars : c = star ∧ pattern ≠ [] ∧ ∀ b ∈ pattern, b = star
    · obtain ⟨rfl, hne, hall⟩ := hstars
      rw [acceptedGlob_stars hne hall, Glyph.matches_some]
      cases str with
      | nil => simp [safeFNMatch, hne]
      | cons b str =>
        have hb : b ≠ star := fun h => hstr (h ▸ List.mem_cons_self)
        have hmatch := (ih hstr).mpr (matches_acceptedGlob_stars hne hall b str)
        refine iff_of_true ?_ (List.cons_ne_nil _ _)
        exact (safeFNMatch_star_cons hb).mpr (Or.inr ⟨b :: str, List.suffix_refl _, List.cons_ne_nil _ _, hmatch⟩)
    · rw [acceptedGlob_cons hstars]
      -- behind a star that is not the last one, nothing is left only if nothing is asked for
      have hnil : c = star → (Glyph.Matches (acceptedGlob pattern) [] ↔ pattern = []) := by
        intro hc
        rw [← ih List.not_mem_nil, safeFNMatch_nil_iff]
        refine or_iff_left fun hpattern => hstars ⟨hc, ?_, ?_⟩
        · simp [hpattern]
        · simp [hpattern]
      by_cases hc : c = star
      · subst hc
        rw [glyph_star]
        cases str with
        | nil =>
          rw [Glyph.matches_many_nil_iff, hnil rfl, safeFNMatch_nil_iff]
          simp
        | cons b str =>
          have hb : b ≠ star := fun h => hstr (h ▸ List.mem_cons_self)
          rw [safeFNMatch_star_cons hb, Glyph.matches_many_iff]
          constructor
          · rintro (hempty | ⟨t, ht, -, hmatch⟩)
            · exact ⟨[], List.nil_suffix, (hnil rfl).mpr hempty⟩
            · exact ⟨t, ht, (ih fun h => hstr (ht.subset h)).mp hmatch⟩
          · rintro ⟨t, ht, hmatch⟩
            by_cases hempty : t = []
            · subst hempty
              exact Or.inl ((hnil rfl).mp hmatch)
            · exact Or.inr ⟨t, ht, hempty, (ih fun h => hstr (ht.subset h)).mpr hmatch⟩
      · cases str with
        | nil =>
          have hglyph : ¬ Glyph.Matches (glyph c :: acceptedGlob pattern) [] := by
            unfold glyph
            rw [if_neg hc]
            split <;> simp
          simp [safeFNMatch, hc, hglyph]
        | cons b str =>
          have htail : star ∉ str := fun h => hstr (List.mem_cons_of_mem b h)
          by_cases hquestion : c = question
          · subst hquestion
            rw [glyph_question, Glyph.matches_one_cons_iff, ← ih htail, safeFNMatch, if_pos (by simp)]
          · rw [glyph_sym hquestion hc, Glyph.matches_sym_cons_iff, ← ih htail, safeFNMatch]
            by_cases hcb : c = b
            · simp [hcb]
            · simp [hcb, hquestion, hc]

/-- A pattern that does not end in two stars has its usual meaning. -/
theorem acceptedGlob_eq {pattern : Bytes} (h : ¬ [star, star] <:+ pattern) : acceptedGlob pattern = glob pattern := by
  induction pattern with
  | nil => rfl
  | cons c pattern ih =>
    have hrest : ¬ [star, star] <:+ pattern := fun hsuffix => h (List.suffix_cons_iff.mpr (Or.inr hsuffix))
    rw [acceptedGlob_cons, ih hrest]
    · rfl
    · rintro ⟨rfl, hne, hall⟩
      have hreplicate : pattern = List.replicate pattern.length star := List.eq_replicate_iff.mpr ⟨rfl, hall⟩
      obtain ⟨n, hn⟩ : ∃ n, pattern.length = n + 1 := Nat.exists_eq_succ_of_ne_zero (by simpa using hne)
      apply h
      rw [hreplicate, hn, ← List.replicate_succ, List.replicate_succ', List.replicate_succ', List.append_assoc]
      exact List.suffix_append _ _

/-- **`SafeFNMatch_`.** It accepts nothing that the pattern does not stand for, and on strings without a star exactly
    what it stands for, except that two stars or more at the end of the pattern ask for one character at least. -/
theorem safeFNMatch_spec (pattern str : Bytes) :
    (safeFNMatch pattern str = true → Glyph.Matches (glob pattern) str) ∧
    (star ∉ str → (safeFNMatch pattern str = true ↔ Glyph.Matches (acceptedGlob pattern) str)) ∧
    (¬ [star, star] <:+ pattern → acceptedGlob pattern = glob pattern) :=
  ⟨matches_of_safeFNMatch, safeFNMatch_iff, acceptedGlob_eq⟩

/-! ## The list of levels -/

/-- `VModuleInfo`, with its address. -/
structure VModuleInfo where
  address : Nat
  modulePattern : Bytes
  vlogLevel : Int32
  deriving DecidableEq

/-- `vmodule_list`. Nothing is ever deleted, so the addresses in use are those that were allocated so far. -/
structure VModuleList where
  infos : List VModuleInfo
  addresses : (infos.map fun info => info.address).Perm (List.range infos.length)

namespace VModuleList

/-- `vmodule_list = 0`. -/
def empty : VModuleList := ⟨[], List.Perm.refl _⟩

/-- The elements with their addresses, in the order in which they are allocated. -/
def allocate (first : Nat) (entries : List (Bytes × Int32)) : List VModuleInfo :=
  entries.mapIdx fun i entry => ⟨first + i, entry.1, entry.2⟩

theorem length_allocate (first : Nat) (entries : List (Bytes × Int32)) :
    (allocate first entries).length = entries.length := List.length_mapIdx

theorem addresses_allocate (first : Nat) (entries : List (Bytes × Int32)) :
    (allocate first entries).map (fun info => info.address) = (List.range entries.length).map (first + ·) := by
  unfold allocate
  apply List.ext_getElem
  · simp
  · intro i _ _
    simp

/-- New elements are put at the head. -/
def prepend (l : VModuleList) (entries : List (Bytes × Int32)) : VModuleList where
  infos := allocate l.infos.length entries ++ l.infos
  addresses := by
    rw [List.map_append, addresses_allocate, List.length_append, length_allocate, Nat.add_comm, List.range_add]
    exact List.perm_append_comm.trans (l.addresses.append_right _)

/-- A level at an address. -/
def levelAt? (l : VModuleList) (address : Nat) : Option Int32 :=
  (l.infos.find? fun info => info.address == address).map fun info => info.vlogLevel

theorem addresses_nodup (l : VModuleList) : (l.infos.map fun info => info.address).Nodup :=
  l.addresses.nodup_iff.mpr List.nodup_range

/-- An address is that of one element. -/
theorem eq_of_address_eq {l : VModuleList} {i j : VModuleInfo} (hi : i ∈ l.infos) (hj : j ∈ l.infos)
    (h : i.address = j.address) : i = j :=
  List.inj_on_of_nodup_map l.addresses_nodup hi hj h

theorem levelAt?_of_mem {l : VModuleList} {info : VModuleInfo} (h : info ∈ l.infos) :
    l.levelAt? info.address = some info.vlogLevel := by
  unfold levelAt?
  cases hfind : l.infos.find? fun i => i.address == info.address with
  | none => exact absurd (List.find?_eq_none.mp hfind info h) (by simp)
  | some i =>
    have hi : i.address = info.address := by simpa using List.find?_some hfind
    rw [eq_of_address_eq (List.mem_of_find?_eq_some hfind) h hi]
    rfl

end VModuleList

/-- The static data of `vlog_is_on.cc`, with the two flags. -/
structure VLogState where
  flagsV : Int32
  flagsVmodule : Bytes
  vmoduleList : VModuleList
  initedVmodule : Bool

/-! ## `--vmodule` -/

/-- `sscanf` with `"%d"`. -/
def scanInt (text : Bytes) : Option Int32 :=
  if (scan 10 text).digits = [] then none else some (Int32.ofInt (strtoll 10 text).value)

/-- The loop of `VLOG2Initializer`; a round takes one byte or more. -/
def vmoduleEntries : Nat → Bytes → List (Bytes × Int32)
  | 0, _ => []
  | n + 1, vmodule =>
    match strchr vmodule equals with
    | none => []
    | some i =>
      let sep := vmodule.drop i
      let entry :=
        match scanInt (sep.drop 1) with
        | some moduleLevel => [(vmodule.take i, moduleLevel)]
        | none => []
      match strchr sep comma with
      | none => entry
      | some j => entry ++ vmoduleEntries n (sep.drop (j + 1))

/-- The entries of `--vmodule`. -/
def parseVmodule (vmodule : Bytes) : List (Bytes × Int32) := vmoduleEntries vmodule.length (cStr vmodule)

/-- `VLOG2Initializer`. -/
def vlog2Initializer (s : VLogState) : VLogState :=
  { s with vmoduleList := s.vmoduleList.prepend (parseVmodule s.flagsVmodule), initedVmodule := true }

/-- An entry as a user writes it. -/
def renderEntry (entry : Bytes × Int32) : Bytes := entry.1 ++ equals :: decimal entry.2.toInt

/-- The entries, with commas between them. -/
def renderVmodule : List (Bytes × Int32) → Bytes
  | [] => []
  | [entry] => renderEntry entry
  | entry :: entries => renderEntry entry ++ comma :: renderVmodule entries

theorem scanInt_decimal (level : Int32) {rest : Bytes} (hrest : ∀ b ∈ rest.head?, isDigit 10 b = false) :
    scanInt (decimal level.toInt ++ rest) = some level := by
  have hlo : -2 ^ 31 ≤ level.toInt := level.le_toInt
  have hhi : level.toInt < 2 ^ 31 := level.toInt_lt
  have hread := strtoll_decimal level.toInt (by omega) (by omega)
  have hne := Gflags.FlagValue.decimal_ne_nil' level.toInt
  obtain ⟨negative, digits, hscan, -⟩ := (strtoll_whole_iff hne).mp hread
  unfold scanInt
  rw [scan_append hscan hrest, strtoll_append hne hread hrest]
  dsimp only
  rw [if_neg hscan.2, Int32.ofInt_toInt]

/-- The characters of a number. -/
theorem notMem_decimal {n : Int} {c : Byte} (hdigit : isDigit 10 c = false) (hminus : c ≠ 45) : c ∉ decimal n := by
  cases n with
  | ofNat n =>
    intro h
    have hc := isDigit_of_mem_decimal h
    rw [hdigit] at hc
    cases hc
  | negSucc n =>
    rw [decimal_negSucc, List.mem_cons, not_or]
    refine ⟨hminus, ?_⟩
    intro h
    have hc := isDigit_of_mem_decimal h
    rw [hdigit] at hc
    cases hc

/-- What is read from one entry, with `sep` at its equals sign. -/
theorem vmoduleEntries_entry {entry : Bytes × Int32} (hentry : equals ∉ entry.1) (n : Nat) {behind : Bytes}
    (hbehind : ∀ b ∈ behind.head?, isDigit 10 b = false) :
    vmoduleEntries (n + 1) (renderEntry entry ++ behind) =
      match strchr (equals :: decimal entry.2.toInt ++ behind) comma with
      | none => [entry]
      | some j => entry :: vmoduleEntries n ((equals :: decimal entry.2.toInt ++ behind).drop (j + 1)) := by
  have htext : renderEntry entry ++ behind = entry.1 ++ equals :: (decimal entry.2.toInt ++ behind) := by
    unfold renderEntry
    rw [List.append_assoc, List.cons_append]
  rw [htext, vmoduleEntries, strchr_append hentry]
  dsimp only
  rw [List.take_left, List.drop_left, List.drop_succ_cons, List.drop_zero, scanInt_decimal entry.2 hbehind]
  rfl

theorem length_renderEntry_pos (entry : Bytes × Int32) : 0 < (renderEntry entry).length := by
  unfold renderEntry
  rw [List.length_append, List.length_cons]
  omega

/-- Patterns without an equals sign come out in their order, with their levels. -/
theorem vmoduleEntries_render {entries : List (Bytes × Int32)} (hentries : ∀ entry ∈ entries, equals ∉ entry.1)
    {n : Nat} (hn : (renderVmodule entries).length ≤ n) : vmoduleEntries n (renderVmodule entries) = entries := by
  have hcomma (level : Int32) : comma ∉ equals :: decimal level.toInt := by
    rw [List.mem_cons, not_or]
    exact ⟨by decide, notMem_decimal (by decide) (by decide)⟩
  induction entries generalizing n with
  | nil =>
    cases n with
    | zero => rfl
    | succ n => rfl
  | cons entry entries ih =>
    obtain ⟨hentry, hrest⟩ := List.forall_mem_cons.mp hentries
    have hpos := length_renderEntry_pos entry
    cases entries with
    | nil =>
      change (renderEntry entry).length ≤ n at hn
      obtain ⟨n, rfl⟩ := Nat.exists_eq_succ_of_ne_zero (Nat.ne_of_gt (Nat.lt_of_lt_of_le hpos hn))
      have hnone : ∀ b ∈ ([] : Bytes).head?, isDigit 10 b = false := by simp
      have hread := vmoduleEntries_entry hentry n hnone
      rw [List.append_nil, List.append_nil, Gflags.strchr_eq_none.mpr (hcomma entry.2)] at hread
      exact hread
    | cons next entries =>
      have hlength : (renderVmodule (entry :: next :: entries)).length =
          (renderEntry entry).length + ((renderVmodule (next :: entries)).length + 1) := by
        rw [renderVmodule, List.length_append, List.length_cons]
        simp
      rw [hlength] at hn
      obtain ⟨n, rfl⟩ := Nat.exists_eq_succ_of_ne_zero (Nat.ne_of_gt (Nat.lt_of_lt_of_le (Nat.succ_pos _) hn))
      have hdigit : ∀ b ∈ (comma :: renderVmodule (next :: entries)).head?, isDigit 10 b = false := by
        intro b hb
        cases hb
        decide
      have hdrop : (equals :: decimal entry.2.toInt ++ comma :: renderVmodule (next :: entries)).drop
          ((equals :: decimal entry.2.toInt).length + 1) = renderVmodule (next :: entries) := by
        rw [← List.drop_drop, List.drop_left]
        rfl
      have hread := vmoduleEntries_entry hentry n hdigit
      rw [strchr_append (hcomma entry.2)] at hread
      dsimp only at hread
      rw [hdrop, ih hrest (by omega)] at hread
      exact hread

theorem nul_notMem_renderVmodule {entries : List (Bytes × Int32)}
    (hentries : ∀ entry ∈ entries, nul ∉ renderEntry entry) : nul ∉ renderVmodule entries := by
  induction entries with
  | nil => exact List.not_mem_nil
  | cons entry entries ih =>
    obtain ⟨hentry, hrest⟩ := List.forall_mem_cons.mp hentries
    cases entries with
    | nil => exact hentry
    | cons next entries =>
      rw [renderVmodule, List.mem_append, List.mem_cons, not_or, not_or]
      · exact ⟨hentry, by decide, ih hrest⟩
      · simp

/-- **`--vmodule` is read back.** Patterns without an equals sign, and without a null character, come out in their
    order, with their levels. -/
theorem parseVmodule_render (entries : List (Bytes × Int32))
    (hentries : ∀ entry ∈ entries, equals ∉ entry.1 ∧ nul ∉ entry.1) :
    parseVmodule (renderVmodule entries) = entries := by
  have hentry : ∀ entry ∈ entries, nul ∉ renderEntry entry := by
    intro entry hmem
    unfold renderEntry
    rw [List.mem_append, List.mem_cons, not_or, not_or]
    exact ⟨(hentries entry hmem).2, by decide, notMem_decimal (by decide) (by decide)⟩
  have hnul : nul ∉ renderVmodule entries := nul_notMem_renderVmodule hentry
  unfold parseVmodule
  rw [cStr_of_notMem hnul]
  exact vmoduleEntries_render (fun entry hentry => (hentries entry hentry).1) (Nat.le_refl _)

/-- Two patterns. -/
theorem parseVmodule_render_raft :
    parseVmodule (renderVmodule [(lit "raft*", 2), (lit "net", -1)]) = [(lit "raft*", 2), (lit "net", -1)] := by
  apply parseVmodule_render
  decide

/-! ## `SetVLOGLevel` -/

/-- The loop of `SetVLOGLevel`: the elements, `result` and `found`. -/
def setLevels (modulePattern : Bytes) (logLevel : Int32) :
    List VModuleInfo → Int32 → Bool → List VModuleInfo × Int32 × Bool
  | [], result, found => ([], result, found)
  | info :: infos, result, found =>
    if info.modulePattern = modulePattern then
      let rest := setLevels modulePattern logLevel infos (if found then result else info.vlogLevel) true
      ({ info with vlogLevel := logLevel } :: rest.1, rest.2)
    else if !found && safeFNMatch info.modulePattern modulePattern then
      let rest := setLevels modulePattern logLevel infos info.vlogLevel true
      (info :: rest.1, rest.2)
    else
      let rest := setLevels modulePattern logLevel infos result found
      (info :: rest.1, rest.2)

/-- The level of the elements with a pattern. -/
def relevel (modulePattern : Bytes) (logLevel : Int32) (info : VModuleInfo) : VModuleInfo :=
  if info.modulePattern = modulePattern then { info with vlogLevel := logLevel } else info

@[simp] theorem address_relevel (modulePattern : Bytes) (logLevel : Int32) (info : VModuleInfo) :
    (relevel modulePattern logLevel info).address = info.address := by
  unfold relevel
  split <;> rfl

@[simp] theorem modulePattern_relevel (modulePattern : Bytes) (logLevel : Int32) (info : VModuleInfo) :
    (relevel modulePattern logLevel info).modulePattern = info.modulePattern := by
  unfold relevel
  split <;> rfl

/-- The element that governs a module: the first one whose pattern matches. -/
def governing (infos : List VModuleInfo) (module : Bytes) : Option VModuleInfo :=
  infos.find? fun info => safeFNMatch info.modulePattern module

theorem governing_cons (info : VModuleInfo) (infos : List VModuleInfo) (module : Bytes) :
    governing (info :: infos) module =
      if safeFNMatch info.modulePattern module = true then some info else governing infos module := by
  unfold governing
  rw [List.find?_cons]
  cases safeFNMatch info.modulePattern module <;> rfl

/-- **The loop.** The elements with the pattern get the level; the result is the level that governed. -/
theorem setLevels_eq (modulePattern : Bytes) (logLevel : Int32) (infos : List VModuleInfo) (result : Int32)
    (found : Bool) :
    setLevels modulePattern logLevel infos result found =
      (infos.map (relevel modulePattern logLevel),
        if found then result else ((governing infos modulePattern).map fun info => info.vlogLevel).getD result,
        found || (governing infos modulePattern).isSome) := by
  induction infos generalizing result found with
  | nil => cases found <;> rfl
  | cons info infos ih =>
    unfold setLevels
    rw [governing_cons, List.map_cons]
    by_cases hpattern : info.modulePattern = modulePattern
    · have hmatch : safeFNMatch info.modulePattern modulePattern = true := by
        rw [hpattern]
        exact safeFNMatch_self modulePattern
      have hlevel : relevel modulePattern logLevel info = { info with vlogLevel := logLevel } := if_pos hpattern
      rw [if_pos hpattern, if_pos hmatch, hlevel, ih]
      cases found <;> simp
    · have hlevel : relevel modulePattern logLevel info = info := if_neg hpattern
      rw [if_neg hpattern, hlevel]
      by_cases hmatch : safeFNMatch info.modulePattern modulePattern = true
      · rw [if_pos hmatch, ih, ih]
        cases found <;> simp [hmatch]
      · rw [if_neg hmatch, ih, ih]
        cases found <;> simp [hmatch]

theorem addresses_setLevels (l : VModuleList) (modulePattern : Bytes) (logLevel result : Int32) (found : Bool) :
    ((setLevels modulePattern logLevel l.infos result found).1.map fun info => info.address).Perm
      (List.range (setLevels modulePattern logLevel l.infos result found).1.length) := by
  have hmap : (l.infos.map (relevel modulePattern logLevel)).map (fun info => info.address) =
      l.infos.map fun info => info.address := by
    rw [List.map_map]
    apply List.map_congr_left
    intro info _
    exact address_relevel modulePattern logLevel info
  rw [setLevels_eq, hmap, List.length_map]
  exact l.addresses

/-- `SetVLOGLevel`: the state behind it, and what it returns. -/
def setVLOGLevel (s : VLogState) (modulePattern : Bytes) (logLevel : Int32) : VLogState × Int32 :=
  let loop := setLevels modulePattern logLevel s.vmoduleList.infos s.flagsV false
  let l : VModuleList := ⟨loop.1, addresses_setLevels s.vmoduleList modulePattern logLevel s.flagsV false⟩
  ({ s with vmoduleList := if loop.2.2 then l else l.prepend [(modulePattern, logLevel)] }, loop.2.1)

/-- The level for a module: that of the element that governs it, or `FLAGS_v`. -/
def levelFor (s : VLogState) (module : Bytes) : Int32 :=
  ((governing s.vmoduleList.infos module).map fun info => info.vlogLevel).getD s.flagsV

theorem setVLOGLevel_result (s : VLogState) (modulePattern : Bytes) (logLevel : Int32) :
    (setVLOGLevel s modulePattern logLevel).2 = levelFor s modulePattern := by
  show (setLevels modulePattern logLevel s.vmoduleList.infos s.flagsV false).2.1 = levelFor s modulePattern
  rw [setLevels_eq]
  rfl

/-- A pattern that no element matches is the pattern of none. -/
theorem map_relevel_eq {infos : List VModuleInfo} {modulePattern : Bytes} (h : governing infos modulePattern = none)
    (logLevel : Int32) : infos.map (relevel modulePattern logLevel) = infos := by
  have hsame : ∀ info ∈ infos, relevel modulePattern logLevel info = id info := by
    intro info hmem
    refine if_neg fun hpattern => ?_
    have hnone := List.find?_eq_none.mp h info hmem
    rw [hpattern, safeFNMatch_self] at hnone
    exact hnone rfl
  rw [List.map_congr_left hsame, List.map_id]

/-- The elements behind the call: those with the pattern have the level, and a pattern that no element matches is
    put at the head. -/
theorem setVLOGLevel_infos (s : VLogState) (modulePattern : Bytes) (logLevel : Int32) :
    (setVLOGLevel s modulePattern logLevel).1.vmoduleList.infos =
      if (governing s.vmoduleList.infos modulePattern).isSome then
        s.vmoduleList.infos.map (relevel modulePattern logLevel)
      else ⟨s.vmoduleList.infos.length, modulePattern, logLevel⟩ :: s.vmoduleList.infos := by
  unfold setVLOGLevel
  simp only [setLevels_eq, Bool.false_or]
  split
  · rfl
  · rename_i hnone
    rw [Option.not_isSome_iff_eq_none] at hnone
    unfold VModuleList.prepend VModuleList.allocate
    simp [map_relevel_eq hnone]

theorem governing_map_relevel (infos : List VModuleInfo) (modulePattern : Bytes) (logLevel : Int32) (module : Bytes) :
    governing (infos.map (relevel modulePattern logLevel)) module =
      (governing infos module).map (relevel modulePattern logLevel) := by
  unfold governing
  rw [List.find?_map]
  congr 2
  funext info
  simp

/-- The name of a module: the base name of its file, without what is behind the first dot, and without `-inl`. -/
def moduleName (fname : Bytes) : Bytes :=
  let base := (constBasename fname).takeWhile (· ≠ dot)
  if (lit "-inl").isSuffixOf base then base.take (base.length - 4) else base

/-- What a `VLOG_IS_ON` statement points to. -/
inductive SitePointer where
  /-- `&kLogSiteUninitialized`. -/
  | uninitialized
  /-- `&FLAGS_v`. -/
  | flagsV
  /-- `&info->vlog_level`. -/
  | info (address : Nat)
  deriving DecidableEq

/-- `kLogSiteUninitialized`. -/
def kLogSiteUninitialized : Int32 := 1000

/-- The level a pointer leads to. -/
def deref (s : VLogState) : SitePointer → Option Int32
  | .uninitialized => some kLogSiteUninitialized
  | .flagsV => some s.flagsV
  | .info address => s.vmoduleList.levelAt? address

/-- The search of `InitVLOG3__`, with `&FLAGS_v` as `site_default`. -/
def siteFlagValue (s : VLogState) (module : Bytes) : SitePointer :=
  match governing s.vmoduleList.infos module with
  | some info => .info info.address
  | none => .flagsV

/-- `InitVLOG3__`: the state behind it, what it stores in `*site_flag`, and what it returns. -/
def initVLog3 (s : VLogState) (fname : Bytes) (verboseLevel : Int32) :
    VLogState × Option SitePointer × Option Bool :=
  let readVmoduleFlag := s.initedVmodule
  let s := if readVmoduleFlag then s else vlog2Initializer s
  let value := siteFlagValue s (moduleName fname)
  (s, if readVmoduleFlag then some value else none, (deref s value).map fun level => decide (verboseLevel ≤ level))

/-- When the flag has been read, the site gets its pointer. -/
theorem initVLog3_inited {s : VLogState} (h : s.initedVmodule = true) (fname : Bytes) (verboseLevel : Int32) :
    (initVLog3 s fname verboseLevel).1 = s ∧
      (initVLog3 s fname verboseLevel).2.1 = some (siteFlagValue s (moduleName fname)) := by
  unfold initVLog3
  simp [h]

/-- The call that reads the flag does not set the pointer yet. -/
theorem initVLog3_first {s : VLogState} (h : s.initedVmodule = false) (fname : Bytes) (verboseLevel : Int32) :
    (initVLog3 s fname verboseLevel).1 = vlog2Initializer s ∧ (initVLog3 s fname verboseLevel).2.1 = none := by
  unfold initVLog3
  simp [h]

/-- The pointer leads to the level for the module. -/
theorem deref_siteFlagValue (s : VLogState) (module : Bytes) :
    deref s (siteFlagValue s module) = some (levelFor s module) := by
  unfold siteFlagValue levelFor
  cases hgov : governing s.vmoduleList.infos module with
  | none => rfl
  | some info => exact VModuleList.levelAt?_of_mem (List.mem_of_find?_eq_some hgov)

end Thirdparty.Glog
