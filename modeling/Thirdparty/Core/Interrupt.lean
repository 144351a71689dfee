import Thirdparty.Core.Serial

/-!
# `Core.Interrupt` — how a call is interrupted

When one thread has a call with several loud writes, another thread has one with a loud write, and they do not both
hold the lock, some run puts a write of the second call between two of the first: both threads make all calls before
the two in question, then the first thread writes up to its first loud write, the second one makes its own, and the
first one goes on.

## Contents
- `reaches_writes`, `reaches_calls`: a thread left alone makes its writes and its calls.
- `exists_interrupted`: the run.
- `bytes`: what the writes put out byte for byte; `bytes_contiguous`, `bytes_not_contiguous`.
-/

namespace Thirdparty.Writers

open Trace

variable {T σ γ : Type*}

/-- What calls made one after the other leave in the shared data. -/
def sharedAfter (cs : List (Call σ γ)) (shared : σ) : σ := cs.foldl (fun shared c => c.update shared) shared

/-- Nobody is in a call. -/
structure Resting (s : State T σ γ) : Prop where
  current : ∀ u, s.current u = none
  holder : s.holder = none

theorem resting_initial (shared : σ) : Resting (State.initial T γ shared) := ⟨fun _ => rfl, rfl⟩

variable [DecidableEq T] {P : T → List (Call σ γ)} {loud : γ → Bool} {s : State T σ γ} {t u : T} {c d : Call σ γ}

/-! ## A thread left alone -/

variable (loud) in
theorem start_eq (hcurrent : s.current t = none) (hc : (P t)[s.index t]? = some c)
    (hlock : c.locked = true → s.holder = none) : step P loud s (t, .start) = some (s.begin t c) := by
  rw [step, hc, Option.bind_some, if_pos]
  rw [hcurrent, Option.isNone_none, Bool.true_and, Bool.or_eq_true, Bool.not_eq_true', Option.isNone_iff_eq_none]
  cases hl : c.locked with
  | false => exact Or.inl rfl
  | true => exact Or.inr (hlock hl)

variable (P) in
theorem write_eq {k : InCall σ γ} {w : γ} {left : List γ} (hcurrent : s.current t = some k)
    (hleft : k.left = w :: left) : step P loud s (t, .write) = some (s.emit loud t k w left) := by
  simp only [step, hcurrent, Option.bind_some, hleft]

variable (P loud) in
theorem finish_eq {k : InCall σ γ} (hcurrent : s.current t = some k) (hleft : k.left = []) :
    step P loud s (t, .finish) = some (s.leave P t) := by
  simp [step, hcurrent, hleft]

/-- `t` has made the writes `ws` of its call, and has `rest` left. -/
def State.advance (s : State T σ γ) (loud : γ → Bool) (t : T) (k : InCall σ γ) (ws rest : List γ) : State T σ γ :=
  { s with
    current := Function.update s.current t (some ⟨k.found, k.made ++ ws, rest⟩)
    out := s.out ++ (ws.filter loud).map (s.id t, ·) }

theorem advance_current {k : InCall σ γ} {ws rest : List γ} :
    (s.advance loud t k ws rest).current t = some ⟨k.found, k.made ++ ws, rest⟩ := Function.update_self _ _ _

theorem advance_current_ne {k : InCall σ γ} {ws rest : List γ} (h : u ≠ t) :
    (s.advance loud t k ws rest).current u = s.current u := Function.update_of_ne h _ _

section Alone

variable (P loud)

/-- `t` makes the next writes of its call. -/
theorem reaches_writes {k : InCall σ γ} (ws rest : List γ) (hcurrent : s.current t = some k)
    (hleft : k.left = ws ++ rest) : Reaches (step P loud) s (s.advance loud t k ws rest) := by
  induction ws generalizing s k with
  | nil =>
    have hsame : s.advance loud t k [] rest = s := by
      have hk : (⟨k.found, k.made ++ [], rest⟩ : InCall σ γ) = k := by
        rw [List.append_nil, ← List.nil_append rest, ← hleft]
      rw [State.advance, hk, ← hcurrent, Function.update_eq_self]
      simp
    rw [hsame]
    exact .refl s
  | cons w ws ih =>
    have hnext := ih (s := s.emit loud t k w (ws ++ rest)) emit_current rfl
    have hsame : (s.emit loud t k w (ws ++ rest)).advance loud t ⟨k.found, k.made ++ [w], ws ++ rest⟩ ws rest
        = s.advance loud t k (w :: ws) rest := by
      simp only [State.advance, State.emit, Function.update_idem, List.append_assoc, List.singleton_append]
      cases hl : loud w <;> simp [hl, State.id]
    rw [← hsame]
    exact (Reaches.single (write_eq P hcurrent hleft)).trans hnext

/-- From rest, `t` makes its next call, and everybody rests again. -/
theorem reaches_call (h : Resting s) (hc : (P t)[s.index t]? = some c) :
    ∃ s', Reaches (step P loud) s s' ∧ Resting s' ∧ s'.index = Function.update s.index t (s.index t + 1) ∧
      s'.shared = c.update s.shared := by
  have hstart := start_eq loud (h.current t) hc fun _ => h.holder
  have hwrites := reaches_writes P loud (s := s.begin t c) (c.writes s.shared) [] begin_current (by simp)
  set s₁ := (s.begin t c).advance loud t ⟨s.shared, [], c.writes s.shared⟩ (c.writes s.shared) [] with hs₁
  have hfinish := finish_eq P loud (s := s₁) advance_current rfl
  refine ⟨s₁.leave P t, ((Reaches.single hstart).trans hwrites).trans (.single hfinish), ⟨?_, ?_⟩, rfl, rfl⟩
  · intro u
    by_cases hut : u = t
    · exact hut ▸ leave_current
    · rw [leave_current_ne hut, hs₁, advance_current_ne hut, begin_current_ne hut]
      exact h.current u
  · have hlocked : lockedOf P (s.id t) = c.locked := lockedOf_of_some hc
    show (if lockedOf P (s.id t) then none else if c.locked then some t else s.holder) = none
    rw [hlocked]
    cases hl : c.locked with
    | true => rfl
    | false => exact h.holder

/-- From rest, `t` makes its next `n` calls. -/
theorem reaches_calls (n : Nat) (h : Resting s) (hidx : s.index t + n ≤ (P t).length) :
    ∃ s', Reaches (step P loud) s s' ∧ Resting s' ∧ s'.index = Function.update s.index t (s.index t + n) ∧
      s'.shared = sharedAfter (((P t).drop (s.index t)).take n) s.shared := by
  induction n with
  | zero => exact ⟨s, .refl s, h, by simp, rfl⟩
  | succ n ih =>
    obtain ⟨s₁, hreach, hrest, hi, hsh⟩ := ih (by omega)
    have hone : s₁.index t = s.index t + n := by rw [hi]; simp
    have hlt : s.index t + n < (P t).length := by omega
    have hc : (P t)[s₁.index t]? = some (P t)[s.index t + n] := by rw [hone, List.getElem?_eq_getElem hlt]
    obtain ⟨s₂, hreach', hrest', hi', hsh'⟩ := reaches_call P loud hrest hc
    refine ⟨s₂, hreach.trans hreach', hrest', ?_, ?_⟩
    · rw [hi', hone, hi, Function.update_idem]
      congr 1
    · have hget : ((P t).drop (s.index t))[n]? = some (P t)[s.index t + n] := by
        rw [List.getElem?_drop, List.getElem?_eq_getElem hlt]
      rw [hsh', hsh, List.take_add_one, hget, sharedAfter, sharedAfter, List.foldl_append]
      rfl

/-- Both threads can make all calls before two given ones. -/
theorem reaches_before (shared : σ) {i j : Nat} (hut : u ≠ t) (hi : i ≤ (P t).length) (hj : j ≤ (P u).length) :
    ∃ s, Reaches (step P loud) (State.initial T γ shared) s ∧ Resting s ∧ s.index t = i ∧ s.index u = j ∧
      s.shared = sharedAfter ((P u).take j) (sharedAfter ((P t).take i) shared) := by
  obtain ⟨s₁, hr₁, hrest₁, hidx₁, hsh₁⟩ := reaches_calls P loud (s := State.initial T γ shared) (t := t) i
    (resting_initial shared) (Nat.le_trans (Nat.le_of_eq (Nat.zero_add i)) hi)
  have hu₁ : s₁.index u = 0 := by rw [hidx₁, Function.update_of_ne hut]; rfl
  obtain ⟨s₂, hr₂, hrest₂, hidx₂, hsh₂⟩ := reaches_calls P loud (t := u) j hrest₁ (by omega)
  refine ⟨s₂, hr₁.trans hr₂, hrest₂, ?_, ?_, ?_⟩
  · rw [hidx₂, Function.update_of_ne (Ne.symm hut), hidx₁, Function.update_self]
    exact Nat.zero_add i
  · rw [hidx₂, Function.update_self, hu₁, Nat.zero_add]
  · rw [hsh₂, hu₁, hsh₁, List.drop_zero]
    rfl

end Alone

/-! ## The interruption -/

/-- The first loud write. -/
theorem exists_loud {ws : List γ} (h : ws.filter loud ≠ []) :
    ∃ before w after, ws = before ++ w :: after ∧ loud w = true ∧ before.filter loud = [] := by
  induction ws with
  | nil => exact absurd rfl h
  | cons w ws ih =>
    cases hl : loud w with
    | true => exact ⟨[], w, ws, rfl, hl, rfl⟩
    | false =>
      rw [List.filter_cons_of_neg (by simp [hl])] at h
      obtain ⟨before, w', after, rfl, hw', hbefore⟩ := ih h
      exact ⟨w :: before, w', after, rfl, hw', by simp [hl, hbefore]⟩

/-- Two loud writes. -/
theorem exists_two_loud {ws : List γ} (h : 2 ≤ (ws.filter loud).length) :
    ∃ a x b z c, ws = a ++ x :: (b ++ z :: c) ∧ loud x = true ∧ loud z = true := by
  have hne : ws.filter loud ≠ [] := by
    intro hnil
    rw [hnil] at h
    simp at h
  obtain ⟨a, x, rest, rfl, hx, ha⟩ := exists_loud hne
  -- one loud write is not all
  have hrest : rest.filter loud ≠ [] := by
    intro hnil
    rw [List.filter_append, ha, List.filter_cons_of_pos hx, hnil] at h
    simp at h
  obtain ⟨b, z, c, rfl, hz, -⟩ := exists_loud hrest
  exact ⟨a, x, b, z, c, rfl, hx, hz⟩

/-- From rest, `u` comes in between two writes of `t`. -/
theorem reaches_between {a b e a' e' : List γ} {x y z : γ} (hrest : Resting s) (hut : u ≠ t)
    (hc : (P t)[s.index t]? = some c) (hd : (P u)[s.index u]? = some d)
    (hlock : ¬ (c.locked = true ∧ d.locked = true)) (hcw : c.writes s.shared = a ++ x :: (b ++ z :: e))
    (hdw : d.writes (c.update s.shared) = a' ++ y :: e') (hx : loud x = true) (hy : loud y = true)
    (hz : loud z = true) :
    ∃ s' p q r, Reaches (step P loud) s s' ∧
      s'.out = (p ++ (s.id t, x) :: q) ++ (s.id u, y) :: (r ++ [(s.id t, z)]) := by
  -- `t` up to its first loud write
  have hstart := start_eq loud (hrest.current t) hc fun _ => hrest.holder
  have hr₁ := reaches_writes P loud (s := s.begin t c) (t := t) (a ++ [x]) (b ++ z :: e) begin_current
    (by rw [hcw]; simp)
  set s₁ := (s.begin t c).advance loud t ⟨s.shared, [], c.writes s.shared⟩ (a ++ [x]) (b ++ z :: e) with hs₁
  have hu₁ : s₁.current u = none := by
    rw [hs₁, advance_current_ne hut, begin_current_ne hut]
    exact hrest.current u
  -- `u` may start: one of the two calls goes without the lock
  have hfree : d.locked = true → s₁.holder = none := by
    intro hdl
    have hcl : ¬ c.locked = true := fun hcl => hlock ⟨hcl, hdl⟩
    exact (if_neg hcl).trans hrest.holder
  -- `u` up to its own
  have hstart' := start_eq (P := P) loud hu₁ hd hfree
  have hr₂ := reaches_writes P loud (s := s₁.begin u d) (t := u) (a' ++ [y]) e' begin_current
    (show d.writes (c.update s.shared) = _ by rw [hdw]; simp)
  set s₂ := (s₁.begin u d).advance loud u ⟨s₁.shared, [], d.writes s₁.shared⟩ (a' ++ [y]) e' with hs₂
  -- and `t` up to its second one
  have ht₂ : s₂.current t = some ⟨s.shared, a ++ [x], b ++ z :: e⟩ := by
    rw [hs₂, advance_current_ne (Ne.symm hut), begin_current_ne (Ne.symm hut)]
    exact advance_current
  have hr₃ := reaches_writes P loud (s := s₂) (t := t) (b ++ [z]) e ht₂ (by simp)
  refine ⟨_, s.out ++ (a.filter loud).map (s.id t, ·), (a'.filter loud).map (s.id u, ·),
    (b.filter loud).map (s.id t, ·),
    (((Reaches.single hstart).trans hr₁).trans (.single hstart')).trans (hr₂.trans hr₃), ?_⟩
  show ((s.out ++ ((a ++ [x]).filter loud).map (s.id t, ·)) ++ ((a' ++ [y]).filter loud).map (s.id u, ·))
      ++ ((b ++ [z]).filter loud).map (s.id t, ·) = _
  simp [hx, hy, hz]

/-- **An interrupted call.** Some run puts a loud write of the one call between two of the other. -/
theorem exists_interrupted (loud : γ → Bool) (shared : σ) {i j : Nat} (hut : u ≠ t) (hc : (P t)[i]? = some c)
    (hd : (P u)[j]? = some d) (hlock : ¬ (c.locked = true ∧ d.locked = true)) {found : σ}
    (hfound : sharedAfter ((P u).take j) (sharedAfter ((P t).take i) shared) = found)
    (htwo : 2 ≤ ((c.writes found).filter loud).length) (hone : (d.writes (c.update found)).filter loud ≠ []) :
    ∃ as s, run (step P loud) (State.initial T γ shared) as = some s ∧
      ∃ p q r x y z, s.out = (p ++ ((t, i), x) :: q) ++ ((u, j), y) :: (r ++ [((t, i), z)]) ∧
        loud x = true ∧ loud y = true ∧ loud z = true := by
  obtain ⟨a, x, b, z, e, habc, hx, hz⟩ := exists_two_loud htwo
  obtain ⟨a', y, e', hae', hy, -⟩ := exists_loud hone
  obtain ⟨s, hreach, hrest, ht, hu, hsh⟩ := reaches_before P loud shared hut
    (Nat.le_of_lt (List.getElem?_eq_some_iff.mp hc).1) (Nat.le_of_lt (List.getElem?_eq_some_iff.mp hd).1)
  rw [hfound] at hsh
  obtain ⟨s', p, q, r, hreach', hout⟩ := reaches_between (c := c) (d := d) hrest hut (by rw [ht]; exact hc)
    (by rw [hu]; exact hd) hlock (by rw [hsh]; exact habc) (by rw [hsh]; exact hae') hx hy hz
  obtain ⟨as, hrun⟩ := hreach.trans hreach'
  rw [State.id, State.id, ht, hu] at hout
  exact ⟨as, s', hrun, p, q, r, x, y, z, hout, hx, hy, hz⟩

/-! ## Bytes -/

section Bytes

variable {β : Type*} {payload : γ → List β}

omit [DecidableEq T] in
/-- The bytes that were put out, each with the call it belongs to. -/
def bytes (payload : γ → List β) (out : List (CallId T × γ)) : List (CallId T × β) :=
  out.flatMap fun x => (payload x.2).map (x.1, ·)

omit [DecidableEq T] in
theorem bytes_contiguous {out : List (CallId T × γ)} {id : CallId T} (h : Contiguous (fun x => x.1 = id) out) :
    Contiguous (fun x => x.1 = id) (bytes payload out) := by
  apply h.flatMap
  intro x y hy
  obtain ⟨b, -, rfl⟩ := List.mem_map.mp hy
  exact Iff.rfl

omit [DecidableEq T] in
/-- Between two bytes of one call there is a byte of another. -/
theorem bytes_not_contiguous {p q r : List (CallId T × γ)} {id id' : CallId T} {x y z : γ} (hne : id' ≠ id)
    (hx : payload x ≠ []) (hy : payload y ≠ []) (hz : payload z ≠ []) :
    ¬ Contiguous (fun e => e.1 = id) (bytes payload ((p ++ (id, x) :: q) ++ (id', y) :: (r ++ [(id, z)]))) := by
  obtain ⟨bx, px, hx⟩ := List.exists_cons_of_ne_nil hx
  obtain ⟨b, py, hy⟩ := List.exists_cons_of_ne_nil hy
  obtain ⟨bz, pz, hz⟩ := List.exists_cons_of_ne_nil hz
  have hbetween := not_contiguous (p := fun e : CallId T × β => e.1 = id) (x := (id, bx)) (y := (id', b))
    (z := (id, bz)) (a := bytes payload p) (b := px.map (id, ·) ++ bytes payload q)
    (c := py.map (id', ·) ++ bytes payload r) (d := pz.map (id, ·)) rfl hne rfl
  simpa [bytes, hx, hy, hz] using hbetween

end Bytes

end Thirdparty.Writers
