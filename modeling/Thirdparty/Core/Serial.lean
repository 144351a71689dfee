import Thirdparty.Core.Writers

/-!
# `Core.Serial` — when concurrent writers put out what serial ones would

The abstract writer puts out whole calls, one after the other. The threads of `Core.Writers` refine it when no thread
has something to put out while another one is in the midst of its output.

## Contents
- `NoOverlap`: the condition on a state; `Serial`: the outputs of the abstract writer.
- `serialState_step`: the step lemma of the invariant `SerialState`.
- `serial_of_noOverlap`: without overlaps, every output is serial.
- `Serial.contiguous`, `Serial.isolated`: what this says about one call and about one write.
-/

namespace Thirdparty.Writers

open Trace

variable {T σ γ : Type*} (P : T → List (Call σ γ)) (loud : γ → Bool)

/-- The loud writes that `t` has made of its call. -/
def State.made (s : State T σ γ) (t : T) : List γ := (s.current t).elim [] fun k => k.made.filter loud

/-- The loud writes that are left of it. -/
def State.left (s : State T σ γ) (t : T) : List γ := (s.current t).elim [] fun k => k.left.filter loud

/-- `t` has put out some of its call, and not all. -/
def Midway (s : State T σ γ) (t : T) : Prop := s.made loud t ≠ [] ∧ s.left loud t ≠ []

/-- While a thread has something left to put out, no other thread is in the midst of its output. -/
def NoOverlap (s : State T σ γ) : Prop := ∀ t u, u ≠ t → s.left loud t ≠ [] → ¬ Midway loud s u

/-- `b` is a call with the writes that it makes from some shared data. -/
def IsCall (b : CallId T × List γ) : Prop := ∃ c shared, (P b.1.1)[b.1.2]? = some c ∧ b.2 = c.writes shared

/-- What a call puts out when nobody comes in between. -/
def block (b : CallId T × List γ) : List (CallId T × γ) := (b.2.filter loud).map (b.1, ·)

/-- **The output of calls made one after the other**, the last one perhaps not to its end. -/
def Serial (out : List (CallId T × γ)) : Prop :=
  ∃ bs : List (CallId T × List γ), (bs.map Prod.fst).Nodup ∧ (∀ b ∈ bs, IsCall P b) ∧ out <+: bs.flatMap (block loud)

/-! ## The call a thread is in -/

/-- Everything of the call has been put out. -/
def Complete (s : State T σ γ) (id : CallId T) : Prop :=
  id.2 < s.index id.1 ∨ id.2 = s.index id.1 ∧ s.current id.1 ≠ none ∧ s.left loud id.1 = []

/-- Calls that are complete, each with its writes. -/
structure Past (s : State T σ γ) (bs : List (CallId T × List γ)) : Prop where
  nodup : (bs.map Prod.fst).Nodup
  calls : ∀ b ∈ bs, IsCall P b
  complete : ∀ b ∈ bs, Complete loud s b.1

/-- Of the calls that are complete, each is in the output as a whole; at most one call is not complete, and what is
    put out of it comes last. -/
inductive SerialState (s : State T σ γ) : Prop where
  /-- No thread is in the midst of its output. -/
  | idle (bs : List (CallId T × List γ)) (hbs : Past P loud s bs) (hmid : ∀ u, ¬ Midway loud s u)
      (hout : s.out = bs.flatMap (block loud))
  /-- Only `t` is. -/
  | busy (t : T) (bs : List (CallId T × List γ)) (hbs : Past P loud s bs) (ht : Midway loud s t)
      (hmid : ∀ u, Midway loud s u → u = t)
      (hout : s.out = bs.flatMap (block loud) ++ (s.made loud t).map (s.id t, ·))

variable {P loud} {s s' : State T σ γ} {t u : T}

theorem made_none (h : s.current t = none) : s.made loud t = [] := by rw [State.made, h]; rfl

theorem made_some {k : InCall σ γ} (h : s.current t = some k) : s.made loud t = k.made.filter loud := by
  rw [State.made, h]; rfl

theorem left_some {k : InCall σ γ} (h : s.current t = some k) : s.left loud t = k.left.filter loud := by
  rw [State.left, h]; rfl

theorem Midway.current_ne (h : Midway loud s t) : s.current t ≠ none := fun hnone => h.1 (made_none hnone)

/-- It is not complete. -/
theorem Midway.not_complete (h : Midway loud s t) : ¬ Complete loud s (s.id t) := by
  rintro (hlt | ⟨-, -, hleft⟩)
  · exact absurd hlt (Nat.lt_irrefl _)
  · exact h.2 hleft

variable (loud) in
/-- A thread in a call is there with a call of its program. -/
theorem Begun.exists_call (h : Begun P s) (ht : s.current t ≠ none) :
    ∃ ws, IsCall P (s.id t, ws) ∧ ws.filter loud = s.made loud t ++ s.left loud t := by
  obtain ⟨k, hk⟩ := Option.ne_none_iff_exists'.mp ht
  obtain ⟨c, hc, hwrites⟩ := h t k hk
  exact ⟨c.writes k.found, ⟨c, k.found, hc, rfl⟩, by
    rw [made_some hk, left_some hk, ← List.filter_append, hwrites]⟩

/-! ## Steps that put nothing out -/

theorem Past.mono {bs : List (CallId T × List γ)} (h : Past P loud s bs)
    (hcomplete : ∀ id, Complete loud s id → Complete loud s' id) : Past P loud s' bs :=
  ⟨h.nodup, h.calls, fun b hb => hcomplete b.1 (h.complete b hb)⟩

/-- A step that changes neither the output, nor what is in the midst of it. -/
theorem SerialState.silent (h : SerialState P loud s) (hout : s'.out = s.out)
    (hcomplete : ∀ id, Complete loud s id → Complete loud s' id)
    (hmid : ∀ u, Midway loud s' u ↔ Midway loud s u)
    (hsame : ∀ u, Midway loud s u → s'.made loud u = s.made loud u ∧ s'.id u = s.id u) :
    SerialState P loud s' := by
  cases h with
  | idle bs hbs hnone hblocks =>
    exact .idle bs (hbs.mono hcomplete) (fun u hu => hnone u ((hmid u).mp hu)) (hout.trans hblocks)
  | busy t bs hbs ht honly hblocks =>
    obtain ⟨hmade, hid⟩ := hsame t ht
    refine .busy t bs (hbs.mono hcomplete) ((hmid t).mpr ht) (fun u hu => honly u ((hmid u).mp hu)) ?_
    rw [hout, hblocks, hmade, hid]

variable (loud) in
/-- A thread whose place did not change. -/
theorem same_of_current (hcurrent : s'.current u = s.current u) (hindex : s'.index u = s.index u) :
    s'.made loud u = s.made loud u ∧ s'.left loud u = s.left loud u ∧ s'.id u = s.id u :=
  ⟨by rw [State.made, hcurrent, State.made], by rw [State.left, hcurrent, State.left],
    by rw [State.id, hindex, State.id]⟩

theorem complete_of_current {id : CallId T} (hcurrent : s'.current id.1 = s.current id.1)
    (hindex : s'.index id.1 = s.index id.1) (h : Complete loud s id) : Complete loud s' id := by
  rw [Complete, hindex, hcurrent, (same_of_current loud hcurrent hindex).2.1]
  exact h

/-- The step of a thread that is not in the midst of its output, before or after. -/
theorem SerialState.still (h : SerialState P loud s) (hout : s'.out = s.out)
    (hothers : ∀ u, u ≠ t → s'.current u = s.current u ∧ s'.index u = s.index u) (hbefore : ¬ Midway loud s t)
    (hafter : ¬ Midway loud s' t) (hcomplete : ∀ i, Complete loud s (t, i) → Complete loud s' (t, i)) :
    SerialState P loud s' := by
  apply h.silent hout
  · rintro ⟨u, i⟩ hid
    by_cases hut : u = t
    · exact hut ▸ hcomplete i (hut ▸ hid)
    · exact complete_of_current (hothers u hut).1 (hothers u hut).2 hid
  · intro u
    by_cases hut : u = t
    · exact hut ▸ iff_of_false hafter hbefore
    · obtain ⟨hmade, hleft, -⟩ := same_of_current loud (hothers u hut).1 (hothers u hut).2
      rw [Midway, hmade, hleft, Midway]
  · intro u hu
    have hut : u ≠ t := by
      intro hut
      exact hbefore (hut ▸ hu)
    obtain ⟨hmade, -, hid⟩ := same_of_current loud (hothers u hut).1 (hothers u hut).2
    exact ⟨hmade, hid⟩

variable [DecidableEq T]

theorem SerialState.begin (h : SerialState P loud s) (hcurrent : s.current t = none) (c : Call σ γ) :
    SerialState P loud (s.begin t c) := by
  refine h.still (t := t) rfl (fun u hut => ⟨begin_current_ne hut, rfl⟩) (fun hmid => hmid.current_ne hcurrent) ?_ ?_
  · intro hmid
    exact hmid.1 (by rw [made_some begin_current]; rfl)
  · rintro i (hlt | ⟨-, hne, -⟩)
    · exact Or.inl hlt
    · exact absurd hcurrent hne

theorem SerialState.leave {k : InCall σ γ} (h : SerialState P loud s) (hcurrent : s.current t = some k)
    (hleft : k.left = []) : SerialState P loud (s.leave P t) := by
  refine h.still (t := t) rfl (fun u hut => ⟨leave_current_ne hut, leave_index_ne hut⟩) ?_
    (fun hmid => hmid.current_ne leave_current) ?_
  · intro hmid
    exact hmid.2 (by rw [left_some hcurrent, hleft]; rfl)
  · rintro i (hlt | ⟨heq, -, -⟩)
    · exact Or.inl (Nat.lt_of_lt_of_eq (Nat.lt_succ_of_lt hlt) leave_index.symm)
    · exact Or.inl (Nat.lt_of_lt_of_eq (Nat.lt_succ_of_le (Nat.le_of_eq heq)) leave_index.symm)

/-! ## Writes -/

section Writes

variable {k : InCall σ γ} {w : γ} {left : List γ}

/-- A write moves from what is left to what is made. -/
theorem emit_made (hcurrent : s.current t = some k) :
    (s.emit loud t k w left).made loud t = s.made loud t ++ if loud w then [w] else [] := by
  rw [made_some emit_current, made_some hcurrent, List.filter_append]
  cases hl : loud w <;> simp [hl]

theorem emit_left (hcurrent : s.current t = some k) (hleft : k.left = w :: left) :
    s.left loud t = (if loud w then [w] else []) ++ (s.emit loud t k w left).left loud t := by
  rw [left_some emit_current, left_some hcurrent, hleft]
  cases hl : loud w <;> simp [hl]

theorem emit_other (hut : u ≠ t) : (s.emit loud t k w left).made loud u = s.made loud u ∧
    (s.emit loud t k w left).left loud u = s.left loud u ∧ (s.emit loud t k w left).id u = s.id u :=
  same_of_current loud (emit_current_ne hut) rfl

theorem emit_complete {id : CallId T} (hcurrent : s.current t = some k) (hleft : k.left = w :: left)
    (h : Complete loud s id) : Complete loud (s.emit loud t k w left) id := by
  obtain ⟨u, i⟩ := id
  by_cases hut : u = t
  · subst hut
    rcases h with hlt | ⟨heq, -, hnil⟩
    · exact Or.inl hlt
    · refine Or.inr ⟨heq, by simp, ?_⟩
      rw [emit_left hcurrent hleft] at hnil
      exact (List.append_eq_nil_iff.mp hnil).2
  · exact complete_of_current (emit_current_ne hut) rfl h

/-- A write that puts nothing out. -/
theorem SerialState.emit_silent (h : SerialState P loud s) (hcurrent : s.current t = some k)
    (hleft : k.left = w :: left) (hl : loud w = false) : SerialState P loud (s.emit loud t k w left) := by
  have hsame : ∀ u, (s.emit loud t k w left).made loud u = s.made loud u ∧
      (s.emit loud t k w left).left loud u = s.left loud u := by
    intro u
    by_cases hut : u = t
    · subst hut
      refine ⟨?_, ?_⟩
      · rw [emit_made hcurrent, hl]; exact List.append_nil _
      · rw [emit_left hcurrent hleft, hl]; rfl
    · exact ⟨(emit_other hut).1, (emit_other hut).2.1⟩
  refine h.silent ?_ (fun id => emit_complete hcurrent hleft) ?_ fun u _ => ⟨(hsame u).1, rfl⟩
  · rw [State.emit, hl]; exact List.append_nil _
  · intro u
    rw [Midway, (hsame u).1, (hsame u).2, Midway]

/-- A write that puts something out: no other thread is in the midst of its output, so it extends the block of its
    own call, or begins it. -/
theorem SerialState.emit_loud (hbegun : Begun P s) (hno : NoOverlap loud s) (h : SerialState P loud s)
    (hcurrent : s.current t = some k) (hk : k.left = w :: left) (hl : loud w = true) :
    SerialState P loud (s.emit loud t k w left) := by
  have hleft : s.left loud t = w :: (s.emit loud t k w left).left loud t := by
    rw [emit_left hcurrent hk, hl]; rfl
  have hmade : (s.emit loud t k w left).made loud t = s.made loud t ++ [w] := by
    rw [emit_made hcurrent, hl]; rfl
  have hne : s.left loud t ≠ [] := by rw [hleft]; exact List.cons_ne_nil _ _
  have hothers : ∀ u, u ≠ t → ¬ Midway loud (s.emit loud t k w left) u := by
    intro u hut
    rw [Midway, (emit_other hut).1, (emit_other hut).2.1]
    exact hno t u hut hne
  -- the output so far is whole calls, and then what is made of this one
  obtain ⟨bs, hbs, hout⟩ : ∃ bs : List (CallId T × List γ), Past P loud s bs ∧
      s.out = bs.flatMap (block loud) ++ (s.made loud t).map (s.id t, ·) := by
    cases h with
    | idle bs hbs hnone hblocks =>
      have hempty : s.made loud t = [] := by
        by_contra hmid
        exact hnone t ⟨hmid, hne⟩
      exact ⟨bs, hbs, by rw [hblocks, hempty]; exact (List.append_nil _).symm⟩
    | busy u bs hbs hu honly hblocks =>
      obtain rfl : u = t := by
        by_contra hut
        exact hno t u hut hne hu
      exact ⟨bs, hbs, hblocks⟩
  -- a call with something left to put out is not among the complete ones
  have hfresh : s.id t ∉ bs.map Prod.fst := by
    intro hmem
    obtain ⟨b, hb, hid⟩ := List.mem_map.mp hmem
    rcases hid ▸ hbs.complete b hb with hlt | ⟨-, -, hnil⟩
    · exact absurd hlt (Nat.lt_irrefl _)
    · exact hne hnil
  have hout' : (s.emit loud t k w left).out
      = bs.flatMap (block loud) ++ ((s.emit loud t k w left).made loud t).map (s.id t, ·) := by
    have hemit : (s.emit loud t k w left).out = s.out ++ [(s.id t, w)] := by rw [State.emit, hl]; rfl
    rw [hemit, hout, hmade, List.map_append, List.append_assoc]
    rfl
  have hbs' : Past P loud (s.emit loud t k w left) bs := hbs.mono fun id => emit_complete hcurrent hk
  have hmade' : (s.emit loud t k w left).made loud t ≠ [] := by rw [hmade]; simp
  by_cases hend : (s.emit loud t k w left).left loud t = []
  · -- it was the last one of the call
    obtain ⟨ws, hcall, hwhole⟩ := hbegun.exists_call loud (show s.current t ≠ none by simp [hcurrent])
    rw [hleft, hend, ← hmade] at hwhole
    refine .idle (bs ++ [(s.id t, ws)]) ⟨?_, ?_, ?_⟩ ?_ ?_
    · rw [List.map_append]
      refine List.nodup_append.mpr ⟨hbs'.nodup, List.pairwise_singleton _ _, ?_⟩
      rintro id hid _ hlast rfl
      have hid' : id = s.id t := List.mem_singleton.mp hlast
      exact hfresh (hid' ▸ hid)
    · exact List.forall_mem_append.mpr ⟨hbs'.calls, List.forall_mem_singleton.mpr hcall⟩
    · exact List.forall_mem_append.mpr ⟨hbs'.complete,
        List.forall_mem_singleton.mpr (Or.inr ⟨rfl, by simp [State.id], hend⟩)⟩
    · intro u hu
      by_cases hut : u = t
      · exact (hut ▸ hu).2 hend
      · exact hothers u hut hu
    · rw [hout', List.flatMap_append, List.flatMap_singleton, block, hwhole]
  · refine .busy t bs hbs' ⟨hmade', hend⟩ ?_ hout'
    intro u hu
    by_contra hut
    exact hothers u hut hu

end Writes

/-- **Step lemma.** -/
theorem serialState_step {a : T × Act} (hbegun : Begun P s) (hno : NoOverlap loud s) (h : SerialState P loud s)
    (hstep : step P loud s a = some s') : SerialState P loud s' := by
  obtain ⟨t, act⟩ := a
  cases act with
  | start =>
    obtain ⟨c, -, hcurrent, -, rfl⟩ := start_step hstep
    exact h.begin hcurrent c
  | write =>
    obtain ⟨k, w, left, hcurrent, hleft, rfl⟩ := write_step hstep
    cases hl : loud w with
    | false => exact h.emit_silent hcurrent hleft hl
    | true => exact h.emit_loud hbegun hno hcurrent hleft hl
  | finish =>
    obtain ⟨k, hcurrent, hleft, rfl⟩ := finish_step hstep
    exact h.leave hcurrent hleft

/-! ## Runs -/

omit [DecidableEq T] in
theorem serialState_initial (shared : σ) : SerialState P loud (State.initial T γ shared) :=
  .idle [] ⟨List.nodup_nil, List.forall_mem_nil _, List.forall_mem_nil _⟩ (fun _ hu => hu.1 rfl) rfl

omit [DecidableEq T] in
/-- A serial state has a serial output. -/
theorem SerialState.serial (hbegun : Begun P s) (h : SerialState P loud s) : Serial P loud s.out := by
  cases h with
  | idle bs hbs hnone hout => exact ⟨bs, hbs.nodup, hbs.calls, hout ▸ List.prefix_refl _⟩
  | busy t bs hbs ht honly hout =>
    obtain ⟨ws, hcall, hwhole⟩ := hbegun.exists_call loud ht.current_ne
    refine ⟨bs ++ [(s.id t, ws)], ?_, List.forall_mem_append.mpr ⟨hbs.calls, List.forall_mem_singleton.mpr hcall⟩, ?_⟩
    · rw [List.map_append]
      refine List.nodup_append.mpr ⟨hbs.nodup, List.pairwise_singleton _ _, ?_⟩
      rintro id hid _ hlast rfl
      obtain ⟨b, hb, hbid⟩ := List.mem_map.mp hid
      have hid' : b.1 = s.id t := hbid.trans (List.mem_singleton.mp hlast)
      exact ht.not_complete (hid' ▸ hbs.complete b hb)
    · rw [hout, List.flatMap_append, List.flatMap_singleton, block, hwhole, List.map_append, ← List.append_assoc]
      exact List.prefix_append _ _

/-- **Refinement.** When an invariant of the system rules out overlaps, whatever the threads put out, in any
    interleaving, calls made one after the other put out too. -/
theorem serial_of_noOverlap (Inv : State T σ γ → Prop)
    (hinv : ∀ s a s', Inv s → step P loud s a = some s' → Inv s') (hno : ∀ s, Begun P s → Inv s → NoOverlap loud s)
    {shared : σ} (hinit : Inv (State.initial T γ shared)) {as : List (T × Act)}
    (hrun : run (step P loud) (State.initial T γ shared) as = some s) : Serial P loud s.out := by
  have hall : Inv s ∧ Begun P s ∧ SerialState P loud s :=
    run_invariant (fun s => Inv s ∧ Begun P s ∧ SerialState P loud s)
      (fun _ _ _ ⟨h, hbegun, hserial⟩ hstep => ⟨hinv _ _ _ h hstep, begun_step hbegun hstep,
        serialState_step hbegun (hno _ hbegun h) hserial hstep⟩)
      ⟨hinit, begun_initial shared, serialState_initial shared⟩ hrun
  exact hall.2.2.serial hall.2.1

/-! ## What a serial output looks like -/

omit [DecidableEq T] in
theorem mem_block {b : CallId T × List γ} {x : CallId T × γ} (h : x ∈ block loud b) : x.1 = b.1 := by
  obtain ⟨w, -, rfl⟩ := List.mem_map.mp h
  rfl

omit [DecidableEq T] in
theorem mem_flatMap_block {bs : List (CallId T × List γ)} {x : CallId T × γ} (h : x ∈ bs.flatMap (block loud)) :
    x.1 ∈ bs.map Prod.fst := by
  obtain ⟨b, hb, hx⟩ := List.mem_flatMap.mp h
  exact List.mem_map.mpr ⟨b, hb, (mem_block hx).symm⟩

omit [DecidableEq T] in
/-- The writes of each call are next to each other. -/
theorem Serial.contiguous {out : List (CallId T × γ)} (h : Serial P loud out) (id : CallId T) :
    Contiguous (fun x => x.1 = id) out := by
  obtain ⟨bs, hnodup, -, hprefix⟩ := h
  refine Contiguous.prefix_of ?_ hprefix
  by_cases hid : id ∈ bs.map Prod.fst
  · obtain ⟨b, hb, rfl⟩ := List.mem_map.mp hid
    obtain ⟨before, after, rfl⟩ := List.append_of_mem hb
    rw [List.map_append, List.map_cons] at hnodup
    obtain ⟨hbefore, hafter⟩ : b.1 ∉ before.map Prod.fst ∧ b.1 ∉ after.map Prod.fst := by
      have hcons := List.nodup_append.mp hnodup
      exact ⟨fun hmem => hcons.2.2 b.1 hmem b.1 List.mem_cons_self rfl, (List.nodup_cons.mp hcons.2.1).1⟩
    refine ⟨before.flatMap (block loud), block loud b, after.flatMap (block loud), ?_, ?_, ?_, ?_⟩
    · rw [List.flatMap_append, List.flatMap_cons, List.append_assoc]
    · intro x hx hxid
      exact hbefore (hxid ▸ mem_flatMap_block hx)
    · intro x hx
      exact mem_block hx
    · intro x hx hxid
      exact hafter (hxid ▸ mem_flatMap_block hx)
  · exact contiguous_of_forall_not fun x hx hxid => hid (hxid ▸ mem_flatMap_block hx)

omit [DecidableEq T] in
/-- Before each write there are whole calls, and then what its own call put out before it. -/
theorem Serial.isolated {out pre post : List (CallId T × γ)} {x : CallId T × γ} (h : Serial P loud out)
    (hsplit : out = pre ++ x :: post) :
    ∃ before b own rest, pre = List.flatMap (block loud) before ++ own ∧ block loud b = own ++ x :: rest ∧
      IsCall P b ∧ ∀ b' ∈ before, IsCall P b' := by
  obtain ⟨bs, -, hcalls, tail, htail⟩ := h
  rw [hsplit, List.append_assoc] at htail
  obtain ⟨before, b, after, own, rest, rfl, hpre, hblock⟩ := flatMap_eq_append_cons htail.symm
  obtain ⟨hbefore, hrest⟩ := List.forall_mem_append.mp hcalls
  exact ⟨before, b, own, rest, hpre, hblock, (List.forall_mem_cons.mp hrest).1, hbefore⟩

end Thirdparty.Writers
