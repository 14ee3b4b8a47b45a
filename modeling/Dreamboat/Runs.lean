/-
**Runs of a transition system with guarded actions.**

A concurrent program is given by a function `step : σ → α → Option σ`: the state after an action,
or `none` when the action is not enabled.  An interleaving is then nothing but a list of actions,
and *every interleaving* is a quantifier over lists.  This module fixes the vocabulary once and
packages the inductions, so that a safety property of a program is two small goals: it holds at
the start, and one action keeps it.

Main definitions:

* `Runs.run` — the state after a list of actions;
* `Runs.Meets` — every action of a run meets a condition in the state it is taken in;
* `Runs.Visits` — the states a run passes through;
* `Runs.pick` — taking one of several things that wait in no particular order.

Main results:

* `Runs.run_append` — runs compose;
* `Runs.run_invariant` — **the invariant rule**: what one action keeps, a run keeps;
* `Runs.run_invariant_of_meets` — the same under a condition on the actions taken;
* `Runs.exists_run_of_simulation` — **the simulation rule**: what matches one action of another
  system, matches a run;
* `Runs.length_add_measure` — the length of a run whose actions use up a measure;
* `Runs.forall_visits_iff_meets` — when an action breaks a property at once exactly if it does not
  meet a condition, the property holds all along a run exactly when the run meets it.
-/

import Mathlib.Data.List.Perm.Basic

set_option autoImplicit false

namespace Runs

variable {σ α : Type*} (step : σ → α → Option σ)

/-! ### Runs -/

/-- The state after the actions of a list, or `none` when one of them is not enabled. -/
def run : σ → List α → Option σ
  | s, [] => some s
  | s, a :: as => (step s a).bind fun s' => run s' as

@[simp] theorem run_nil (s : σ) : run step s [] = some s := rfl

theorem run_cons (s : σ) (a : α) (as : List α) :
    run step s (a :: as) = (step s a).bind fun s' => run step s' as := rfl

theorem run_cons_eq_some {s t : σ} {a : α} {as : List α} :
    run step s (a :: as) = some t ↔ ∃ s', step s a = some s' ∧ run step s' as = some t := by
  rw [run_cons, Option.bind_eq_some_iff]

theorem run_cons_of_step {s s' : σ} {a : α} (h : step s a = some s') (as : List α) :
    run step s (a :: as) = run step s' as := by
  rw [run_cons, h, Option.bind_some]

theorem run_append (s : σ) (as bs : List α) :
    run step s (as ++ bs) = (run step s as).bind fun t => run step t bs := by
  induction as generalizing s with
  | nil => rfl
  | cons a as ih =>
      rw [List.cons_append, run_cons, run_cons]
      cases step s a with
      | none => rfl
      | some s' => exact ih s'

theorem run_append_eq_some {s t : σ} {as bs : List α} :
    run step s (as ++ bs) = some t ↔ ∃ u, run step s as = some u ∧ run step u bs = some t := by
  rw [run_append, Option.bind_eq_some_iff]

/-- A property that can be evaluated at the end of a run. -/
theorem exists_run_of_any {P : σ → Prop} [DecidablePred P] {s : σ} {as : List α}
    (h : (run step s as).any (fun t => decide (P t)) = true) :
    ∃ t, run step s as = some t ∧ P t := by
  obtain ⟨t, ht, hP⟩ := (Option.any_eq_true _ _).1 h
  exact ⟨t, ht, of_decide_eq_true hP⟩

/-! ### Conditions on the actions of a run -/

/-- Every action of the run meets the condition `C` in the state it is taken in. -/
def Meets (C : σ → α → Prop) : σ → List α → Prop
  | _, [] => True
  | s, a :: as => C s a ∧ ∀ s', step s a = some s' → Meets C s' as

instance Meets.instDecidable {C : σ → α → Prop} [∀ s a, Decidable (C s a)] :
    ∀ (s : σ) (as : List α), Decidable (Meets step C s as)
  | _, [] => isTrue trivial
  | s, a :: as =>
      match h : step s a with
      | none => decidable_of_iff (C s a) ⟨fun hC => ⟨hC, fun s' hs' => by simp [h] at hs'⟩,
          fun hC => hC.1⟩
      | some s' =>
          have : Decidable (Meets step C s' as) := Meets.instDecidable s' as
          decidable_of_iff (C s a ∧ Meets step C s' as)
            ⟨fun hC => ⟨hC.1, fun t ht => by rw [h, Option.some_inj] at ht; exact ht ▸ hC.2⟩,
              fun hC => ⟨hC.1, hC.2 s' h⟩⟩

variable {C : σ → α → Prop}

theorem Meets.append_iff {s u : σ} {as bs : List α} (hrun : run step s as = some u) :
    Meets step C s (as ++ bs) ↔ Meets step C s as ∧ Meets step C u bs := by
  induction as generalizing s with
  | nil =>
      rw [run_nil, Option.some_inj] at hrun
      subst hrun
      simp [Meets]
  | cons a as ih =>
      obtain ⟨s', hs', hrun⟩ := (run_cons_eq_some step).1 hrun
      constructor
      · rintro ⟨hC, h⟩
        obtain ⟨h₁, h₂⟩ := (ih hrun).1 (h s' hs')
        refine ⟨⟨hC, fun t ht => ?_⟩, h₂⟩
        rw [hs', Option.some_inj] at ht
        exact ht ▸ h₁
      · rintro ⟨⟨hC, h₁⟩, h₂⟩
        refine ⟨hC, fun t ht => ?_⟩
        rw [hs', Option.some_inj] at ht
        exact ht ▸ (ih hrun).2 ⟨h₁ s' hs', h₂⟩

/-! ### Invariants -/

/-- **The invariant rule under a condition**: what every action that meets `C` keeps, a run whose
actions all meet `C` keeps. -/
theorem run_invariant_of_meets {I : σ → Prop}
    (hstep : ∀ s a s', I s → C s a → step s a = some s' → I s') {s t : σ} {as : List α}
    (hs : I s) (hC : Meets step C s as) (hrun : run step s as = some t) : I t := by
  induction as generalizing s with
  | nil =>
      rw [run_nil, Option.some_inj] at hrun
      exact hrun ▸ hs
  | cons a as ih =>
      obtain ⟨s', hs', hrun⟩ := (run_cons_eq_some step).1 hrun
      exact ih (hstep s a s' hs hC.1 hs') (hC.2 s' hs') hrun

theorem meets_true (s : σ) (as : List α) : Meets step (fun _ _ => True) s as := by
  induction as generalizing s with
  | nil => trivial
  | cons a as ih => exact ⟨trivial, fun s' _ => ih s'⟩

/-- **The invariant rule**: what every action keeps, a run keeps. -/
theorem run_invariant {I : σ → Prop} (hstep : ∀ s a s', I s → step s a = some s' → I s')
    {s t : σ} {as : List α} (hs : I s) (hrun : run step s as = some t) : I t :=
  run_invariant_of_meets step (fun s a s' hI _ h => hstep s a s' hI h) hs
    (meets_true step s as) hrun

/-- What an invariant gives for the enabled actions of a kind, a run of such actions meets. -/
theorem meets_of_invariant {I : σ → Prop} {D : α → Prop}
    (hstep : ∀ s a s', I s → D a → step s a = some s' → I s' ∧ C s a) {s t : σ} {as : List α}
    (hs : I s) (hD : ∀ a ∈ as, D a) (hrun : run step s as = some t) : Meets step C s as := by
  induction as generalizing s with
  | nil => trivial
  | cons a as ih =>
      obtain ⟨s', hs', hrun⟩ := (run_cons_eq_some step).1 hrun
      obtain ⟨hI, hC⟩ := hstep s a s' hs (hD a List.mem_cons_self) hs'
      refine ⟨hC, fun t' ht' => ?_⟩
      rw [hs', Option.some_inj] at ht'
      exact ht' ▸ ih hI (fun b hb => hD b (List.mem_cons_of_mem _ hb)) hrun

theorem meets_of_forall {D : α → Prop} {as : List α} (hD : ∀ a ∈ as, D a) (s : σ) :
    Meets step (fun _ a => D a) s as := by
  induction as generalizing s with
  | nil => trivial
  | cons a as ih =>
      obtain ⟨ha, hD⟩ := List.forall_mem_cons.1 hD
      exact ⟨ha, fun s' _ => ih hD s'⟩

/-- **The simulation rule**: if each action of a system is matched by actions of another one, each
run is matched by a run. -/
theorem exists_run_of_simulation {τ β : Type*} (stepA : τ → β → Option τ) {E : τ → β → Prop}
    {R : σ → τ → Prop}
    (hstep : ∀ s t a s', R s t → C s a → step s a = some s' →
      ∃ bs t', run stepA t bs = some t' ∧ Meets stepA E t bs ∧ R s' t')
    {s s' : σ} {t : τ} {as : List α} (hR : R s t) (hC : Meets step C s as)
    (hrun : run step s as = some s') :
    ∃ bs t', run stepA t bs = some t' ∧ Meets stepA E t bs ∧ R s' t' := by
  induction as generalizing s t with
  | nil =>
      rw [run_nil, Option.some_inj] at hrun
      exact ⟨[], t, rfl, trivial, hrun ▸ hR⟩
  | cons a as ih =>
      obtain ⟨s₁, hs₁, hrun⟩ := (run_cons_eq_some step).1 hrun
      obtain ⟨bs, t₁, hbs, hE, hR₁⟩ := hstep s t a s₁ hR hC.1 hs₁
      obtain ⟨bs', t', hbs', hE', hR'⟩ := ih hR₁ (hC.2 s₁ hs₁) hrun
      exact ⟨bs ++ bs', t', (run_append_eq_some stepA).2 ⟨t₁, hbs, hbs'⟩,
        (Meets.append_iff stepA hbs).2 ⟨hE, hE'⟩, hR'⟩

/-- The invariant rule for steps whose actions all satisfy a condition. -/
theorem run_invariant_of_forall {I : σ → Prop} {D : α → Prop}
    (hstep : ∀ s a s', I s → D a → step s a = some s' → I s') {s t : σ} {as : List α}
    (hs : I s) (hD : ∀ a ∈ as, D a) (hrun : run step s as = some t) : I t := by
  refine run_invariant_of_meets step (C := fun _ a => D a) hstep hs ?_ hrun
  exact meets_of_invariant step (I := fun _ => True) (fun _ _ _ _ ha _ => ⟨trivial, ha⟩) trivial hD
    hrun

/-- Where an invariant enables every action, every list of actions can be run. -/
theorem exists_run_of_enabled {I : σ → Prop}
    (hstep : ∀ s a, I s → ∃ s', step s a = some s' ∧ I s') {s : σ} (hs : I s) (as : List α) :
    ∃ t, run step s as = some t ∧ I t := by
  induction as generalizing s with
  | nil => exact ⟨s, rfl, hs⟩
  | cons a as ih =>
      obtain ⟨s', hs', hI⟩ := hstep s a hs
      obtain ⟨t, ht, hIt⟩ := ih hI
      exact ⟨t, (run_cons_eq_some step).2 ⟨s', hs', ht⟩, hIt⟩

/-- Where every action takes one from a measure, a run is as long as what it takes. -/
theorem length_add_measure {I : σ → Prop} {μ : σ → ℕ}
    (hstep : ∀ s a s', I s → step s a = some s' → I s' ∧ μ s' + 1 = μ s) {s t : σ} {as : List α}
    (hs : I s) (hrun : run step s as = some t) : as.length + μ t = μ s := by
  induction as generalizing s with
  | nil =>
      rw [run_nil, Option.some_inj] at hrun
      rw [hrun, List.length_nil, Nat.zero_add]
  | cons a as ih =>
      obtain ⟨s', hs', hrun⟩ := (run_cons_eq_some step).1 hrun
      obtain ⟨hI, hone⟩ := hstep s a s' hs hs'
      have hlen := ih hI hrun
      rw [List.length_cons]
      omega

/-! ### The states of a run -/

/-- `t` is one of the states the run passes through, its first and its last state included. -/
def Visits (s : σ) (as : List α) (t : σ) : Prop :=
  ∃ pre post, as = pre ++ post ∧ run step s pre = some t

theorem visits_self (s : σ) (as : List α) : Visits step s as s := ⟨[], as, rfl, rfl⟩

theorem visits_last {s t : σ} {as : List α} (h : run step s as = some t) : Visits step s as t :=
  ⟨as, [], (List.append_nil as).symm, h⟩

theorem visits_cons {s s' t : σ} {a : α} {as : List α} (hs : step s a = some s')
    (h : Visits step s' as t) : Visits step s (a :: as) t := by
  obtain ⟨pre, post, rfl, hpre⟩ := h
  exact ⟨a :: pre, post, rfl, (run_cons_eq_some step).2 ⟨s', hs, hpre⟩⟩

/-- The run up to a state it visits meets what the whole run meets. -/
theorem Meets.visits {s t : σ} {as : List α} (hC : Meets step C s as)
    (h : Visits step s as t) : ∃ pre, run step s pre = some t ∧ Meets step C s pre := by
  obtain ⟨pre, post, rfl, hpre⟩ := h
  exact ⟨pre, hpre, ((Meets.append_iff step hpre).1 hC).1⟩

/-- The invariant rule for all the states of a run. -/
theorem visits_invariant_of_meets {I : σ → Prop}
    (hstep : ∀ s a s', I s → C s a → step s a = some s' → I s') {s t : σ} {as : List α}
    (hs : I s) (hC : Meets step C s as) (h : Visits step s as t) : I t := by
  obtain ⟨pre, hpre, hCpre⟩ := hC.visits step h
  exact run_invariant_of_meets step hstep hs hCpre hpre

/-- When an enabled action takes a state with property `P` to a state without it exactly if it
does not meet `C`, then `P` holds in every state of a run exactly when the run meets `C`. -/
theorem forall_visits_iff_meets {P : σ → Prop} {s t : σ} {as : List α}
    (hstep : ∀ s a s', P s → step s a = some s' → (P s' ↔ C s a)) (hs : P s)
    (hrun : run step s as = some t) :
    (∀ u, Visits step s as u → P u) ↔ Meets step C s as := by
  induction as generalizing s with
  | nil =>
      refine ⟨fun _ => trivial, ?_⟩
      rintro - u ⟨pre, post, hpre, hu⟩
      obtain ⟨rfl, rfl⟩ : pre = [] ∧ post = [] := by simpa using hpre.symm
      rw [run_nil, Option.some_inj] at hu
      exact hu ▸ hs
  | cons a as ih =>
      obtain ⟨s', hs', hrun⟩ := (run_cons_eq_some step).1 hrun
      constructor
      · intro h
        have hP' : P s' := h s' (visits_cons step hs' (visits_self step s' as))
        refine ⟨(hstep s a s' hs hs').1 hP', fun t' ht' => ?_⟩
        rw [hs', Option.some_inj] at ht'
        subst ht'
        exact (ih hP' hrun).1 fun u hu => h u (visits_cons step hs' hu)
      · rintro ⟨hC, hM⟩ u ⟨pre, post, hpre, hu⟩
        have hP' : P s' := (hstep s a s' hs hs').2 hC
        cases pre with
        | nil =>
            rw [run_nil, Option.some_inj] at hu
            exact hu ▸ hs
        | cons b pre =>
            obtain ⟨rfl, rfl⟩ : a = b ∧ as = pre ++ post := by simpa using hpre
            obtain ⟨s'', hs'', hu⟩ := (run_cons_eq_some step).1 hu
            rw [hs', Option.some_inj] at hs''
            subst hs''
            exact (ih hP' hrun).2 (hM s' hs') u ⟨pre, post, rfl, hu⟩

/-! ### Pools -/

/-- Takes the element at the place `k` out of a pool of things that wait in no particular order. -/
def pick {β : Type*} (pool : List β) (k : ℕ) : Option (β × List β) :=
  pool[k]?.map fun b => (b, pool.eraseIdx k)

theorem pick_map {β γ : Type*} (f : β → γ) (pool : List β) (k : ℕ) :
    pick (pool.map f) k = (pick pool k).map fun p => (f p.1, p.2.map f) := by
  rw [pick, pick, List.getElem?_map, List.eraseIdx_map, Option.map_map, Option.map_map]
  rfl

theorem exists_pick {β : Type*} {pool : List β} {k : ℕ} (h : k < pool.length) :
    ∃ b rest, pick pool k = some (b, rest) :=
  ⟨pool[k], pool.eraseIdx k, by rw [pick, List.getElem?_eq_getElem h, Option.map_some]⟩

theorem exists_pick_of_mem {β : Type*} {pool : List β} {b : β} (h : b ∈ pool) :
    ∃ k rest, pick pool k = some (b, rest) := by
  obtain ⟨k, hk, rfl⟩ := List.mem_iff_getElem.1 h
  exact ⟨k, pool.eraseIdx k, by rw [pick, List.getElem?_eq_getElem hk, Option.map_some]⟩

/-- What is picked and what is left make up the pool. -/
theorem perm_of_pick {β : Type*} {pool rest : List β} {k : ℕ} {b : β}
    (h : pick pool k = some (b, rest)) : pool.Perm (b :: rest) := by
  obtain ⟨c, hc, hpair⟩ := Option.map_eq_some_iff.1 h
  obtain ⟨hk, rfl⟩ := List.getElem?_eq_some_iff.1 hc
  obtain ⟨rfl, rfl⟩ := Prod.mk.inj hpair
  exact (List.getElem_cons_eraseIdx_perm hk).symm

/-- How often something stands in a table after one of its lines is rewritten. -/
theorem countP_set_of_getElem? {β : Type*} {table : List β} {k : ℕ} {b : β}
    (h : table[k]? = some b) (b' : β) (p : β → Bool) :
    (table.set k b').countP p + (if p b then 1 else 0) =
      table.countP p + if p b' then 1 else 0 := by
  obtain ⟨hk, rfl⟩ := List.getElem?_eq_some_iff.1 h
  have hpos : (if p table[k] then 1 else 0) ≤ table.countP p := by
    split
    · next hp => exact List.countP_pos_iff.2 ⟨_, List.getElem_mem hk, hp⟩
    · exact Nat.zero_le _
  rw [List.countP_set hk]
  omega

/-- What the lines of a table have, the one line and the others, and when the line is rewritten. -/
theorem exists_filterMap_rest {β γ : Type*} (f : β → Option γ) {table : List β} {k : ℕ} {b : β}
    (h : table[k]? = some b) : ∃ rest, (table.filterMap f).Perm ((f b).toList ++ rest) ∧
      ∀ b', ((table.set k b').filterMap f).Perm ((f b').toList ++ rest) := by
  obtain ⟨hk, rfl⟩ := List.getElem?_eq_some_iff.1 h
  have hcons : ∀ (c : β) (l : List β),
      (c :: l).filterMap f = (f c).toList ++ l.filterMap f := by
    intro c l
    cases hc : f c with
    | none => simp [hc]
    | some x => simp [hc]
  refine ⟨(table.eraseIdx k).filterMap f, ?_, ?_⟩
  · rw [← hcons]
    exact (List.getElem_cons_eraseIdx_perm hk).symm.filterMap f
  · intro b'
    have hperm := List.getElem_cons_eraseIdx_perm (l := table.set k b') (n := k) (by simpa using hk)
    rw [List.getElem_set_self, List.eraseIdx_set_eq] at hperm
    rw [← hcons]
    exact hperm.symm.filterMap f

/-- The other lines of a table stay. -/
theorem mem_set_of_ne {β : Type*} {table : List β} {k : ℕ} {b c : β} (h : table[k]? = some b)
    (hc : c ∈ table) (hne : c ≠ b) (b' : β) : c ∈ table.set k b' := by
  obtain ⟨i, hi⟩ := List.mem_iff_getElem?.1 hc
  have hik : k ≠ i := by
    rintro rfl
    exact hne (Option.some_inj.1 (hi.symm.trans h))
  exact List.mem_iff_getElem?.2 ⟨i, by rw [List.getElem?_set_ne hik, hi]⟩

section

variable {β γ : Type*} {left : List β} {right : List γ} {k : ℕ} {b b' : β} {c c' : γ}

/-- A line of two tables of one length that have both got a new line. -/
theorem getElem?_concat_cases (hlen : right.length = left.length)
    (hb : (left ++ [b])[k]? = some b') (hc : (right ++ [c])[k]? = some c') :
    (left[k]? = some b' ∧ right[k]? = some c') ∨ (k = left.length ∧ b' = b ∧ c' = c) := by
  rcases Nat.lt_trichotomy k left.length with hk | rfl | hk
  · rw [List.getElem?_append_left hk] at hb
    rw [List.getElem?_append_left (hlen ▸ hk)] at hc
    exact .inl ⟨hb, hc⟩
  · rw [List.getElem?_concat_length, Option.some_inj] at hb
    rw [← hlen, List.getElem?_concat_length, Option.some_inj] at hc
    exact .inr ⟨rfl, hb.symm, hc.symm⟩
  · rw [List.getElem?_eq_none (by rw [List.length_append]; exact hk)] at hb
    cases hb

/-- A line of two tables of one length of which the line `k` is rewritten. -/
theorem getElem?_set_cases (hlen : right.length = left.length) (hk : k < left.length) {j : ℕ}
    (hb : (left.set k b)[j]? = some b') (hc : (right.set k c)[j]? = some c') :
    (k = j ∧ b' = b ∧ c' = c) ∨ (k ≠ j ∧ left[j]? = some b' ∧ right[j]? = some c') := by
  by_cases hj : k = j
  · subst hj
    rw [List.getElem?_set_self hk, Option.some_inj] at hb
    rw [List.getElem?_set_self (hlen ▸ hk), Option.some_inj] at hc
    exact .inl ⟨rfl, hb.symm, hc.symm⟩
  · rw [List.getElem?_set_ne hj] at hb hc
    exact .inr ⟨hj, hb, hc⟩

end

theorem mem_of_pick {β : Type*} {pool rest : List β} {k : ℕ} {b : β}
    (h : pick pool k = some (b, rest)) : b ∈ pool :=
  (perm_of_pick h).mem_iff.2 List.mem_cons_self

theorem mem_of_mem_rest {β : Type*} {pool rest : List β} {k : ℕ} {b a : β}
    (h : pick pool k = some (b, rest)) (ha : a ∈ rest) : a ∈ pool :=
  (perm_of_pick h).mem_iff.2 (List.mem_cons_of_mem _ ha)

end Runs
