/-
**Methods under one lock.**

Some methods of an object take its lock at their beginning and release it at their end.  Between
these two moments a method is a sequence of instructions, and calls from any number of goroutines
are interleaved instruction by instruction; only the lock keeps them apart.

What this is for is that the methods are atomic.  The calls that have had the lock form a history,
in the order in which they have had it, and whenever the lock is free the memory is the one that
the methods leave when they are performed one after another.  To show it for an object, one says
what the memory is at every place of a method, in terms of what it was when the method took the
lock: an outline.

Main definitions:

* `CriticalSection.Methods` — the instructions of the methods;
* `CriticalSection.State`, `CriticalSection.step` — calls that wait, that are inside and that have
  returned;
* `CriticalSection.Outline` — what the memory is at the places of the methods.

Main results:

* `CriticalSection.step_cases` — what an action does;
* `CriticalSection.perm_of_run`, `CriticalSection.entered_prefix_of_run` — no call is lost, and the
  history only grows;
* `CriticalSection.Outline.holds_of_run` — **methods with an outline are atomic**.
-/

import Mathlib.Data.List.Infix
import Dreamboat.Runs

set_option autoImplicit false

namespace CriticalSection

/-- The methods of an object with the memory `M`, by the place at which a call begins once it has
the lock, and by the instructions.  An instruction leads to another place or, without one, out of
the method; `none` is one that does not come to its end. -/
structure Methods (M C P : Type*) where
  start : C → P
  instruction : C → P → M → Option (M × Option P)

structure State (M C P : Type*) where
  /-- The calls that have not got the lock. -/
  waiting : List C
  mem : M
  /-- The call that has the lock, with the place it has come to. -/
  inside : Option (C × P)
  /-- The calls that have returned, in the order in which they had the lock. -/
  returned : List C

inductive Action where
  /-- A call that waits gets the lock. -/
  | lock (k : ℕ)
  /-- The call that has the lock goes on. -/
  | next

section

variable {M C P : Type*}

def init (calls : List C) (mem : M) : State M C P := ⟨calls, mem, none, []⟩

/-- The calls that have got the lock. -/
def State.entered (s : State M C P) : List C := s.returned ++ (s.inside.map Prod.fst).toList

variable (X : Methods M C P)

/-- The state after an instruction has led to a place, or out of the method. -/
def State.goOn (s : State M C P) (c : C) : M × Option P → State M C P
  | (mem, some p) => { s with mem, inside := some (c, p) }
  | (mem, none) => { s with mem, inside := none, returned := s.returned ++ [c] }

def step (s : State M C P) : Action → Option (State M C P)
  | .lock k =>
      match s.inside with
      | some _ => none
      | none => (Runs.pick s.waiting k).map fun (c, waiting) =>
          { s with waiting, inside := some (c, X.start c) }
  | .next => s.inside.bind fun (c, p) => (X.instruction c p s.mem).map (s.goOn c)

variable {X} {s s' : State M C P}

/-- **What an action does**: a call gets the lock, goes on, or returns. -/
theorem step_cases {a : Action} (h : step X s a = some s') :
    (∃ c waiting, s.inside = none ∧ s.waiting.Perm (c :: waiting) ∧
        s' = { s with waiting, inside := some (c, X.start c) }) ∨
      (∃ c p mem p', s.inside = some (c, p) ∧ X.instruction c p s.mem = some (mem, some p') ∧
        s' = { s with mem, inside := some (c, p') }) ∨
      ∃ c p mem, s.inside = some (c, p) ∧ X.instruction c p s.mem = some (mem, none) ∧
        s' = { s with mem, inside := none, returned := s.returned ++ [c] } := by
  cases a with
  | lock k =>
      rw [step] at h
      cases hinside : s.inside with
      | some cp =>
          rw [hinside] at h
          cases h
      | none =>
          rw [hinside] at h
          obtain ⟨⟨c, waiting⟩, hpick, rfl⟩ := Option.map_eq_some_iff.1 h
          exact .inl ⟨c, waiting, rfl, Runs.perm_of_pick hpick, rfl⟩
  | next =>
      obtain ⟨⟨c, p⟩, hinside, h⟩ := Option.bind_eq_some_iff.1 h
      obtain ⟨⟨mem, place⟩, hinstruction, rfl⟩ := Option.map_eq_some_iff.1 h
      cases place with
      | some p' => exact .inr (.inl ⟨c, p, mem, p', hinside, hinstruction, rfl⟩)
      | none => exact .inr (.inr ⟨c, p, mem, hinside, hinstruction, rfl⟩)

/-! ### The history -/

theorem State.entered_of_free (h : s.inside = none) : s.entered = s.returned := by
  rw [entered, h]
  exact List.append_nil _

theorem State.entered_of_inside {c : C} {p : P} (h : s.inside = some (c, p)) :
    s.entered = s.returned ++ [c] := by
  rw [entered, h]
  rfl

/-- A call enters, or the history stays. -/
theorem entered_step {a : Action} (h : step X s a = some s') :
    (∃ c, s.waiting.Perm (c :: s'.waiting) ∧ s'.entered = s.entered ++ [c]) ∨
      (s'.waiting = s.waiting ∧ s'.entered = s.entered) := by
  rcases step_cases h with ⟨c, waiting, hfree, hperm, rfl⟩ | ⟨c, p, mem, p', hinside, -, rfl⟩ |
    ⟨c, p, mem, hinside, -, rfl⟩
  · refine .inl ⟨c, hperm, ?_⟩
    rw [State.entered_of_free hfree]
    rfl
  · refine .inr ⟨rfl, ?_⟩
    rw [State.entered_of_inside hinside]
    rfl
  · refine .inr ⟨rfl, ?_⟩
    rw [State.entered_of_inside hinside]
    exact List.append_nil _

/-- **No call is lost.** -/
theorem perm_of_run {calls : List C} {mem : M} {as : List Action}
    (hrun : Runs.run (step X) (init calls mem) as = some s) :
    (s.entered ++ s.waiting).Perm calls := by
  refine Runs.run_invariant (step X) (I := fun s => (s.entered ++ s.waiting).Perm calls) ?_
    (List.Perm.refl _) hrun
  intro s a s' hperm h
  rcases entered_step h with ⟨c, hwaiting, hentered⟩ | ⟨hwaiting, hentered⟩
  · rw [hentered, List.append_assoc]
    exact (hwaiting.symm.append_left _).trans hperm
  · rwa [hentered, hwaiting]

/-- **The history only grows.** -/
theorem entered_prefix_of_run {as : List Action} (hrun : Runs.run (step X) s as = some s') :
    s.entered <+: s'.entered := by
  refine Runs.run_invariant (step X) (I := fun t => s.entered <+: t.entered) ?_
    (List.prefix_refl _) hrun
  intro t a t' hprefix h
  rcases entered_step h with ⟨c, -, hentered⟩ | ⟨-, hentered⟩
  · rw [hentered]
    exact hprefix.trans (List.prefix_append _ _)
  · rwa [hentered]

end

/-! ### Outlines -/

section

variable {M C P O : Type*}

/-- An outline of the methods of an object whose abstract states `O` are represented by `of`:
`At o c p m` says that `m` may be the memory when the call `c`, which has got the lock in the state
`o`, has come to the place `p`. -/
structure Outline (X : Methods M C P) (of : O → M) (perform : O → C → O)
    (At : O → C → P → M → Prop) : Prop where
  start : ∀ o c, At o c (X.start c) (of o)
  next : ∀ {o c p m m' p'}, At o c p m → X.instruction c p m = some (m', some p') → At o c p' m'
  ret : ∀ {o c p m m'}, At o c p m → X.instruction c p m = some (m', none) →
    m' = of (perform o c)

/-- The memory is the one of the calls that have returned, or of the outline at the place to which
the call inside has come. -/
structure Holds (of : O → M) (perform : O → C → O) (At : O → C → P → M → Prop) (o : O)
    (s : State M C P) : Prop where
  free : s.inside = none → s.mem = of (s.returned.foldl perform o)
  inside : ∀ c p, s.inside = some (c, p) → At (s.returned.foldl perform o) c p s.mem

variable {X : Methods M C P} {of : O → M} {perform : O → C → O} {At : O → C → P → M → Prop}

theorem Outline.holds_of_step (hX : Outline X of perform At) {o : O} {s s' : State M C P}
    {a : Action} (hs : Holds of perform At o s) (h : step X s a = some s') :
    Holds of perform At o s' := by
  rcases step_cases h with ⟨c, waiting, hfree, -, rfl⟩ |
    ⟨c, p, mem, p', hinside, hinstruction, rfl⟩ | ⟨c, p, mem, hinside, hinstruction, rfl⟩
  · refine ⟨fun hnone => (by cases hnone), fun c' p' hsome => ?_⟩
    cases hsome
    rw [hs.free hfree]
    exact hX.start _ _
  · refine ⟨fun hnone => (by cases hnone), fun c' p'' hsome => ?_⟩
    cases hsome
    exact hX.next (hs.inside _ _ hinside) hinstruction
  · refine ⟨fun _ => ?_, fun c' p' hsome => by cases hsome⟩
    rw [List.foldl_concat]
    exact hX.ret (hs.inside _ _ hinside) hinstruction

/-- **Methods with an outline are atomic**: in every interleaving the memory is the one that the
calls leave one after another, in the order of the lock. -/
theorem Outline.holds_of_run (hX : Outline X of perform At) {o : O} {calls : List C}
    {as : List Action} {s : State M C P}
    (hrun : Runs.run (step X) (init calls (of o)) as = some s) : Holds of perform At o s := by
  refine Runs.run_invariant (step X) (fun _ _ _ => hX.holds_of_step) ?_ hrun
  exact ⟨fun _ => rfl, fun c p hsome => by cases hsome⟩

end

end CriticalSection
