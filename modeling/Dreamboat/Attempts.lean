/-
**Loops over attempts that may fail.**

A program that has a list of things to do, each of which may fail and may change the state even
then, goes over the list in one of two ways: it returns at the first failure, or it goes on with
the next thing.  This module has both over an arbitrary attempt, and says how far the first gets.

Main definitions:

* `Attempts.after` — the state when every element has been tried;
* `Attempts.untilError` — the loop that returns at the first failure: the state, the elements that
  were done, and the error;
* `Attempts.tried` — the elements that this loop tries.

Main results:

* `Attempts.fst_untilError` — the loop leaves the state in which these have been tried;
* `Attempts.tried_append_of_ok` — **elements that succeed do not stop it**;
* `Attempts.tried_of_error` — **nothing behind a failure is tried**.
-/

import Mathlib.Data.List.Basic

set_option autoImplicit false

namespace Attempts

variable {σ α ε : Type*} (act : σ → α → σ × Option ε)

/-- The state when every element has been tried. -/
def after (s : σ) (as : List α) : σ := as.foldl (fun s a => (act s a).1) s

@[simp] theorem after_nil (s : σ) : after act s [] = s := rfl

@[simp] theorem after_cons (s : σ) (a : α) (as : List α) :
    after act s (a :: as) = after act (act s a).1 as := rfl

theorem after_append (s : σ) (as bs : List α) :
    after act s (as ++ bs) = after act (after act s as) bs := by
  simp only [after, List.foldl_append]

/-- The loop that returns at the first failure. -/
def untilError : σ → List α → σ × List α × Option ε
  | s, [] => (s, [], none)
  | s, a :: as =>
      match act s a with
      | (s', none) => ((untilError s' as).1, a :: (untilError s' as).2.1, (untilError s' as).2.2)
      | (s', some err) => (s', [], some err)

/-- The elements that it tries: all, or those up to the first failure. -/
def tried : σ → List α → List α
  | _, [] => []
  | s, a :: as =>
      match act s a with
      | (s', none) => a :: tried s' as
      | (_, some _) => [a]

section Cons

variable {act} {s s' : σ} {a : α} {err : ε}

theorem untilError_cons_of_ok (h : act s a = (s', none)) (as : List α) :
    untilError act s (a :: as) =
      ((untilError act s' as).1, a :: (untilError act s' as).2.1, (untilError act s' as).2.2) := by
  simp only [untilError, h]

theorem untilError_cons_of_error (h : act s a = (s', some err)) (as : List α) :
    untilError act s (a :: as) = (s', [], some err) := by
  simp only [untilError, h]

theorem tried_cons_of_ok (h : act s a = (s', none)) (as : List α) :
    tried act s (a :: as) = a :: tried act s' as := by
  simp only [tried, h]

theorem tried_cons_of_error (h : act s a = (s', some err)) (as : List α) :
    tried act s (a :: as) = [a] := by
  simp only [tried, h]

end Cons

variable {act}

theorem fst_untilError (s : σ) (as : List α) :
    (untilError act s as).1 = after act s (tried act s as) := by
  induction as generalizing s with
  | nil => rfl
  | cons a as ih =>
      match ha : act s a with
      | (s', none) => rw [untilError_cons_of_ok ha, tried_cons_of_ok ha, after_cons, ha, ← ih]
      | (s', some err) => rw [untilError_cons_of_error ha, tried_cons_of_error ha, after_cons, ha,
          after_nil]

theorem tried_isPrefix (s : σ) (as : List α) : tried act s as <+: as := by
  induction as generalizing s with
  | nil => exact List.prefix_refl _
  | cons a as ih =>
      match ha : act s a with
      | (s', none) =>
          rw [tried_cons_of_ok ha]
          exact (List.prefix_cons_inj a).2 (ih s')
      | (s', some err) =>
          rw [tried_cons_of_error ha]
          exact List.prefix_append [a] as

/-- **Elements that succeed do not stop the loop.** -/
theorem tried_append_of_ok {s : σ} {pre : List α}
    (h : ∀ pre' a post, pre = pre' ++ a :: post → (act (after act s pre') a).2 = none)
    (as : List α) : tried act s (pre ++ as) = pre ++ tried act (after act s pre) as := by
  induction pre generalizing s with
  | nil => rfl
  | cons b pre ih =>
      have hb : act s b = ((act s b).1, none) := Prod.ext rfl (h [] b pre rfl)
      rw [List.cons_append, tried_cons_of_ok hb, after_cons, List.cons_append, ih]
      intro pre' a post hpre
      exact h (b :: pre') a post (by rw [hpre, List.cons_append])

/-- **Nothing behind a failure is tried.** -/
theorem tried_of_error {s : σ} {pre : List α} {a : α} (h : (act (after act s pre) a).2 ≠ none)
    (as : List α) : tried act s (pre ++ a :: as) <+: pre ++ [a] := by
  induction pre generalizing s with
  | nil =>
      obtain ⟨err, herr⟩ := Option.ne_none_iff_exists'.1 h
      have ha : act s a = ((act s a).1, some err) := Prod.ext rfl herr
      rw [List.nil_append, tried_cons_of_error ha]
      exact List.prefix_refl _
  | cons b pre ih =>
      match hb : act s b with
      | (s', none) =>
          rw [after_cons, hb] at h
          rw [List.cons_append, tried_cons_of_ok hb, List.cons_append, List.prefix_cons_inj]
          exact ih h
      | (s', some err) =>
          rw [List.cons_append, tried_cons_of_error hb]
          exact List.prefix_append [b] (pre ++ [a])

end Attempts
