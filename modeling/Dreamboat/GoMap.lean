/-
**Maps and `range` loops of Go.**

A Go map is a finite map, and the order in which `range` visits its entries is left open by the
language.  Maps are the association lists of Mathlib; an order of visits is a function that lists
the entries of every map, together with the proof that the list is a permutation of the entries.
A loop over a map is then a fold over the visited list, and a statement about *whatever order the
iteration takes* is a quantifier over `Go.RangeOrder`.

The second half is the loop that most often stands inside such a `range`: keep the best element
seen so far, a later element of equal rank replacing an earlier one.

Main definitions:

* `Go.Map`, `Go.valueCount` — maps, and how often a value stands in one;
* `Go.RangeOrder`, `Go.RangeOrder.putLast` — the orders of a `range` loop, and the order that visits
  one chosen key last;
* `Go.keepMax` — the body of the running-maximum loop.

Main results:

* `Go.lookup_insert_eq` — reading a map after a write;
* `Go.valueCount_eq_of_lookup` — taking an entry out takes its value out once;
* `Go.RangeOrder.mem_visit_iff` — **a loop visits exactly the entries of the map**;
* `Go.foldl_keepMax_mem`, `Go.le_foldl_keepMax` — the loop ends in an element of maximal rank;
* `Go.foldl_keepMax_append_singleton` — and in a chosen one, if that one is visited last;
* `Go.foldl_keepMax_eq_iff` — **the loop ends in the last element of maximal rank**.
-/

import Mathlib.Data.List.AList
import Mathlib.Order.Lattice

set_option autoImplicit false

namespace Go

/-! ### Maps -/

/-- The type `map[K]V`. -/
abbrev Map (K V : Type*) := AList fun _ : K => V

section Map

variable {K V : Type*} [DecidableEq K]

theorem lookup_insert_eq (m : Map K V) (k k' : K) (v : V) :
    (m.insert k v).lookup k' = if k' = k then some v else m.lookup k' := by
  split
  · next h => rw [h, AList.lookup_insert]
  · next h => exact AList.lookup_insert_ne h

theorem lookup_erase_eq (m : Map K V) (k k' : K) :
    (m.erase k).lookup k' = if k' = k then none else m.lookup k' := by
  split
  · next h => rw [h, AList.lookup_erase]
  · next h => exact AList.lookup_erase_ne h

theorem lookup_erase_eq_some_iff {m : Map K V} {k k' : K} {v : V} :
    (m.erase k).lookup k' = some v ↔ k' ≠ k ∧ m.lookup k' = some v := by
  rw [lookup_erase_eq]
  split
  · next h => simp [h]
  · next h => simp [h]

variable [DecidableEq V]

/-- The number of keys that have the value `v`. -/
def valueCount (m : Map K V) (v : V) : ℕ := m.entries.countP fun e => e.2 = v

theorem valueCount_pos_iff {m : Map K V} {v : V} :
    0 < valueCount m v ↔ ∃ k, m.lookup k = some v := by
  rw [valueCount, List.countP_pos_iff]
  constructor
  · rintro ⟨⟨k, w⟩, he, hw⟩
    refine ⟨k, ?_⟩
    rw [← Option.mem_def, AList.mem_lookup_iff]
    exact of_decide_eq_true hw ▸ he
  · rintro ⟨k, hk⟩
    exact ⟨⟨k, v⟩, AList.mem_lookup_iff.1 hk, by simp⟩

theorem valueCount_erase_le (m : Map K V) (k : K) (v : V) :
    valueCount (m.erase k) v ≤ valueCount m v :=
  (List.kerase_sublist k m.entries).countP_le

theorem valueCount_insert (m : Map K V) (k : K) (v w : V) :
    valueCount (m.insert k v) w = valueCount (m.erase k) w + if v = w then 1 else 0 := by
  change (⟨k, v⟩ :: List.kerase k m.entries).countP _ = (List.kerase k m.entries).countP _ + _
  rw [List.countP_cons]
  simp

/-- Taking an entry out of a map takes its value out once. -/
theorem valueCount_eq_of_lookup {m : Map K V} {k : K} {v : V} (h : m.lookup k = some v) (w : V) :
    valueCount m w = valueCount (m.erase k) w + if v = w then 1 else 0 := by
  have hmem : (⟨k, v⟩ : Sigma fun _ : K => V) ∈ m.entries := AList.mem_lookup_iff.1 h
  obtain ⟨v', l₁, l₂, -, hl, herase⟩ := List.exists_of_kerase (List.mem_keys_of_mem hmem)
  have hv : m.lookup k = some v' := by
    rw [← Option.mem_def, AList.mem_lookup_iff, hl]
    simp
  obtain rfl : v = v' := Option.some_inj.1 (h.symm.trans hv)
  change m.entries.countP _ = (List.kerase k m.entries).countP _ + _
  rw [herase, hl, List.perm_middle.countP_eq, List.countP_cons]
  simp

end Map

/-! ### The order of a `range` loop -/

/-- An order in which `range` may visit the entries of a map. -/
structure RangeOrder (K V : Type*) where
  /-- The entries in the order they are visited. -/
  visit : Map K V → List (Sigma fun _ : K => V)
  /-- Every entry is visited exactly once. -/
  perm : ∀ m, (visit m).Perm m.entries

namespace RangeOrder

variable {K V : Type*}

/-- The order in which the entries happen to be stored. -/
def stored : RangeOrder K V where
  visit m := m.entries
  perm _ := List.Perm.refl _

instance : Inhabited (RangeOrder K V) := ⟨stored⟩

/-- A loop visits exactly the entries of the map. -/
theorem mem_visit_iff [DecidableEq K] (order : RangeOrder K V) (m : Map K V) (k : K) (v : V) :
    ⟨k, v⟩ ∈ order.visit m ↔ m.lookup k = some v := by
  rw [(order.perm m).mem_iff, ← Option.mem_def, AList.mem_lookup_iff]

/-- The order that visits the entry of the key `k`, if there is one, after all others. -/
def putLast [DecidableEq K] (k : K) : RangeOrder K V where
  visit m := m.entries.filter (fun e => ¬e.1 = k) ++ m.entries.filter fun e => e.1 = k
  perm m := by
    have h := List.filter_append_perm (fun e : Sigma fun _ : K => V => decide (¬e.1 = k)) m.entries
    simpa using h

theorem putLast_visit_of_lookup [DecidableEq K] {k : K} {v : V} {m : Map K V}
    (h : m.lookup k = some v) :
    ∃ l, (putLast k).visit m = l ++ [⟨k, v⟩] := by
  refine ⟨m.entries.filter fun e => ¬e.1 = k, ?_⟩
  have hmem : (⟨k, v⟩ : Sigma fun _ : K => V) ∈ m.entries := by
    rwa [← AList.mem_lookup_iff, Option.mem_def]
  have hkey : m.entries.filter (fun e => e.1 = k) = [⟨k, v⟩] := by
    -- the keys of a map are distinct, so the filtered list holds the entry and nothing else
    have hnodup : (m.entries.filter fun e => e.1 = k).Nodup :=
      m.nodupKeys.nodup.filter _
    refine List.perm_singleton.1 ((List.perm_ext_iff_of_nodup hnodup (by simp)).2 ?_)
    rintro ⟨k', v'⟩
    rw [List.mem_filter, List.mem_singleton, decide_eq_true_iff]
    constructor
    · rintro ⟨he, rfl⟩
      rw [← AList.mem_lookup_iff, Option.mem_def, h, Option.some_inj] at he
      rw [he]
    · intro he
      cases he
      exact ⟨hmem, rfl⟩
  simp only [putLast, hkey]

end RangeOrder

/-! ### The running maximum -/

section keepMax

variable {β γ : Type*} [LinearOrder γ] (rank : β → γ)

/-- One round of the loop that keeps the best element: the new element replaces the current one
unless it ranks strictly below it. -/
def keepMax (best b : β) : β := if rank best ≤ rank b then b else best

theorem keepMax_eq_or (best b : β) : keepMax rank best b = best ∨ keepMax rank best b = b := by
  unfold keepMax
  split
  · exact Or.inr rfl
  · exact Or.inl rfl

theorem le_keepMax_left (best b : β) : rank best ≤ rank (keepMax rank best b) := by
  unfold keepMax
  split
  · next h => exact h
  · exact le_rfl

theorem le_keepMax_right (best b : β) : rank b ≤ rank (keepMax rank best b) := by
  unfold keepMax
  split
  · exact le_rfl
  · next h => exact le_of_lt (not_le.1 h)

/-- The loop ends in its start value or in an element it has visited. -/
theorem foldl_keepMax_mem (l : List β) (best : β) : l.foldl (keepMax rank) best ∈ best :: l := by
  induction l generalizing best with
  | nil => exact List.mem_singleton.2 rfl
  | cons b l ih =>
      rw [List.foldl_cons]
      rcases List.mem_cons.1 (ih (keepMax rank best b)) with h | h
      · rw [h]
        rcases keepMax_eq_or rank best b with hb | hb
        · rw [hb]; exact List.mem_cons_self ..
        · rw [hb]; exact List.mem_cons_of_mem _ (List.mem_cons_self ..)
      · exact List.mem_cons_of_mem _ (List.mem_cons_of_mem _ h)

/-- Nothing the loop has seen ranks above its result. -/
theorem le_foldl_keepMax (l : List β) (best : β) :
    ∀ b ∈ best :: l, rank b ≤ rank (l.foldl (keepMax rank) best) := by
  induction l generalizing best with
  | nil =>
      intro b hb
      rw [List.mem_singleton.1 hb]
      exact le_rfl
  | cons c l ih =>
      intro b hb
      rw [List.foldl_cons]
      have hacc := ih (keepMax rank best c) _ (List.mem_cons_self ..)
      rcases List.mem_cons.1 hb with rfl | hb
      · exact (le_keepMax_left rank b c).trans hacc
      · rcases List.mem_cons.1 hb with rfl | hb
        · exact (le_keepMax_right rank best b).trans hacc
        · exact ih (keepMax rank best c) b (List.mem_cons_of_mem _ hb)

/-- An element of maximal rank that is visited last is the result of the loop. -/
theorem foldl_keepMax_append_singleton {l : List β} {best b : β}
    (h : ∀ c ∈ best :: l, rank c ≤ rank b) :
    (l ++ [b]).foldl (keepMax rank) best = b := by
  rw [List.foldl_append, List.foldl_cons, List.foldl_nil, keepMax,
    if_pos (h _ (foldl_keepMax_mem rank l best))]

/-- A start value that is not visited is the result of the loop exactly if all that is visited ranks
below it. -/
theorem foldl_keepMax_eq_self_iff {l : List β} {b : β} (hb : b ∉ l) :
    l.foldl (keepMax rank) b = b ↔ ∀ c ∈ l, rank c < rank b := by
  induction l with
  | nil => simp
  | cons c l ih =>
      obtain ⟨hbc, hbl⟩ := not_or.1 (mt List.mem_cons.2 hb)
      rw [List.foldl_cons, List.forall_mem_cons, keepMax]
      split
      · next hle =>
          refine iff_of_false (fun h => ?_) fun h => absurd h.1 (not_lt.2 hle)
          -- the element that has replaced the start value, or a later one, is the result
          exact hb (h ▸ foldl_keepMax_mem rank l c)
      · next hlt => rw [ih hbl, and_iff_right (not_le.1 hlt)]

/-- **When the loop ends in an element that it visits**: nothing before ranks above it, and all that
comes after ranks below it. -/
theorem foldl_keepMax_eq_iff {l : List β} {best b : β} (hmem : b ∈ l)
    (hbest : rank best ≤ rank b) :
    l.foldl (keepMax rank) best = b ↔ ∃ pre post, l = pre ++ b :: post ∧
      (∀ c ∈ pre, rank c ≤ rank b) ∧ ∀ c ∈ post, rank c < rank b := by
  have hsplit : ∀ pre post, b ∉ post → ((pre ++ b :: post).foldl (keepMax rank) best = b ↔
      (∀ c ∈ pre, rank c ≤ rank b) ∧ ∀ c ∈ post, rank c < rank b) := by
    intro pre post hpost
    rw [List.foldl_append, List.foldl_cons, keepMax]
    have hle := le_foldl_keepMax rank pre best
    rcases List.mem_cons.1 (foldl_keepMax_mem rank pre best) with hm | hm
    · rw [hm] at hle ⊢
      rw [if_pos hbest, foldl_keepMax_eq_self_iff rank hpost, and_iff_right]
      exact fun c hc => (hle c (List.mem_cons_of_mem _ hc)).trans hbest
    · split
      · next h =>
          rw [foldl_keepMax_eq_self_iff rank hpost, and_iff_right]
          exact fun c hc => (hle c (List.mem_cons_of_mem _ hc)).trans h
      · next h =>
          refine iff_of_false (fun heq => ?_) fun hcond => h (hcond.1 _ hm)
          exact h (heq ▸ le_foldl_keepMax rank post _ _ (List.mem_cons_self ..))
  constructor
  · intro h
    -- the last place where the element is visited
    obtain ⟨post, pre, hl, hpost⟩ := List.eq_append_cons_of_mem (List.mem_reverse.2 hmem)
    have hl' : l = pre.reverse ++ b :: post.reverse := by
      rw [← List.reverse_reverse l, hl]
      simp
    refine ⟨pre.reverse, post.reverse, hl', (hsplit _ _ (by simpa using hpost)).1 (hl' ▸ h)⟩
  · rintro ⟨pre, post, rfl, hcond⟩
    exact (hsplit pre post fun hb => lt_irrefl _ (hcond.2 b hb)).2 hcond

end keepMax

end Go
