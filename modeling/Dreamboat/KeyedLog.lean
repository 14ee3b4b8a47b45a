/-
**Keyed logs: the last write under a key.**

A component that overwrites the entry of a key with every write is, in its own terms, a log of
writes read through the question *what was written last under this key*.  This module develops
that reading over arbitrary writes and keys; a concrete map refines it when its lookups give the
same answers.  On top of it stands the question an auction asks: which of the last writes under a
set of keys ranks highest.

Main definitions:

* `KeyedLog.lastWrite` — the last write of a log under a key;
* `KeyedLog.write` — a store after the writes of a log;
* `KeyedLog.lastSince` — the last value read off a log that some entries reset;
* `KeyedLog.IsBest` — a highest-ranking last write under a set of keys.

Main results:

* `KeyedLog.lastWrite_concat`, `KeyedLog.lastWrite_cons` — the last write when the log grows at its
  end and at its start;
* `KeyedLog.lastWrite_eq_none_iff`, `KeyedLog.mem_of_lastWrite` — when there is one, and where it
  comes from;
* `KeyedLog.lastWrite_eq_of_perm` — **a key written at most once has the same last write in every
  order of the log**;
* `KeyedLog.write_apply`, `KeyedLog.write_eq_self_iff` — what a store has after the writes of a log,
  and when that is what it had before;
* `KeyedLog.lastSince_concat`, `KeyedLog.lastSince_eq_some_iff` — how that value changes with a
  further entry, and where it stands;
* `KeyedLog.IsBest.rank_eq` — logs with the same last writes have bests of the same rank;
* `KeyedLog.IsBest.cons_iff` — **what a log that has lost its first write still answers right**.
-/

import Mathlib.Data.List.Basic
import Mathlib.Data.List.Induction
import Mathlib.Data.List.Perm.Basic
import Mathlib.Data.Set.Basic
import Mathlib.Logic.Function.Basic
import Mathlib.Order.Lattice

set_option autoImplicit false

namespace KeyedLog

variable {β κ : Type*} [DecidableEq κ] (key : β → κ)

/-- The last write of the log under the key `k`. -/
def lastWrite (k : κ) (log : List β) : Option β := (log.filter fun b => key b = k).getLast?

@[simp] theorem lastWrite_nil (k : κ) : lastWrite key k [] = none := rfl

theorem lastWrite_concat (k : κ) (log : List β) (b : β) :
    lastWrite key k (log ++ [b]) = if key b = k then some b else lastWrite key k log := by
  unfold lastWrite
  rw [List.filter_append]
  split
  · next h => simp [h]
  · next h => simp [h]

theorem lastWrite_cons (k : κ) (b : β) (log : List β) :
    lastWrite key k (b :: log) =
      (lastWrite key k log).or (if key b = k then some b else none) := by
  unfold lastWrite
  rw [List.filter_cons]
  split
  · next h =>
      have hk : key b = k := by simpa using h
      rw [List.getLast?_cons, if_pos hk]
      cases (List.filter (fun b => decide (key b = k)) log).getLast? <;> rfl
  · next h =>
      have hk : ¬key b = k := by simpa using h
      rw [if_neg hk, Option.or_none]

theorem mem_of_lastWrite {k : κ} {log : List β} {b : β} (h : lastWrite key k log = some b) :
    b ∈ log ∧ key b = k := by
  have hmem := List.mem_of_getLast? h
  rw [List.mem_filter, decide_eq_true_iff] at hmem
  exact hmem

theorem lastWrite_eq_none_iff {k : κ} {log : List β} :
    lastWrite key k log = none ↔ ∀ b ∈ log, key b ≠ k := by
  unfold lastWrite
  rw [List.getLast?_eq_none_iff, List.filter_eq_nil_iff]
  simp

theorem exists_lastWrite {k : κ} {log : List β} {b : β} (hb : b ∈ log) (hk : key b = k) :
    ∃ c, lastWrite key k log = some c := by
  cases h : lastWrite key k log with
  | none => exact absurd hk ((lastWrite_eq_none_iff key).1 h b hb)
  | some c => exact ⟨c, rfl⟩

/-- A log restricted to writes that include all those under `k` has the same last write. -/
theorem lastWrite_filter {k : κ} {p : β → Bool} (hp : ∀ b, key b = k → p b = true)
    (log : List β) : lastWrite key k (log.filter p) = lastWrite key k log := by
  unfold lastWrite
  rw [List.filter_filter]
  congr 1
  refine List.filter_congr fun b _ => ?_
  by_cases h : key b = k
  · simp [h, hp b h]
  · simp [h]

/-- **Order does not matter for a key that is written at most once.** -/
theorem lastWrite_eq_of_perm {k : κ} {log log' : List β} (hperm : log.Perm log')
    (honce : (log.filter fun b => key b = k).length ≤ 1) :
    lastWrite key k log = lastWrite key k log' := by
  have h := hperm.filter fun b => decide (key b = k)
  unfold lastWrite
  match hl : log.filter fun b => decide (key b = k) with
  | [] =>
      rw [hl] at h
      rw [h.nil_eq]
  | [b] =>
      rw [hl] at h
      rw [List.perm_singleton.1 h.symm]
  | b :: c :: l =>
      rw [hl] at honce
      simp at honce

/-! ### Stores -/

section Store

variable {ν : Type*} (value : β → ν)

/-- A store after the writes of a log. -/
def write (c : κ → ν) (log : List β) : κ → ν :=
  log.foldl (fun c b => Function.update c (key b) (value b)) c

theorem write_cons (c : κ → ν) (b : β) (log : List β) :
    write key value c (b :: log) =
      write key value (Function.update c (key b) (value b)) log := rfl

/-- **A store has the last writes**, and where there is none what it had before. -/
theorem write_apply (c : κ → ν) (log : List β) (k : κ) :
    write key value c log k = (lastWrite key k log).elim (c k) value := by
  induction log generalizing c with
  | nil => rfl
  | cons b log ih =>
      rw [write_cons, ih, lastWrite_cons]
      cases lastWrite key k log with
      | some b' => rfl
      | none =>
          by_cases hk : key b = k
          · rw [if_pos hk, ← hk]
            exact Function.update_self ..
          · rw [if_neg hk]
            exact Function.update_of_ne (Ne.symm hk) ..

theorem write_of_forall_ne {log : List β} {k : κ} (h : ∀ b ∈ log, key b ≠ k) (c : κ → ν) :
    write key value c log k = c k := by
  rw [write_apply, (lastWrite_eq_none_iff key).2 h]
  rfl

/-- A log leaves a store as it was exactly when the last writes are of what is there. -/
theorem write_eq_self_iff {c : κ → ν} {log : List β} :
    write key value c log = c ↔ ∀ k b, lastWrite key k log = some b → value b = c k := by
  constructor
  · intro h k b hb
    have hk := congrFun h k
    rw [write_apply, hb] at hk
    exact hk
  · intro h
    funext k
    rw [write_apply]
    cases hlast : lastWrite key k log with
    | none => rfl
    | some b => exact h k b hlast

/-- Where all writes under one key agree, the last ones say it for all. -/
theorem write_eq_self_iff_of_agree {c : κ → ν} {log : List β}
    (hagree : ∀ b ∈ log, ∀ b' ∈ log, key b' = key b → value b' = value b) :
    write key value c log = c ↔ ∀ b ∈ log, value b = c (key b) := by
  rw [write_eq_self_iff]
  constructor
  · intro h b hb
    obtain ⟨b', hlast⟩ := exists_lastWrite key hb rfl
    obtain ⟨hb', hkey⟩ := mem_of_lastWrite key hlast
    rw [← hagree b hb b' hb' hkey]
    exact h (key b) b' hlast
  · intro h k b hlast
    obtain ⟨hb, rfl⟩ := mem_of_lastWrite key hlast
    exact h b hb

end Store

/-! ### Logs with resets -/

section Resets

variable {γ : Type*} (resets : β → Prop) [DecidablePred resets] (f : β → Option γ)

/-- The last value that `f` reads off a log, counting from the last reset on. -/
def lastSince (log : List β) : Option γ :=
  log.foldl (fun last b => if resets b then none else (f b).or last) none

@[simp] theorem lastSince_nil : lastSince resets f [] = none := rfl

theorem lastSince_concat (log : List β) (b : β) :
    lastSince resets f (log ++ [b]) =
      if resets b then none else (f b).or (lastSince resets f log) := by
  simp only [lastSince, List.foldl_append, List.foldl_cons, List.foldl_nil]

/-- **Where the last value since the last reset stands**: behind it are neither values nor
resets. -/
theorem lastSince_eq_some_iff {log : List β} {v : γ} :
    lastSince resets f log = some v ↔ ∃ pre b post, log = pre ++ b :: post ∧ ¬resets b ∧
      f b = some v ∧ ∀ c ∈ post, ¬resets c ∧ f c = none := by
  induction log using List.reverseRecOn with
  | nil => simp
  | append_singleton log c ih =>
      rw [lastSince_concat]
      constructor
      · intro h
        split at h
        · cases h
        · next hreset =>
            cases hc : f c with
            | some w =>
                rw [hc, Option.some_or, Option.some_inj] at h
                exact ⟨log, c, [], rfl, hreset, by rw [hc, h], by simp⟩
            | none =>
                rw [hc, Option.none_or] at h
                obtain ⟨pre, b, post, rfl, hb, hv, hpost⟩ := ih.1 h
                refine ⟨pre, b, post ++ [c], by simp, hb, hv, fun d hd => ?_⟩
                rcases List.mem_append.1 hd with hd | hd
                · exact hpost d hd
                · rw [List.mem_singleton.1 hd]
                  exact ⟨hreset, hc⟩
      · rintro ⟨pre, b, post, hlog, hb, hv, hpost⟩
        rcases List.eq_nil_or_concat' post with rfl | ⟨post, d, rfl⟩
        · obtain ⟨-, rfl⟩ := List.append_inj' hlog rfl |>.imp_right List.singleton_inj.1
          rw [if_neg hb, hv, Option.some_or]
        · rw [← List.cons_append, ← List.append_assoc] at hlog
          obtain ⟨rfl, rfl⟩ := List.append_inj' hlog rfl |>.imp_right List.singleton_inj.1
          obtain ⟨hreset, hnone⟩ := hpost c (by simp)
          rw [if_neg hreset, hnone, Option.none_or]
          exact ih.2 ⟨pre, b, post, rfl, hb, hv, fun e he => hpost e (by simp [he])⟩

end Resets

/-! ### The best of the last writes -/

section IsBest

variable {γ : Type*} [LinearOrder γ] (rank : β → γ)

/-- `r` is a highest-ranking one among the last writes under the keys of `S`, and `none` if there
is no write under these keys. -/
def IsBest (S : Set κ) (log : List β) : Option β → Prop
  | none => ∀ b ∈ log, key b ∉ S
  | some b => key b ∈ S ∧ lastWrite key (key b) log = some b ∧
      ∀ k ∈ S, ∀ c, lastWrite key k log = some c → rank c ≤ rank b

variable {key rank} {S : Set κ} {log log' : List β} {r r' : Option β}

/-- Where there is a write under the keys, there is a best one. -/
theorem IsBest.exists_eq_some (h : IsBest key rank S log r) {b : β} (hb : b ∈ log)
    (hS : key b ∈ S) : ∃ c, r = some c := by
  cases r with
  | none => exact absurd hS (h b hb)
  | some c => exact ⟨c, rfl⟩

/-- **Bests agree in rank** when the last writes agree. -/
theorem IsBest.rank_eq (h : IsBest key rank S log r) (h' : IsBest key rank S log' r')
    (hlast : ∀ k ∈ S, lastWrite key k log = lastWrite key k log') :
    r.map rank = r'.map rank := by
  cases r with
  | none =>
      cases r' with
      | none => rfl
      | some b' =>
          obtain ⟨hS, hb', -⟩ := h'
          rw [← hlast _ hS] at hb'
          exact absurd hS (h b' (mem_of_lastWrite key hb').1)
  | some b =>
      obtain ⟨hS, hb, hmax⟩ := h
      have hb₁ := hb
      rw [hlast _ hS] at hb₁
      obtain ⟨b', rfl⟩ := h'.exists_eq_some (mem_of_lastWrite key hb₁).1 hS
      obtain ⟨hS', hb', hmax'⟩ := h'
      have hb'₁ := hb'
      rw [← hlast _ hS'] at hb'₁
      exact congrArg some (le_antisymm (hmax' _ hS _ hb₁) (hmax _ hS' _ hb'₁))

/-- **A lost first write.**  The answer of a log stays right for the log with a further write in
front exactly when that write is under none of the keys, or its key is written again, or some last
write ranks at least as high. -/
theorem IsBest.cons_iff {first : β} (h : IsBest key rank S log r) :
    IsBest key rank S (first :: log) r ↔
      key first ∉ S ∨ (∃ b ∈ log, key b = key first) ∨
        ∃ k ∈ S, ∃ c, lastWrite key k log = some c ∧ rank first ≤ rank c := by
  constructor
  · intro h'
    by_cases hS : key first ∈ S
    · right
      by_cases hagain : ∃ b ∈ log, key b = key first
      · exact Or.inl hagain
      · right
        obtain ⟨b, rfl⟩ := h'.exists_eq_some (List.mem_cons_self ..) hS
        obtain ⟨hbS, hb, -⟩ := h
        refine ⟨key b, hbS, b, hb, h'.2.2 (key first) hS first ?_⟩
        have hnone : lastWrite key (key first) log = none :=
          (lastWrite_eq_none_iff key).2 fun b hb hk => hagain ⟨b, hb, hk⟩
        rw [lastWrite_cons, hnone, if_pos rfl]
        rfl
    · exact Or.inl hS
  · intro hcond
    -- away from the key of the first write, and also there once it is written again, nothing moves
    have hsame : ∀ k c, lastWrite key k log = some c → lastWrite key k (first :: log) = some c := by
      intro k c hc
      rw [lastWrite_cons, hc]
      rfl
    cases r with
    | none =>
        intro b hb
        rcases List.mem_cons.1 hb with rfl | hb
        · rcases hcond with hS | ⟨c, hc, hk⟩ | ⟨k, hk, c, hc, -⟩
          · exact hS
          · exact hk ▸ h c hc
          · obtain ⟨hmem, rfl⟩ := mem_of_lastWrite key hc
            exact absurd hk (h c hmem)
        · exact h b hb
    | some b =>
        obtain ⟨hbS, hb, hmax⟩ := h
        refine ⟨hbS, hsame _ _ hb, fun k hk c hc => ?_⟩
        rw [lastWrite_cons] at hc
        cases hlog : lastWrite key k log with
        | some c' =>
            rw [hlog, Option.some_or, Option.some_inj] at hc
            exact hc ▸ hmax k hk c' hlog
        | none =>
            rw [hlog, Option.none_or] at hc
            split at hc
            · next hkey =>
                rw [Option.some_inj] at hc
                subst hc
                rcases hcond with hS | ⟨d, hd, hdk⟩ | ⟨k', hk', d, hd, hle⟩
                · exact absurd (hkey ▸ hk) hS
                · exact absurd (hdk.trans hkey) ((lastWrite_eq_none_iff key).1 hlog d hd)
                · exact hle.trans (hmax k' hk' d hd)
            · cases hc

end IsBest

end KeyedLog
