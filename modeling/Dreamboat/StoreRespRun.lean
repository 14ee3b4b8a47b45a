/-
**`StoreResp` under its lock.**

`Dreamboat/StoreResp.lean` has `Send`, `SkipOne` and `Close` as one step each.  Here they are the
instructions between `Lock` and `Unlock`, with the atomic flag and the channel as they are written
one after the other, and the calls of any number of goroutines are interleaved.  The outline of the
three methods shows that they are atomic, and what is true of the object after a history of calls
is true in every interleaving.

An object collects `numAll` results.  It should be closed when they are in, when there is an error
or when somebody closes it, and the indexes of the successes should be final by then.  The target
is only compared with the number of successes when one of the two has changed.  An object for no
results has reached its target from the beginning, and there is nothing left that could compare.

Main definitions:

* `StoreRespRun.instruction` — the methods, instruction by instruction;
* `StoreRespRun.Ended` — a history of calls that should end an object;
* `StoreRespRun.Right` — an object is closed once, when it should be, and with the indexes that were
  sent.

Main results:

* `StoreRespRun.outline` — the methods are the steps of `StoreResp`;
* `StoreRespRun.isClosed_object_iff` — when an object for some results is closed;
* `StoreRespRun.right_iff` — **an object is right in every interleaving exactly when it is for at
  least one result**;
* `StoreRespRun.empty_never_closed` — nothing closes an object for no results.
-/

import Dreamboat.CriticalSection
import Dreamboat.StoreResp

set_option autoImplicit false

namespace Dreamboat

namespace StoreRespRun

/-! ### The methods -/

/-- A call of a method that takes the lock. -/
inductive Call where
  | send (r : Resp)
  | skipOne
  | close (err : Option GoError)

/-- The fields of the object, and how often `close(s.done)` has been executed. -/
structure Memory where
  nonErrors : List ℤ
  numAll : ℤ
  isClosed : Bool
  err : Option GoError
  done : Go.Chan (Option GoError)
  closes : ℕ

/-- `NewRespC`. -/
def newRespC (numAll : ℤ) : Memory := ⟨[], numAll, false, none, .make 1, 0⟩

/-- `SuccessfullIndexes`. -/
def Memory.successfullIndexes (m : Memory) : List ℤ := m.nonErrors

/-- The places of the methods, from the one behind `Lock` on. -/
inductive Place where
  /-- The test at the beginning of `Send` and `SkipOne`. -/
  | isClosed
  /-- The assignment that a method is for. -/
  | write
  /-- The comparison of `numAll` with the number of successes. -/
  | compare
  /-- The test, the store and the close of `close`. -/
  | closeIsClosed
  | storeIsClosed
  | closeDone
  | unlock
  | panicked

def Call.start : Call → Place
  | send _ | skipOne => .isClosed
  | close _ => .write

def instruction (c : Call) (p : Place) (m : Memory) : Option (Memory × Option Place) :=
  match p with
  | .isClosed => some (m, some (if m.isClosed then .unlock else .write))
  | .write =>
      match c with
      | .send r =>
          match r.err with
          | some err => some ({ m with err := some err }, some .closeIsClosed)
          | none => some ({ m with nonErrors := m.nonErrors ++ [r.id] }, some .compare)
      | .skipOne => some ({ m with numAll := m.numAll - 1 }, some .compare)
      | .close err => some ({ m with err := err.or m.err }, some .closeIsClosed)
  | .compare => some (m, some (if m.numAll = m.nonErrors.length then .closeIsClosed else .unlock))
  | .closeIsClosed => some (m, some (if m.isClosed then .unlock else .storeIsClosed))
  | .storeIsClosed => some ({ m with isClosed := true }, some .closeDone)
  | .closeDone =>
      -- to close a channel twice is a panic
      if h : m.done.closed = false then
        some ({ m with done := m.done.close h, closes := m.closes + 1 }, some .unlock)
      else some ({ m with closes := m.closes + 1 }, some .panicked)
  | .unlock => some (m, none)
  | .panicked => none

def methods : CriticalSection.Methods Memory Call Place := ⟨Call.start, instruction⟩

abbrev State := CriticalSection.State Memory Call Place

/-- A run of calls on the object for a number of results. -/
def run (numAll : ℕ) (calls : List Call) (as : List CriticalSection.Action) : Option State :=
  Runs.run (CriticalSection.step methods) (CriticalSection.init calls (newRespC numAll)) as

/-! ### What is right -/

/-- A call for one of the results. -/
def Call.isItem : Call → Bool
  | send _ | skipOne => true
  | close _ => false

/-- How many results are sent or skipped. -/
def items (calls : List Call) : ℕ := calls.countP Call.isItem

def Call.sentId : Call → Option ℤ
  | send r => if r.err = none then some r.id else none
  | skipOne | close _ => none

/-- The identifiers that are sent without an error. -/
def sentIds (calls : List Call) : List ℤ := calls.filterMap Call.sentId

/-- `Close` was called, an error was sent, or all results were sent or skipped. -/
def Ended (numAll : ℕ) (calls : List Call) : Prop :=
  (∃ err, .close err ∈ calls) ∨ (∃ r, .send r ∈ calls ∧ r.err ≠ none) ∨ items calls = numAll

/-- A state of the calls on an object for a number of results in which all is right. -/
structure RightAt (numAll : ℕ) (s : State) : Prop where
  once : s.mem.closes ≤ 1
  /-- The channel is closed only for a reason. -/
  only : s.mem.done.closed = true → Ended numAll s.entered
  /-- It is closed once the calls that give the reason have returned. -/
  when : Ended numAll s.returned → s.mem.done.closed = true
  /-- When it is closed, the indexes are those that were sent. -/
  lists : ∀ a s', CriticalSection.step methods s a = some s' → s.mem.done.closed = false →
    s'.mem.done.closed = true → s'.mem.successfullIndexes = sentIds s'.entered
  /-- From then on neither changes. -/
  stays : s.mem.done.closed = true → ∀ as s',
    Runs.run (CriticalSection.step methods) s as = some s' →
      s'.mem.done.closed = true ∧ s'.mem.successfullIndexes = s.mem.successfullIndexes

/-- All is right at every moment of every interleaving. -/
def Right (numAll : ℕ) (calls : List Call) : Prop :=
  ∀ as s, run numAll calls as = some s → RightAt numAll s

/-! ### The methods are atomic -/

/-- A call in one step. -/
def perform (o : StoreResp) : Call → StoreResp
  | .send r => o.send r
  | .skipOne => o.skipOne
  | .close err => o.close err

/-- The memory of an object. -/
def memory (o : StoreResp) : Memory :=
  ⟨o.nonErrors, o.numAll, o.isClosed, o.err, o.done, if o.isClosed then 1 else 0⟩

theorem memory_closeDone {o : StoreResp} (h : o.isClosed = false) :
    memory o.closeDone =
      { memory o with isClosed := true, done := o.done.close (o.closed_done.trans h), closes := 1 }
      := by
  simp only [memory, StoreResp.closeDone, dif_pos h, if_true]

/-- The memory at the places of a call that has got the lock when the object was `o`.  Behind the
assignment it is the one of an object `w`, of which the call is going to make its result. -/
inductive At (o : StoreResp) (c : Call) : Place → Memory → Prop
  | isClosed (htests : c.isItem = true) : At o c .isClosed (memory o)
  | write (hopen : c.isItem = true → o.isClosed = false) : At o c .write (memory o)
  | compare {w : StoreResp} (hopen : o.isClosed = false) (hflag : w.isClosed = o.isClosed)
      (hresult : perform o c = if w.numAll = w.nonErrors.length then w.closeDone else w) :
      At o c .compare (memory w)
  | closeIsClosed {w : StoreResp} (hflag : w.isClosed = o.isClosed)
      (hresult : perform o c = w.closeDone) : At o c .closeIsClosed (memory w)
  | storeIsClosed {w : StoreResp} (hopen : w.isClosed = false) (hflag : w.isClosed = o.isClosed)
      (hresult : perform o c = w.closeDone) : At o c .storeIsClosed (memory w)
  | closeDone {w : StoreResp} (hopen : w.isClosed = false) (hflag : w.isClosed = o.isClosed)
      (hresult : perform o c = w.closeDone) :
      At o c .closeDone { memory w with isClosed := true }
  | unlock : At o c .unlock (memory (perform o c))

section

variable {o : StoreResp} {c : Call}

theorem perform_of_isClosed (h : o.isClosed = true) :
    (perform o c).isClosed = true ∧ (perform o c).nonErrors = o.nonErrors := by
  cases c with
  | send r =>
      rw [perform, StoreResp.send_of_isClosed h]
      exact ⟨h, rfl⟩
  | skipOne =>
      rw [perform, StoreResp.skipOne_of_isClosed h]
      exact ⟨h, rfl⟩
  | close err => exact ⟨StoreResp.isClosed_closeDone _, StoreResp.nonErrors_closeDone _⟩

/-- A call that finds the object closed leaves it as it is. -/
theorem perform_item_of_isClosed (hc : c.isItem = true) (h : o.isClosed = true) :
    perform o c = o := by
  cases c with
  | send r => exact StoreResp.send_of_isClosed h r
  | skipOne => exact StoreResp.skipOne_of_isClosed h
  | close err => cases hc

/-- The assignment of a method. -/
theorem at_of_write (hopen : c.isItem = true → o.isClosed = false) {m : Memory} {p : Place}
    (h : instruction c .write (memory o) = some (m, some p)) : At o c p m := by
  cases c with
  | send r =>
      have hfalse : o.isClosed = false := hopen rfl
      simp only [instruction] at h
      cases herr : r.err with
      | some err =>
          rw [herr] at h
          cases h
          refine .closeIsClosed (w := { o with err := some err }) rfl ?_
          simp only [perform, StoreResp.send, hfalse, herr, Bool.false_eq_true, if_false]
      | none =>
          rw [herr] at h
          cases h
          refine .compare (w := { o with nonErrors := o.nonErrors ++ [r.id] }) hfalse rfl ?_
          simp only [perform, StoreResp.send, hfalse, herr, Bool.false_eq_true, if_false]
  | skipOne =>
      have hfalse : o.isClosed = false := hopen rfl
      cases h
      refine .compare (w := { o with numAll := o.numAll - 1 }) hfalse rfl ?_
      simp only [perform, StoreResp.skipOne, hfalse, Bool.false_eq_true, if_false]
  | close err =>
      cases h
      exact .closeIsClosed (w := { o with err := err.or o.err }) rfl rfl

/-- What an instruction does to the channel, and where a method returns. -/
theorem instruction_cases {p : Place} {m m' : Memory} {q : Option Place}
    (h : instruction c p m = some (m', q)) :
    (p = .unlock ∧ q = none ∧ m' = m) ∨
      ((∃ p', q = some p') ∧ (m'.done = m.done ∨ m'.done.closed = true)) := by
  cases p with
  | unlock =>
      cases h
      exact .inl ⟨rfl, rfl, rfl⟩
  | write =>
      cases c with
      | send r =>
          simp only [instruction] at h
          split at h
          · cases h
            exact .inr ⟨⟨_, rfl⟩, .inl rfl⟩
          · cases h
            exact .inr ⟨⟨_, rfl⟩, .inl rfl⟩
      | skipOne | close =>
          cases h
          exact .inr ⟨⟨_, rfl⟩, .inl rfl⟩
  | closeDone =>
      simp only [instruction] at h
      split at h
      · cases h
        exact .inr ⟨⟨_, rfl⟩, .inr rfl⟩
      · cases h
        exact .inr ⟨⟨_, rfl⟩, .inl rfl⟩
  | panicked => cases h
  | isClosed | compare | closeIsClosed | storeIsClosed =>
      cases h
      exact .inr ⟨⟨_, rfl⟩, .inl rfl⟩

/-- A method returns at its end only, and leaves the memory as it is there. -/
theorem eq_unlock_of_return {p : Place} {m m' : Memory}
    (h : instruction c p m = some (m', none)) : p = .unlock ∧ m' = m := by
  rcases instruction_cases h with ⟨hp, -, hm⟩ | ⟨⟨p', hp'⟩, -⟩
  · exact ⟨hp, hm⟩
  · cases hp'

/-- **The outline of the methods.** -/
theorem outline : CriticalSection.Outline methods memory perform At where
  start := by
    intro o c
    cases c with
    | send r => exact .isClosed rfl
    | skipOne => exact .isClosed rfl
    | close err => exact .write fun hc => by cases hc
  next := by
    intro o c p m m' p' hat h
    cases hat with
    | isClosed htests =>
        cases h
        cases hflag : o.isClosed with
        | true =>
            have hsame := perform_item_of_isClosed htests hflag
            simpa [memory, hflag, hsame] using At.unlock (o := o) (c := c)
        | false => simpa [memory, hflag] using At.write (o := o) (c := c) fun _ => hflag
    | write hopen => exact at_of_write hopen h
    | @compare w hopen hflag hresult =>
        cases h
        by_cases hall : w.numAll = w.nonErrors.length
        · rw [if_pos hall] at hresult
          simpa [memory, hall] using At.closeIsClosed hflag hresult
        · rw [if_neg hall] at hresult
          simpa [memory, hall, hresult] using At.unlock (o := o) (c := c)
    | @closeIsClosed w hflag hresult =>
        cases h
        cases hclosed : w.isClosed with
        | true =>
            have hsame : perform o c = w := by
              rw [hresult, StoreResp.closeDone, dif_neg (by simp [hclosed])]
            simpa [memory, hclosed, hsame] using At.unlock (o := o) (c := c)
        | false => simpa [memory, hclosed] using At.storeIsClosed hclosed hflag hresult
    | @storeIsClosed w hopen hflag hresult =>
        cases h
        exact .closeDone hopen hflag hresult
    | @closeDone w hopen hflag hresult =>
        have hdone : w.done.closed = false := w.closed_done.trans hopen
        have hunlock := At.unlock (o := o) (c := c)
        rw [hresult, memory_closeDone hopen] at hunlock
        simp only [methods, instruction, memory, dif_pos hdone, hopen, Option.some.injEq,
          Prod.mk.injEq] at h
        obtain ⟨rfl, rfl⟩ := h
        exact hunlock
    | unlock => cases h
  ret := by
    intro o c p m m' hat h
    obtain ⟨rfl, rfl⟩ := eq_unlock_of_return h
    cases hat with
    | unlock => rfl

/-! ### Inside a call -/

variable {p : Place} {m : Memory}

theorem At.closes_eq (h : At o c p m) : m.closes = if m.done.closed then 1 else 0 := by
  have hmemory : ∀ o : StoreResp,
      (memory o).closes = if (memory o).done.closed then 1 else 0 := by
    intro o
    simp only [memory, o.closed_done]
  cases h with
  | @closeDone w hopen hflag hresult => simp [memory, w.closed_done, hopen]
  | _ => exact hmemory _

/-- A channel that was closed before the call stays so. -/
theorem At.closed_of_isClosed (h : At o c p m) (ho : o.isClosed = true) :
    m.done.closed = true := by
  cases h with
  | isClosed htests => exact o.closed_done.trans ho
  | write hopen => exact o.closed_done.trans ho
  | compare hopen hflag hresult => rw [ho] at hopen; cases hopen
  | @closeIsClosed w hflag hresult => exact w.closed_done.trans (hflag.trans ho)
  | storeIsClosed hopen hflag hresult => rw [hflag, ho] at hopen; cases hopen
  | closeDone hopen hflag hresult => rw [hflag, ho] at hopen; cases hopen
  | unlock => exact (perform o c).closed_done.trans (perform_of_isClosed ho).1

/-- When the channel is closed, the object has what the call leaves. -/
theorem At.of_closed (h : At o c p m) (hm : m.done.closed = true) :
    (perform o c).isClosed = true ∧ m.nonErrors = (perform o c).nonErrors := by
  cases h with
  | isClosed htests =>
      obtain ⟨hclosed, hnon⟩ := perform_of_isClosed (c := c) (o.closed_done.symm.trans hm)
      exact ⟨hclosed, hnon.symm⟩
  | write hopen =>
      obtain ⟨hclosed, hnon⟩ := perform_of_isClosed (c := c) (o.closed_done.symm.trans hm)
      exact ⟨hclosed, hnon.symm⟩
  | @compare w hopen hflag hresult =>
      have hopened : w.done.closed = false := w.closed_done.trans (hflag.trans hopen)
      exact absurd (hopened.symm.trans hm) Bool.false_ne_true
  | @closeIsClosed w hflag hresult =>
      rw [hresult]
      exact ⟨StoreResp.isClosed_closeDone _, (StoreResp.nonErrors_closeDone _).symm⟩
  | @storeIsClosed w hopen hflag hresult =>
      exact absurd ((w.closed_done.trans hopen).symm.trans hm) Bool.false_ne_true
  | @closeDone w hopen hflag hresult =>
      exact absurd ((w.closed_done.trans hopen).symm.trans hm) Bool.false_ne_true
  | unlock => exact ⟨(perform o c).closed_done.symm.trans hm, rfl⟩

end

/-! ### The object after a history -/

/-- The object for a number of results after calls one after another. -/
def object (numAll : ℕ) (calls : List Call) : StoreResp :=
  calls.foldl perform (StoreResp.newRespC numAll)

variable {numAll : ℕ} {calls : List Call}

theorem object_concat (numAll : ℕ) (calls : List Call) (c : Call) :
    object numAll (calls ++ [c]) = perform (object numAll calls) c := by
  rw [object, List.foldl_concat]
  rfl

/-- A closed object is left as it is by all further calls. -/
theorem object_append_of_isClosed (h : (object numAll calls).isClosed = true)
    (more : List Call) :
    (object numAll (calls ++ more)).isClosed = true ∧
      (object numAll (calls ++ more)).nonErrors = (object numAll calls).nonErrors := by
  induction more using List.reverseRecOn with
  | nil =>
      rw [List.append_nil]
      exact ⟨h, rfl⟩
  | append_singleton more c ih =>
      obtain ⟨hclosed, hnon⟩ := perform_of_isClosed (c := c) ih.1
      rw [← List.append_assoc, object_concat]
      exact ⟨hclosed, hnon.trans ih.2⟩

theorem items_concat (calls : List Call) (c : Call) :
    items (calls ++ [c]) = items calls + if c.isItem then 1 else 0 := by
  rw [items, items, List.countP_append, List.countP_singleton]

theorem sentIds_concat (calls : List Call) (c : Call) :
    sentIds (calls ++ [c]) = sentIds calls ++ c.sentId.toList := by
  rw [sentIds, sentIds, List.filterMap_append]
  cases hc : c.sentId with
  | none => simp [hc]
  | some id => simp [hc]

/-- What an open object has: all successes, a target without the skipped results, and calls that
did not end it. -/
structure Collecting (numAll : ℕ) (calls : List Call) (o : StoreResp) : Prop where
  nonErrors : o.nonErrors = sentIds calls
  target : o.numAll + items calls = numAll + o.nonErrors.length
  close : ∀ err, .close err ∉ calls
  send : ∀ r, .send r ∈ calls → r.err = none
  more : numAll ≠ 0 → o.numAll ≠ o.nonErrors.length

theorem collecting_newRespC (numAll : ℕ) : Collecting numAll [] (StoreResp.newRespC numAll) where
  nonErrors := rfl
  target := rfl
  close := fun _ => List.not_mem_nil
  send := fun _ h => absurd h List.not_mem_nil
  more := fun h heq => h (Int.ofNat.inj heq)

section

variable {o : StoreResp} {c : Call}

/-- A call that leaves an object open. -/
theorem Collecting.keep (h : Collecting numAll calls o) (hopen : o.isClosed = false)
    (hopen' : (perform o c).isClosed = false) :
    Collecting numAll (calls ++ [c]) (perform o c) := by
  have htarget := h.target
  cases c with
  | send r =>
      cases herr : r.err with
      | some err =>
          have hclosed := (StoreResp.send_of_err hopen herr).1
          exact absurd (hclosed.symm.trans hopen') Bool.noConfusion
      | none =>
          obtain ⟨hnon, -, hnum, hlast⟩ := StoreResp.send_of_success hopen herr
          refine ⟨?_, ?_, ?_, ?_, ?_⟩
          · rw [sentIds_concat, ← h.nonErrors, Call.sentId, if_pos herr]
            exact hnon
          · rw [items_concat, perform, hnum, hnon, List.length_append]
            push_cast
            simp only [Call.isItem, if_true, List.length_singleton]
            omega
          · simpa using h.close
          · intro r' hr'
            rcases List.mem_append.1 hr' with hr' | hr'
            · exact h.send r' hr'
            · cases List.mem_singleton.1 hr'
              exact herr
          · intro _ hall
            rw [perform, hnum, hnon, List.length_append] at hall
            exact absurd ((hlast.2 (by simpa using hall)).symm.trans hopen') Bool.noConfusion
  | skipOne =>
      obtain ⟨hnon, -, hnum, hlast⟩ := StoreResp.skipOne_of_open hopen
      refine ⟨?_, ?_, ?_, ?_, ?_⟩
      · rw [sentIds_concat, ← h.nonErrors, Call.sentId, Option.toList_none, List.append_nil]
        exact hnon
      · rw [items_concat, perform, hnum, hnon]
        push_cast
        simp only [Call.isItem, if_true]
        omega
      · simpa using h.close
      · simpa using h.send
      · intro _ hall
        rw [perform, hnum, hnon] at hall
        exact absurd ((hlast.2 hall).symm.trans hopen') Bool.noConfusion
  | close err =>
      have hclosed : (o.close err).isClosed = true := StoreResp.isClosed_closeDone _
      exact absurd (hclosed.symm.trans hopen') Bool.noConfusion

/-- A call that closes an open object has a reason, and the object has the indexes that were
sent. -/
theorem Collecting.ends (h : Collecting numAll calls o) (hopen : o.isClosed = false)
    (hclosed : (perform o c).isClosed = true) :
    Ended numAll (calls ++ [c]) ∧ (perform o c).nonErrors = sentIds (calls ++ [c]) := by
  have htarget := h.target
  rw [sentIds_concat, ← h.nonErrors]
  cases c with
  | send r =>
      cases herr : r.err with
      | some err =>
          obtain ⟨-, -, hnon⟩ := StoreResp.send_of_err hopen herr
          refine ⟨.inr (.inl ⟨r, by simp, by simp [herr]⟩), ?_⟩
          rw [perform, hnon]
          simp [Call.sentId, herr]
      | none =>
          obtain ⟨hnon, -, -, hlast⟩ := StoreResp.send_of_success hopen herr
          have hall := hlast.1 hclosed
          refine ⟨.inr (.inr ?_), ?_⟩
          · rw [items_concat]
            simp only [Call.isItem, if_true]
            omega
          · rw [perform, hnon]
            simp [Call.sentId, herr]
  | skipOne =>
      obtain ⟨hnon, -, -, hlast⟩ := StoreResp.skipOne_of_open hopen
      have hall := hlast.1 hclosed
      refine ⟨.inr (.inr ?_), ?_⟩
      · rw [items_concat]
        simp only [Call.isItem, if_true]
        omega
      · rw [perform, hnon]
        simp [Call.sentId]
  | close err =>
      refine ⟨.inl ⟨err, by simp⟩, ?_⟩
      have hnon : (o.close err).nonErrors = o.nonErrors := StoreResp.nonErrors_closeDone _
      rw [perform, hnon]
      simp [Call.sentId]

end

/-- **An open object** still collects. -/
theorem collecting_object (h : (object numAll calls).isClosed = false) :
    Collecting numAll calls (object numAll calls) := by
  induction calls using List.reverseRecOn with
  | nil => exact collecting_newRespC numAll
  | append_singleton calls c ih =>
      rw [object_concat] at h ⊢
      cases hopen : (object numAll calls).isClosed with
      | true =>
          rw [(perform_of_isClosed hopen).1] at h
          cases h
      | false => exact (ih hopen).keep hopen h

/-- A history that has ended an object does so with further calls, too, as long as there are not
too many results. -/
theorem Ended.concat (h : Ended numAll calls) {c : Call} (hitems : items (calls ++ [c]) ≤ numAll) :
    Ended numAll (calls ++ [c]) := by
  rcases h with ⟨err, herr⟩ | ⟨r, hr, herr⟩ | hall
  · exact .inl ⟨err, List.mem_append_left _ herr⟩
  · exact .inr (.inl ⟨r, List.mem_append_left _ hr, herr⟩)
  · refine .inr (.inr (le_antisymm hitems ?_))
    rw [items_concat, hall]
    exact Nat.le_add_right _ _

theorem ended_of_isClosed (hitems : items calls ≤ numAll)
    (h : (object numAll calls).isClosed = true) : Ended numAll calls := by
  induction calls using List.reverseRecOn with
  | nil => cases h
  | append_singleton calls c ih =>
      rw [object_concat] at h
      cases hopen : (object numAll calls).isClosed with
      | true =>
          have hle : items calls ≤ numAll := by
            rw [items_concat] at hitems
            omega
          exact (ih hle hopen).concat hitems
      | false => exact ((collecting_object hopen).ends hopen h).1

/-- **When an object for some results is closed.** -/
theorem isClosed_object_iff (hpos : numAll ≠ 0) (hitems : items calls ≤ numAll) :
    (object numAll calls).isClosed = true ↔ Ended numAll calls := by
  refine ⟨ended_of_isClosed hitems, fun hended => ?_⟩
  by_contra hopen
  have h := collecting_object (Bool.eq_false_of_not_eq_true hopen)
  rcases hended with ⟨err, herr⟩ | ⟨r, hr, herr⟩ | hall
  · exact h.close err herr
  · exact herr (h.send r hr)
  · have htarget := h.target
    refine h.more hpos ?_
    omega

/-! ### Every interleaving -/

/-- What the outline says about a state. -/
abbrev Outlined (numAll : ℕ) (s : State) : Prop :=
  CriticalSection.Holds memory perform At (StoreResp.newRespC numAll) s

theorem outlined_of_run {as : List CriticalSection.Action} {s : State}
    (hrun : run numAll calls as = some s) : Outlined numAll s :=
  outline.holds_of_run hrun

theorem items_entered_le {as : List CriticalSection.Action} {s : State}
    (hrun : run numAll calls as = some s) : items s.entered ≤ items calls := by
  have hcount := (CriticalSection.perm_of_run hrun).countP_eq Call.isItem
  rw [List.countP_append] at hcount
  unfold items
  omega

theorem items_returned_le (s : State) : items s.returned ≤ items s.entered :=
  (List.sublist_append_left _ _).countP_le

section

variable {s s' : State}

theorem closes_eq (h : Outlined numAll s) :
    s.mem.closes = if s.mem.done.closed then 1 else 0 := by
  cases hinside : s.inside with
  | none =>
      rw [h.free hinside]
      simp only [memory, StoreResp.closed_done]
  | some cp => exact (h.inside cp.1 cp.2 hinside).closes_eq

/-- The calls that have returned have closed the channel, if they have closed the object. -/
theorem closed_of_object (h : Outlined numAll s)
    (hclosed : (object numAll s.returned).isClosed = true) : s.mem.done.closed = true := by
  cases hinside : s.inside with
  | none =>
      rw [h.free hinside]
      exact (StoreResp.closed_done _).trans hclosed
  | some cp => exact (h.inside cp.1 cp.2 hinside).closed_of_isClosed hclosed

/-- A channel that is closed is the one of an object that the calls have closed, and the indexes
are those of that object. -/
theorem object_of_closed (h : Outlined numAll s) (hclosed : s.mem.done.closed = true) :
    (object numAll s.entered).isClosed = true ∧
      s.mem.nonErrors = (object numAll s.entered).nonErrors := by
  cases hinside : s.inside with
  | none =>
      rw [s.entered_of_free hinside]
      rw [h.free hinside] at hclosed ⊢
      exact ⟨(StoreResp.closed_done _).symm.trans hclosed, rfl⟩
  | some cp =>
      rw [s.entered_of_inside hinside, object_concat]
      exact (h.inside cp.1 cp.2 hinside).of_closed hclosed

/-- No instruction opens a channel. -/
theorem closed_of_instruction {c : Call} {p : Place} {m m' : Memory} {q : Option Place}
    (h : instruction c p m = some (m', q)) (hclosed : m.done.closed = true) :
    m'.done.closed = true := by
  rcases instruction_cases h with ⟨-, -, rfl⟩ | ⟨-, hdone | hdone⟩
  · exact hclosed
  · rw [hdone]
    exact hclosed
  · exact hdone

theorem closed_of_run {as : List CriticalSection.Action}
    (hrun : Runs.run (CriticalSection.step methods) s as = some s')
    (hclosed : s.mem.done.closed = true) : s'.mem.done.closed = true := by
  refine Runs.run_invariant _ (I := fun s : State => s.mem.done.closed = true) ?_ hclosed hrun
  intro s a s' hclosed h
  rcases CriticalSection.step_cases h with ⟨c, waiting, -, -, rfl⟩ |
    ⟨c, p, mem, p', -, hinstruction, rfl⟩ | ⟨c, p, mem, -, hinstruction, rfl⟩
  · exact hclosed
  · exact closed_of_instruction hinstruction hclosed
  · exact closed_of_instruction hinstruction hclosed

/-- **The moment of closing**: the indexes are those that were sent by then. -/
theorem lists_of_closing {a : CriticalSection.Action} (hs : Outlined numAll s)
    (hs' : Outlined numAll s') (h : CriticalSection.step methods s a = some s')
    (hopen : s.mem.done.closed = false) (hclosed : s'.mem.done.closed = true) :
    s'.mem.nonErrors = sentIds s'.entered := by
  obtain ⟨hobject, hnon⟩ := object_of_closed hs' hclosed
  rcases CriticalSection.step_cases h with ⟨c, waiting, -, -, rfl⟩ |
    ⟨c, p, mem, p', hinside, -, rfl⟩ | ⟨c, p, mem, -, hinstruction, rfl⟩
  · exact absurd (hopen.symm.trans hclosed) Bool.false_ne_true
  · have hbefore : (object numAll s.returned).isClosed = false := by
      cases hreturned : (object numAll s.returned).isClosed with
      | false => rfl
      | true => exact absurd (hopen.symm.trans (closed_of_object hs hreturned)) Bool.false_ne_true
    have hentered : ({ s with mem, inside := some (c, p') } : State).entered =
        s.returned ++ [c] := rfl
    rw [hentered, object_concat] at hobject hnon
    rw [hentered, hnon]
    exact ((collecting_object hbefore).ends hbefore hobject).2
  · obtain ⟨-, rfl⟩ := eq_unlock_of_return hinstruction
    exact absurd (hopen.symm.trans hclosed) Bool.false_ne_true

end

/-- **What is right in any case**: all but that the channel is closed when there is a reason. -/
theorem rightAt_of_run (hitems : items calls ≤ numAll) {as : List CriticalSection.Action}
    {s : State} (hrun : run numAll calls as = some s)
    (hwhen : Ended numAll s.returned → s.mem.done.closed = true) : RightAt numAll s := by
  have hs := outlined_of_run hrun
  have hreach : ∀ as' s', Runs.run (CriticalSection.step methods) s as' = some s' →
      Outlined numAll s' := by
    intro as' s' hrun'
    exact outlined_of_run ((Runs.run_append_eq_some _).2 ⟨s, hrun, hrun'⟩)
  refine ⟨?_, ?_, hwhen, ?_, ?_⟩
  · rw [closes_eq hs]
    split
    · exact le_rfl
    · exact Nat.zero_le 1
  · intro hclosed
    exact ended_of_isClosed ((items_entered_le hrun).trans hitems) (object_of_closed hs hclosed).1
  · intro a s' hstep hopen hclosed
    have hs' := hreach [a] s' (Runs.run_cons_of_step _ hstep [])
    exact lists_of_closing hs hs' hstep hopen hclosed
  · intro hclosed as' s' hrun'
    have hclosed' := closed_of_run hrun' hclosed
    obtain ⟨hobject, hnon⟩ := object_of_closed hs hclosed
    obtain ⟨-, hnon'⟩ := object_of_closed (hreach as' s' hrun') hclosed'
    obtain ⟨more, hmore⟩ := CriticalSection.entered_prefix_of_run hrun'
    refine ⟨hclosed', hnon'.trans ?_⟩
    rw [← hmore, (object_append_of_isClosed hobject more).2]
    exact hnon.symm

/-- An object for no results has reached its target before the first call. -/
theorem not_right_zero (calls : List Call) : ¬Right 0 calls := by
  intro h
  have hstart := (h [] _ rfl).when (.inr (.inr rfl))
  cases hstart

/-- **An object is right in every interleaving exactly when it is for at least one result.** -/
theorem right_iff (numAll : ℕ) (calls : List Call) (hitems : items calls ≤ numAll) :
    Right numAll calls ↔ numAll ≠ 0 := by
  constructor
  · rintro h rfl
    exact not_right_zero calls h
  · intro hpos as s hrun
    refine rightAt_of_run hitems hrun fun hended => ?_
    have hle := (items_returned_le s).trans ((items_entered_le hrun).trans hitems)
    exact closed_of_object (outlined_of_run hrun) ((isClosed_object_iff hpos hle).2 hended)

/-- Two results and a skipped one, of which the second is an error, and a call of `Close`. -/
theorem right_iff_three :
    Right 3 [.send ⟨0, none⟩, .skipOne, .send ⟨2, some (.new "invalid signature")⟩, .close none] :=
  (right_iff 3 [.send ⟨0, none⟩, .skipOne, .send ⟨2, some (.new "invalid signature")⟩, .close none]
    (by decide)).2 (by decide)

/-- **An object for no results**, as an empty request makes it: without a call of `Close` nothing
closes it, and who waits for it waits forever. -/
theorem empty_never_closed :
    (∀ as s, run 0 [] as = some s → s.mem.done.closed = false) ∧
      (StoreResp.newRespC 0).receive = none ∧ ¬Right 0 [] := by
  refine ⟨?_, rfl, not_right_zero []⟩
  intro as s hrun
  have hentered : s.entered = [] :=
    (List.append_eq_nil_iff.1 (CriticalSection.perm_of_run hrun).eq_nil).1
  cases hclosed : s.mem.done.closed with
  | false => rfl
  | true =>
      have hobject := (object_of_closed (outlined_of_run hrun) hclosed).1
      rw [hentered] at hobject
      cases hobject

end StoreRespRun

end Dreamboat
