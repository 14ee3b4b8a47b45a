/-
**`StoreResp`: how an answer travels back from the verification workers.**

A caller that has several signatures checked hands the same `StoreResp` out with every request.
Workers report each result with `Send`; the object closes its channel when an error was reported or
when all results are in.  The verdict is kept in a field of the object: nothing is ever sent on the
channel.

The object carries the proof that its flag and its channel agree, so the channel is never closed
twice.  The methods that take the lock are one step each.

Main definitions:

* `StoreResp`, `StoreResp.newRespC` — the object and its constructor;
* `StoreResp.send`, `StoreResp.skipOne`, `StoreResp.close` — its methods.

Main results:

* `StoreResp.buf_send`, `StoreResp.buf_skipOne`, `StoreResp.buf_close` — **no method sends on the
  channel**;
* `StoreResp.receive_of_buf_nil` — so a receive from it yields `nil`;
* `StoreResp.Fresh.send` — one result settles an object for one result.
-/

import Dreamboat.GoChan
import Dreamboat.Structs

set_option autoImplicit false

namespace Dreamboat

/-- The result of one check. -/
structure Resp where
  id : ℤ
  err : Option GoError
  deriving DecidableEq, Repr

structure StoreResp where
  nonErrors : List ℤ
  numAll : ℤ
  isClosed : Bool
  err : Option GoError
  done : Go.Chan (Option GoError)
  /-- The flag is set exactly when the channel is closed. -/
  closed_done : done.closed = isClosed

namespace StoreResp

/-- `NewRespC`. -/
def newRespC (numAll : ℤ) : StoreResp where
  nonErrors := []
  numAll := numAll
  isClosed := false
  err := none
  done := Go.Chan.make 1
  closed_done := rfl

/-- The part of `close` and `Close` that closes the channel, if it is open. -/
def closeDone (s : StoreResp) : StoreResp :=
  if h : s.isClosed = false then
    { s with
      isClosed := true
      done := s.done.close (s.closed_done.trans h)
      closed_done := rfl }
  else s

/-- `Send`. -/
def send (s : StoreResp) (r : Resp) : StoreResp :=
  if s.isClosed then s
  else
    match r.err with
    | some err => closeDone { s with err := some err }
    | none =>
        let s := { s with nonErrors := s.nonErrors ++ [r.id] }
        if s.numAll = s.nonErrors.length then s.closeDone else s

/-- `SkipOne`. -/
def skipOne (s : StoreResp) : StoreResp :=
  if s.isClosed then s
  else
    let s := { s with numAll := s.numAll - 1 }
    if s.numAll = s.nonErrors.length then s.closeDone else s

/-- `Close`; its first argument is not used. -/
def close (s : StoreResp) (err : Option GoError) : StoreResp :=
  closeDone { s with err := err.or s.err }

/-- `Error`. -/
def error (s : StoreResp) : Option GoError := s.err

/-- A receive from `Done`. -/
def receive (s : StoreResp) : Option (Option GoError × StoreResp) :=
  match h : s.done.recv none with
  | some (err, done) =>
      some (err, { s with
        done := done
        closed_done := (Go.Chan.closed_of_recv h).trans s.closed_done })
  | none => none

/-! ### The channel stays empty -/

theorem buf_closeDone (s : StoreResp) : s.closeDone.done.buf = s.done.buf := by
  unfold closeDone
  split
  · rfl
  · rfl

theorem isClosed_closeDone (s : StoreResp) : s.closeDone.isClosed = true := by
  unfold closeDone
  split
  · rfl
  · next h => simpa using h

theorem err_closeDone (s : StoreResp) : s.closeDone.err = s.err := by
  unfold closeDone
  split
  · rfl
  · rfl

theorem nonErrors_closeDone (s : StoreResp) : s.closeDone.nonErrors = s.nonErrors := by
  unfold closeDone
  split
  · rfl
  · rfl

theorem numAll_closeDone (s : StoreResp) : s.closeDone.numAll = s.numAll := by
  unfold closeDone
  split
  · rfl
  · rfl

theorem buf_send (s : StoreResp) (r : Resp) : (s.send r).done.buf = s.done.buf := by
  unfold send
  split
  · rfl
  · split
    · rw [buf_closeDone]
    · simp only
      split
      · rw [buf_closeDone]
      · rfl

theorem buf_skipOne (s : StoreResp) : s.skipOne.done.buf = s.done.buf := by
  unfold skipOne
  split
  · rfl
  · simp only
    split
    · rw [buf_closeDone]
    · rfl

theorem buf_close (s : StoreResp) (err : Option GoError) :
    (s.close err).done.buf = s.done.buf := by
  rw [close, buf_closeDone]

/-- **What is received from an empty channel is `nil`**, and the object is closed. -/
theorem receive_of_buf_nil {s s' : StoreResp} {err : Option GoError} (hbuf : s.done.buf = [])
    (h : s.receive = some (err, s')) : err = none ∧ s' = s ∧ s.isClosed = true := by
  unfold receive at h
  split at h
  · next err' done hrecv =>
      obtain ⟨rfl, rfl, hclosed⟩ := Go.Chan.recv_of_buf_nil hbuf hrecv
      rw [Option.some_inj, Prod.mk.injEq] at h
      exact ⟨h.1.symm, h.2.symm, s.closed_done ▸ hclosed⟩
  · cases h

/-! ### An object for one result -/

/-- The object still waits for its only result. -/
def Fresh (s : StoreResp) : Prop :=
  s.isClosed = false ∧ s.err = none ∧ s.nonErrors = [] ∧ s.numAll = 1

theorem fresh_newRespC : (newRespC 1).Fresh := ⟨rfl, rfl, rfl, rfl⟩

/-- One result settles an object that waits for one result. -/
theorem Fresh.send {s : StoreResp} (h : s.Fresh) (r : Resp) :
    (s.send r).isClosed = true ∧ (s.send r).err = r.err := by
  obtain ⟨hopen, herr, hnone, hall⟩ := h
  unfold StoreResp.send
  rw [if_neg (by simp [hopen])]
  cases hr : r.err with
  | some err => exact ⟨isClosed_closeDone _, err_closeDone _⟩
  | none =>
      have hlast : s.numAll = ((s.nonErrors ++ [r.id]).length : ℤ) := by simp [hnone, hall]
      simp only [if_pos hlast]
      exact ⟨isClosed_closeDone _, (err_closeDone _).trans herr⟩

/-! ### One result, one skip, one end -/

section Open

variable {s : StoreResp} (h : s.isClosed = false)

include h

/-- An error ends an open object. -/
theorem send_of_err {r : Resp} {err : GoError} (hr : r.err = some err) :
    (s.send r).isClosed = true ∧ (s.send r).err = some err ∧
      (s.send r).nonErrors = s.nonErrors := by
  simp only [send, h, hr, Bool.false_eq_true, if_false]
  exact ⟨isClosed_closeDone _, err_closeDone _, nonErrors_closeDone _⟩

/-- A success is counted in an open object, and the last one ends it. -/
theorem send_of_success {r : Resp} (hr : r.err = none) :
    (s.send r).nonErrors = s.nonErrors ++ [r.id] ∧ (s.send r).err = s.err ∧
      (s.send r).numAll = s.numAll ∧
      ((s.send r).isClosed = true ↔ s.numAll = s.nonErrors.length + 1) := by
  simp only [send, h, hr, Bool.false_eq_true, if_false]
  split
  · next hall =>
      refine ⟨nonErrors_closeDone _, err_closeDone _, numAll_closeDone _, ?_⟩
      refine iff_of_true (isClosed_closeDone _) ?_
      simpa using hall
  · next hall =>
      refine ⟨rfl, rfl, rfl, ?_⟩
      refine iff_of_false (by simp) ?_
      simpa using hall

/-- A skip lowers the number of results of an open object, and may end it. -/
theorem skipOne_of_open :
    s.skipOne.nonErrors = s.nonErrors ∧ s.skipOne.err = s.err ∧ s.skipOne.numAll = s.numAll - 1 ∧
      (s.skipOne.isClosed = true ↔ s.numAll - 1 = s.nonErrors.length) := by
  simp only [skipOne, h, Bool.false_eq_true, if_false]
  split
  · next hall =>
      exact ⟨nonErrors_closeDone _, err_closeDone _, numAll_closeDone _,
        iff_of_true (isClosed_closeDone _) hall⟩
  · next hall => exact ⟨rfl, rfl, rfl, iff_of_false (by simp) hall⟩

end Open

theorem skipOne_of_isClosed {s : StoreResp} (h : s.isClosed = true) : s.skipOne = s := by
  rw [skipOne, if_pos h]

/-- `Close` with an error. -/
theorem close_some (s : StoreResp) (err : GoError) :
    (s.close (some err)).isClosed = true ∧ (s.close (some err)).err = some err ∧
      (s.close (some err)).nonErrors = s.nonErrors :=
  ⟨isClosed_closeDone _, err_closeDone _, nonErrors_closeDone _⟩

/-- A settled object ignores further results. -/
theorem send_of_isClosed {s : StoreResp} (h : s.isClosed = true) (r : Resp) : s.send r = s := by
  rw [send, if_pos h]

end StoreResp

end Dreamboat
