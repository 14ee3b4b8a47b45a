/-
**Go channels.**

A channel with room for a number of values.  Closing a channel twice is a panic, so `close` asks for
a proof that the channel is open; a receive from a closed channel without values is not blocked, it
gets the zero value.  A blocked operation is `none`.

Main definitions:

* `Go.Chan` — a channel;
* `Go.Chan.trySend`, `Go.Chan.recv`, `Go.Chan.close` — its operations.

Main results:

* `Go.Chan.recv_of_buf_nil` — a channel without values yields the zero value, once it is closed;
* `Go.Chan.recv_of_open` — an open channel yields its first value.
-/

import Mathlib.Data.List.Basic

set_option autoImplicit false

namespace Go

variable {α : Type*}

/-- A channel: the number of values it has room for, the values in it and whether it is closed. -/
structure Chan (α : Type*) where
  cap : ℕ
  buf : List α
  closed : Bool
  deriving DecidableEq, Repr

namespace Chan

/-- `make(chan T, cap)`. -/
def make (cap : ℕ) : Chan α := ⟨cap, [], false⟩

/-- A send that does not wait for room. -/
def trySend (c : Chan α) (a : α) : Option (Chan α) :=
  if c.buf.length < c.cap then some { c with buf := c.buf ++ [a] } else none

/-- A receive. -/
def recv (zero : α) (c : Chan α) : Option (α × Chan α) :=
  match c.buf with
  | a :: buf => some (a, { c with buf })
  | [] => if c.closed then some (zero, c) else none

/-- `close(c)`. -/
def close (c : Chan α) (_ : c.closed = false) : Chan α := { c with closed := true }

/-- A send finds room and puts its value behind the others. -/
theorem trySend_cases {a : α} {c c' : Chan α} (h : c.trySend a = some c') :
    c.buf.length < c.cap ∧ c' = { c with buf := c.buf ++ [a] } := by
  unfold trySend at h
  split at h
  · next hroom => exact ⟨hroom, (Option.some.inj h).symm⟩
  · cases h

theorem trySend_eq_some {a : α} {c c' : Chan α} (h : c.trySend a = some c') :
    c'.buf = c.buf ++ [a] ∧ c'.closed = c.closed := by
  obtain ⟨-, rfl⟩ := trySend_cases h
  exact ⟨rfl, rfl⟩

theorem cap_of_trySend {a : α} {c c' : Chan α} (h : c.trySend a = some c') : c'.cap = c.cap := by
  obtain ⟨-, rfl⟩ := trySend_cases h
  rfl

theorem trySend_of_buf_nil {c : Chan α} (hbuf : c.buf = []) (hcap : 0 < c.cap) (a : α) :
    c.trySend a = some { c with buf := [a] } := by
  rw [trySend, hbuf, if_pos (by simpa using hcap), List.nil_append]

/-- A receive takes the first value, or gives the zero value of a channel that is closed. -/
theorem recv_cases {zero a : α} {c c' : Chan α} (h : c.recv zero = some (a, c')) :
    (∃ buf, c.buf = a :: buf ∧ c' = { c with buf }) ∨
      (c.buf = [] ∧ c.closed = true ∧ a = zero ∧ c' = c) := by
  unfold recv at h
  split at h
  · next b buf hbuf =>
      obtain ⟨rfl, rfl⟩ := Prod.mk.inj (Option.some.inj h)
      exact .inl ⟨buf, hbuf, rfl⟩
  · next hbuf =>
      split at h
      · next hclosed =>
          obtain ⟨rfl, rfl⟩ := Prod.mk.inj (Option.some.inj h)
          exact .inr ⟨hbuf, hclosed, rfl, rfl⟩
      · cases h

theorem cap_of_recv {zero a : α} {c c' : Chan α} (h : c.recv zero = some (a, c')) :
    c'.cap = c.cap := by
  rcases recv_cases h with ⟨buf, -, rfl⟩ | ⟨-, -, -, rfl⟩
  · rfl
  · rfl

theorem closed_of_recv {zero a : α} {c c' : Chan α} (h : c.recv zero = some (a, c')) :
    c'.closed = c.closed := by
  rcases recv_cases h with ⟨buf, -, rfl⟩ | ⟨-, -, -, rfl⟩
  · rfl
  · rfl

/-- What is received from a channel without values is the zero value, and the channel is closed. -/
theorem recv_of_buf_nil {zero a : α} {c c' : Chan α} (hbuf : c.buf = [])
    (h : c.recv zero = some (a, c')) : a = zero ∧ c' = c ∧ c.closed = true := by
  rcases recv_cases h with ⟨buf, hcons, -⟩ | ⟨-, hclosed, hzero, heq⟩
  · rw [hbuf] at hcons
    cases hcons
  · exact ⟨hzero, heq, hclosed⟩

/-- What is received from an open channel is its first value. -/
theorem recv_of_open {zero a : α} {c c' : Chan α} (hopen : c.closed = false)
    (h : c.recv zero = some (a, c')) : c.buf = a :: c'.buf := by
  rcases recv_cases h with ⟨buf, hbuf, rfl⟩ | ⟨-, hclosed, -, -⟩
  · exact hbuf
  · rw [hopen] at hclosed
    cases hclosed

end Chan

end Go
