/-
**Publishing a block on several beacon nodes.**

`PublishBlock` of `src/beacon/client/multi.go` starts a goroutine for every node of its two lists,
and each of them sends its result into a channel with room for 20.  The call takes the results in
the order in which they arrive, returns with the first success, and counts the errors: it returns
the last one of as many errors as goroutines were started.  The relay calls it with a context that
never ends, so that the results are all that can end the loop.

The number of errors is compared only when there is an error.  This module shows that a call always
returns, with the right result, if there is a node at all; without one nothing ever arrives.

Main definitions:

* `PublishBlock.State`, `PublishBlock.step` — the call and its goroutines, one send or receive at a
  time;
* `PublishBlock.started` — the goroutines of a client with two lists;
* `PublishBlock.Returns` — every run comes to an end, and the call has returned then.

Main results:

* `PublishBlock.inv_step` — where the results are;
* `PublishBlock.exists_step` — a call that has not returned is not blocked;
* `PublishBlock.publishRight_iff` — **a call is right exactly when there is a node**;
* `PublishBlock.blocked_without_nodes` — a call without nodes.
-/

import Dreamboat.BeaconQuery
import Dreamboat.GoChan

set_option autoImplicit false

namespace Dreamboat

namespace PublishBlock

/-! ### The call and its goroutines -/

/-- What a node answers; `none` is success. -/
abbrev Result := Option GoError

structure State where
  /-- The results of the goroutines that have not sent theirs. -/
  pending : List Result
  resp : Go.Chan Result
  /-- The number of goroutines, and the number of results taken. -/
  i : ℕ
  r : ℕ
  returned : Option Result

def init (results : List Result) : State := ⟨results, .make 20, results.length, 0, none⟩

inductive Action where
  /-- The goroutine at a place sends its result. -/
  | send (k : ℕ)
  /-- The call takes a result. -/
  | receive

/-- What the call does with a result. -/
def State.take (s : State) (resp : Go.Chan Result) (e : Result) : State :=
  let r := s.r + 1
  match e with
  | none => { s with resp, r, returned := some none }
  | some defError =>
      if r = s.i then { s with resp, r, returned := some (some defError) }
      else { s with resp, r }

def step (s : State) : Action → Option State
  | .send k => do
      let (e, pending) ← Runs.pick s.pending k
      let resp ← s.resp.trySend e
      return { s with pending, resp }
  | .receive =>
      match s.returned with
      | some _ => none
      | none => do
          let (e, resp) ← s.resp.recv none
          return s.take resp e

/-- The goroutines that are started, one for each node of the two lists, by the results they will
have. -/
def started {Node : Type} (b : MultiBeaconClient Node) (publishV2Clients : List Node)
    (publish publishV2 : ℕ → Node → Result) : Option (List Result) := do
  let clients ← b.clientsByLastResponse
  return clients.mapIdx publish ++ publishV2Clients.mapIdx publishV2

/-! ### What is right -/

/-- No action is possible. -/
def Stuck (s : State) : Prop := ∀ a, step s a = none

/-- What is returned for the results of the nodes: success if there is one, and otherwise an error,
when all results have arrived. -/
structure Right (results : List Result) (s : State) (result : Result) : Prop where
  success : none ∈ results → result = none
  failure : none ∉ results → ∃ err, result = some err ∧ s.pending = [] ∧ s.resp.buf = []

/-- Every run comes to an end, the call has returned then, and what it returns is right. -/
def Returns (results : List Result) : Prop :=
  ∀ as s, Runs.run step (init results) as = some s →
    as.length ≤ 2 * results.length ∧ (Stuck s → s.returned.isSome = true) ∧
      ∀ result, s.returned = some result → Right results s result

/-- The call of a client starts its goroutines, returns, and returns what is right. -/
def PublishRight {Node : Type} (b : MultiBeaconClient Node) (publishV2Clients : List Node)
    (publish publishV2 : ℕ → Node → Result) : Prop :=
  ∃ results, started b publishV2Clients publish publishV2 = some results ∧ Returns results

/-! ### Where the results are -/

/-- The results that were taken, those in the channel and those of the goroutines make up all, and
the call returns with the first success or with the last result. -/
structure Inv (results : List Result) (s : State) : Prop where
  opened : s.resp.closed = false
  room : s.resp.cap = 20
  count : s.i = results.length
  parts : ∃ taken, (taken ++ (s.resp.buf ++ s.pending)).Perm results ∧ s.r = taken.length ∧
    (s.returned = none → none ∉ taken) ∧
    ∀ result, s.returned = some result → (result = none ∧ none ∈ taken) ∨
      ∃ err, result = some err ∧ none ∉ taken ∧ taken.length = results.length
  more : results ≠ [] → s.returned = none → s.r < s.i

variable {results : List Result} {s s' : State}

theorem inv_init (results : List Result) : Inv results (init results) where
  opened := rfl
  room := rfl
  count := rfl
  parts := ⟨[], List.Perm.refl _, rfl, fun _ => List.not_mem_nil, fun _ h => by cases h⟩
  more := fun hne _ => List.length_pos_iff.2 hne

/-- What a goroutine does. -/
theorem step_send {k : ℕ} (hs : step s (.send k) = some s') :
    ∃ e pending resp, Runs.pick s.pending k = some (e, pending) ∧
      s.resp.trySend e = some resp ∧ s' = { s with pending, resp } := by
  obtain ⟨⟨e, pending⟩, hpick, hs⟩ := Option.bind_eq_some_iff.1 hs
  obtain ⟨resp, hsend, hs⟩ := Option.bind_eq_some_iff.1 hs
  exact ⟨e, pending, resp, hpick, hsend, (Option.some.inj hs).symm⟩

/-- What the call does, until it returns. -/
theorem step_receive (hs : step s .receive = some s') :
    s.returned = none ∧ ∃ e resp, s.resp.recv none = some (e, resp) ∧ s' = s.take resp e := by
  unfold step at hs
  cases hreturned : s.returned with
  | some result =>
      rw [hreturned] at hs
      cases hs
  | none =>
      rw [hreturned] at hs
      obtain ⟨⟨e, resp⟩, hrecv, hs⟩ := Option.bind_eq_some_iff.1 hs
      exact ⟨rfl, e, resp, hrecv, (Option.some.inj hs).symm⟩

theorem Inv.send (h : Inv results s) {k : ℕ} (hs : step s (.send k) = some s') :
    Inv results s' := by
  obtain ⟨e, pending, resp, hpick, hsend, rfl⟩ := step_send hs
  obtain ⟨hbuf, hclosed⟩ := Go.Chan.trySend_eq_some hsend
  obtain ⟨taken, hperm, hr, hnone, hsome⟩ := h.parts
  refine ⟨hclosed.trans h.opened, (Go.Chan.cap_of_trySend hsend).trans h.room, h.count,
    ⟨taken, ?_, hr, hnone, hsome⟩, h.more⟩
  refine List.Perm.trans (List.Perm.append_left taken ?_) hperm
  rw [hbuf, List.append_assoc]
  exact List.Perm.append_left _ (Runs.perm_of_pick hpick).symm

theorem Inv.receive (h : Inv results s) (hs : step s .receive = some s') : Inv results s' := by
  obtain ⟨hreturned, e, resp, hrecv, rfl⟩ := step_receive hs
  obtain ⟨taken, hperm, hr, hnone, hsome⟩ := h.parts
  have hbuf := Go.Chan.recv_of_open h.opened hrecv
  have hopened := (Go.Chan.closed_of_recv hrecv).trans h.opened
  have hroom := (Go.Chan.cap_of_recv hrecv).trans h.room
  have hparts : ((taken ++ [e]) ++ (resp.buf ++ s.pending)).Perm results := by
    rw [hbuf] at hperm
    simpa using hperm
  have hlen : s.r + 1 = (taken ++ [e]).length := by simp [hr]
  unfold State.take
  cases e with
  | none =>
      refine ⟨hopened, hroom, h.count, ⟨taken ++ [none], hparts, hlen, ?_, ?_⟩, ?_⟩
      · intro hret
        cases hret
      · intro result hret
        cases hret
        exact .inl ⟨rfl, by simp⟩
      · intro _ hret
        cases hret
  | some defError =>
      have hfresh : none ∉ taken ++ [some defError] := by simpa using hnone hreturned
      by_cases hall : s.r + 1 = s.i
      · simp only [if_pos hall]
        refine ⟨hopened, hroom, h.count, ⟨_, hparts, hlen, fun _ => hfresh, ?_⟩, ?_⟩
        · intro result hret
          cases hret
          exact .inr ⟨defError, rfl, hfresh, by rw [← hlen, hall, h.count]⟩
        · intro _ hret
          cases hret
      · simp only [if_neg hall]
        refine ⟨hopened, hroom, h.count, ⟨_, hparts, hlen, fun _ => hfresh, ?_⟩, ?_⟩
        · intro result hret
          rw [hreturned] at hret
          cases hret
        · intro hne hret
          have hmore := h.more hne hret
          dsimp only
          omega

theorem inv_step (a : Action) (h : Inv results s) (hs : step s a = some s') : Inv results s' := by
  cases a with
  | send k => exact h.send hs
  | receive => exact h.receive hs

/-! ### Every run ends -/

/-- How many sends and receives are left. -/
def left (s : State) : ℕ := 2 * s.pending.length + s.resp.buf.length

theorem left_take (s : State) (resp : Go.Chan Result) (e : Result) :
    left (s.take resp e) = 2 * s.pending.length + resp.buf.length := by
  unfold State.take
  cases e with
  | none => rfl
  | some defError =>
      dsimp only
      split
      · rfl
      · rfl

/-- A send takes one from what is left, and so does a receive. -/
theorem left_step (a : Action) (hopened : s.resp.closed = false) (hs : step s a = some s') :
    left s' + 1 = left s := by
  cases a with
  | send k =>
      obtain ⟨e, pending, resp, hpick, hsend, rfl⟩ := step_send hs
      have hpending := (Runs.perm_of_pick hpick).length_eq
      have hbuf := congrArg List.length (Go.Chan.trySend_eq_some hsend).1
      simp only [List.length_cons, List.length_append, List.length_nil] at hpending hbuf
      simp only [left]
      omega
  | receive =>
      obtain ⟨-, e, resp, hrecv, rfl⟩ := step_receive hs
      have hbuf := Go.Chan.recv_of_open hopened hrecv
      rw [left_take, left, hbuf, List.length_cons]
      omega

/-- **A call that has not returned is not blocked**: a result is in the channel, or there is room
for one. -/
theorem exists_step (h : Inv results s) (hne : results ≠ []) (hreturned : s.returned = none) :
    ∃ a s', step s a = some s' := by
  obtain ⟨taken, hperm, hr, -, -⟩ := h.parts
  have hmore := h.more hne hreturned
  have hlen := hperm.length_eq
  simp only [List.length_append] at hlen
  have hcount := h.count
  cases hbuf : s.resp.buf with
  | cons e buf =>
      refine ⟨.receive, s.take { s.resp with buf } e, ?_⟩
      simp only [step, hreturned, Go.Chan.recv, hbuf]
      rfl
  | nil =>
      cases hpending : s.pending with
      | nil =>
          rw [hbuf, hpending, List.length_nil] at hlen
          omega
      | cons e pending =>
          have hroom : 0 < s.resp.cap := by
            rw [h.room]
            decide
          refine ⟨.send 0, { s with pending, resp := { s.resp with buf := [e] } }, ?_⟩
          simp only [step, hpending, Runs.pick, List.getElem?_cons_zero,
            Go.Chan.trySend_of_buf_nil hbuf hroom]
          rfl

/-- What a call returns is right. -/
theorem Inv.right (h : Inv results s) {result : Result} (hreturned : s.returned = some result) :
    Right results s result := by
  obtain ⟨taken, hperm, -, -, hsome⟩ := h.parts
  rcases hsome result hreturned with ⟨rfl, htaken⟩ | ⟨err, rfl, hfresh, hlen⟩
  · refine ⟨fun _ => rfl, fun hnone => absurd ?_ hnone⟩
    exact hperm.mem_iff.1 (List.mem_append_left _ htaken)
  · -- all results were taken
    have hrest := hperm.length_eq
    rw [List.length_append, hlen] at hrest
    obtain ⟨hbuf, hpending⟩ := List.append_eq_nil_iff.1
      (List.eq_nil_of_length_eq_zero (Nat.left_eq_add.1 hrest.symm))
    rw [hbuf, hpending, List.append_nil, List.append_nil] at hperm
    exact ⟨fun hnone => absurd (hperm.mem_iff.2 hnone) hfresh,
      fun _ => ⟨err, rfl, hpending, hbuf⟩⟩

theorem stuck_init_nil : Stuck (init []) := by
  intro a
  cases a with
  | send k => rfl
  | receive => rfl

/-- A call returns exactly when it has goroutines. -/
theorem returns_iff : Returns results ↔ results ≠ [] := by
  constructor
  · rintro h rfl
    obtain ⟨-, hstuck, -⟩ := h [] (init []) rfl
    cases hstuck stuck_init_nil
  · intro hne as s hrun
    have hinv := Runs.run_invariant step (fun _ a _ hI hs => inv_step a hI hs)
      (inv_init results) hrun
    have hlen := Runs.length_add_measure (μ := left) step
      (fun _ a _ hI hs => ⟨inv_step a hI hs, left_step a (Inv.opened hI) hs⟩)
      (inv_init results) hrun
    refine ⟨?_, ?_, fun result hreturned => hinv.right hreturned⟩
    · have hinit : left (init results) = 2 * results.length := rfl
      omega
    · intro hstuck
      cases hreturned : s.returned with
      | some result => rfl
      | none =>
          obtain ⟨a, s', hs⟩ := exists_step hinv hne hreturned
          rw [hstuck a] at hs
          cases hs

/-! ### The two lists -/

/-- **A call is right exactly when there is a node**, in one list or the other. -/
theorem publishRight_iff {Node : Type} (b : MultiBeaconClient Node) (hb : b.Valid)
    (publishV2Clients : List Node) (publish publishV2 : ℕ → Node → Result) :
    PublishRight b publishV2Clients publish publishV2 ↔
      ¬(b.clients = [] ∧ publishV2Clients = []) := by
  obtain ⟨clients, hclients, hperm⟩ := hb.exists_perm
  have hstarted : started b publishV2Clients publish publishV2 =
      some (clients.mapIdx publish ++ publishV2Clients.mapIdx publishV2) := by
    rw [started, hclients]
    rfl
  have hempty : clients = [] ↔ b.clients = [] := by
    rw [← List.length_eq_zero_iff, hperm.length_eq, List.length_eq_zero_iff]
  rw [PublishRight, hstarted]
  simp only [Option.some_inj, exists_eq_left', returns_iff, ne_eq, List.append_eq_nil_iff,
    List.mapIdx_eq_nil_iff, hempty]

/-- One node of the second list refuses the block, and the call returns with its error. -/
theorem publishRight_iff_v2 :
    PublishRight (⟨[], 0⟩ : MultiBeaconClient String) ["http://localhost:5052"] (fun _ _ => none)
      fun _ _ => some (.new "bad block") :=
  (publishRight_iff (⟨[], 0⟩ : MultiBeaconClient String) (.inl rfl) ["http://localhost:5052"]
    (fun _ _ => none) fun _ _ => some (.new "bad block")).2 (by simp)

/-- **A call without nodes**, as the default configuration has it, has not returned and never
will. -/
theorem blocked_without_nodes :
    (started (⟨[], 0⟩ : MultiBeaconClient String) [] (fun _ _ => none) fun _ _ => none) =
        some [] ∧
      Stuck (init []) ∧ (init []).returned = none ∧
      ¬PublishRight (⟨[], 0⟩ : MultiBeaconClient String) [] (fun _ _ => none) fun _ _ => none := by
  refine ⟨rfl, stuck_init_nil, rfl, ?_⟩
  rintro ⟨results, hstarted, hreturns⟩
  cases hstarted
  exact returns_iff.1 hreturns rfl

end PublishBlock

end Dreamboat
