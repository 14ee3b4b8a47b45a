/-
**Several beacon nodes behind one client.**

`src/beacon/client/multi.go` asks the beacon nodes one after the other and takes the first answer.
The position of the node that answered is remembered, and the next question begins with the node at
that position.  But the position is one in the list in which the nodes were asked, and that list has
the remembered node swapped to the front; the next question looks it up in the list of the
configuration.

This module says which answers are remembered right: those given while the remembered position is
the first one, and those of a node that the swap has left in its place.

Main definitions:

* `MultiBeaconClient`, `MultiBeaconClient.clientsByLastResponse` — the client, and the order in
  which it asks;
* `MultiBeaconClient.query` — the loop of `GetProposerDuties` and `KnownValidators`;
* `MultiBeacon.step` — one call after the other.

Main results:

* `MultiBeaconClient.query_of_firstAnswer`, `MultiBeaconClient.query_of_none` — what a call does;
* `MultiBeacon.inRange_step` — the position stays inside the list, and the order is a permutation of
  the list;
* `MultiBeacon.bestFirst_iff` — **when the node that answered last is asked first**.
-/

import Dreamboat.Runs
import Dreamboat.Structs

set_option autoImplicit false

namespace Dreamboat

/-! ### The client -/

structure RegisteredProposersResponseData where
  pubKey : PublicKey
  slot : UInt64
  deriving DecidableEq, Repr

/-- The response for querying proposer duties. -/
structure RegisteredProposersResponse where
  data : List RegisteredProposersResponseData
  deriving DecidableEq, Inhabited, Repr

structure ValidatorResponseEntry where
  index : UInt64
  balance : String
  status : String
  /-- The key of the validator, as a text. -/
  pubkey : String
  deriving DecidableEq, Repr

/-- The response for querying active validators. -/
structure AllValidatorsResponse where
  data : List ValidatorResponseEntry
  deriving DecidableEq, Inhabited, Repr

/-- The nodes, and the position that is remembered. -/
structure MultiBeaconClient (Node : Type) where
  clients : List Node
  bestBeaconIndex : ℕ
  deriving DecidableEq, Repr

namespace MultiBeaconClient

variable {Node α : Type}

/-- The order in which the nodes are asked: the one at the remembered position changes places with
the first one.  A position outside the list is a panic. -/
def clientsByLastResponse (b : MultiBeaconClient Node) : Option (List Node) :=
  if b.bestBeaconIndex = 0 then some b.clients
  else do
    let best ← b.clients[b.bestBeaconIndex]?
    let first ← b.clients[0]?
    return (b.clients.set 0 best).set b.bestBeaconIndex first

/-- The first answer, with the position of the node that gave it; `ask` is what the node at a
position answers. -/
def firstAnswer (ask : ℕ → Node → Except GoError α) : ℕ → List Node → Option (ℕ × α)
  | _, [] => none
  | i, client :: clients =>
      match ask i client with
      | .ok a => some (i, a)
      | .error _ => firstAnswer ask (i + 1) clients

/-- The loop over the nodes. -/
def query (b : MultiBeaconClient Node) (ask : ℕ → Node → Except GoError α) :
    Option (Except GoError α × MultiBeaconClient Node) := do
  let clients ← b.clientsByLastResponse
  match firstAnswer ask 0 clients with
  | some (i, a) => return (.ok a, { b with bestBeaconIndex := i })
  | none => return (.error (.sentinel .errNodesUnavailable), b)

def getProposerDuties (b : MultiBeaconClient Node)
    (ask : ℕ → Node → Except GoError RegisteredProposersResponse) :
    Option (Except GoError RegisteredProposersResponse × MultiBeaconClient Node) :=
  b.query ask

def knownValidators (b : MultiBeaconClient Node)
    (ask : ℕ → Node → Except GoError AllValidatorsResponse) :
    Option (Except GoError AllValidatorsResponse × MultiBeaconClient Node) :=
  b.query ask

/-! ### The first answer -/

variable {ask : ℕ → Node → Except GoError α} {b : MultiBeaconClient Node} {l : List Node}

/-- The first answer is that of a node, and those before it have failed. -/
theorem firstAnswer_eq_some {i k : ℕ} {a : α} (h : firstAnswer ask k l = some (i, a)) :
    ∃ j client, i = k + j ∧ l[j]? = some client ∧ ask i client = .ok a ∧
      ∀ m < j, ∀ c, l[m]? = some c → ∃ err, ask (k + m) c = .error err := by
  induction l generalizing k with
  | nil => cases h
  | cons client l ih =>
      simp only [firstAnswer] at h
      cases hask : ask k client with
      | ok a' =>
          rw [hask] at h
          obtain ⟨rfl, rfl⟩ : k = i ∧ a' = a := by simpa using h
          refine ⟨0, client, rfl, rfl, hask, ?_⟩
          intro m hm
          omega
      | error err =>
          rw [hask] at h
          obtain ⟨j, c, rfl, hc, hok, hbefore⟩ := ih h
          refine ⟨j + 1, c, by omega, hc, hok, ?_⟩
          intro m hm c' hc'
          cases m with
          | zero =>
              obtain rfl : client = c' := by simpa using hc'
              exact ⟨err, hask⟩
          | succ m =>
              have h' := hbefore m (by omega) c' (by simpa using hc')
              rwa [Nat.add_assoc, Nat.add_comm 1 m] at h'

/-- Without an answer every node has failed. -/
theorem firstAnswer_eq_none {k : ℕ} (h : firstAnswer ask k l = none) :
    ∀ j client, l[j]? = some client → ∃ err, ask (k + j) client = .error err := by
  induction l generalizing k with
  | nil =>
      intro j client hc
      simp at hc
  | cons client l ih =>
      intro j c hc
      simp only [firstAnswer] at h
      cases hask : ask k client with
      | ok a =>
          rw [hask] at h
          cases h
      | error err =>
          rw [hask] at h
          cases j with
          | zero =>
              obtain rfl : client = c := by simpa using hc
              exact ⟨err, hask⟩
          | succ j =>
              have h' := ih h j c (by simpa using hc)
              rwa [Nat.add_assoc, Nat.add_comm 1 j] at h'

/-- A call that is answered. -/
theorem query_of_firstAnswer {i : ℕ} {a : α} (hl : b.clientsByLastResponse = some l)
    (h : firstAnswer ask 0 l = some (i, a)) :
    b.query ask = some (.ok a, { b with bestBeaconIndex := i }) := by
  simp [query, hl, h]

/-- A call for which every node fails. -/
theorem query_of_none (hl : b.clientsByLastResponse = some l) (h : firstAnswer ask 0 l = none) :
    b.query ask = some (.error (.sentinel .errNodesUnavailable), b) := by
  simp [query, hl, h]

/-! ### The order -/

/-- What stands where in the order: the first node and the one at the remembered position have
changed places. -/
theorem exists_order (h : b.bestBeaconIndex < b.clients.length) :
    ∃ l, b.clientsByLastResponse = some l ∧ l.Perm b.clients ∧
      ∀ i, l[i]? = if i = 0 then b.clients[b.bestBeaconIndex]?
        else if i = b.bestBeaconIndex then b.clients[0]? else b.clients[i]? := by
  obtain ⟨clients, index⟩ := b
  have hpos : 0 < clients.length := by
    simp only at h
    omega
  by_cases hzero : index = 0
  · subst hzero
    refine ⟨clients, by simp [clientsByLastResponse], List.Perm.refl _, ?_⟩
    intro i
    by_cases hi : i = 0
    · simp [hi]
    · simp [hi]
  · refine ⟨(clients.set 0 clients[index]).set index clients[0], ?_, List.set_set_perm hpos h, ?_⟩
    · simp [clientsByLastResponse, hzero, List.getElem?_eq_getElem h,
        List.getElem?_eq_getElem hpos]
    · intro i
      by_cases hi : i = 0
      · subst hi
        rw [List.getElem?_set_ne hzero, List.getElem?_set_self hpos]
        simp [List.getElem?_eq_getElem h]
      · by_cases hj : i = index
        · subst hj
          rw [List.getElem?_set_self (by simpa using h)]
          simp [hi, List.getElem?_eq_getElem hpos]
        · rw [List.getElem?_set_ne (Ne.symm hj), List.getElem?_set_ne (Ne.symm hi)]
          simp [hi, hj]

/-- Every node stands in the place it has in the configuration, but for the two that have changed
places. -/
theorem getElem?_order_eq_iff {index i : ℕ} :
    (if i = 0 then l[index]? else if i = index then l[0]? else l[i]?) = l[i]? ↔
      index = 0 ∨ (i ≠ 0 ∧ i ≠ index) ∨ l[0]? = l[index]? := by
  by_cases hi : i = 0
  · subst hi
    by_cases hindex : index = 0
    · simp [hindex]
    · simp [hindex, eq_comm]
  · by_cases hj : i = index
    · subst hj
      simp [hi]
    · simp [hi, hj]

end MultiBeaconClient

/-! ### One call after the other -/

namespace MultiBeacon

open MultiBeaconClient

variable {Node : Type}

/-- The client, and the node that has answered last. -/
structure State (Node : Type) where
  client : MultiBeaconClient Node
  answered : Option Node
  deriving DecidableEq

/-- Nothing has been asked yet. -/
def State.init (clients : List Node) : State Node := ⟨⟨clients, 0⟩, none⟩

inductive Action (Node : Type) where
  | getProposerDuties (ask : ℕ → Node → Except GoError RegisteredProposersResponse)
  | knownValidators (ask : ℕ → Node → Except GoError AllValidatorsResponse)

/-- Where in the order the node stands whose answer is returned. -/
def Action.position (clients : List Node) : Action Node → Option ℕ
  | .getProposerDuties ask => (firstAnswer ask 0 clients).map Prod.fst
  | .knownValidators ask => (firstAnswer ask 0 clients).map Prod.fst

/-- The client after a call. -/
def Action.client (b : MultiBeaconClient Node) : Action Node → Option (MultiBeaconClient Node)
  | .getProposerDuties ask => (b.getProposerDuties ask).map Prod.snd
  | .knownValidators ask => (b.knownValidators ask).map Prod.snd

def step (s : State Node) (a : Action Node) : Option (State Node) := do
  let clients ← s.client.clientsByLastResponse
  let client ← a.client s.client
  match a.position clients with
  | some i => return ⟨client, clients[i]?⟩
  | none => return ⟨client, s.answered⟩

/-! ### The property and the condition -/

/-- The remembered position is inside the list, and the order is one of the nodes of the list. -/
def InRange (s : State Node) : Prop :=
  s.client.bestBeaconIndex < s.client.clients.length ∧
    ∃ l, s.client.clientsByLastResponse = some l ∧ l.Perm s.client.clients

/-- The node that has answered last is the first one to be asked. -/
def BestFirst (s : State Node) : Prop :=
  ∃ l, s.client.clientsByLastResponse = some l ∧ ∀ c ∈ s.answered, l.head? = some c

/-- The node that answers is one that stands in the order where it stands in the list. -/
def InPlace (s : State Node) (a : Action Node) : Prop :=
  ∀ l ∈ s.client.clientsByLastResponse, ∀ i ∈ a.position l,
    s.client.bestBeaconIndex = 0 ∨ (i ≠ 0 ∧ i ≠ s.client.bestBeaconIndex) ∨
      s.client.clients[0]? = s.client.clients[s.client.bestBeaconIndex]?

/-! ### One call -/

variable {s s' : State Node} {a : Action Node} {l : List Node}

/-- A call that is answered remembers the position of the answer. -/
theorem client_of_position {b : MultiBeaconClient Node} (hl : b.clientsByLastResponse = some l)
    {i : ℕ} (hi : a.position l = some i) :
    a.client b = some { b with bestBeaconIndex := i } ∧ i < l.length := by
  cases a with
  | getProposerDuties ask =>
      obtain ⟨⟨j, x⟩, hfirst, rfl⟩ := Option.map_eq_some_iff.1 hi
      obtain ⟨m, c, hm, hc, -⟩ := firstAnswer_eq_some hfirst
      refine ⟨by simp [Action.client, getProposerDuties, query_of_firstAnswer hl hfirst], ?_⟩
      have := (List.getElem?_eq_some_iff.1 hc).1
      simp only [hm]
      omega
  | knownValidators ask =>
      obtain ⟨⟨j, x⟩, hfirst, rfl⟩ := Option.map_eq_some_iff.1 hi
      obtain ⟨m, c, hm, hc, -⟩ := firstAnswer_eq_some hfirst
      refine ⟨by simp [Action.client, knownValidators, query_of_firstAnswer hl hfirst], ?_⟩
      have := (List.getElem?_eq_some_iff.1 hc).1
      simp only [hm]
      omega

/-- A call that is not answered changes nothing. -/
theorem client_of_none {b : MultiBeaconClient Node} (hl : b.clientsByLastResponse = some l)
    (hi : a.position l = none) : a.client b = some b := by
  cases a with
  | getProposerDuties ask =>
      have hfirst := Option.map_eq_none_iff.1 hi
      simp [Action.client, getProposerDuties, query_of_none hl hfirst]
  | knownValidators ask =>
      have hfirst := Option.map_eq_none_iff.1 hi
      simp [Action.client, knownValidators, query_of_none hl hfirst]

/-- **Everything one call can do**: it remembers the position of the answer, or nothing changes. -/
theorem step_cases (hs : step s a = some s') : ∃ l, s.client.clientsByLastResponse = some l ∧
    ((∃ i, a.position l = some i ∧ i < l.length ∧
        s' = ⟨{ s.client with bestBeaconIndex := i }, l[i]?⟩) ∨
      (a.position l = none ∧ s' = s)) := by
  obtain ⟨l, hl, hs⟩ := Option.bind_eq_some_iff.1 hs
  refine ⟨l, hl, ?_⟩
  obtain ⟨client, hclient, hs⟩ := Option.bind_eq_some_iff.1 hs
  cases hpos : a.position l with
  | some i =>
      obtain ⟨h, hi⟩ := client_of_position hl hpos
      rw [hpos] at hs
      rw [h, Option.some_inj] at hclient
      refine .inl ⟨i, rfl, hi, ?_⟩
      rw [hclient]
      exact (Option.some_inj.1 hs).symm
  | none =>
      have h := client_of_none hl hpos
      rw [hpos] at hs
      rw [h, Option.some_inj] at hclient
      refine .inr ⟨rfl, ?_⟩
      rw [← Option.some_inj.1 hs, ← hclient]

theorem inRange_of_lt (h : s.client.bestBeaconIndex < s.client.clients.length) : InRange s := by
  obtain ⟨l, hl, hperm, -⟩ := exists_order h
  exact ⟨h, l, hl, hperm⟩

/-- The position stays inside the list. -/
theorem inRange_step (h : InRange s) (hs : step s a = some s') : InRange s' := by
  obtain ⟨l, hl, hcases⟩ := step_cases hs
  obtain ⟨i, -, hi, rfl⟩ | ⟨-, rfl⟩ := hcases
  · obtain ⟨-, l', hl', hperm⟩ := h
    obtain rfl : l = l' := Option.some_inj.1 (hl.symm.trans hl')
    apply inRange_of_lt
    simpa [hperm.length_eq] using hi
  · exact h

/-- No call panics. -/
theorem exists_step (h : InRange s) (a : Action Node) : ∃ s', step s a = some s' := by
  obtain ⟨-, l, hl, -⟩ := h
  cases hpos : a.position l with
  | some i =>
      obtain ⟨hclient, -⟩ := client_of_position hl hpos
      exact ⟨⟨{ s.client with bestBeaconIndex := i }, l[i]?⟩, by simp [step, hl, hclient, hpos]⟩
  | none => exact ⟨s, by simp [step, hl, client_of_none hl hpos, hpos]⟩

/-- An answer is remembered right exactly when the node that gives it stands in its place. -/
theorem bestFirst_step (hrange : InRange s) (h : BestFirst s)
    (hs : step s a = some s') : BestFirst s' ↔ InPlace s a := by
  obtain ⟨l, hl, -, hget⟩ := exists_order hrange.1
  obtain ⟨l', hl', hcases⟩ := step_cases hs
  obtain rfl : l = l' := Option.some_inj.1 (hl.symm.trans hl')
  obtain ⟨i, hpos, hi, rfl⟩ | ⟨hpos, rfl⟩ := hcases
  · -- the next order begins with the node that the list has at the position of the answer
    have hlen : i < s.client.clients.length := by
      obtain ⟨-, l', hl', hperm⟩ := hrange
      obtain rfl : l = l' := Option.some_inj.1 (hl.symm.trans hl')
      exact hperm.length_eq ▸ hi
    obtain ⟨next, hnext, -, hfirst⟩ :=
      exists_order (b := { s.client with bestBeaconIndex := i }) hlen
    have hhead : next.head? = s.client.clients[i]? := by
      rw [List.head?_eq_getElem?, hfirst 0]
      simp
    have hplace : InPlace s a ↔ l[i]? = s.client.clients[i]? := by
      rw [hget i, getElem?_order_eq_iff]
      simp [InPlace, hl, hpos]
    rw [hplace]
    obtain ⟨c, hc⟩ : ∃ c, l[i]? = some c := ⟨l[i], List.getElem?_eq_getElem hi⟩
    simp [BestFirst, hnext, hhead, hc, eq_comm]
  · simp [InPlace, hl, hpos, h]

/-! ### Every run -/

theorem inRange_init {clients : List Node} (h : clients ≠ []) : InRange (State.init clients) := by
  apply inRange_of_lt
  simpa [State.init] using List.length_pos_iff.2 h

theorem bestFirst_init (clients : List Node) : BestFirst (State.init clients) :=
  ⟨clients, by simp [State.init, clientsByLastResponse], by simp [State.init]⟩

/-- **When the node that answered last is asked first.**  In every run of calls none of them panics,
the remembered position is inside the list and the order is a permutation of the list; and the node
that has answered last is the first of the order, in all the states of the run, if and only if every
answer is given while the first position is remembered or by a node that the order has left in its
place. -/
theorem bestFirst_iff (clients : List Node) (hne : clients ≠ []) (as : List (Action Node)) :
    (∃ s, Runs.run step (State.init clients) as = some s) ∧
    (∀ t, Runs.Visits step (State.init clients) as t → InRange t) ∧
    ((∀ t, Runs.Visits step (State.init clients) as t → BestFirst t) ↔
      Runs.Meets step InPlace (State.init clients) as) := by
  have hstart := inRange_init hne
  obtain ⟨s, hrun, -⟩ := Runs.exists_run_of_enabled step (I := InRange)
    (fun s a h => by
      obtain ⟨s', hs'⟩ := exists_step h a
      exact ⟨s', hs', inRange_step h hs'⟩) hstart as
  have hrange : ∀ t, Runs.Visits step (State.init clients) as t → InRange t := by
    rintro t ⟨pre, post, -, hpre⟩
    exact Runs.run_invariant step (fun _ _ _ h hs => inRange_step h hs) hstart hpre
  refine ⟨⟨s, hrun⟩, hrange, ?_⟩
  have hiff := Runs.forall_visits_iff_meets step (P := fun s => InRange s ∧ BestFirst s)
    (C := InPlace) (fun s a s' h hs => by
      rw [← bestFirst_step h.1 h.2 hs]
      exact and_iff_right (inRange_step h.1 hs)) ⟨hstart, bestFirst_init clients⟩ hrun
  rw [← hiff]
  constructor
  · intro h t ht
    exact ⟨hrange t ht, h t ht⟩
  · intro h t ht
    exact (h t ht).2

/-- A call that is answered by the nodes at the positions for which `up` holds. -/
def dutiesFrom (up : ℕ → Bool) : Action String :=
  .getProposerDuties fun i _ => if up i then .ok default else .error (.new "")

instance [DecidableEq Node] (s : State Node) (a : Action Node) : Decidable (InPlace s a) :=
  inferInstanceAs (Decidable (∀ l ∈ s.client.clientsByLastResponse, ∀ i ∈ a.position l, _))

/-- The first node fails and the second one answers. -/
theorem bestFirst_iff_failover :
    (∃ s, Runs.run step (State.init ["a", "b"]) [dutiesFrom fun i => i == 1] = some s) ∧
      ∀ t, Runs.Visits step (State.init ["a", "b"]) [dutiesFrom fun i => i == 1] t →
        BestFirst t := by
  obtain ⟨hrun, -, hiff⟩ := bestFirst_iff ["a", "b"] (by decide) [dutiesFrom fun i => i == 1]
  exact ⟨hrun, hiff.2 (by decide)⟩

/-- The second node answers again, now as the first one to be asked: the next order begins with the
node that has failed. -/
theorem bestFirst_lost :
    ∃ s, Runs.run step (State.init ["a", "b"])
        [dutiesFrom fun i => i == 1, dutiesFrom fun _ => true] = some s ∧
      s.answered = some "b" ∧ s.client.clientsByLastResponse = some ["a", "b"] ∧
      ¬BestFirst s := by
  refine ⟨_, rfl, rfl, rfl, ?_⟩
  rintro ⟨l, hl, hfirst⟩
  obtain rfl : ["a", "b"] = l := Option.some_inj.1 hl
  have hb := hfirst "b" rfl
  simp at hb

end MultiBeacon

end Dreamboat
