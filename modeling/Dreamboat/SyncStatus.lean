/-
**Waiting for a synced beacon node.**

`SyncStatus` of `src/beacon/client/multi.go` asks all beacon nodes at once.  Each answer goes into
two variables under a lock: the best status so far, and whether a synced node was found, which ends
the updates.  When all requests are complete, the variables are turned into a result: without a
synced node that is `ErrBeaconNodeSyncing`, and `ErrNodesUnavailable` is tried only after that, when
there is a synced node and no status.

So when no node answers, the nodes count as syncing, and `waitSynced` of `src/beacon/manager.go`
asks again, every second and without an end.

Main definitions:

* `SyncVars.complete`, `syncStatus` — one answer, and the result of all;
* `waitSynced` — the loop over the polls;
* `SyncRight`, `StopsWhenDown` — what they should do.

Main results:

* `SyncInv.complete`, `syncInv_foldl` — the variables after any completions;
* `syncStatus_cases` — what is returned;
* `pollsRight_iff` — **the polls are right exactly when some node answers each of them**;
* `polls_when_down` — no node answers, and the next poll comes.
-/

import Mathlib.Data.List.Induction
import Mathlib.Data.List.Perm.Basic
import Dreamboat.Structs

set_option autoImplicit false

namespace Dreamboat

/-! ### All nodes at once -/

structure SyncStatusPayloadData where
  headSlot : UInt64
  isSyncing : Bool
  deriving DecidableEq, Repr

/-- What a node answers. -/
abbrev SyncAnswer := Except GoError SyncStatusPayloadData

/-- The variables that the requests share. -/
structure SyncVars where
  bestSyncStatus : Option SyncStatusPayloadData
  foundSyncedNode : Bool

namespace SyncVars

def init : SyncVars := ⟨none, false⟩

/-- What is done under the lock. -/
def update (v : SyncVars) (syncStatus : SyncStatusPayloadData) : SyncVars :=
  if v.foundSyncedNode then v
  else
    let v := if v.bestSyncStatus = none then { v with bestSyncStatus := some syncStatus } else v
    if !syncStatus.isSyncing then ⟨some syncStatus, true⟩ else v

/-- A request is complete; an error is only logged. -/
def complete (v : SyncVars) : SyncAnswer → SyncVars
  | .error _ => v
  | .ok syncStatus => v.update syncStatus

/-- What is returned after all requests. -/
def result (v : SyncVars) : SyncAnswer :=
  if !v.foundSyncedNode then .error (.sentinel .errBeaconNodeSyncing)
  else
    match v.bestSyncStatus with
    | none => .error (.sentinel .errNodesUnavailable)
    | some syncStatus => .ok syncStatus

end SyncVars

/-- `SyncStatus`, with the answers of the nodes in the order in which the requests come to the
lock. -/
def syncStatus (completed : List SyncAnswer) : SyncAnswer :=
  (completed.foldl SyncVars.complete .init).result

/-! ### Polls -/

/-- A call of `SyncStatus` by `waitSynced`: the answers of the nodes, one for each, and an order in
which they are complete.  `ctxErr` is the error of the context, if it ends before the next call. -/
structure SyncPoll where
  answers : List SyncAnswer
  completed : List SyncAnswer
  perm : completed.Perm answers
  ctxErr : Option GoError

/-- What `waitSynced` returns after a call, if it does not poll again. -/
def waitSyncedResult : SyncAnswer → Option SyncAnswer
  | .error err => if !err.is .errBeaconNodeSyncing then some (.error err) else none
  | .ok status => if !status.isSyncing then some (.ok status) else none

/-- `waitSynced`: what it returns, or `none` if it waits for another poll. -/
def waitSynced : List SyncPoll → Option SyncAnswer
  | [] => none
  | poll :: polls =>
      match waitSyncedResult (syncStatus poll.completed) with
      | some result => some result
      | none =>
          match poll.ctxErr with
          | some err => some (.error err)
          | none => waitSynced polls

/-! ### What is right -/

/-- Some node answers. -/
def Answered (answers : List SyncAnswer) : Prop := ∃ status, .ok status ∈ answers

/-- The result for the answers of the nodes: a status of a synced node, if there is one, and
otherwise an error that says whether there were answers. -/
structure SyncRight (answers : List SyncAnswer) (result : SyncAnswer) : Prop where
  synced : (∃ status, .ok status ∈ answers ∧ status.isSyncing = false) →
    ∃ status, .ok status ∈ answers ∧ status.isSyncing = false ∧ result = .ok status
  syncing : Answered answers → (∀ status, .ok status ∈ answers → status.isSyncing = true) →
    result = .error (.sentinel .errBeaconNodeSyncing)
  down : ¬Answered answers → result = .error (.sentinel .errNodesUnavailable)

/-- A poll that finds all nodes down is the last one. -/
def StopsWhenDown (polls : List SyncPoll) : Prop :=
  ∀ before poll after, polls = before ++ poll :: after → waitSynced before = none →
    ¬Answered poll.answers → waitSynced polls = some (.error (.sentinel .errNodesUnavailable))

/-- Every poll has the right result, and the polls stop when all nodes are down. -/
def PollsRight (polls : List SyncPoll) : Prop :=
  (∀ poll ∈ polls, SyncRight poll.answers (syncStatus poll.completed)) ∧ StopsWhenDown polls

/-! ### The variables -/

/-- What the variables say about the requests that are complete. -/
structure SyncInv (completed : List SyncAnswer) (v : SyncVars) : Prop where
  /-- A synced node that is found has the best status. -/
  found : v.foundSyncedNode = true → ∃ status, v.bestSyncStatus = some status ∧
    .ok status ∈ completed ∧ status.isSyncing = false
  /-- A synced node is found. -/
  all : ∀ status, .ok status ∈ completed → status.isSyncing = false → v.foundSyncedNode = true

theorem syncInv_init : SyncInv [] .init where
  found := fun h => by cases h
  all := fun status h => by cases h

theorem SyncInv.update {completed : List SyncAnswer} {v : SyncVars} (h : SyncInv completed v)
    (syncStatus : SyncStatusPayloadData) :
    SyncInv (completed ++ [.ok syncStatus]) (v.update syncStatus) := by
  unfold SyncVars.update
  by_cases hfound : v.foundSyncedNode = true
  · -- the first synced node wins
    rw [if_pos hfound]
    obtain ⟨status, hbest, hmem, hsynced⟩ := h.found hfound
    exact ⟨fun _ => ⟨status, hbest, List.mem_append_left _ hmem, hsynced⟩, fun _ _ _ => hfound⟩
  · rw [if_neg hfound]
    cases hsyncing : syncStatus.isSyncing with
    | false =>
        rw [if_pos (by rfl)]
        exact ⟨fun _ => ⟨syncStatus, rfl, by simp, hsyncing⟩, fun _ _ _ => rfl⟩
    | true =>
        -- a syncing node changes at most the best status
        rw [if_neg (by simp)]
        have hsame : (if v.bestSyncStatus = none then { v with bestSyncStatus := some syncStatus }
            else v).foundSyncedNode = v.foundSyncedNode := by
          split
          · rfl
          · rfl
        refine ⟨fun hf => absurd (hsame ▸ hf) hfound, ?_⟩
        intro status hmem hsynced
        rcases List.mem_append.1 hmem with hmem | hmem
        · exact absurd (h.all status hmem hsynced) hfound
        · cases List.mem_singleton.1 hmem
          rw [hsyncing] at hsynced
          cases hsynced

theorem SyncInv.complete {completed : List SyncAnswer} {v : SyncVars} (h : SyncInv completed v)
    (answer : SyncAnswer) : SyncInv (completed ++ [answer]) (v.complete answer) := by
  cases answer with
  | ok syncStatus => exact h.update syncStatus
  | error err =>
      refine ⟨fun hf => ?_, fun status hmem => ?_⟩
      · obtain ⟨status, hbest, hmem, hsynced⟩ := h.found hf
        exact ⟨status, hbest, List.mem_append_left _ hmem, hsynced⟩
      · exact h.all status (by simpa using hmem)

/-- The variables after all requests, in any order. -/
theorem syncInv_foldl (completed : List SyncAnswer) :
    SyncInv completed (completed.foldl SyncVars.complete .init) := by
  induction completed using List.reverseRecOn with
  | nil => exact syncInv_init
  | append_singleton completed answer ih =>
      rw [List.foldl_concat]
      exact ih.complete answer

/-- **What `SyncStatus` returns**: a status of a synced node, if there is one, and otherwise
`ErrBeaconNodeSyncing`. -/
theorem syncStatus_cases (completed : List SyncAnswer) :
    (∃ status, .ok status ∈ completed ∧ status.isSyncing = false ∧
        syncStatus completed = .ok status) ∨
      (∀ status, .ok status ∈ completed → status.isSyncing = true) ∧
        syncStatus completed = .error (.sentinel .errBeaconNodeSyncing) := by
  have hinv := syncInv_foldl completed
  unfold syncStatus SyncVars.result
  by_cases hfound : (completed.foldl SyncVars.complete .init).foundSyncedNode = true
  · obtain ⟨status, hbest, hmem, hsynced⟩ := hinv.found hfound
    refine .inl ⟨status, hmem, hsynced, ?_⟩
    rw [hfound, hbest]
    rfl
  · refine .inr ⟨fun status hmem => ?_, ?_⟩
    · cases hsyncing : status.isSyncing with
      | true => rfl
      | false => exact absurd (hinv.all status hmem hsyncing) hfound
    · rw [Bool.not_eq_true] at hfound
      rw [hfound]
      rfl

/-- **The result is right exactly when some node answers.** -/
theorem syncRight_iff {answers completed : List SyncAnswer} (hperm : completed.Perm answers) :
    SyncRight answers (syncStatus completed) ↔ Answered answers := by
  rcases syncStatus_cases completed with ⟨status, hmem, hsynced, hresult⟩ | ⟨hall, hresult⟩
  · rw [hperm.mem_iff] at hmem
    refine iff_of_true ⟨?_, ?_, ?_⟩ ⟨status, hmem⟩
    · intro _
      exact ⟨status, hmem, hsynced, hresult⟩
    · intro _ hall
      rw [hall status hmem] at hsynced
      cases hsynced
    · intro hdown
      exact absurd ⟨status, hmem⟩ hdown
  · constructor
    · intro h
      by_contra hdown
      rw [h.down hdown] at hresult
      cases hresult
    · intro hanswered
      refine ⟨?_, fun _ _ => hresult, fun hdown => absurd hanswered hdown⟩
      rintro ⟨status, hmem, hsynced⟩
      rw [hall status (hperm.mem_iff.2 hmem)] at hsynced
      cases hsynced

/-! ### The polls -/

/-- **The polls are right exactly when** some node answers each of them. -/
theorem pollsRight_iff (polls : List SyncPoll) :
    PollsRight polls ↔ ∀ poll ∈ polls, Answered poll.answers := by
  constructor
  · rintro ⟨hright, -⟩ poll hpoll
    exact (syncRight_iff poll.perm).1 (hright poll hpoll)
  · intro h
    refine ⟨fun poll hpoll => (syncRight_iff poll.perm).2 (h poll hpoll), ?_⟩
    rintro before poll after rfl - hdown
    exact absurd (h poll (by simp)) hdown

/-- When no node answers, `waitSynced` polls again, as long as its context lives. -/
theorem waitSynced_of_down {poll : SyncPoll} (hdown : ¬Answered poll.answers)
    (hctx : poll.ctxErr = none) (polls : List SyncPoll) :
    waitSynced (poll :: polls) = waitSynced polls := by
  have hresult : syncStatus poll.completed = .error (.sentinel .errBeaconNodeSyncing) := by
    rcases syncStatus_cases poll.completed with ⟨status, hmem, -⟩ | ⟨-, hresult⟩
    · exact absurd ⟨status, poll.perm.mem_iff.1 hmem⟩ hdown
    · exact hresult
  rw [waitSynced, hresult, hctx]
  rfl

/-- A poll while a node refuses all connections. -/
def refusedPoll : SyncPoll where
  answers := [.error (.new "connection refused")]
  completed := [.error (.new "connection refused")]
  perm := .refl _
  ctxErr := none

/-- **No node answers, and the next poll comes**, however many there were. -/
theorem polls_when_down :
    (∀ n, waitSynced (List.replicate n refusedPoll) = none) ∧ ¬PollsRight [refusedPoll] := by
  have hdown : ¬Answered refusedPoll.answers := by
    rintro ⟨status, hmem⟩
    cases List.mem_singleton.1 hmem
  constructor
  · intro n
    induction n with
    | zero => rfl
    | succ n ih => rw [List.replicate_succ, waitSynced_of_down hdown rfl, ih]
  · rintro ⟨hright, -⟩
    exact hdown ((syncRight_iff (.refl _)).1 (hright refusedPoll (by simp)))

end Dreamboat
