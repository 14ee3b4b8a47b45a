/-
**The warehouse, up to its end.**

`src/datastore/warehouse/warehouse.go` takes requests through a channel to workers that write them
to files.  `Close` closes another channel; a worker that sees it takes the requests that are left
and ends when it finds none.  `StoreAsync` does not look at that channel: a request that it sends
after the last worker has found none stays in the buffer, and `StoreAsync` returns no error.

Main definitions:

* `Warehouse.State`, `Warehouse.Action`, `Warehouse.step` — the calls of `StoreAsync`, the workers
  and the closing;
* `Warehouse.Delivered` — the requests that were accepted are the ones that were handled, when all
  workers have ended;
* `Warehouse.SentInTime` — a request is sent while there is a worker that will look.

Main results:

* `Warehouse.conserved_step` — what is accepted is handled or in the buffer, once;
* `Warehouse.drained_step` — the buffer is empty after the last worker, exactly when the requests
  are sent in time;
* `Warehouse.delivered_of_sentInTime` — **every request that was accepted is handled exactly once**,
  in every run in which the requests are sent in time, and in no other run whose workers are not
  cancelled;
* `Warehouse.late_request_lost` — a request that is not handled.
-/

import Dreamboat.GoChan
import Dreamboat.Runs

set_option autoImplicit false

namespace Dreamboat

namespace Warehouse

/-! ### The parties -/

structure StoreRequest where
  dataType : String
  data : List UInt8
  slot : UInt64
  id : String
  /-- The time in nanoseconds. -/
  timestamp : Int
  header : String
  deriving DecidableEq, Repr

/-- The request with the header that `StoreAsync` writes in front of the data. -/
def StoreRequest.withHeader (req : StoreRequest) : StoreRequest :=
  { req with header := s!"\n{req.timestamp};{req.id};base64+gzip+json;" }

/-- How far a call of `StoreAsync` is. -/
inductive CallStage where
  | called
  /-- It waits for room in the channel, for a worker or for its context. -/
  | waiting
  /-- It has sent the request and returned no error. -/
  | accepted
  /-- It has returned the error of its context. -/
  | failed
  deriving DecidableEq, Repr

structure Call where
  req : StoreRequest
  stage : CallStage
  deriving DecidableEq, Repr

/-- The request, if `StoreAsync` has returned no error for it. -/
def Call.acceptedReq (call : Call) : Option StoreRequest :=
  match call.stage with
  | .accepted => some call.req
  | .called | .waiting | .failed => none

/-- Where a worker is in `Run`. -/
inductive WorkerStage where
  /-- In `WorkerLoop`. -/
  | loop
  /-- In the loop over the requests that are left. -/
  | draining
  /-- In `handleRequest`, which it has called from the second loop or from the first one. -/
  | handling (req : StoreRequest) (draining : Bool)
  | exited
  deriving DecidableEq, Repr

/-- The stage after `handleRequest`. -/
def WorkerStage.back (draining : Bool) : WorkerStage := if draining then .draining else .loop

structure Worker where
  /-- The context of the worker may be cancelled. -/
  cancels : Bool
  stage : WorkerStage
  deriving DecidableEq, Repr

structure State where
  requests : Go.Chan StoreRequest
  /-- `cleanShutdown` is closed. -/
  cleanShutdown : Bool
  calls : List Call
  workers : List Worker
  /-- The requests that were passed to `handleRequest`. -/
  handled : List StoreRequest
  deriving DecidableEq, Repr

/-- `NewWarehouse`, with workers in their loops. -/
def new (bufSize : ℕ) (cancels : List Bool) : State where
  requests := Go.Chan.make bufSize
  cleanShutdown := false
  calls := []
  workers := cancels.map fun c => ⟨c, .loop⟩
  handled := []

inductive Action where
  | storeAsync (req : StoreRequest)
  /-- A call finds no room in the channel. -/
  | wait (k : ℕ)
  | send (k : ℕ)
  /-- The context of a call is done. -/
  | fail (k : ℕ)
  /-- A worker receives a request from the buffer. -/
  | receive (w : ℕ)
  /-- A worker receives a request from a call that waits. -/
  | handoff (k w : ℕ)
  /-- `handleRequest` returns. -/
  | finish (w : ℕ)
  /-- `pruneTicker` ticks. -/
  | prune (w : ℕ)
  /-- The context of a worker is done. -/
  | cancel (w : ℕ)
  | close
  /-- A worker sees that `cleanShutdown` is closed. -/
  | shutdown (w : ℕ)
  /-- A worker finds no request left. -/
  | exit (w : ℕ)
  deriving DecidableEq, Repr

def setCall (s : State) (k : ℕ) (call : Call) (stage : CallStage) : State :=
  { s with calls := s.calls.set k { call with stage } }

def setWorker (s : State) (w : ℕ) (worker : Worker) (stage : WorkerStage) : State :=
  { s with workers := s.workers.set w { worker with stage } }

/-- A worker that can receive passes a request to `handleRequest`. -/
def handleRequest (s : State) (w : ℕ) (worker : Worker) (req : StoreRequest) : Option State :=
  match worker.stage with
  | .loop => some { setWorker s w worker (.handling req false) with handled := s.handled ++ [req] }
  | .draining =>
      some { setWorker s w worker (.handling req true) with handled := s.handled ++ [req] }
  | .handling _ _ | .exited => none

def step (s : State) : Action → Option State
  | .storeAsync req => some { s with calls := s.calls ++ [⟨req.withHeader, .called⟩] }
  | .wait k => do
      let call ← s.calls[k]?
      if call.stage = .called ∧ s.requests.trySend call.req = none then
        some (setCall s k call .waiting)
      else none
  | .send k => do
      let call ← s.calls[k]?
      let requests ← s.requests.trySend call.req
      if call.stage = .called ∨ call.stage = .waiting then
        some { setCall s k call .accepted with requests }
      else none
  | .fail k => do
      let call ← s.calls[k]?
      if call.stage = .called ∨ call.stage = .waiting then some (setCall s k call .failed) else none
  | .receive w => do
      let worker ← s.workers[w]?
      match s.requests.buf with
      | req :: buf => handleRequest { s with requests := { s.requests with buf } } w worker req
      | [] => none
  | .handoff k w => do
      let call ← s.calls[k]?
      let worker ← s.workers[w]?
      if call.stage = .waiting ∧ s.requests.buf = [] then
        handleRequest (setCall s k call .accepted) w worker call.req
      else none
  | .finish w => do
      let worker ← s.workers[w]?
      match worker.stage with
      | .handling _ draining => some (setWorker s w worker (.back draining))
      | .loop | .draining | .exited => none
  | .prune w => do
      let worker ← s.workers[w]?
      if worker.stage = .loop then some s else none
  | .cancel w => do
      let worker ← s.workers[w]?
      if worker.stage = .loop ∧ worker.cancels then some (setWorker s w worker .exited) else none
  | .close => if s.cleanShutdown then none else some { s with cleanShutdown := true }
  | .shutdown w => do
      let worker ← s.workers[w]?
      if worker.stage = .loop ∧ s.cleanShutdown then some (setWorker s w worker .draining) else none
  | .exit w => do
      let worker ← s.workers[w]?
      -- the receive is taken before the default case, also from a call that waits
      if worker.stage = .draining ∧ s.requests.buf = [] ∧ ∀ call ∈ s.calls, call.stage ≠ .waiting
      then some (setWorker s w worker .exited)
      else none

/-! ### One step -/

/-- What a step does to the requests and to the workers. -/
inductive Effect (s : State) : Action → State → Prop
  /-- A call goes on and its request stays with it. -/
  | call {a : Action} (calls : List Call) :
      calls.filterMap Call.acceptedReq = s.calls.filterMap Call.acceptedReq →
      (∀ k, a ≠ .send k) → Effect s a { s with calls }
  | send (k : ℕ) (call : Call) (requests : Go.Chan StoreRequest) : s.calls[k]? = some call →
      call.acceptedReq = none → requests.buf = s.requests.buf ++ [call.req] →
      Effect s (.send k) { setCall s k call .accepted with requests }
  | receive (w : ℕ) (worker : Worker) (req : StoreRequest) (buf : List StoreRequest) (b : Bool) :
      s.workers[w]? = some worker → worker.stage = .back b → s.requests.buf = req :: buf →
      Effect s (.receive w) { setWorker s w worker (.handling req b) with
        requests := { s.requests with buf }, handled := s.handled ++ [req] }
  | handoff (k w : ℕ) (call : Call) (worker : Worker) (b : Bool) : s.calls[k]? = some call →
      call.acceptedReq = none → s.requests.buf = [] → s.workers[w]? = some worker →
      worker.stage = .back b →
      Effect s (.handoff k w) { setWorker (setCall s k call .accepted) w worker
        (.handling call.req b) with handled := s.handled ++ [call.req] }
  /-- A worker goes on, and does not end before it is cancelled or the buffer is empty. -/
  | worker {a : Action} (w : ℕ) (worker : Worker) (stage : WorkerStage) :
      s.workers[w]? = some worker → worker.stage ≠ .exited →
      (stage = .exited → worker.cancels = true ∨ s.requests.buf = []) →
      (∀ k, a ≠ .send k) → Effect s a (setWorker s w worker stage)
  | prune (w : ℕ) : Effect s (.prune w) s
  | close : Effect s .close { s with cleanShutdown := true }

variable {s s' : State} {a : Action}

theorem handleRequest_eq_some {w : ℕ} {worker : Worker} {req : StoreRequest}
    (h : handleRequest s w worker req = some s') : ∃ b, worker.stage = .back b ∧
      s' = { setWorker s w worker (.handling req b) with handled := s.handled ++ [req] } := by
  unfold handleRequest at h
  split at h
  · next hstage => exact ⟨false, hstage, (Option.some_inj.1 h).symm⟩
  · next hstage => exact ⟨true, hstage, (Option.some_inj.1 h).symm⟩
  · cases h
  · cases h

/-- The requests that were accepted do not change when a call goes on that is not accepted. -/
theorem filterMap_acceptedReq_set {calls : List Call} {k : ℕ} {call call' : Call}
    (hk : calls[k]? = some call) (h : call.acceptedReq = none) (h' : call'.acceptedReq = none) :
    (calls.set k call').filterMap Call.acceptedReq = calls.filterMap Call.acceptedReq := by
  induction calls generalizing k with
  | nil => rfl
  | cons c calls ih =>
      cases k with
      | zero =>
          obtain rfl : c = call := by simpa using hk
          simp [h, h']
      | succ k =>
          rw [List.set_cons_succ, List.filterMap_cons, List.filterMap_cons, ih (by simpa using hk)]

/-- **Everything a step can do.** -/
theorem step_effect (h : step s a = some s') : Effect s a s' := by
  cases a with
  | storeAsync req =>
      cases h
      refine .call _ ?_ (by simp)
      rw [List.filterMap_append]
      exact List.append_nil _
  | wait k =>
      obtain ⟨call, hk, h⟩ := Option.bind_eq_some_iff.1 h
      split at h
      case isFalse => cases h
      case isTrue hcalled =>
        cases h
        have hnone : call.acceptedReq = none := by rw [Call.acceptedReq, hcalled.1]
        exact .call _ (filterMap_acceptedReq_set hk hnone rfl) (by simp)
  | send k =>
      obtain ⟨call, hk, h⟩ := Option.bind_eq_some_iff.1 h
      obtain ⟨requests, hsend, h⟩ := Option.bind_eq_some_iff.1 h
      split at h
      case isFalse => cases h
      case isTrue hstage =>
        cases h
        refine .send k call requests hk ?_ (Go.Chan.trySend_eq_some hsend).1
        rcases hstage with hstage | hstage <;> rw [Call.acceptedReq, hstage]
  | fail k =>
      obtain ⟨call, hk, h⟩ := Option.bind_eq_some_iff.1 h
      split at h
      case isFalse => cases h
      case isTrue hstage =>
        cases h
        have hnone : call.acceptedReq = none := by
          rcases hstage with hstage | hstage <;> rw [Call.acceptedReq, hstage]
        exact .call _ (filterMap_acceptedReq_set hk hnone rfl) (by simp)
  | receive w =>
      obtain ⟨worker, hw, h⟩ := Option.bind_eq_some_iff.1 h
      split at h
      · next req buf hbuf =>
          obtain ⟨b, hstage, rfl⟩ := handleRequest_eq_some h
          exact .receive w worker req buf b hw hstage hbuf
      · cases h
  | handoff k w =>
      obtain ⟨call, hk, h⟩ := Option.bind_eq_some_iff.1 h
      obtain ⟨worker, hw, h⟩ := Option.bind_eq_some_iff.1 h
      split at h
      case isFalse => cases h
      case isTrue hwait =>
        obtain ⟨b, hstage, rfl⟩ := handleRequest_eq_some h
        refine .handoff k w call worker b hk ?_ hwait.2 hw hstage
        rw [Call.acceptedReq, hwait.1]
  | finish w =>
      obtain ⟨worker, hw, h⟩ := Option.bind_eq_some_iff.1 h
      split at h
      · next req draining hstage =>
          cases h
          refine .worker w worker _ hw (by rw [hstage]; simp) ?_ (by simp)
          intro hback
          cases draining <;> cases hback
      · cases h
      · cases h
      · cases h
  | prune w =>
      obtain ⟨worker, hw, h⟩ := Option.bind_eq_some_iff.1 h
      split at h
      case isFalse => cases h
      case isTrue =>
        cases h
        exact .prune w
  | cancel w =>
      obtain ⟨worker, hw, h⟩ := Option.bind_eq_some_iff.1 h
      split at h
      case isFalse => cases h
      case isTrue hcancel =>
        cases h
        exact .worker w worker _ hw (by rw [hcancel.1]; simp) (fun _ => .inl hcancel.2) (by simp)
  | close =>
      rw [step] at h
      split at h
      · cases h
      · cases h
        exact .close
  | shutdown w =>
      obtain ⟨worker, hw, h⟩ := Option.bind_eq_some_iff.1 h
      split at h
      case isFalse => cases h
      case isTrue hloop =>
        cases h
        exact .worker w worker _ hw (by rw [hloop.1]; simp) (by simp) (by simp)
  | exit w =>
      obtain ⟨worker, hw, h⟩ := Option.bind_eq_some_iff.1 h
      split at h
      case isFalse => cases h
      case isTrue hdrain =>
        cases h
        exact .worker w worker _ hw (by rw [hdrain.1]; simp) (fun _ => .inr hdrain.2.1) (by simp)

/-! ### The requests -/

/-- The requests for which `StoreAsync` has returned no error. -/
def accepted (s : State) : List StoreRequest := s.calls.filterMap Call.acceptedReq

/-- What was accepted was handled, or it is in the buffer. -/
def Conserved (s : State) : Prop := (accepted s).Perm (s.handled ++ s.requests.buf)

/-- The accepted requests after a call is accepted. -/
theorem accepted_setCall {k : ℕ} {call : Call} (hk : s.calls[k]? = some call)
    (hnone : call.acceptedReq = none) :
    (accepted (setCall s k call .accepted)).Perm (accepted s ++ [call.req]) := by
  obtain ⟨rest, hold, hnew⟩ := Runs.exists_filterMap_rest Call.acceptedReq hk
  rw [hnone] at hold
  have hswap : ([call.req] ++ rest).Perm (rest ++ [call.req]) := List.perm_append_comm
  exact (hnew { call with stage := .accepted }).trans
    (hswap.trans (hold.symm.append_right [call.req]))

/-- **No request is lost or handled twice** in a step. -/
theorem conserved_step (h : Conserved s) (hs : step s a = some s') : Conserved s' := by
  cases step_effect hs with
  | call calls hcalls _ =>
      rw [Conserved, accepted, hcalls]
      exact h
  | send k call requests hk hnone hbuf =>
      refine (accepted_setCall hk hnone).trans ?_
      rw [hbuf, ← List.append_assoc]
      exact h.append_right [call.req]
  | receive w worker req buf b hw hstage hbuf =>
      rw [Conserved, hbuf] at h
      rw [Conserved, List.append_assoc]
      exact h
  | handoff k w call worker b hk hnone hbuf hw hstage =>
      rw [Conserved, hbuf, List.append_nil] at h
      refine (accepted_setCall hk hnone).trans ?_
      simp only [setWorker, setCall, hbuf, List.append_nil]
      exact h.append_right [call.req]
  | worker w worker stage _ _ _ _ => exact h
  | prune w => exact h
  | close => exact h

/-! ### The end of the workers -/

/-- A worker that is not cancelled has not ended. -/
def Looks (s : State) : Prop :=
  ∃ worker ∈ s.workers, worker.cancels = false ∧ worker.stage ≠ .exited

instance (s : State) : Decidable (Looks s) :=
  inferInstanceAs (Decidable (∃ worker ∈ s.workers, _ ∧ _))

/-- The buffer is empty when no worker will look. -/
def Drained (s : State) : Prop := ¬ Looks s → s.requests.buf = []

/-- A request is sent into the buffer while a worker that is not cancelled has not ended. -/
def SentInTime (s : State) : Action → Prop
  | .send _ => Looks s
  | _ => True

instance (s : State) (a : Action) : Decidable (SentInTime s a) :=
  match a with
  | .send _ => inferInstanceAs (Decidable (Looks s))
  | .storeAsync _ | .wait _ | .fail _ | .receive _ | .handoff _ _ | .finish _ | .prune _
  | .cancel _ | .close | .shutdown _ | .exit _ => isTrue trivial

theorem sentInTime_of_ne_send (h : ∀ k, a ≠ .send k) : SentInTime s a := by
  cases a with
  | send k => exact absurd rfl (h k)
  | _ => trivial

/-- A worker that ends takes a look at the buffer before, or it is cancelled. -/
theorem looks_setWorker {w : ℕ} {worker : Worker} {stage : WorkerStage}
    (hw : s.workers[w]? = some worker)
    (h : stage = .exited → worker.cancels = true ∨ s.requests.buf = [])
    (hlooks : ¬ Looks (setWorker s w worker stage)) (hbuf : s.requests.buf ≠ []) : ¬ Looks s := by
  rintro ⟨v, hv, hcancels, hexited⟩
  by_cases hvw : v = worker
  · subst hvw
    have hmem := List.mem_set (List.getElem?_eq_some_iff.1 hw).1 { v with stage }
    refine hlooks ⟨{ v with stage }, hmem, hcancels, ?_⟩
    intro hstage
    rcases h hstage with hc | hb
    · rw [hcancels] at hc
      exact Bool.false_ne_true hc
    · exact hbuf hb
  · exact hlooks ⟨v, Runs.mem_set_of_ne hw hv hvw _, hcancels, hexited⟩

/-- **The buffer is empty after the last worker** has ended, exactly when the request is sent in
time. -/
theorem drained_step (h : Drained s) (hs : step s a = some s') : Drained s' ↔ SentInTime s a := by
  cases step_effect hs with
  | call calls _ ha => exact iff_of_true h (sentInTime_of_ne_send ha)
  | send k call requests _ _ hbuf =>
      have hne : requests.buf ≠ [] := by
        rw [hbuf]
        simp
      constructor
      · intro hdrained
        by_contra hlooks
        exact hne (hdrained hlooks)
      · intro hlooks hnot
        exact absurd hlooks hnot
  | receive w worker req buf b hw _ hbuf =>
      refine iff_of_true (fun hlooks => ?_) trivial
      -- there was something in the buffer, so a worker still looks
      have hne : s.requests.buf ≠ [] := by
        rw [hbuf]
        simp
      exact absurd (h (looks_setWorker hw (by simp) hlooks hne)) hne
  | handoff k w call worker b _ _ hbuf _ _ => exact iff_of_true (fun _ => hbuf) trivial
  | worker w worker stage hw _ hexit ha =>
      refine iff_of_true (fun hlooks => ?_) (sentInTime_of_ne_send ha)
      by_contra hne
      exact hne (h (looks_setWorker hw hexit hlooks hne))
  | prune w => exact iff_of_true h trivial
  | close => exact iff_of_true h trivial

/-! ### Runs -/

/-- When all workers have ended, the requests that were accepted are the ones that were handled,
each of them once. -/
def Delivered (s : State) : Prop :=
  (∀ worker ∈ s.workers, worker.stage = .exited) → (accepted s).Perm s.handled

theorem delivered_of_drained (h : Conserved s) (hd : Drained s) : Delivered s := by
  intro hexited
  have hbuf : s.requests.buf = [] := by
    apply hd
    rintro ⟨worker, hworker, _, hstage⟩
    exact hstage (hexited worker hworker)
  rw [Conserved, hbuf, List.append_nil] at h
  exact h

/-- Without cancelled workers nothing else delivers the requests. -/
theorem drained_of_delivered (h : Conserved s) (hcancels : ∀ worker ∈ s.workers,
    worker.cancels = false) (hd : Delivered s) : Drained s := by
  intro hlooks
  have hperm := hd fun worker hworker => by
    by_contra hstage
    exact hlooks ⟨worker, hworker, hcancels worker hworker, hstage⟩
  have hlength := h.length_eq
  rw [hperm.length_eq, List.length_append] at hlength
  exact List.length_eq_zero_iff.1 (by omega)

/-- Workers keep their contexts. -/
theorem cancels_step (h : ∀ worker ∈ s.workers, worker.cancels = false)
    (hs : step s a = some s') : ∀ worker ∈ s'.workers, worker.cancels = false := by
  have hset : ∀ {w : ℕ} {worker : Worker} (stage : WorkerStage), s.workers[w]? = some worker →
      ∀ v ∈ s.workers.set w { worker with stage }, v.cancels = false := by
    intro w worker stage hw v hv
    rcases List.mem_or_eq_of_mem_set hv with hv | rfl
    · exact h v hv
    · exact h worker (List.mem_of_getElem? hw)
  cases step_effect hs with
  | call _ _ _ => exact h
  | send _ _ _ _ _ _ => exact h
  | receive w worker req buf b hw _ _ => exact hset _ hw
  | handoff k w call worker b _ _ _ hw _ => exact hset _ hw
  | worker w worker stage hw _ _ _ => exact hset _ hw
  | prune w => exact h
  | close => exact h

section

variable {bufSize : ℕ} {cancels : List Bool} {as : List Action} {t u : State}

theorem conserved_of_visits (hu : Runs.Visits step (new bufSize cancels) as u) : Conserved u := by
  obtain ⟨pre, _, _, hpre⟩ := hu
  have hnew : Conserved (new bufSize cancels) := List.Perm.refl _
  exact Runs.run_invariant step (fun _ _ _ => conserved_step) hnew hpre

theorem cancels_of_visits (hcancels : ∀ c ∈ cancels, c = false)
    (hu : Runs.Visits step (new bufSize cancels) as u) :
    ∀ worker ∈ u.workers, worker.cancels = false := by
  obtain ⟨pre, _, _, hpre⟩ := hu
  refine Runs.run_invariant step (fun _ _ _ => cancels_step) ?_ hpre
  intro worker hworker
  obtain ⟨c, hc, rfl⟩ := List.mem_map.1 hworker
  exact hcancels c hc

/-- **Every request that was accepted is handled exactly once** by the time all workers have ended,
when every request is sent before the workers that are not cancelled have ended.  If no worker is
cancelled, the requests are delivered in every state of a run only then. -/
theorem delivered_of_sentInTime (hrun : Runs.run step (new bufSize cancels) as = some t) :
    (Runs.Meets step SentInTime (new bufSize cancels) as →
      ∀ u, Runs.Visits step (new bufSize cancels) as u → Delivered u) ∧
    ((∀ c ∈ cancels, c = false) →
      (∀ u, Runs.Visits step (new bufSize cancels) as u → Delivered u) →
        Runs.Meets step SentInTime (new bufSize cancels) as) := by
  have hdrained := Runs.forall_visits_iff_meets step (fun _ _ _ => drained_step) (fun _ => rfl) hrun
  constructor
  · intro hsent u hu
    exact delivered_of_drained (conserved_of_visits hu) (hdrained.2 hsent u hu)
  · intro hcancels hdelivered
    refine hdrained.1 fun u hu => ?_
    exact drained_of_delivered (conserved_of_visits hu) (cancels_of_visits hcancels hu)
      (hdelivered u hu)

end

def sampleReq : StoreRequest := ⟨"HeaderRequest", [1], 7, "a", 5, ""⟩

/-- A request is in the buffer when the warehouse is closed, and one is sent when there is room
again. -/
def drainedRun : List Action :=
  [.storeAsync sampleReq, .send 0, .storeAsync sampleReq, .wait 1, .close, .shutdown 0, .receive 0,
    .send 1, .finish 0, .receive 0, .finish 0, .cancel 1, .exit 0]

theorem delivered_drainedRun :
    ∃ t, Runs.run step (new 1 [false, true]) drainedRun = some t ∧
      accepted t = [sampleReq.withHeader, sampleReq.withHeader] ∧
      (∀ worker ∈ t.workers, worker.stage = .exited) ∧ (accepted t).Perm t.handled := by
  obtain ⟨t, hrun, haccepted, hexited⟩ :
      ∃ t, Runs.run step (new 1 [false, true]) drainedRun = some t ∧
        accepted t = [sampleReq.withHeader, sampleReq.withHeader] ∧
        ∀ worker ∈ t.workers, worker.stage = .exited := ⟨_, rfl, rfl, by decide⟩
  refine ⟨t, hrun, haccepted, hexited, ?_⟩
  exact (delivered_of_sentInTime hrun).1 (by decide) t (Runs.visits_last step hrun) hexited

/-- **A request is accepted and not handled**: `StoreAsync` was called before the warehouse was
closed, and sends its request into the buffer after the only worker has found it empty. -/
theorem late_request_lost :
    ∃ t, Runs.run step (new 1 [false])
        [.storeAsync sampleReq, .close, .shutdown 0, .exit 0, .send 0] = some t ∧
      (∀ worker ∈ t.workers, worker.stage = .exited) ∧
      accepted t = [sampleReq.withHeader] ∧ t.handled = [] ∧ ¬ Delivered t := by
  refine ⟨_, rfl, by decide, rfl, rfl, ?_⟩
  intro h
  have hperm := h (by decide)
  exact absurd hperm.length_eq (by decide)

end Warehouse

end Dreamboat
