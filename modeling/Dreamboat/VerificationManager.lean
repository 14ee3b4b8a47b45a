/-
**The verification workers, and what `Enqueue` returns.**

`src/verify/manager.go` keeps three queues of signatures to check and a pool of workers that take
requests from any of them.  `Enqueue` posts one request with a fresh `StoreResp` and waits for the
channel of that object or for the end of its context.  The workers put the verdict into the object
and close its channel, but `Enqueue` takes what it *receives* from the channel as the verdict, and a
closed channel yields the zero value: a `nil` error, whatever the verdict was.

The function that checks a signature is a parameter `V`; requests of other callers, on any of the
queues, belong to the environment.

Main definitions:

* `Verify.State`, `Verify.Action`, `Verify.step` — the queues, the workers and the callers, and what
  they can do;
* `Verify.verdict` — what the check of a signature says;
* `verifySignature` — the relay's use of `Enqueue`;
* `Verify.Inv` — the invariant.

Main results:

* `Verify.inv_run` — the invariant holds in every state of every run;
* `Verify.error_eq_verdict` — the object of an answered call holds the right verdict, as the callers
  that use `Error` rely on;
* `Verify.enqueue_correct_iff` — **`Enqueue` tells a valid signature from an invalid one exactly
  when the signature is valid**.
-/

import Dreamboat.GetHeader
import Dreamboat.Runs
import Dreamboat.StoreResp

set_option autoImplicit false

namespace Dreamboat

namespace Verify

/-- The function that checks a signature over a message under a public key. -/
abbrev VerifySignatureBytes := Hash → Signature → PublicKey → Bool × Option GoError

inductive Queue where
  | submit
  | register
  | other
  deriving DecidableEq, Repr

/-- The object that a request is answered with: that of an `Enqueue` call, or one of another
caller. -/
inductive Response where
  | enqueue (k : ℕ)
  | foreign (k : ℕ)
  deriving DecidableEq, Repr

structure Request where
  signature : Signature
  pubkey : PublicKey
  msg : Hash
  id : ℤ
  response : Response
  deriving DecidableEq, Repr

/-- A worker waits for a request, has received one, or has found its object open and checks it. -/
inductive Worker where
  | idle
  | received (r : Request)
  | checking (r : Request)
  deriving DecidableEq, Repr

/-- How an `Enqueue` call stands: it waits, it has received from the channel, or its context ended
first. -/
inductive Status where
  | pending
  | answered (err : Option GoError)
  | cancelled (err : Option GoError)
  deriving DecidableEq, Repr

/-- A call of `Enqueue`, with the object it has made and the error of its context. -/
structure Call where
  signature : Signature
  pubkey : PublicKey
  msg : Hash
  response : StoreResp
  ctxErr : Option GoError
  status : Status

/-- The requests in a queue beyond its capacity are those whose sender is blocked. -/
structure State where
  queue : Queue → List Request
  workers : List Worker
  calls : List Call
  foreign : List StoreResp

def State.init (workers : ℕ) : State := ⟨fun _ => [], List.replicate workers .idle, [], []⟩

inductive Action where
  /-- `Enqueue` is called. -/
  | enqueue (signature : Signature) (pubkey : PublicKey) (msg : Hash)
  /-- A worker receives from a queue. -/
  | receive (w : ℕ) (q : Queue)
  /-- A worker looks at the flag of the object. -/
  | isClosed (w : ℕ)
  /-- A worker checks the signature and reports the result. -/
  | verify (w : ℕ)
  /-- The context of a call ends. -/
  | ctxDone (k : ℕ) (err : GoError)
  /-- A call receives from the channel of its object. -/
  | selectDone (k : ℕ)
  /-- A call notices that its context has ended. -/
  | selectCtx (k : ℕ)
  /-- Another caller makes an object. -/
  | newRespC (numAll : ℤ)
  /-- Another caller posts a request. -/
  | post (q : Queue) (signature : Signature) (pubkey : PublicKey) (msg : Hash) (id : ℤ) (k : ℕ)
  /-- Another caller uses its object. -/
  | skipOne (k : ℕ)
  | close (k : ℕ) (err : Option GoError)

variable (V : VerifySignatureBytes) (cap : ℕ)

/-- The error that a check of a signature comes to. -/
def verdict (msg : Hash) (signature : Signature) (pubkey : PublicKey) : Option GoError :=
  match V msg signature pubkey with
  | (_, some err) => some err
  | (true, none) => none
  | (false, none) => some (.sentinel .verifyErrInvalidSignature)

def verifyUnit (id : ℤ) (msg : Hash) (signature : Signature) (pubkey : PublicKey) : Resp :=
  ⟨id, verdict V msg signature pubkey⟩

/-- The object behind a response. -/
def State.response (s : State) : Response → Option StoreResp
  | .enqueue k => s.calls[k]?.map Call.response
  | .foreign k => s.foreign[k]?

/-- A worker reports a result to the object of its request. -/
def State.send (s : State) (r : Request) : State :=
  let resp := verifyUnit V r.id r.msg r.signature r.pubkey
  match r.response with
  | .enqueue k =>
      { s with calls := s.calls.modify k fun c => { c with response := c.response.send resp } }
  | .foreign k => { s with foreign := s.foreign.modify k fun o => o.send resp }

/-- The request of the call `k` is still outside the buffer of its queue. -/
def State.blocked (s : State) (k : ℕ) : Bool :=
  ((s.queue .submit).drop cap).any fun r => r.response = .enqueue k

def step (s : State) : Action → Option State
  | .enqueue signature pubkey msg =>
      let r : Request := ⟨signature, pubkey, msg, 0, .enqueue s.calls.length⟩
      some { s with
        queue := Function.update s.queue .submit (s.queue .submit ++ [r])
        calls := s.calls ++ [⟨signature, pubkey, msg, StoreResp.newRespC 1, none, .pending⟩] }
  | .receive w q =>
      match s.workers[w]?, s.queue q with
      | some .idle, r :: rest =>
          some { s with
            queue := Function.update s.queue q rest
            workers := s.workers.set w (.received r) }
      | _, _ => none
  | .isClosed w =>
      match s.workers[w]? with
      | some (.received r) => do
          let o ← s.response r.response
          return { s with workers := s.workers.set w (if o.isClosed then .idle else .checking r) }
      | _ => none
  | .verify w =>
      match s.workers[w]? with
      | some (.checking r) => some { s.send V r with workers := s.workers.set w .idle }
      | _ => none
  | .ctxDone k err =>
      some { s with calls := s.calls.modify k fun c => { c with ctxErr := c.ctxErr.or (some err) } }
  | .selectDone k => do
      let c ← s.calls[k]?
      let (err, response) ← c.response.receive
      if c.status = .pending ∧ s.blocked cap k = false then
        return { s with calls := s.calls.set k { c with response, status := .answered err } }
      else none
  | .selectCtx k => do
      let c ← s.calls[k]?
      let err ← c.ctxErr
      if c.status = .pending ∧ s.blocked cap k = false then
        return { s with
          calls := s.calls.set k
            { c with response := c.response.close (some err), status := .cancelled (some err) } }
      else none
  | .newRespC numAll => some { s with foreign := s.foreign ++ [StoreResp.newRespC numAll] }
  | .post q signature pubkey msg id k =>
      some { s with
        queue := Function.update s.queue q
          (s.queue q ++ [⟨signature, pubkey, msg, id, .foreign k⟩]) }
  | .skipOne k => some { s with foreign := s.foreign.modify k StoreResp.skipOne }
  | .close k err => some { s with foreign := s.foreign.modify k fun o => o.close err }

/-! ### The invariant -/

/-- What is to be checked. -/
def Call.args (c : Call) : Signature × PublicKey × Hash := (c.signature, c.pubkey, c.msg)

def Request.args (r : Request) : Signature × PublicKey × Hash := (r.signature, r.pubkey, r.msg)

/-- A request that is answered with the object of a call asks what the call asks. -/
def Request.Fits (r : Request) (calls : List Call) : Prop :=
  ∀ k, r.response = .enqueue k → (calls.map Call.args)[k]? = some r.args

/-- The request a worker holds. -/
def Worker.request : Worker → Option Request
  | .idle => none
  | .received r => some r
  | .checking r => some r

/-- The object of a call, as long as the context of the call has not ended it: nothing is in its
channel, it waits for its result or holds the verdict, and it holds the verdict once the call is
answered. -/
structure Call.Wf (c : Call) : Prop where
  buf_nil : c.response.done.buf = []
  result : (∀ err, c.status ≠ .cancelled err) → c.response.Fresh ∨
    (c.response.isClosed = true ∧ c.response.err = verdict V c.msg c.signature c.pubkey)
  answered : ∀ err, c.status = .answered err → err = none ∧ c.response.isClosed = true

structure Inv (s : State) : Prop where
  queued : ∀ q, ∀ r ∈ s.queue q, r.Fits s.calls
  held : ∀ w ∈ s.workers, ∀ r, w.request = some r → r.Fits s.calls
  wf : ∀ (k : ℕ) (c : Call), s.calls[k]? = some c → c.Wf V

variable {V} {cap}

theorem inv_init (workers : ℕ) : Inv V (State.init workers) where
  queued q r hr := by cases hr
  held w hw r hr := by
    rw [List.eq_of_mem_replicate hw] at hr
    cases hr
  wf k c hc := by cases hc

/-- A new call starts with an object that waits for one result. -/
theorem Call.wf_new (signature : Signature) (pubkey : PublicKey) (msg : Hash) :
    Call.Wf V ⟨signature, pubkey, msg, StoreResp.newRespC 1, none, .pending⟩ where
  buf_nil := rfl
  result _ := Or.inl StoreResp.fresh_newRespC
  answered err h := by cases h

/-- A worker reports the verdict on a call. -/
theorem Call.Wf.send {c : Call} (h : c.Wf V) (id : ℤ) :
    Call.Wf V { c with
      response := c.response.send (verifyUnit V id c.msg c.signature c.pubkey) } where
  buf_nil := (StoreResp.buf_send _ _).trans h.buf_nil
  result hstatus := by
    right
    rcases h.result hstatus with hfresh | ⟨hclosed, herr⟩
    · exact hfresh.send _
    · rw [StoreResp.send_of_isClosed hclosed]
      exact ⟨hclosed, herr⟩
  answered err herr := by
    obtain ⟨hnone, hclosed⟩ := h.answered err herr
    rw [StoreResp.send_of_isClosed hclosed]
    exact ⟨hnone, hclosed⟩

/-- A call receives from its channel. -/
theorem Call.Wf.receive {c : Call} (h : c.Wf V) (hpending : c.status = .pending)
    {err : Option GoError} {response : StoreResp}
    (hrecv : c.response.receive = some (err, response)) :
    Call.Wf V { c with response, status := .answered err } := by
  obtain ⟨rfl, rfl, hclosed⟩ := StoreResp.receive_of_buf_nil h.buf_nil hrecv
  refine ⟨h.buf_nil, fun _ => h.result fun err herr => ?_, fun err herr => ?_⟩
  · rw [hpending] at herr
    cases herr
  · cases herr
    exact ⟨rfl, hclosed⟩

/-- The context of a call ends it. -/
theorem Call.Wf.cancel {c : Call} (h : c.Wf V) (err : GoError) :
    Call.Wf V { c with
      response := c.response.close (some err), status := .cancelled (some err) } where
  buf_nil := (StoreResp.buf_close _ _).trans h.buf_nil
  result hstatus := absurd rfl (hstatus _)
  answered err herr := by cases herr

/-! ### One step keeps the invariant -/

/-- Whether a request fits depends on what the calls ask. -/
theorem Request.Fits.of_map_args {r : Request} {calls calls' : List Call} (h : r.Fits calls)
    (hargs : calls'.map Call.args = calls.map Call.args) : r.Fits calls' := by
  intro k hk
  rw [hargs]
  exact h k hk

theorem Request.Fits.append {r : Request} {calls : List Call} (h : r.Fits calls)
    (new : List Call) : r.Fits (calls ++ new) := by
  intro k hk
  rw [List.map_append, List.getElem?_append_left]
  · exact h k hk
  · exact (List.getElem?_eq_some_iff.1 (h k hk)).1

theorem map_args_modify (calls : List Call) (k : ℕ) {f : Call → Call}
    (hf : ∀ c, (f c).args = c.args) : (calls.modify k f).map Call.args = calls.map Call.args := by
  refine List.ext_getElem? fun j => ?_
  rw [List.getElem?_map, List.getElem?_map, List.getElem?_modify]
  cases calls[j]? with
  | none => rfl
  | some c =>
      by_cases hk : k = j
      · simp [hk, hf]
      · simp [hk]

theorem map_args_set {calls : List Call} {k : ℕ} {c c' : Call} (hc : calls[k]? = some c)
    (hargs : c'.args = c.args) : (calls.set k c').map Call.args = calls.map Call.args := by
  obtain ⟨hk, rfl⟩ := List.getElem?_eq_some_iff.1 hc
  rw [List.map_set, hargs, ← List.getElem_map Call.args, List.set_getElem_self]
  simpa using hk

/-- A step that changes the calls but not what they ask, and no queue or worker. -/
theorem Inv.of_calls {s : State} (h : Inv V s) {calls : List Call}
    (hargs : calls.map Call.args = s.calls.map Call.args)
    (hwf : ∀ (k : ℕ) (c : Call), calls[k]? = some c → c.Wf V) : Inv V { s with calls } where
  queued q r hr := (h.queued q r hr).of_map_args hargs
  held w hw r hr := (h.held w hw r hr).of_map_args hargs
  wf := hwf

/-- One call goes on. -/
theorem Inv.set_call {s : State} (h : Inv V s) {k : ℕ} {c c' : Call} (hc : s.calls[k]? = some c)
    (hargs : c'.args = c.args) (hwf : c'.Wf V) :
    Inv V { s with calls := s.calls.set k c' } := by
  refine h.of_calls (map_args_set hc hargs) fun j d hd => ?_
  rw [List.getElem?_set] at hd
  split at hd
  · split at hd
    · rw [Option.some_inj] at hd
      exact hd ▸ hwf
    · cases hd
  · exact h.wf j d hd

/-- A worker takes a request out of a queue, or drops or goes on with the one it holds. -/
theorem Inv.of_workers {s : State} (h : Inv V s) {queue : Queue → List Request} {w : ℕ}
    {worker : Worker} (hqueue : ∀ q, ∀ r ∈ queue q, r ∈ s.queue q)
    (hworker : ∀ r, worker.request = some r → r.Fits s.calls) :
    Inv V { s with queue, workers := s.workers.set w worker } where
  queued q r hr := h.queued q r (hqueue q r hr)
  held w' hw r hr := by
    rcases List.mem_or_eq_of_mem_set hw with hw | rfl
    · exact h.held w' hw r hr
    · exact hworker r hr
  wf := h.wf

/-- A request is posted. -/
theorem Inv.post {s : State} (h : Inv V s) (q : Queue) (r : Request) (calls : List Call)
    (hr : r.Fits (s.calls ++ calls)) (hwf : ∀ c ∈ calls, c.Wf V) :
    Inv V { s with
      queue := Function.update s.queue q (s.queue q ++ [r]), calls := s.calls ++ calls } where
  queued q' r' hr' := by
    by_cases hq : q' = q
    · subst hq
      simp only [Function.update_self, List.mem_append, List.mem_singleton] at hr'
      rcases hr' with hr' | rfl
      · exact (h.queued q' r' hr').append calls
      · exact hr
    · simp only [Function.update_of_ne hq] at hr'
      exact (h.queued q' r' hr').append calls
  held w hw r' hr' := (h.held w hw r' hr').append calls
  wf k c hc := by
    rcases Nat.lt_or_ge k s.calls.length with hk | hk
    · rw [List.getElem?_append_left hk] at hc
      exact h.wf k c hc
    · rw [List.getElem?_append_right hk] at hc
      exact hwf c (List.mem_of_getElem? hc)

/-- A worker reports on a request that fits. -/
theorem Inv.send {s : State} (h : Inv V s) {r : Request} (hr : r.Fits s.calls) :
    Inv V (s.send V r) := by
  unfold State.send
  cases hresp : r.response with
  | foreign k => exact ⟨h.queued, h.held, h.wf⟩
  | enqueue k =>
      refine h.of_calls (map_args_modify _ _ fun _ => rfl) fun j c hc => ?_
      rw [List.getElem?_modify] at hc
      obtain ⟨c₀, hc₀, rfl⟩ := Option.map_eq_some_iff.1 hc
      have hwf := h.wf j c₀ hc₀
      by_cases hk : k = j
      · -- the request asks what the call asks, so it is the verdict on the call that is sent
        subst hk
        have hargs := hr k hresp
        rw [List.getElem?_map, hc₀, Option.map_some, Option.some_inj] at hargs
        obtain ⟨hsig, hpk, hmsg⟩ : c₀.signature = r.signature ∧ c₀.pubkey = r.pubkey ∧
            c₀.msg = r.msg := by
          simpa [Call.args, Request.args] using hargs
        rw [if_pos rfl, ← hsig, ← hpk, ← hmsg]
        exact hwf.send r.id
      · rw [if_neg hk]
        exact hwf

/-- A worker takes the first request of a queue. -/
theorem Inv.receive {s : State} (h : Inv V s) {q : Queue} {r : Request} {rest : List Request}
    (hq : s.queue q = r :: rest) (w : ℕ) :
    Inv V { s with
      queue := Function.update s.queue q rest
      workers := s.workers.set w (.received r) } := by
  refine h.of_workers ?_ ?_
  · intro q' r' hr'
    by_cases hqq : q' = q
    · subst hqq
      rw [Function.update_self] at hr'
      rw [hq]
      exact List.mem_cons_of_mem _ hr'
    · rwa [Function.update_of_ne hqq] at hr'
  · intro r' hr'
    cases hr'
    exact h.queued q r (by rw [hq]; exact List.mem_cons_self)

/-- The context of a call ends. -/
theorem Inv.ctxDone {s : State} (h : Inv V s) (k : ℕ) (err : GoError) :
    Inv V { s with
      calls := s.calls.modify k fun c => { c with ctxErr := c.ctxErr.or (some err) } } := by
  refine h.of_calls (map_args_modify _ _ fun _ => rfl) ?_
  intro j c hc
  rw [List.getElem?_modify] at hc
  obtain ⟨c₀, hc₀, rfl⟩ := Option.map_eq_some_iff.1 hc
  have hwf := h.wf j c₀ hc₀
  split
  · exact ⟨hwf.buf_nil, hwf.result, hwf.answered⟩
  · exact hwf

/-- **One step keeps the invariant.** -/
theorem Inv.step {s s' : State} {a : Action} (h : Inv V s)
    (hs : Verify.step V cap s a = some s') : Inv V s' := by
  cases a with
  | enqueue signature pubkey msg =>
      obtain rfl := Option.some_inj.1 hs
      refine h.post .submit _ _ (fun k hk => ?_) fun c hc => ?_
      · cases hk
        simp [Call.args, Request.args]
      · rw [List.mem_singleton.1 hc]
        exact Call.wf_new signature pubkey msg
  | receive w q =>
      simp only [Verify.step] at hs
      split at hs
      · next r rest hw hq =>
          obtain rfl := Option.some_inj.1 hs
          exact h.receive hq w
      · cases hs
  | isClosed w =>
      simp only [Verify.step] at hs
      split at hs
      · next r hw =>
          obtain ⟨o, -, hs⟩ := Option.bind_eq_some_iff.1 hs
          obtain rfl := Option.some_inj.1 hs
          refine h.of_workers (fun _ _ hr' => hr') fun r' hr' => ?_
          have hfits := h.held _ (List.mem_of_getElem? hw) r rfl
          split at hr'
          · cases hr'
          · cases hr'
            exact hfits
      · cases hs
  | verify w =>
      simp only [Verify.step] at hs
      split at hs
      · next r hw =>
          obtain rfl := Option.some_inj.1 hs
          have hsent := h.send (h.held _ (List.mem_of_getElem? hw) r rfl)
          have hworkers : (s.send V r).workers = s.workers := by
            unfold State.send
            split <;> rfl
          rw [← hworkers]
          exact hsent.of_workers (fun _ _ hr' => hr') fun r' hr' => by cases hr'
      · cases hs
  | ctxDone k err =>
      obtain rfl := Option.some_inj.1 hs
      exact h.ctxDone k err
  | selectDone k =>
      obtain ⟨c, hc, hs⟩ := Option.bind_eq_some_iff.1 hs
      obtain ⟨⟨err, response⟩, hrecv, hs⟩ := Option.bind_eq_some_iff.1 hs
      simp only at hs
      split at hs
      · next hcond =>
          obtain rfl := Option.some_inj.1 hs
          exact h.set_call hc rfl ((h.wf k c hc).receive hcond.1 hrecv)
      · cases hs
  | selectCtx k =>
      obtain ⟨c, hc, hs⟩ := Option.bind_eq_some_iff.1 hs
      obtain ⟨err, -, hs⟩ := Option.bind_eq_some_iff.1 hs
      split at hs
      · obtain rfl := Option.some_inj.1 hs
        exact h.set_call hc rfl ((h.wf k c hc).cancel err)
      · cases hs
  | newRespC numAll =>
      obtain rfl := Option.some_inj.1 hs
      exact ⟨h.queued, h.held, h.wf⟩
  | post q signature pubkey msg id k =>
      obtain rfl := Option.some_inj.1 hs
      have hpost := h.post q ⟨signature, pubkey, msg, id, .foreign k⟩ []
        (fun _ hk => by cases hk) fun _ hc => by cases hc
      rw [List.append_nil] at hpost
      exact hpost
  | skipOne k =>
      obtain rfl := Option.some_inj.1 hs
      exact ⟨h.queued, h.held, h.wf⟩
  | close k err =>
      obtain rfl := Option.some_inj.1 hs
      exact ⟨h.queued, h.held, h.wf⟩

/-- **The invariant holds in every state of every run.** -/
theorem inv_run {workers : ℕ} {as : List Action} {s : State}
    (hrun : Runs.run (step V cap) (State.init workers) as = some s) : Inv V s :=
  Runs.run_invariant (step V cap) (fun _ _ _ h hs => h.step hs) (inv_init workers) hrun

/-! ### What a call returns -/

/-- **The verdict is in the object**: once a call is answered, `Error` of its object says whether
the signature is valid. -/
theorem error_eq_verdict {workers : ℕ} {as : List Action} {s : State}
    (hrun : Runs.run (step V cap) (State.init workers) as = some s) {k : ℕ} {c : Call}
    (hc : s.calls[k]? = some c) {err : Option GoError} (hans : c.status = .answered err) :
    c.response.error = verdict V c.msg c.signature c.pubkey := by
  have hwf := (inv_run hrun).wf k c hc
  rcases hwf.result (fun err' h => by rw [hans] at h; cases h) with hfresh | ⟨-, herr⟩
  · have hclosed := (hwf.answered err hans).2
    rw [hfresh.1] at hclosed
    cases hclosed
  · exact herr

/-- An answered call returns `nil`. -/
theorem answered_eq_none {workers : ℕ} {as : List Action} {s : State}
    (hrun : Runs.run (step V cap) (State.init workers) as = some s) {k : ℕ} {c : Call}
    (hc : s.calls[k]? = some c) {err : Option GoError} (hans : c.status = .answered err) :
    err = none :=
  (((inv_run hrun).wf k c hc).answered err hans).1

end Verify

/-! ### The relay's use of `Enqueue` -/

/-- The builder of a submission is on the list of builders that are not checked. -/
def RelayConfig.allowListed (cfg : RelayConfig) (sbr : SubmitBlockRequest) : Bool :=
  match cfg.allowedListedBuilders with
  | none => false
  | some allowed => sbr.slot > 0 && allowed.contains sbr.builderPubkey

/-- `verifySignature`, where `enqueue` is what the call of `Enqueue` returns. -/
def verifySignature (P : Primitives) (cfg : RelayConfig) (sbr : SubmitBlockRequest)
    (enqueue : Signature → PublicKey → Hash → Option GoError) : Option GoError :=
  if cfg.allowListed sbr then none
  else
    match P.traceSigningRoot sbr.message cfg.builderSigningDomain with
    | .error _ => some (.sentinel .errInvalidSignature)
    | .ok msg =>
        (enqueue sbr.signature sbr.builderPubkey msg).map fun err =>
          .wrapf .errVerification err.error

theorem verifySignature_eq_none_iff {P : Primitives} {cfg : RelayConfig}
    {sbr : SubmitBlockRequest} {enqueue : Signature → PublicKey → Hash → Option GoError} :
    verifySignature P cfg sbr enqueue = none ↔ cfg.allowListed sbr = true ∨
      ∃ msg, P.traceSigningRoot sbr.message cfg.builderSigningDomain = .ok msg ∧
        enqueue sbr.signature sbr.builderPubkey msg = none := by
  unfold verifySignature
  cases cfg.allowListed sbr with
  | true => simp
  | false =>
      cases P.traceSigningRoot sbr.message cfg.builderSigningDomain with
      | error err => simp
      | ok msg => simp

namespace Verify

/-- **`Enqueue` tells a valid signature from an invalid one exactly when the signature is valid**,
in every interleaving with any number of workers and any other requests: the call returns `nil`
exactly for a valid signature if and only if the signature is valid, and so a submission of a
builder that is not on the list passes `verifySignature` only with a valid signature if and only if
its signature is valid. -/
theorem enqueue_correct_iff (V : VerifySignatureBytes) (cap workers : ℕ) (as : List Action)
    (s : State) (hrun : Runs.run (step V cap) (State.init workers) as = some s) (k : ℕ) (c : Call)
    (hc : s.calls[k]? = some c) (err : Option GoError) (hans : c.status = .answered err) :
    ((err = none ↔ V c.msg c.signature c.pubkey = (true, none)) ↔
      V c.msg c.signature c.pubkey = (true, none)) ∧
    ∀ (P : Primitives) (cfg : RelayConfig) (sbr : SubmitBlockRequest),
      cfg.allowListed sbr = false →
      P.traceSigningRoot sbr.message cfg.builderSigningDomain = .ok c.msg →
      sbr.signature = c.signature → sbr.builderPubkey = c.pubkey →
      ((verifySignature P cfg sbr (fun _ _ _ => err) = none →
          V c.msg sbr.signature sbr.builderPubkey = (true, none)) ↔
        V c.msg c.signature c.pubkey = (true, none)) := by
  obtain rfl := answered_eq_none hrun hc hans
  refine ⟨by simp, fun P cfg sbr hlist hroot hsig hpk => ?_⟩
  have hnil : verifySignature P cfg sbr (fun _ _ _ => none) = none :=
    verifySignature_eq_none_iff.2 (Or.inr ⟨c.msg, hroot, rfl⟩)
  rw [hsig, hpk]
  exact ⟨fun h => h hnil, fun h _ => h⟩

/-- A run in which one worker answers one call. -/
def answerOne : List Action :=
  [.enqueue default default default, .receive 0 .submit, .isClosed 0, .verify 0, .selectDone 0]

/-- A valid signature, answered by one worker. -/
theorem enqueue_correct_iff_valid :
    ∃ s c, Runs.run (step (fun _ _ _ => (true, none)) 0) (State.init 1) answerOne = some s ∧
      s.calls[0]? = some c ∧ c.status = .answered none ∧
      ((none : Option GoError) = none ↔ (true, (none : Option GoError)) = (true, none)) :=
  ⟨_, _, rfl, rfl, rfl, (enqueue_correct_iff (fun _ _ _ => (true, none)) 0 1 answerOne _ rfl 0 _ rfl
    none rfl).1.2 rfl⟩

/-- An invalid signature, answered by one worker: `Enqueue` returns `nil`, and the submission of a
builder that is on no list passes `verifySignature`. -/
theorem enqueue_nil_of_invalid :
    ∃ s c, Runs.run (step (fun _ _ _ => (false, none)) 0) (State.init 1) answerOne = some s ∧
      s.calls[0]? = some c ∧ c.status = .answered none ∧
      RelayConfig.allowListed default default = false ∧
      verifySignature default default default (fun _ _ _ => none) = none :=
  ⟨_, _, rfl, rfl, rfl, rfl, rfl⟩

end Verify

end Dreamboat
