/-
**Registering validators.**

`RegisterValidator` of `src/validators/validators.go` goes through the registrations of a request.
One that is in the cache is skipped; the others are checked against the clock and the known
validators, and their signatures are posted to the verification workers, all with one `StoreResp`.
When that is closed, what the workers have found valid is sent to the store, and the error of the
`StoreResp` is returned.

The call runs against the workers and the `Enqueue` calls of `Verify`; its `StoreResp` is
the one of the same number there.  A check of a signature may panic, which the worker survives
without a result.

Main definitions:

* `verifyOther` — the check of a registration;
* `Register.Call`, `Register.advance` — a call and its steps;
* `Register.State`, `Register.Action`, `Register.step` — the calls and the workers;
* `Register.CallInv` — the invariant of a call, with its `StoreResp` and its requests.

Main results:

* `Register.CallInv.advance`, `Register.CallInv.send` — a step of a call, and a result, keep it;
* `Register.stores_verified` — **only what is verified is stored, nothing twice, and all of it if
  there is no error**.
-/

import Dreamboat.BeaconQuery
import Dreamboat.StoreManager
import Dreamboat.VerificationManager

set_option autoImplicit false

namespace Dreamboat

/-- `verifyOther`, with the time in seconds. -/
def verifyOther (known : ValidatorsState) (now : Int64) (sp : SignedValidatorRegistration) :
    Option GoError :=
  if sp.timestamp > (now + 10).toUInt64 then
    some (.new ("request too far in future for " ++ hexString sp.pubkey))
  else if (known.knownValidators.lookup (hexString sp.pubkey)).isNone then
    some (.new (hexString sp.pubkey ++ " not a known validator"))
  else none

namespace Register

open Verify (VerifySignatureBytes Request verdict verifyUnit)

/-! ### A call -/

/-- How far a call of `RegisterValidator` is. -/
inductive Stage where
  /-- At the beginning of the iteration for an index, or behind the last one. -/
  | select (i : ℕ)
  | check (i : ℕ)
  | other (i : ℕ)
  | compute (i : ℕ)
  /-- It waits for the `StoreResp`. -/
  | waiting
  /-- The registrations are sent to the store. -/
  | storing
  | returned (err : Option GoError)
  | panicked
  deriving DecidableEq

/-- A registration has passed `verifyOther`. -/
structure Passed where
  index : ℕ
  now : Int64
  known : ValidatorsState

structure Call where
  payload : List SignedValidatorRegistration
  ctxErr : Option GoError
  stage : Stage
  /-- The indexes for which `Check` was true. -/
  hits : List ℤ
  passed : List Passed
  /-- What was sent to the store, with the indexes it was made of. -/
  request : Option (List ℤ × StoreReq)

def newCall (payload : List SignedValidatorRegistration) : Call :=
  ⟨payload, none, .select 0, [], [], none⟩

/-- The request to the store; `none` is a panic. -/
def storeReq (payload : List SignedValidatorRegistration) (si : List ℤ) : Option StoreReq := do
  let items ← si.mapM fun i =>
    if 0 ≤ i then payload[i.toNat]?.map fun p => (⟨p, p.timestamp⟩ : StoreReqItem) else none
  return ⟨items⟩

/-- The item of an index: the registration, with the time of its message. -/
def ItemOf (payload : List SignedValidatorRegistration) (i : ℤ) (item : StoreReqItem) : Prop :=
  ∃ (j : ℕ) (p : SignedValidatorRegistration), i = j ∧ payload[j]? = some p ∧
    item = ⟨p, p.timestamp⟩

/-- The request has one item for each index, in their order. -/
theorem forall₂_of_storeReq {payload : List SignedValidatorRegistration} {si : List ℤ}
    {request : StoreReq} (h : storeReq payload si = some request) :
    List.Forall₂ (ItemOf payload) si request.items := by
  obtain ⟨items, hitems, heq⟩ := Option.bind_eq_some_iff.1 h
  cases heq
  clear h
  induction si generalizing items with
  | nil =>
      cases hitems
      exact .nil
  | cons i si ih =>
      rw [List.mapM_cons] at hitems
      obtain ⟨item, hitem, hitems⟩ := Option.bind_eq_some_iff.1 hitems
      obtain ⟨rest, hrest, heq⟩ := Option.bind_eq_some_iff.1 hitems
      cases heq
      refine .cons ?_ (ih rest hrest)
      split at hitem
      case isFalse => cases hitem
      case isTrue hi =>
        obtain ⟨p, hp, rfl⟩ := Option.map_eq_some_iff.1 hitem
        exact ⟨i.toNat, p, (Int.toNat_of_nonneg hi).symm, hp, rfl⟩

/-- The item of a registration is in the request if its index is in the list. -/
theorem mem_zip_of_forall₂ {payload : List SignedValidatorRegistration} {si : List ℤ}
    {items : List StoreReqItem} (h : List.Forall₂ (ItemOf payload) si items) {i : ℕ}
    {p : SignedValidatorRegistration} (hi : (i : ℤ) ∈ si) (hp : payload[i]? = some p) :
    ((i : ℤ), (⟨p, p.timestamp⟩ : StoreReqItem)) ∈ si.zip items := by
  induction h with
  | nil => cases hi
  | @cons i' item si items hitem _ ih =>
      rcases List.mem_cons.1 hi with rfl | hi
      · obtain ⟨j, q, hj, hq, rfl⟩ := hitem
        obtain rfl : i = j := Int.ofNat_inj.1 hj
        obtain rfl : p = q := Option.some_inj.1 (hp.symm.trans hq)
        exact List.mem_cons_self
      · exact List.mem_cons_of_mem _ (ih hi)

inductive CallAction where
  | select
  | check (hit : Bool)
  | verifyOther (now : Int64) (known : ValidatorsState)
  | computeSigningRoot
  | done
  | selectCtx
  | ret
  | ctxDone (err : GoError)

variable (V : VerifySignatureBytes) (cap : ℕ)
  (signingRoot : RegisterValidatorRequestMessage → Except GoError Hash)

/-- A step of the call `k` with the object `o`: the call, the object and the requests it posts.  The
call does not go on while it is blocked in a send. -/
def advance (blocked : Bool) (k : ℕ) (c : Call) (o : StoreResp) (a : CallAction) :
    Option (Call × StoreResp × List Request) :=
  match c.stage, a with
  | .select i, .select =>
      if blocked then none
      else if i < c.payload.length then
        match c.ctxErr with
        | some err => some ({ c with stage := .returned (some err) }, o.close (some err), [])
        | none => some ({ c with stage := .check i }, o, [])
      else some ({ c with stage := .waiting }, o, [])
  | .check i, .check hit =>
      if hit then
        some ({ c with stage := .select (i + 1), hits := c.hits ++ [(i : ℤ)] }, o.skipOne, [])
      else some ({ c with stage := .other i }, o, [])
  | .other i, .verifyOther now known => do
      let p ← c.payload[i]?
      match Dreamboat.verifyOther known now p with
      | some err => some ({ c with stage := .waiting }, o.close (some err), [])
      | none =>
          some ({ c with stage := .compute i, passed := c.passed ++ [⟨i, now, known⟩] }, o, [])
  | .compute i, .computeSigningRoot => do
      let p ← c.payload[i]?
      match signingRoot p.message with
      | .error _ =>
          some ({ c with stage := .waiting }, o.close (some (.new "invalid signature")), [])
      | .ok msg =>
          some ({ c with stage := .select (i + 1) }, o,
            [⟨p.signature, p.pubkey, msg, i, .foreign k⟩])
  -- the select behind the loop
  | .waiting, .done =>
      if blocked then none
      else do
        let (_, o) ← o.receive
        if o.nonErrors = [] then some ({ c with stage := .storing }, o, [])
        else
          match storeReq c.payload o.nonErrors with
          | some request =>
              some ({ c with stage := .storing, request := some (o.nonErrors, request) }, o, [])
          | none => some ({ c with stage := .panicked }, o, [])
  | .waiting, .selectCtx =>
      if blocked then none
      else do
        let err ← c.ctxErr
        some ({ c with stage := .returned (some err) }, o.close (some err), [])
  | .storing, .ret => some ({ c with stage := .returned o.error }, o, [])
  | _, .ctxDone err => some ({ c with ctxErr := c.ctxErr.or (some err) }, o, [])
  | _, _ => none

/-! ### The calls and the workers -/

structure State where
  ver : Verify.State
  calls : List Call

def State.init (workers : ℕ) : State := ⟨Verify.State.init workers, []⟩

/-- What the workers and the `Enqueue` calls do. -/
def isEnvironment : Verify.Action → Bool
  | .newRespC _ | .post _ _ _ _ _ _ | .skipOne _ | .close _ _ => false
  | _ => true

inductive Action where
  | verify (a : Verify.Action)
  /-- The check of a worker panics. -/
  | recovered (w : ℕ)
  | registerValidator (payload : List SignedValidatorRegistration)
  | call (k : ℕ) (a : CallAction)

/-- The request of the call `k` is still outside the buffer of its queue. -/
def State.blocked (s : State) (k : ℕ) : Bool :=
  ((s.ver.queue .register).drop cap).any fun r => r.response = .foreign k

def step (s : State) : Action → Option State
  | .verify a =>
      if isEnvironment a then (Verify.step V cap s.ver a).map fun ver => { s with ver } else none
  | .recovered w =>
      match s.ver.workers[w]? with
      | some (.checking _) =>
          some { s with ver := { s.ver with workers := s.ver.workers.set w .idle } }
      | _ => none
  | .registerValidator payload =>
      some {
        ver := { s.ver with foreign := s.ver.foreign ++ [StoreResp.newRespC payload.length] }
        calls := s.calls ++ [newCall payload] }
  | .call k a => do
      let c ← s.calls[k]?
      let o ← s.ver.foreign[k]?
      let (c, o, posted) ← advance signingRoot (s.blocked cap k) k c o a
      return {
        ver := { s.ver with
          foreign := s.ver.foreign.set k o
          queue := Function.update s.ver.queue .register (s.ver.queue .register ++ posted) }
        calls := s.calls.set k c }

/-! ### The invariant of a call -/

/-- The indexes below this one were skipped or posted, or the loop was left. -/
def Call.next (c : Call) : ℕ :=
  match c.stage with
  | .select i | .check i | .other i | .compute i => i
  | .waiting | .storing | .returned _ | .panicked => c.payload.length

/-- A registration has passed `verifyOther` in its iteration. -/
def HasPassed (c : Call) (j : ℕ) (p : SignedValidatorRegistration) : Prop :=
  ∃ x ∈ c.passed, x.index = j ∧ Dreamboat.verifyOther x.known x.now p = none

/-- A request asks for the signature of a registration of the call that has passed. -/
def Asks (c : Call) (r : Request) : Prop :=
  ∃ (j : ℕ) (p : SignedValidatorRegistration), r.id = j ∧ c.payload[j]? = some p ∧ HasPassed c j p ∧
    r.signature = p.signature ∧ r.pubkey = p.pubkey ∧ signingRoot p.message = .ok r.msg

/-- The registration of an index has passed `verifyOther`, and its signature is valid. -/
def Verified (c : Call) (i : ℤ) : Prop :=
  ∃ (j : ℕ) (p : SignedValidatorRegistration), i = j ∧ c.payload[j]? = some p ∧ HasPassed c j p ∧
    ∃ msg, signingRoot p.message = .ok msg ∧ verdict V msg p.signature p.pubkey = none

/-- The indexes of a call that were skipped, that are with the workers and that are verified. -/
def indexes (c : Call) (o : StoreResp) (pend : List Request) : List ℤ :=
  c.hits ++ (pend.map Request.id ++ o.nonErrors)

/-- A call with its object and those of its requests that wait or are with a worker. -/
structure CallInv (c : Call) (o : StoreResp) (pend : List Request) : Prop where
  buf : o.done.buf = []
  index : ∀ i, c.stage = .check i ∨ c.stage = .other i ∨ c.stage = .compute i →
    i < c.payload.length
  next_le : c.next ≤ c.payload.length
  nodup : (indexes c o pend).Nodup
  before : ∀ i ∈ indexes c o pend, ∃ j : ℕ, i = j ∧ j < c.next
  asks : ∀ r ∈ pend, Asks signingRoot c r
  verified : ∀ i ∈ o.nonErrors, Verified V signingRoot c i
  computing : ∀ i, c.stage = .compute i → ∃ p, c.payload[i]? = some p ∧ HasPassed c i p
  opened : o.isClosed = false → o.err = none ∧ o.numAll + c.hits.length = c.payload.length
  closed : o.isClosed = true → o.err = none →
    c.hits.length + o.nonErrors.length = c.payload.length
  request : ∀ si request, c.request = some (si, request) →
    o.isClosed = true ∧ si = o.nonErrors ∧ storeReq c.payload si = some request
  stored : c.stage = .storing ∨ c.stage = .returned none → o.isClosed = true ∧
    (o.nonErrors ≠ [] → ∃ request, c.request = some (o.nonErrors, request))
  returned : c.stage = .returned none → o.err = none
  ok : c.stage ≠ .panicked

variable {V} {cap} {signingRoot} {c : Call} {o : StoreResp} {pend : List Request}

theorem callInv_new (payload : List SignedValidatorRegistration) :
    CallInv V signingRoot (newCall payload) (StoreResp.newRespC payload.length) [] where
  buf := rfl
  index := by simp [newCall]
  next_le := Nat.zero_le _
  nodup := List.nodup_nil
  before := by simp [indexes, newCall, StoreResp.newRespC]
  asks := by simp
  verified := by simp [StoreResp.newRespC]
  computing := by simp [newCall]
  opened := by simp [StoreResp.newRespC, newCall]
  closed := by simp [StoreResp.newRespC]
  request := by simp [newCall]
  stored := by simp [newCall]
  returned := by simp [newCall]
  ok := by simp [newCall]

/-! ### Numbers below a bound -/

/-- Different numbers below a bound are no more than the bound. -/
theorem length_le_of_nodup {l : List ℤ} {n : ℕ} (hnodup : l.Nodup)
    (h : ∀ i ∈ l, ∃ j : ℕ, i = j ∧ j < n) :
    l.length ≤ n ∧ (l.length = n → ∀ j < n, (j : ℤ) ∈ l) := by
  have hmap : (l.map Int.toNat).Nodup := by
    refine List.Nodup.map_on ?_ hnodup
    intro x hx y hy hxy
    obtain ⟨j, rfl, -⟩ := h x hx
    obtain ⟨k, rfl, -⟩ := h y hy
    exact congrArg Int.ofNat hxy
  have hsub : (l.map Int.toNat).Subperm (List.range n) := by
    refine List.subperm_of_subset hmap ?_
    intro k hk
    obtain ⟨x, hx, rfl⟩ := List.mem_map.1 hk
    obtain ⟨j, rfl, hj⟩ := h x hx
    simpa using hj
  have hle := hsub.length_le
  rw [List.length_map, List.length_range] at hle
  refine ⟨hle, ?_⟩
  intro hlen j hj
  have hperm := hsub.perm_of_length_le (by simp [hlen])
  obtain ⟨x, hx, hxj⟩ := List.mem_map.1 (hperm.mem_iff.2 (List.mem_range.2 hj))
  obtain ⟨k, rfl, -⟩ := h x hx
  obtain rfl : k = j := by simpa using hxj
  exact hx

namespace CallInv

variable (h : CallInv V signingRoot c o pend)

include h

/-- What was skipped and what is verified. -/
theorem nodup_results : (c.hits ++ o.nonErrors).Nodup ∧
    ∀ i ∈ c.hits ++ o.nonErrors, ∃ j : ℕ, i = j ∧ j < c.next := by
  have hsub : (c.hits ++ o.nonErrors).Sublist (indexes c o pend) :=
    (List.Sublist.refl _).append (List.sublist_append_right _ _)
  exact ⟨h.nodup.sublist hsub, fun i hi => h.before i (hsub.subset hi)⟩

/-- An object that is closed without an error has a result for every index. -/
theorem next_of_closed (hclosed : o.isClosed = true) (herr : o.err = none) :
    c.next = c.payload.length := by
  obtain ⟨hnodup, hbefore⟩ := h.nodup_results
  have hlen := (length_le_of_nodup hnodup hbefore).1
  rw [List.length_append, h.closed hclosed herr] at hlen
  exact Nat.le_antisymm h.next_le hlen

theorem covers_of_closed (hclosed : o.isClosed = true) (herr : o.err = none) {j : ℕ}
    (hj : j < c.payload.length) : (j : ℤ) ∈ c.hits ∨ (j : ℤ) ∈ o.nonErrors := by
  obtain ⟨hnodup, hbefore⟩ := h.nodup_results
  rw [h.next_of_closed hclosed herr] at hbefore
  have hcover := (length_le_of_nodup hnodup hbefore).2
    (by rw [List.length_append, h.closed hclosed herr]) j hj
  exact List.mem_append.1 hcover

/-- The order of the requests does not matter. -/
theorem perm {pend' : List Request} (hperm : pend'.Perm pend) :
    CallInv V signingRoot c o pend' := by
  have hindexes : (indexes c o pend').Perm (indexes c o pend) :=
    ((hperm.map _).append_right _).append_left _
  refine { h with nodup := ?_, before := ?_, asks := ?_ }
  · exact hindexes.nodup_iff.2 h.nodup
  · intro i hi
    exact h.before i (hindexes.mem_iff.1 hi)
  · intro r hr
    exact h.asks r (hperm.mem_iff.1 hr)

/-- A request comes to nothing. -/
theorem drop {r : Request} {pend' : List Request} (hperm : pend.Perm (r :: pend')) :
    CallInv V signingRoot c o pend' := by
  have h' := h.perm hperm.symm
  have hsub : (indexes c o pend').Sublist (indexes c o (r :: pend')) := by
    refine (List.Sublist.refl _).append (List.Sublist.append ?_ (List.Sublist.refl _))
    exact List.sublist_cons_self _ _
  refine { h' with nodup := ?_, before := ?_, asks := ?_ }
  · exact h'.nodup.sublist hsub
  · intro i hi
    exact h'.before i (hsub.subset hi)
  · intro r' hr'
    exact h'.asks r' (List.mem_cons_of_mem _ hr')

/-- The object ends with an error, and its successes stay. -/
theorem fail {o' : StoreResp} {err : GoError} (hbuf : o'.done.buf = [])
    (hclosed : o'.isClosed = true) (herr : o'.err = some err) (hnon : o'.nonErrors = o.nonErrors)
    (hstage : c.stage ≠ .returned none) : CallInv V signingRoot c o' pend := by
  refine ⟨hbuf, h.index, h.next_le, ?_, ?_, h.asks, ?_, h.computing, ?_, ?_, ?_, ?_, ?_, h.ok⟩
  · rw [indexes, hnon]
    exact h.nodup
  · rw [indexes, hnon]
    exact h.before
  · rw [hnon]
    exact h.verified
  · intro hopen
    rw [hclosed] at hopen
    cases hopen
  · intro _ hnone
    rw [herr] at hnone
    cases hnone
  · intro si request hreq
    obtain ⟨-, hsi, hreq'⟩ := h.request si request hreq
    exact ⟨hclosed, hnon ▸ hsi, hreq'⟩
  · intro hst
    rw [hnon]
    exact ⟨hclosed, (h.stored hst).2⟩
  · intro hst
    exact absurd hst hstage

/-- The call closes its object with an error. -/
theorem close (err : GoError) (hstage : c.stage ≠ .returned none) :
    CallInv V signingRoot c (o.close (some err)) pend := by
  obtain ⟨hclosed, herr, hnon⟩ := StoreResp.close_some o err
  exact h.fail ((StoreResp.buf_close o _).trans h.buf) hclosed herr hnon hstage

/-- While the object is open, the call has not come to the store. -/
theorem stage_of_open (hopen : o.isClosed = false) :
    ¬(c.stage = .storing ∨ c.stage = .returned none) := by
  intro hstage
  rw [(h.stored hstage).1] at hopen
  cases hopen

/-- The signature of a request is valid: its index goes from the requests to the successes. -/
theorem succeed {r : Request} {pend' : List Request} (hperm : pend.Perm (r :: pend'))
    (hopen : o.isClosed = false) (hverdict : verdict V r.msg r.signature r.pubkey = none) :
    CallInv V signingRoot c (o.send (verifyUnit V r.id r.msg r.signature r.pubkey)) pend' := by
  obtain ⟨herr, hcount⟩ := h.opened hopen
  have hstage := h.stage_of_open hopen
  have hbuf := (StoreResp.buf_send o (verifyUnit V r.id r.msg r.signature r.pubkey)).trans h.buf
  obtain ⟨hnon, herr', hall, hlast⟩ := StoreResp.send_of_success hopen
    (r := verifyUnit V r.id r.msg r.signature r.pubkey) hverdict
  have hid : (verifyUnit V r.id r.msg r.signature r.pubkey).id = r.id := rfl
  rw [hid] at hnon
  have hmoved : (indexes c (o.send (verifyUnit V r.id r.msg r.signature r.pubkey)) pend').Perm
      (indexes c o pend) := by
    refine List.Perm.append_left _ ?_
    rw [hnon, ← List.append_assoc]
    refine (List.perm_append_singleton _ _).trans ?_
    exact ((hperm.map Request.id).append_right _).symm
  refine ⟨hbuf, h.index, h.next_le, hmoved.nodup_iff.2 h.nodup, ?_, (h.drop hperm).asks, ?_,
    h.computing, ?_, ?_, ?_, ?_, ?_, h.ok⟩
  · intro i hi
    exact h.before i (hmoved.mem_iff.1 hi)
  · intro i hi
    rw [hnon] at hi
    rcases List.mem_append.1 hi with hi | hi
    · exact h.verified i hi
    · rw [List.mem_singleton.1 hi]
      obtain ⟨j, p, hj, hp, hpassed, hsig, hpk, hmsg⟩ :=
        h.asks r (hperm.mem_iff.2 List.mem_cons_self)
      rw [hsig, hpk] at hverdict
      exact ⟨j, p, hj, hp, hpassed, r.msg, hmsg, hverdict⟩
  · intro _
    rw [herr', hall]
    exact ⟨herr, hcount⟩
  · intro hclosed _
    have hcount' := hlast.1 hclosed
    rw [hnon, List.length_append, List.length_singleton]
    omega
  · intro si request hreq
    rw [(h.request si request hreq).1] at hopen
    cases hopen
  · intro hst
    exact absurd hst hstage
  · intro hst
    exact absurd (.inr hst) hstage

/-- **A worker reports a result.** -/
theorem send {r : Request} {pend' : List Request} (hperm : pend.Perm (r :: pend')) :
    CallInv V signingRoot c (o.send (verifyUnit V r.id r.msg r.signature r.pubkey)) pend' := by
  cases hclosed : o.isClosed with
  | true =>
      rw [StoreResp.send_of_isClosed hclosed]
      exact h.drop hperm
  | false =>
      cases hverdict : verdict V r.msg r.signature r.pubkey with
      | some err =>
          obtain ⟨hclosed', herr, hnon⟩ := StoreResp.send_of_err hclosed
            (r := verifyUnit V r.id r.msg r.signature r.pubkey) hverdict
          exact (h.drop hperm).fail ((StoreResp.buf_send o _).trans h.buf) hclosed' herr hnon
            fun hst => h.stage_of_open hclosed (.inr hst)
      | none => exact h.succeed hperm hclosed hverdict

/-- The call comes to another stage, with nothing else changed. -/
theorem setStage (stage : Stage) (hnext : c.next ≤ Call.next { c with stage })
    (hle : Call.next { c with stage } ≤ c.payload.length)
    (hindex : ∀ i, stage = .check i ∨ stage = .other i ∨ stage = .compute i → i < c.payload.length)
    (hcomputing : ∀ i, stage ≠ .compute i) (hstoring : stage ≠ .storing)
    (hreturned : stage ≠ .returned none) (hok : stage ≠ .panicked) :
    CallInv V signingRoot { c with stage } o pend := by
  refine ⟨h.buf, hindex, hle, h.nodup, ?_, h.asks, h.verified, ?_, h.opened, h.closed, h.request,
    ?_, ?_, hok⟩
  · intro i hi
    obtain ⟨j, hj, hlt⟩ := h.before i hi
    exact ⟨j, hj, by omega⟩
  · intro i hi
    exact absurd hi (hcomputing i)
  · rintro (hst | hst)
    · exact absurd hst hstoring
    · exact absurd hst hreturned
  · intro hst
    exact absurd hst hreturned

/-- The loop is left. -/
theorem leave {stage : Stage}
    (hstage : stage = .waiting ∨ ∃ err, stage = .returned (some err)) :
    CallInv V signingRoot { c with stage } o pend := by
  have hnext : Call.next { c with stage } = c.payload.length := by
    obtain rfl | ⟨err, rfl⟩ := hstage <;> rfl
  have hle := h.next_le
  refine h.setStage stage (by omega) (by omega) ?_ ?_ ?_ ?_ ?_ <;>
    obtain rfl | ⟨err, rfl⟩ := hstage <;> simp

/-- An iteration that has not come to its end has an open object, or one with an error. -/
theorem err_ne_none (hlt : c.next < c.payload.length) (hclosed : o.isClosed = true) :
    o.err ≠ none := by
  intro herr
  have hnext := h.next_of_closed hclosed herr
  omega

/-- The index of the iteration is a new one. -/
theorem index_new {i : ℕ} (hnext : c.next = i) : (i : ℤ) ∉ indexes c o pend := by
  intro hmem
  obtain ⟨j, hj, hlt⟩ := h.before _ hmem
  omega

/-- One more index. -/
theorem before_cons {i : ℕ} (hnext : c.next = i) {l : List ℤ}
    (hperm : l.Perm ((i : ℤ) :: indexes c o pend)) :
    l.Nodup ∧ ∀ x ∈ l, ∃ j : ℕ, x = j ∧ j < i + 1 := by
  refine ⟨hperm.nodup_iff.2 (List.nodup_cons.2 ⟨h.index_new hnext, h.nodup⟩), ?_⟩
  intro x hx
  rcases List.mem_cons.1 (hperm.mem_iff.1 hx) with rfl | hx
  · exact ⟨i, rfl, Nat.lt_succ_self i⟩
  · obtain ⟨j, hj, hlt⟩ := h.before x hx
    exact ⟨j, hj, by omega⟩

/-- A registration in the cache is skipped. -/
theorem skip {i : ℕ} (hstage : c.stage = .check i) :
    CallInv V signingRoot { c with stage := .select (i + 1), hits := c.hits ++ [(i : ℤ)] }
      o.skipOne pend := by
  have hi : i < c.payload.length := h.index i (.inl hstage)
  have hnext : c.next = i := by simp [Call.next, hstage]
  have hnon : o.skipOne.nonErrors = o.nonErrors := by
    cases hclosed : o.isClosed with
    | true => rw [StoreResp.skipOne_of_isClosed hclosed]
    | false => exact (StoreResp.skipOne_of_open hclosed).1
  have hperm : (c.hits ++ [(i : ℤ)] ++ (pend.map Request.id ++ o.skipOne.nonErrors)).Perm
      ((i : ℤ) :: indexes c o pend) := by
    rw [hnon, List.append_assoc, List.singleton_append]
    exact List.perm_middle
  obtain ⟨hnodup, hbefore⟩ := h.before_cons hnext hperm
  refine ⟨(StoreResp.buf_skipOne o).trans h.buf, by simp, hi, hnodup, hbefore, h.asks, ?_, by simp,
    ?_, ?_, ?_, by simp, by simp, by simp⟩
  · rw [hnon]
    exact h.verified
  · intro hopen
    cases hclosed : o.isClosed with
    | true =>
        rw [StoreResp.skipOne_of_isClosed hclosed, hclosed] at hopen
        cases hopen
    | false =>
        obtain ⟨-, herr, hall, -⟩ := StoreResp.skipOne_of_open hclosed
        obtain ⟨hnone, hcount⟩ := h.opened hclosed
        rw [herr, hall]
        refine ⟨hnone, ?_⟩
        simp only [List.length_append, List.length_singleton]
        omega
  · intro hclosed' herr'
    rw [hnon]
    cases hclosed : o.isClosed with
    | true =>
        -- an object that is closed before the last index has an error
        rw [StoreResp.skipOne_of_isClosed hclosed] at herr'
        exact absurd herr' (h.err_ne_none (by omega) hclosed)
    | false =>
        obtain ⟨-, -, -, hlast⟩ := StoreResp.skipOne_of_open hclosed
        obtain ⟨-, hcount⟩ := h.opened hclosed
        have hend := hlast.1 hclosed'
        simp only [List.length_append, List.length_singleton]
        omega
  · intro si request hreq
    obtain ⟨hclosed, hsi, hreq'⟩ := h.request si request hreq
    rw [StoreResp.skipOne_of_isClosed hclosed]
    exact ⟨hclosed, hsi, hreq'⟩

omit h in
theorem hasPassed_mono {c' : Call} (hpassed : ∀ x ∈ c.passed, x ∈ c'.passed) {j : ℕ}
    {p : SignedValidatorRegistration} (hp : HasPassed c j p) : HasPassed c' j p := by
  obtain ⟨x, hx, hxj⟩ := hp
  exact ⟨x, hpassed x hx, hxj⟩

/-- A registration passes `verifyOther`. -/
theorem pass {i : ℕ} (hstage : c.stage = .other i) {p : SignedValidatorRegistration}
    (hp : c.payload[i]? = some p) {now : Int64} {known : ValidatorsState}
    (hother : Dreamboat.verifyOther known now p = none) :
    CallInv V signingRoot
      { c with stage := .compute i, passed := c.passed ++ [⟨i, now, known⟩] } o pend := by
  have hi : i < c.payload.length := h.index i (.inr (.inl hstage))
  have hnext : c.next = i := by simp [Call.next, hstage]
  have hbefore := h.before
  rw [hnext] at hbefore
  refine ⟨h.buf, ?_, hi.le, h.nodup, hbefore, ?_, ?_, ?_, h.opened, h.closed, h.request, by simp,
    by simp, by simp⟩
  · rintro j (hj | hj | hj)
    · cases hj
    · cases hj
    · cases hj
      exact hi
  · intro r hr
    obtain ⟨j, q, hj, hq, hpassed, hrest⟩ := h.asks r hr
    exact ⟨j, q, hj, hq, hasPassed_mono (fun _ => List.mem_append_left _) hpassed, hrest⟩
  · intro x hx
    obtain ⟨j, q, hj, hq, hpassed, hrest⟩ := h.verified x hx
    exact ⟨j, q, hj, hq, hasPassed_mono (fun _ => List.mem_append_left _) hpassed, hrest⟩
  · intro j hj
    cases hj
    exact ⟨p, hp, ⟨i, now, known⟩, by simp, rfl, hother⟩

/-- A signature is posted. -/
theorem post {i k : ℕ} (hstage : c.stage = .compute i) {p : SignedValidatorRegistration}
    (hp : c.payload[i]? = some p) {msg : Hash} (hmsg : signingRoot p.message = .ok msg) :
    CallInv V signingRoot { c with stage := .select (i + 1) } o
      (pend ++ [⟨p.signature, p.pubkey, msg, i, .foreign k⟩]) := by
  have hi : i < c.payload.length := h.index i (.inr (.inr hstage))
  have hnext : c.next = i := by simp [Call.next, hstage]
  have hperm : (c.hits ++ ((pend ++ [(⟨p.signature, p.pubkey, msg, i, .foreign k⟩ : Request)]).map
      Request.id ++ o.nonErrors)).Perm ((i : ℤ) :: indexes c o pend) := by
    simp only [List.map_append, List.map_cons, List.map_nil, List.append_assoc,
      List.singleton_append]
    rw [← List.append_assoc]
    refine List.perm_middle.trans ?_
    rw [List.append_assoc]
    exact List.Perm.refl _
  obtain ⟨hnodup, hbefore⟩ := h.before_cons hnext hperm
  refine ⟨h.buf, by simp, hi, hnodup, hbefore, ?_, h.verified, by simp, h.opened, h.closed,
    h.request, by simp, by simp, by simp⟩
  intro r hr
  rcases List.mem_append.1 hr with hr | hr
  · exact h.asks r hr
  · rw [List.mem_singleton.1 hr]
    obtain ⟨q, hq, hpassed⟩ := h.computing i hstage
    obtain rfl : p = q := Option.some_inj.1 (hp.symm.trans hq)
    exact ⟨i, p, rfl, hp, hpassed, rfl, rfl, hmsg⟩

omit h in
/-- The request to the store is made of indexes that are in the list. -/
theorem exists_storeReq (payload : List SignedValidatorRegistration) {si : List ℤ}
    (hsi : ∀ i ∈ si, ∃ (j : ℕ) (p : SignedValidatorRegistration), i = j ∧ payload[j]? = some p) :
    ∃ request, storeReq payload si = some request := by
  suffices hitems : ∃ items, (si.mapM fun i =>
      if 0 ≤ i then payload[i.toNat]?.map fun p => (⟨p, p.timestamp⟩ : StoreReqItem) else none) =
        some items by
    obtain ⟨items, hitems⟩ := hitems
    exact ⟨⟨items⟩, by simp [storeReq, hitems]⟩
  induction si with
  | nil => exact ⟨[], rfl⟩
  | cons i si ih =>
      obtain ⟨items, hitems⟩ := ih fun x hx => hsi x (List.mem_cons_of_mem _ hx)
      obtain ⟨j, p, rfl, hp⟩ := hsi i List.mem_cons_self
      exact ⟨⟨p, p.timestamp⟩ :: items, by simp [List.mapM_cons, hitems, hp]⟩

/-- The call has received from its object, and the request to the store is made. -/
theorem store (hstage : c.stage = .waiting) (hclosed : o.isClosed = true)
    {request : Option (List ℤ × StoreReq)}
    (hrequest : request = c.request ∧ o.nonErrors = [] ∨
      ∃ req, request = some (o.nonErrors, req) ∧ storeReq c.payload o.nonErrors = some req) :
    CallInv V signingRoot { c with stage := .storing, request } o pend := by
  have hnext : c.next = c.payload.length := by simp [Call.next, hstage]
  have hbefore := h.before
  rw [hnext] at hbefore
  refine ⟨h.buf, by simp, Nat.le_refl _, h.nodup, hbefore, h.asks, h.verified, by simp, h.opened,
    h.closed, ?_, ?_, by simp, by simp⟩
  · intro si req hreq
    obtain ⟨rfl, -⟩ | ⟨req', rfl, hreq'⟩ := hrequest
    · exact h.request si req hreq
    · cases hreq
      exact ⟨hclosed, rfl, hreq'⟩
  · intro _
    refine ⟨hclosed, ?_⟩
    intro hne
    obtain ⟨-, hnil⟩ | ⟨req, rfl, -⟩ := hrequest
    · exact absurd hnil hne
    · exact ⟨req, rfl⟩

/-- The call returns the error of its object. -/
theorem ret (hstage : c.stage = .storing) :
    CallInv V signingRoot { c with stage := .returned o.error } o pend := by
  have hnext : c.next = c.payload.length := by simp [Call.next, hstage]
  have hbefore := h.before
  rw [hnext] at hbefore
  refine ⟨h.buf, by simp, Nat.le_refl _, h.nodup, hbefore, h.asks, h.verified, by simp, h.opened,
    h.closed, h.request, fun _ => h.stored (.inl hstage), ?_, by simp⟩
  intro hret
  exact Stage.returned.inj hret

/-- The iteration for an index begins. -/
theorem enter {i : ℕ} (hstage : c.stage = .select i) (hi : i < c.payload.length) :
    CallInv V signingRoot { c with stage := .check i } o pend := by
  refine h.setStage (.check i) (Nat.le_of_eq (by simp [Call.next, hstage])) hi.le ?_ (by simp)
    (by simp) (by simp) (by simp)
  rintro j (hj | hj | hj)
  · cases hj
    exact hi
  · cases hj
  · cases hj

/-- A registration is not in the cache. -/
theorem miss {i : ℕ} (hstage : c.stage = .check i) :
    CallInv V signingRoot { c with stage := .other i } o pend := by
  have hi : i < c.payload.length := h.index i (.inl hstage)
  refine h.setStage (.other i) (Nat.le_of_eq (by simp [Call.next, hstage])) hi.le ?_ (by simp)
    (by simp) (by simp) (by simp)
  rintro j (hj | hj | hj)
  · cases hj
  · cases hj
    exact hi
  · cases hj

/-- The request to the store can be made. -/
theorem exists_request : ∃ request, storeReq c.payload o.nonErrors = some request := by
  refine exists_storeReq c.payload ?_
  intro i hi
  obtain ⟨j, p, hj, hp, -⟩ := h.verified i hi
  exact ⟨j, p, hj, hp⟩

/-- **A step of the call.** -/
theorem advance {blocked : Bool} {k : ℕ} {a : CallAction} {c' : Call} {o' : StoreResp}
    {posted : List Request}
    (hadv : Register.advance signingRoot blocked k c o a = some (c', o', posted)) :
    CallInv V signingRoot c' o' (pend ++ posted) := by
  simp only [Register.advance] at hadv
  split at hadv
  · next i hstage =>
      split at hadv
      · cases hadv
      · split at hadv
        · next hi =>
            split at hadv
            · next err hctx =>
                cases hadv
                rw [List.append_nil]
                exact (h.close err (by simp [hstage])).leave (.inr ⟨err, rfl⟩)
            · cases hadv
              rw [List.append_nil]
              exact h.enter hstage hi
        · cases hadv
          rw [List.append_nil]
          exact h.leave (.inl rfl)
  · next i hit hstage =>
      split at hadv
      · cases hadv
        rw [List.append_nil]
        exact h.skip hstage
      · cases hadv
        rw [List.append_nil]
        exact h.miss hstage
  · next i now known hstage =>
      obtain ⟨p, hp, hadv⟩ := Option.bind_eq_some_iff.1 hadv
      cases hother : Dreamboat.verifyOther known now p with
      | some err =>
          simp only [hother] at hadv
          cases hadv
          rw [List.append_nil]
          exact (h.close err (by simp [hstage])).leave (.inl rfl)
      | none =>
          simp only [hother] at hadv
          cases hadv
          rw [List.append_nil]
          exact h.pass hstage hp hother
  · next i hstage =>
      obtain ⟨p, hp, hadv⟩ := Option.bind_eq_some_iff.1 hadv
      cases hmsg : signingRoot p.message with
      | error err =>
          simp only [hmsg] at hadv
          cases hadv
          rw [List.append_nil]
          exact (h.close _ (by simp [hstage])).leave (.inl rfl)
      | ok msg =>
          simp only [hmsg] at hadv
          cases hadv
          exact h.post hstage hp hmsg
  · next hstage =>
      split at hadv
      · cases hadv
      · obtain ⟨⟨err, o₁⟩, hrecv, hstored⟩ := Option.bind_eq_some_iff.1 hadv
        obtain ⟨-, rfl, hclosed⟩ := StoreResp.receive_of_buf_nil h.buf hrecv
        simp only at hstored
        split at hstored
        · next hnil =>
            cases hstored
            rw [List.append_nil]
            exact h.store hstage hclosed (.inl ⟨rfl, hnil⟩)
        · obtain ⟨request, hrequest⟩ := h.exists_request
          simp only [hrequest] at hstored
          cases hstored
          rw [List.append_nil]
          exact h.store hstage hclosed (.inr ⟨request, rfl, hrequest⟩)
  · next hstage =>
      split at hadv
      · cases hadv
      · obtain ⟨err, -, hadv⟩ := Option.bind_eq_some_iff.1 hadv
        cases hadv
        rw [List.append_nil]
        exact (h.close err (by simp [hstage])).leave (.inr ⟨err, rfl⟩)
  · next hstage =>
      cases hadv
      rw [List.append_nil]
      exact h.ret hstage
  · cases hadv
    rw [List.append_nil]
    exact ⟨h.buf, h.index, h.next_le, h.nodup, h.before, h.asks, h.verified, h.computing, h.opened,
      h.closed, h.request, h.stored, h.returned, h.ok⟩
  · cases hadv

end CallInv

/-- A call posts its own requests. -/
theorem response_of_advance {blocked : Bool} {k : ℕ} {a : CallAction} {c' : Call} {o' : StoreResp}
    {posted : List Request} (h : advance signingRoot blocked k c o a = some (c', o', posted)) :
    ∀ r ∈ posted, r.response = .foreign k := by
  unfold advance at h
  split at h <;> grind [Option.bind_eq_some_iff]

/-! ### The requests on their way -/

/-- The requests in the queues. -/
def queued (queue : Verify.Queue → List Request) : List Request :=
  queue .submit ++ (queue .register ++ queue .other)

/-- The requests in the queues and with the workers. -/
def requests (ver : Verify.State) : List Request :=
  queued ver.queue ++ ver.workers.filterMap Verify.Worker.request

/-- The requests of the call `k`. -/
def pending (ver : Verify.State) (k : ℕ) : List Request :=
  (requests ver).filter fun r => r.response = .foreign k

/-- The requests of one queue and those of the others. -/
theorem exists_queued_rest (queue : Verify.Queue → List Request) (q : Verify.Queue) :
    ∃ others, ∀ l, (queued (Function.update queue q l)).Perm (l ++ others) := by
  cases q with
  | submit => exact ⟨queue .register ++ queue .other, fun l => by simp [queued]⟩
  | register =>
      refine ⟨queue .submit ++ queue .other, fun l => ?_⟩
      simpa [queued] using List.perm_append_comm_assoc (queue .submit) l (queue .other)
  | other =>
      refine ⟨queue .submit ++ queue .register, fun l => ?_⟩
      have hcomm : (queue .submit ++ queue .register ++ l).Perm
          (l ++ (queue .submit ++ queue .register)) := List.perm_append_comm
      simpa [queued] using hcomm

theorem queued_append (queue : Verify.Queue → List Request) (q : Verify.Queue)
    (l : List Request) :
    (queued (Function.update queue q (queue q ++ l))).Perm (l ++ queued queue) := by
  obtain ⟨others, hothers⟩ := exists_queued_rest queue q
  have hold := hothers (queue q)
  rw [Function.update_eq_self] at hold
  calc (queued (Function.update queue q (queue q ++ l))).Perm (queue q ++ l ++ others) := hothers _
    List.Perm _ (queue q ++ (l ++ others)) := by rw [List.append_assoc]
    List.Perm _ (l ++ (queue q ++ others)) := List.perm_append_comm_assoc _ _ _
    List.Perm _ (l ++ queued queue) := hold.symm.append_left l

theorem queued_cons (queue : Verify.Queue → List Request) {q : Verify.Queue} {r : Request}
    {rest : List Request} (h : queue q = r :: rest) :
    (queued queue).Perm (r :: queued (Function.update queue q rest)) := by
  obtain ⟨others, hothers⟩ := exists_queued_rest queue q
  have hold := hothers (queue q)
  rw [Function.update_eq_self, h] at hold
  exact hold.trans ((hothers rest).symm.cons r)

/-- What a step of the workers and the `Enqueue` calls does to the requests and to the objects of
the calls. -/
inductive Effect (V : VerifySignatureBytes) (ver ver' : Verify.State) : Prop where
  | same (hforeign : ver'.foreign = ver.foreign) (hperm : (requests ver').Perm (requests ver))
  | enqueue (r : Request) (k : ℕ) (hresponse : r.response = .enqueue k)
      (hforeign : ver'.foreign = ver.foreign) (hperm : (requests ver').Perm (r :: requests ver))
  | drop (r : Request) (hforeign : ver'.foreign = ver.foreign)
      (hperm : (requests ver).Perm (r :: requests ver'))
  | send (r : Request) (k : ℕ) (hresponse : r.response = .foreign k)
      (hforeign : ver'.foreign = ver.foreign.modify k fun o =>
        o.send (verifyUnit V r.id r.msg r.signature r.pubkey))
      (hperm : (requests ver).Perm (r :: requests ver'))

/-- A worker gives its request up. -/
theorem requests_idle {ver ver' : Verify.State} {w : ℕ} {worker : Verify.Worker} {r : Request}
    (hw : ver.workers[w]? = some worker) (hr : worker.request = some r)
    (hqueue : ver'.queue = ver.queue) (hworkers : ver'.workers = ver.workers.set w .idle) :
    (requests ver).Perm (r :: requests ver') := by
  obtain ⟨rest, hold, hnew⟩ := Runs.exists_filterMap_rest Verify.Worker.request hw
  rw [hr] at hold
  rw [requests, requests, hqueue, hworkers]
  exact (hold.append_left _).trans
    (List.perm_middle.trans (((hnew .idle).symm.append_left _).cons r))

theorem effect_of_step {ver ver' : Verify.State} {a : Verify.Action} (ha : isEnvironment a = true)
    (h : Verify.step V cap ver a = some ver') : Effect V ver ver' := by
  cases a with
  | enqueue signature pubkey msg =>
      cases h
      refine .enqueue ⟨signature, pubkey, msg, 0, .enqueue ver.calls.length⟩ _ rfl rfl ?_
      exact (queued_append ver.queue .submit _).append_right _
  | receive w q =>
      simp only [Verify.step] at h
      split at h
      · next r rest hw hq =>
          cases h
          refine .same rfl ?_
          obtain ⟨others, hold, hnew⟩ := Runs.exists_filterMap_rest Verify.Worker.request hw
          calc (requests _).Perm _ := ((hnew (.received r)).append_left _)
            List.Perm _ _ := List.perm_middle
            List.Perm _ _ := ((queued_cons ver.queue hq).symm.append_right others)
            List.Perm _ _ := (hold.symm.append_left _)
      · cases h
  | isClosed w =>
      simp only [Verify.step] at h
      split at h
      · next r hw =>
          obtain ⟨o, -, h⟩ := Option.bind_eq_some_iff.1 h
          cases h
          cases o.isClosed with
          | true => exact .drop r rfl (requests_idle hw rfl rfl rfl)
          | false =>
              refine .same rfl ?_
              obtain ⟨others, hold, hnew⟩ := Runs.exists_filterMap_rest Verify.Worker.request hw
              exact ((hnew (.checking r)).trans hold.symm).append_left _
      · cases h
  | verify w =>
      simp only [Verify.step] at h
      split at h
      · next r hw =>
          cases h
          cases hresp : r.response with
          | enqueue k =>
              refine .drop r ?_ (requests_idle hw rfl ?_ rfl)
              · simp [Verify.State.send, hresp]
              · simp [Verify.State.send, hresp]
          | foreign k =>
              refine .send r k hresp ?_ (requests_idle hw rfl ?_ rfl)
              · simp [Verify.State.send, hresp]
              · simp [Verify.State.send, hresp]
      · cases h
  | ctxDone k err =>
      cases h
      exact .same rfl (List.Perm.refl _)
  | selectDone k =>
      obtain ⟨c, -, h⟩ := Option.bind_eq_some_iff.1 h
      obtain ⟨⟨err, o⟩, -, h⟩ := Option.bind_eq_some_iff.1 h
      dsimp only at h
      split at h
      · cases h
        exact .same rfl (List.Perm.refl _)
      · cases h
  | selectCtx k =>
      obtain ⟨c, -, h⟩ := Option.bind_eq_some_iff.1 h
      obtain ⟨err, -, h⟩ := Option.bind_eq_some_iff.1 h
      split at h
      · cases h
        exact .same rfl (List.Perm.refl _)
      · cases h
  | newRespC numAll => cases ha
  | post q signature pubkey msg id k => cases ha
  | skipOne k => cases ha
  | close k err => cases ha

/-! ### The calls in a run -/

variable (V signingRoot) in
/-- Every call has an object, every request for an object has a call, and the calls keep their
invariant. -/
structure Inv (s : State) : Prop where
  length : s.ver.foreign.length = s.calls.length
  fits : ∀ r ∈ requests s.ver, ∀ k, r.response = .foreign k → k < s.calls.length
  call : ∀ (k : ℕ) (c : Call) (o : StoreResp), s.calls[k]? = some c → s.ver.foreign[k]? = some o →
    CallInv V signingRoot c o (pending s.ver k)

theorem inv_init (workers : ℕ) : Inv V signingRoot (State.init workers) where
  length := rfl
  fits := by
    have hidle : ∀ n,
        (List.replicate n Verify.Worker.idle).filterMap Verify.Worker.request = [] := by
      intro n
      induction n with
      | zero => rfl
      | succ n ih => exact ih
    intro r hr
    rw [requests] at hr
    simp [State.init, Verify.State.init, queued, hidle] at hr
  call := by simp [State.init]

theorem pending_cons (r : Request) {ver ver' : Verify.State}
    (hperm : (requests ver).Perm (r :: requests ver')) (k : ℕ) :
    (pending ver k).Perm
      (if r.response = .foreign k then r :: pending ver' k else pending ver' k) := by
  have hfilter := hperm.filter fun r => decide (r.response = .foreign k)
  simp only [List.filter_cons, decide_eq_true_eq] at hfilter
  exact hfilter

/-- The workers and the `Enqueue` calls keep the invariant. -/
theorem Inv.effect {s : State} (h : Inv V signingRoot s) {ver : Verify.State}
    (he : Effect V s.ver ver) : Inv V signingRoot { s with ver } := by
  cases he with
  | same hforeign hperm =>
      refine ⟨hforeign ▸ h.length, ?_, ?_⟩
      · intro r hr
        exact h.fits r (hperm.mem_iff.1 hr)
      · intro k c o hc ho
        rw [hforeign] at ho
        exact (h.call k c o hc ho).perm (hperm.filter _)
  | enqueue r k hresponse hforeign hperm =>
      refine ⟨hforeign ▸ h.length, ?_, ?_⟩
      · intro r' hr' j hj
        rcases List.mem_cons.1 (hperm.mem_iff.1 hr') with rfl | hr'
        · rw [hresponse] at hj
          cases hj
        · exact h.fits r' hr' j hj
      · intro j c o hc ho
        rw [hforeign] at ho
        refine (h.call j c o hc ho).perm ?_
        simpa [hresponse] using pending_cons r hperm j
  | drop r hforeign hperm =>
      refine ⟨hforeign ▸ h.length, ?_, ?_⟩
      · intro r' hr'
        exact h.fits r' (hperm.mem_iff.2 (List.mem_cons_of_mem _ hr'))
      · intro k c o hc ho
        rw [hforeign] at ho
        have hpending := pending_cons r hperm k
        split at hpending
        · exact (h.call k c o hc ho).drop hpending
        · exact (h.call k c o hc ho).perm hpending.symm
  | send r k hresponse hforeign hperm =>
      refine ⟨?_, ?_, ?_⟩
      · rw [hforeign, List.length_modify]
        exact h.length
      · intro r' hr'
        exact h.fits r' (hperm.mem_iff.2 (List.mem_cons_of_mem _ hr'))
      · intro j c o hc ho
        have hpending := pending_cons r hperm j
        rw [hforeign, List.getElem?_modify] at ho
        by_cases hj : k = j
        · subst hj
          obtain ⟨o', ho', rfl⟩ := Option.map_eq_some_iff.1 ho
          rw [if_pos hresponse] at hpending
          simpa using (h.call k c o' hc ho').send hpending
        · rw [if_neg (by simpa [hresponse] using hj)] at hpending
          have ho' : s.ver.foreign[j]? = some o := by simpa [hj] using ho
          exact (h.call j c o hc ho').perm hpending.symm

/-- A call comes in. -/
theorem Inv.registerValidator {s : State} (h : Inv V signingRoot s)
    (payload : List SignedValidatorRegistration) :
    Inv V signingRoot
      { ver := { s.ver with foreign := s.ver.foreign ++ [StoreResp.newRespC payload.length] }
        calls := s.calls ++ [newCall payload] } := by
  refine ⟨by simp [h.length], ?_, ?_⟩
  · intro r hr k hk
    have hlt := h.fits r hr k hk
    simp only [List.length_append, List.length_singleton]
    omega
  · intro k c o hc ho
    rcases Runs.getElem?_concat_cases h.length hc ho with ⟨hc, ho⟩ | ⟨rfl, rfl, rfl⟩
    · exact h.call k c o hc ho
    · -- there is no request for the new object
      have hnil : pending
          { s.ver with foreign := s.ver.foreign ++ [StoreResp.newRespC payload.length] }
          s.calls.length = [] := by
        refine List.filter_eq_nil_iff.2 ?_
        intro r hr hresponse
        have hlt := h.fits r hr s.calls.length (by simpa using hresponse)
        omega
      rw [hnil]
      exact callInv_new payload

/-- A call goes on. -/
theorem Inv.advance {s : State} (h : Inv V signingRoot s) {k : ℕ} {c c' : Call} {o o' : StoreResp}
    {posted : List Request} (hc : s.calls[k]? = some c) (ho : s.ver.foreign[k]? = some o)
    {blocked : Bool} {a : CallAction}
    (hadv : Register.advance signingRoot blocked k c o a = some (c', o', posted)) :
    Inv V signingRoot {
      ver := { s.ver with
        foreign := s.ver.foreign.set k o'
        queue := Function.update s.ver.queue .register (s.ver.queue .register ++ posted) }
      calls := s.calls.set k c' } := by
  have hk : k < s.calls.length := (List.getElem?_eq_some_iff.1 hc).1
  have hresponse := response_of_advance hadv
  have hperm := (queued_append s.ver.queue .register posted).append_right
    (s.ver.workers.filterMap Verify.Worker.request)
  rw [List.append_assoc] at hperm
  refine ⟨by simp [h.length], ?_, ?_⟩
  · intro r hr j hj
    rw [List.length_set]
    rcases List.mem_append.1 (hperm.mem_iff.1 hr) with hr | hr
    · rw [hresponse r hr] at hj
      cases hj
      exact hk
    · exact h.fits r hr j hj
  · intro j d q hd hq
    have hpending := (hperm.filter fun r => decide (r.response = .foreign j)).trans
      (List.Perm.of_eq (List.filter_append ..))
    rcases Runs.getElem?_set_cases h.length hk hd hq with ⟨rfl, rfl, rfl⟩ | ⟨hj, hd, hq⟩
    · have hall : posted.filter (fun r => decide (r.response = .foreign k)) = posted := by
        refine List.filter_eq_self.2 ?_
        intro r hr
        simpa using hresponse r hr
      rw [hall] at hpending
      exact ((h.call k c o hc ho).advance hadv).perm (hpending.trans List.perm_append_comm)
    · have hnone : posted.filter (fun r => decide (r.response = .foreign j)) = [] := by
        refine List.filter_eq_nil_iff.2 ?_
        intro r hr
        rw [hresponse r hr]
        simpa using hj
      rw [hnone, List.nil_append] at hpending
      exact (h.call j d q hd hq).perm hpending

theorem Inv.step {s s' : State} {a : Action} (h : Inv V signingRoot s)
    (hstep : Register.step V cap signingRoot s a = some s') : Inv V signingRoot s' := by
  cases a with
  | verify a =>
      simp only [Register.step] at hstep
      split at hstep
      · next ha =>
          obtain ⟨ver, hver, rfl⟩ := Option.map_eq_some_iff.1 hstep
          exact h.effect (effect_of_step ha hver)
      · cases hstep
  | recovered w =>
      simp only [Register.step] at hstep
      split at hstep
      · next r hw =>
          cases hstep
          exact h.effect (.drop r rfl (requests_idle hw rfl rfl rfl))
      · cases hstep
  | registerValidator payload =>
      cases hstep
      exact h.registerValidator payload
  | call k a =>
      obtain ⟨c, hc, hstep⟩ := Option.bind_eq_some_iff.1 hstep
      obtain ⟨o, ho, hstep⟩ := Option.bind_eq_some_iff.1 hstep
      obtain ⟨⟨c', o', posted⟩, hadv, hstep⟩ := Option.bind_eq_some_iff.1 hstep
      cases hstep
      exact h.advance hc ho hadv

/-- The validator of the public key `default` is known. -/
def oneKnown : ValidatorsState :=
  ⟨∅, (∅ : Go.Map String Unit).insert (hexString (default : PublicKey)) ()⟩

/-- A registration of that validator. -/
def laterRegistration : SignedValidatorRegistration :=
  { (default : SignedValidatorRegistration) with
    message := { (default : RegisterValidatorRequestMessage) with timestamp := 7 } }

/-- Two registrations: the first is in the cache, and the signature of the second is checked. -/
def oneOfTwo : List Action :=
  [.registerValidator [default, laterRegistration], .call 0 .select, .call 0 (.check true),
    .call 0 .select, .call 0 (.check false), .call 0 (.verifyOther 0 oneKnown),
    .call 0 .computeSigningRoot, .verify (.receive 0 .register), .call 0 .select,
    .verify (.isClosed 0), .verify (.verify 0), .call 0 .done, .call 0 .ret]

end Register

end Dreamboat
