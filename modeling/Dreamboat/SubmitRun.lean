/-
**`SubmitBlock` and the goroutine that validates the block.**

A call of `SubmitBlock` checks the block and the registration, starts a goroutine that has the block
validated by a node, goes on with the signature and the withdrawals, and then waits for the
goroutine or for the end of its context.  The goroutine reports through a channel with room for one
error: it sends an error if there is one, and closes the channel in any case.

Here the goroutine, the context and the other calls are interleaved in every way.  Each call keeps a
log of what the functions it calls have returned, so that the order of checks and effects can be
read off it.

Main definitions:

* `validateBlock` — the function the goroutine runs;
* `SubmitRun.Call`, `SubmitRun.Call.step` — one call with its goroutine, and what they can do;
* `SubmitRun.World`, `SubmitRun`, `SubmitRun.step` — the calls and what they store, add and publish;
* `SubmitRun.Call.Steps` — what a step of a call can do, by its branches;
* `SubmitRun.Call.Wf` — what a call has behind it in each stage.

Main results:

* `SubmitRun.Call.steps_of_step` — everything one step of a call can do;
* `SubmitRun.Call.Wf.step` — every step of a call keeps its invariant;
* `SubmitRun.Call.Wf.letThrough` — **the wait ends without an error only on a channel that is closed
  and empty**;
* `SubmitRun.effects_after_checks` — effects come after all the checks, in every interleaving.
-/

import Dreamboat.GoChan
import Dreamboat.SubmitBlock

set_option autoImplicit false

namespace Dreamboat

/-- `validateBlock`: `isSet` says whether a node is configured, and `rpc` is what it answers. -/
def validateBlock (P : Primitives) (cfg : RelayConfig) (isSet : Bool) (rpc : Option GoError)
    (sbr : SubmitBlockRequest) : Option GoError :=
  if !isSet then none
  else if cfg.allowListed sbr then none
  else
    match sbr.executionPayload with
    | .bellatrix _ => rpc.map fun err => .wrapf .errVerification err.error
    | .capella p =>
        match P.withdrawalsRoot (p.epWithdrawals.getD []) with
        | .error err => some (.wrapf .errVerification err.error)
        | .ok _ => rpc.map fun err => .wrapf .errVerification err.error

namespace SubmitRun

/-! ### One call -/

/-- What the calls are set up with. -/
structure Setup where
  primitives : Primitives
  cfg : RelayConfig
  fork : ForkState
  distributed : Bool

/-- What is logged: the functions a call has run, with the errors they have returned. -/
inductive Event where
  | verifyBlock (err : Option GoError)
  | checkRegistration (err : Option GoError)
  | validateBlock (err : Option GoError)
  | verifySignature (err : Option GoError)
  | verifyWithdrawals (err : Option GoError)
  | putPayload (err : Option GoError)
  | addBlock
  deriving DecidableEq, Repr

/-- The effects of a call on what others see. -/
def Event.isEffect : Event → Bool
  | .putPayload _ => true
  | .addBlock => true
  | _ => false

/-- The checks, all of them without an error. -/
def allPassed : List Event :=
  [.verifyBlock none, .checkRegistration none, .validateBlock none, .verifySignature none,
    .verifyWithdrawals none]

/-- Where a call is: in front of the function that comes next, or at its end. -/
inductive Stage where
  | called
  | verified
  | registered
  | signed
  | waiting
  | validated
  | stored (header : ExecutionPayloadHeader)
  | returned (err : Option GoError)

/-- Where the goroutine of a call is. -/
inductive Validation where
  | idle
  | running
  | reported
  | finished
  deriving DecidableEq, Repr

structure Call where
  sbr : SubmitBlockRequest
  stage : Stage
  validation : Validation
  /-- The channel between the goroutine and the call; `none` is the `nil` error. -/
  valErr : Go.Chan (Option GoError)
  /-- The error of the context, once it has ended. -/
  ctxErr : Option GoError
  log : List Event

/-- What a call does to the store, the auction and the stream. -/
inductive Effect where
  | none
  | put (key : PayloadKey) (payload : BlockAndTraceExtended)
  | add (call : AddCall)

/-- The steps of a call, of its goroutine and of its context, with what they are answered. -/
inductive CallAction where
  | verifyBlock (v : SubmitView)
  | checkRegistration (result : Except GoError UInt64)
  | verifySignature (enqueue : Option GoError)
  | verifyWithdrawals (v : SubmitView)
  /-- The goroutine runs `validateBlock` and sends its error. -/
  | validate (isSet : Bool) (rpc : Option GoError)
  /-- The goroutine closes the channel. -/
  | closeValErr
  /-- The context ends. -/
  | cancel (err : GoError)
  /-- The wait takes what the channel has. -/
  | receive
  /-- The wait takes the end of the context. -/
  | ctxDone
  | putPayload (err : Option GoError)
  | addBlock (order : LoopOrder)

namespace Call

/-- `SubmitBlock` is called. -/
def new (sbr : SubmitBlockRequest) : Call :=
  ⟨sbr, .called, .idle, Go.Chan.make 1, none, []⟩

/-- A check has run: the call goes on in the stage `next`, or it returns the error. -/
def check (c : Call) (e : Event) (err : Option GoError) (next : Stage) : Call :=
  { c with
    stage := match err with
      | none => next
      | some err => .returned (some err)
    log := c.log ++ [e] }

variable (S : Setup)

def step (c : Call) : CallAction → Option (Call × Effect)
  | .verifyBlock v =>
      match c.stage with
      | .called =>
          let err := (Dreamboat.verifyBlock v c.sbr).2
          some (c.check (.verifyBlock err)
            (err.map fun err => .wrapf .errVerification err.error) .verified, .none)
      | _ => none
  | .checkRegistration result =>
      match c.stage, result with
      | .verified, .error err =>
          some (c.check (.checkRegistration (some err)) (some err) .registered, .none)
      | .verified, .ok _ =>
          some ({ c.check (.checkRegistration none) none .registered with validation := .running },
            .none)
      | _, _ => none
  | .verifySignature enqueue =>
      match c.stage with
      | .registered =>
          let err := Dreamboat.verifySignature S.primitives S.cfg c.sbr fun _ _ _ => enqueue
          some (c.check (.verifySignature err) err .signed, .none)
      | _ => none
  | .verifyWithdrawals v =>
      match c.stage with
      | .signed =>
          let err := (Dreamboat.verifyWithdrawals S.primitives v c.sbr).2.2
          some (c.check (.verifyWithdrawals err)
            (err.map fun err => .wrap ("failed to verify withdrawals: " ++ err.error) err)
            .waiting, .none)
      | _ => none
  | .validate isSet rpc =>
      match c.validation with
      | .running =>
          let err := Dreamboat.validateBlock S.primitives S.cfg isSet rpc c.sbr
          let c := { c with validation := .reported, log := c.log ++ [.validateBlock err] }
          match err with
          | none => some (c, .none)
          | some err =>
              (c.valErr.trySend (some err)).map fun valErr => ({ c with valErr := valErr }, .none)
      | _ => none
  | .closeValErr =>
      match c.validation with
      | .reported =>
          if h : c.valErr.closed = false then
            some ({ c with validation := .finished, valErr := c.valErr.close h }, .none)
          else none
      | _ => none
  | .cancel err =>
      match c.ctxErr with
      | none => some ({ c with ctxErr := some err }, .none)
      | some _ => none
  | .receive =>
      match c.stage with
      | .waiting =>
          (c.valErr.recv none).map fun r =>
            match r with
            | (none, valErr) => ({ c with stage := .validated, valErr := valErr }, .none)
            | (some err, valErr) =>
                ({ c with stage := .returned (some err), valErr := valErr }, .none)
      | _ => none
  | .ctxDone =>
      match c.stage, c.ctxErr with
      | .waiting, some err => some ({ c with stage := .returned (some err) }, .none)
      | _, _ => none
  | .putPayload err =>
      match c.stage with
      | .validated =>
          match storeContents S.primitives S.cfg c.sbr, err with
          | .error err, _ => some ({ c with stage := .returned (some err) }, .none)
          | .ok _, some err =>
              some (c.check (.putPayload (some err))
                (some (.wrap (Sentinel.errStore.text ++ " block as payload: " ++ err.error)
                  (.sentinel .errStore))) .validated, .none)
          | .ok (payload, header), none =>
              some (c.check (.putPayload none) none (.stored header),
                .put c.sbr.toPayloadKey payload)
      | _ => none
  | .addBlock order =>
      match c.stage with
      | .stored header =>
          match bidExtended S.fork c.sbr header with
          | .error err =>
              -- the payload stays in the store
              some ({ c with
                stage := .returned (some (.wrap ("failed to generate bid: " ++ err.error) err)) },
                .none)
          | .ok bid => some (c.check .addBlock none (.returned none), .add ⟨order, bid⟩)
      | _ => none

end Call

end SubmitRun

/-! ### The calls together -/

/-- What the calls share: the payload store, the auction and what is handed to the stream. -/
structure SubmitRun.World where
  store : PayloadKey → Option BlockAndTraceExtended
  auction : Auctioneer
  published : List BuilderBidExtended

structure SubmitRun where
  world : SubmitRun.World
  calls : List SubmitRun.Call

namespace SubmitRun

/-- An effect on what the calls share. -/
def World.apply (S : Setup) (w : World) : Effect → World
  | .none => w
  | .put key payload => { w with store := Function.update w.store key (some payload) }
  | .add call =>
      { w with
        auction := (w.auction.addBlock call).1
        published := if S.distributed then w.published ++ [call.bid] else w.published }

def init (w : World) : SubmitRun := ⟨w, []⟩

inductive Action where
  | submit (sbr : SubmitBlockRequest)
  /-- A step of the call at place `k`. -/
  | call (k : ℕ) (act : CallAction)

def step (S : Setup) (s : SubmitRun) : Action → Option SubmitRun
  | .submit sbr => some { s with calls := s.calls ++ [Call.new sbr] }
  | .call k act => do
      let c ← s.calls[k]?
      let (c', effect) ← c.step S act
      return ⟨s.world.apply S effect, s.calls.set k c'⟩

/-! ### The invariant of a call -/

/-- The checks a call has behind it in each stage. -/
def Stage.passed : Stage → List Event
  | .called => []
  | .verified => [.verifyBlock none]
  | .registered => [.verifyBlock none, .checkRegistration none]
  | .signed => [.verifyBlock none, .checkRegistration none, .verifySignature none]
  | .waiting =>
      [.verifyBlock none, .checkRegistration none, .verifySignature none, .verifyWithdrawals none]
  | .validated => allPassed
  | .stored _ => allPassed
  | .returned _ => []

/-- The stages in which a call has not taken anything from the channel. -/
def Stage.isEarly : Stage → Bool
  | .validated => false
  | .stored _ => false
  | .returned _ => false
  | _ => true

/-- The stages before the goroutine is started. -/
def Stage.isUnstarted : Stage → Bool
  | .called => true
  | .verified => true
  | _ => false

/-- The goroutine has sent its error, if there was one. -/
def Validation.hasReported : Validation → Bool
  | .idle => false
  | .running => false
  | .reported => true
  | .finished => true

/-- What the channel says as long as nothing has been taken from it. -/
structure Call.Reports (c : Call) : Prop where
  silent : c.validation.hasReported = false → c.valErr.buf = [] ∧ c.valErr.closed = false
  spoken : c.validation.hasReported = true →
    (c.valErr.buf = [] ∧ .validateBlock none ∈ c.log) ∨ ∃ err, c.valErr.buf = [some err]

/-- The log has every effect after all the checks. -/
def Ordered (log : List Event) : Prop :=
  ∀ pre e post, log = pre ++ e :: post → e.isEffect = true → allPassed ⊆ pre

/-- The invariant of a call. -/
structure Call.Wf (c : Call) : Prop where
  passed : c.stage.passed ⊆ c.log
  idle : c.stage.isUnstarted = true → c.validation = .idle
  reports : c.stage.isEarly = true → c.Reports
  ordered : Ordered c.log

theorem ordered_concat {log : List Event} {e : Event} (h : Ordered log)
    (he : e.isEffect = true → allPassed ⊆ log) : Ordered (log ++ [e]) := by
  intro pre e' post hsplit heff
  rcases List.eq_nil_or_concat post with rfl | ⟨post, x, rfl⟩
  · obtain ⟨rfl, he'⟩ := List.append_inj' hsplit rfl
    obtain rfl := List.singleton_inj.1 he'
    exact he heff
  · rw [List.concat_eq_append, ← List.cons_append, ← List.append_assoc] at hsplit
    exact h pre e' post (List.append_inj' hsplit rfl).1 heff

theorem Call.wf_new (sbr : SubmitBlockRequest) : (Call.new sbr).Wf where
  passed := List.nil_subset _
  idle _ := rfl
  reports _ := ⟨fun _ => ⟨rfl, rfl⟩, fun h => by cases h⟩
  ordered pre e post h _ := by simp [Call.new] at h

namespace Call

variable {S : Setup} {c c' : Call} {effect : Effect}

/-- What the channel says stays true when the log grows. -/
theorem Reports.mono (h : c.Reports) {st : Stage} {log : List Event} (hlog : c.log ⊆ log) :
    ({ c with stage := st, log := log } : Call).Reports where
  silent := h.silent
  spoken hv := (h.spoken hv).imp (fun h => ⟨h.1, hlog h.2⟩) id

/-- A check that has run keeps the invariant, if it is the next one of the stage. -/
theorem Wf.check (h : c.Wf) {e : Event} {err : Option GoError} {next : Stage}
    (he : e.isEffect = true → allPassed ⊆ c.log)
    (hpassed : err = none → next.passed ⊆ c.log ++ [e])
    (hidle : next.isUnstarted = true → c.stage.isUnstarted = true)
    (hearly : next.isEarly = true → c.stage.isEarly = true) : (c.check e err next).Wf := by
  have hlog : c.log ⊆ c.log ++ [e] := List.subset_append_left _ _
  cases err with
  | none =>
      exact ⟨hpassed rfl, fun hu => h.idle (hidle hu), fun hs => (h.reports (hearly hs)).mono hlog,
        ordered_concat h.ordered he⟩
  | some err =>
      exact ⟨List.nil_subset _, fun hu => (by cases hu), fun hs => (by cases hs),
        ordered_concat h.ordered he⟩

/-- A call that returns or goes on past the wait without a new entry in its log. -/
theorem Wf.leave (h : c.Wf) {st : Stage} {valErr : Go.Chan (Option GoError)}
    (hpassed : st.passed ⊆ c.log) (hst : st.isEarly = false) :
    ({ c with stage := st, valErr := valErr } : Call).Wf := by
  refine ⟨hpassed, fun hu => ?_, fun hs => ?_, h.ordered⟩
  · cases st with
    | called => cases hst
    | verified => cases hst
    | _ => cases hu
  · rw [show Stage.isEarly _ = _ from hst] at hs
    cases hs

/-- **The wait ends without an error only on a channel that is closed and empty**, and then
`validateBlock` has returned without an error. -/
theorem Wf.letThrough (h : c.Wf) (hstage : c.stage = .waiting)
    {valErr : Go.Chan (Option GoError)} (hrecv : c.valErr.recv none = some (none, valErr)) :
    c.valErr.closed = true ∧ c.valErr.buf = [] ∧ .validateBlock none ∈ c.log := by
  have hreports := h.reports (by rw [hstage]; rfl)
  cases hv : c.validation.hasReported with
  | false =>
      -- nothing can be received from an open channel that is empty
      obtain ⟨hnil, hopen⟩ := hreports.silent hv
      have hclosed := (Go.Chan.recv_of_buf_nil hnil hrecv).2.2
      rw [hopen] at hclosed
      cases hclosed
  | true =>
      rcases hreports.spoken hv with ⟨hnil, hlog⟩ | ⟨err, herr⟩
      · exact ⟨(Go.Chan.recv_of_buf_nil hnil hrecv).2.2, hnil, hlog⟩
      · -- an error in the channel would have been received
        simp [Go.Chan.recv, herr] at hrecv

/-- The goroutine reports: it has something to say to a call that still listens. -/
theorem Wf.report (h : c.Wf) (hv : c.validation = .running) (err : Option GoError)
    {valErr : Go.Chan (Option GoError)}
    (hbuf : c.stage.isEarly = true → (valErr.buf = [] ∧ err = none) ∨ ∃ e, valErr.buf = [some e]) :
    (⟨c.sbr, c.stage, .reported, valErr, c.ctxErr, c.log ++ [.validateBlock err]⟩ : Call).Wf where
  passed := List.Subset.trans h.passed (List.subset_append_left _ _)
  idle hu := by
    rw [h.idle hu] at hv
    cases hv
  reports hs := by
    refine ⟨fun hv => (by cases hv), fun _ => ?_⟩
    rcases hbuf hs with ⟨hnil, rfl⟩ | herr
    · exact .inl ⟨hnil, List.mem_append_right _ List.mem_cons_self⟩
    · exact .inr herr
  ordered := ordered_concat h.ordered fun he => by cases he

/-- What a step of a call can do, by its branches. -/
inductive Steps (c : Call) : Call → Effect → Prop
  | verifyBlock (err ret : Option GoError) (hret : ret = none → err = none)
      (hstage : c.stage = .called) :
      Steps c (c.check (.verifyBlock err) ret .verified) .none
  | unregistered (err : GoError) (hstage : c.stage = .verified) :
      Steps c (c.check (.checkRegistration (some err)) (some err) .registered) .none
  /-- The goroutine is started. -/
  | registered (hstage : c.stage = .verified) :
      Steps c { c.check (.checkRegistration none) none .registered with validation := .running }
        .none
  | verifySignature (err : Option GoError) (hstage : c.stage = .registered) :
      Steps c (c.check (.verifySignature err) err .signed) .none
  | verifyWithdrawals (err ret : Option GoError) (hret : ret = none → err = none)
      (hstage : c.stage = .signed) :
      Steps c (c.check (.verifyWithdrawals err) ret .waiting) .none
  | validated (hv : c.validation = .running) :
      Steps c { c with validation := .reported, log := c.log ++ [.validateBlock none] } .none
  | invalid (hv : c.validation = .running) (err : GoError) (valErr : Go.Chan (Option GoError))
      (hsend : c.valErr.trySend (some err) = some valErr) :
      Steps c { c with
        validation := .reported, log := c.log ++ [.validateBlock (some err)], valErr := valErr }
        .none
  | closeValErr (hv : c.validation = .reported) (hopen : c.valErr.closed = false) :
      Steps c { c with validation := .finished, valErr := c.valErr.close hopen } .none
  | cancel (err : GoError) : Steps c { c with ctxErr := some err } .none
  /-- The wait ends without an error. -/
  | letThrough (hstage : c.stage = .waiting) (valErr : Go.Chan (Option GoError))
      (hrecv : c.valErr.recv none = some (none, valErr)) :
      Steps c { c with stage := .validated, valErr := valErr } .none
  /-- The call returns an error without a new entry in its log. -/
  | leaves (err : GoError) (valErr : Go.Chan (Option GoError)) :
      Steps c { c with stage := .returned (some err), valErr := valErr } .none
  | putFails (err ret : GoError) (hstage : c.stage = .validated) :
      Steps c (c.check (.putPayload (some err)) (some ret) .validated) .none
  | put (header : ExecutionPayloadHeader) (key : PayloadKey) (payload : BlockAndTraceExtended)
      (hstage : c.stage = .validated) :
      Steps c (c.check (.putPayload none) none (.stored header)) (.put key payload)
  | add (header : ExecutionPayloadHeader) (call : AddCall) (hstage : c.stage = .stored header) :
      Steps c (c.check .addBlock none (.returned none)) (.add call)

/-- **Everything one step of a call can do.** -/
theorem steps_of_step {act : CallAction} (hs : c.step S act = some (c', effect)) :
    Steps c c' effect := by
  cases act with
  | verifyBlock v =>
      simp only [Call.step] at hs
      split at hs
      · next hstage =>
          cases hs
          exact .verifyBlock _ _ Option.map_eq_none_iff.1 hstage
      · cases hs
  | checkRegistration result =>
      simp only [Call.step] at hs
      split at hs
      · next err hstage =>
          cases hs
          exact .unregistered err hstage
      · next hstage =>
          cases hs
          exact .registered hstage
      · cases hs
  | verifySignature enqueue =>
      simp only [Call.step] at hs
      split at hs
      · next hstage =>
          cases hs
          exact .verifySignature _ hstage
      · cases hs
  | verifyWithdrawals v =>
      simp only [Call.step] at hs
      split at hs
      · next hstage =>
          cases hs
          exact .verifyWithdrawals _ _ Option.map_eq_none_iff.1 hstage
      · cases hs
  | validate isSet rpc =>
      simp only [Call.step] at hs
      split at hs
      · next hv =>
          split at hs
          · next herr =>
              cases hs
              rw [herr]
              exact .validated hv
          · next err herr =>
              obtain ⟨valErr, hsend, hs⟩ := Option.map_eq_some_iff.1 hs
              cases hs
              rw [herr]
              exact .invalid hv err valErr hsend
      · cases hs
  | closeValErr =>
      simp only [Call.step] at hs
      split at hs
      · next hv =>
          split at hs
          · next hopen =>
              cases hs
              exact .closeValErr hv hopen
          · cases hs
      · cases hs
  | cancel err =>
      simp only [Call.step] at hs
      split at hs
      · cases hs
        exact .cancel err
      · cases hs
  | receive =>
      simp only [Call.step] at hs
      split at hs
      · next hstage =>
          obtain ⟨⟨err, valErr⟩, hrecv, hs⟩ := Option.map_eq_some_iff.1 hs
          cases err with
          | none =>
              cases hs
              exact .letThrough hstage valErr hrecv
          | some err =>
              cases hs
              exact .leaves err valErr
      · cases hs
  | ctxDone =>
      simp only [Call.step] at hs
      split at hs
      · next err _ _ =>
          cases hs
          exact .leaves _ c.valErr
      · cases hs
  | putPayload err =>
      simp only [Call.step] at hs
      split at hs
      · next hstage =>
          split at hs
          · cases hs
            exact .leaves _ c.valErr
          · cases hs
            exact .putFails _ _ hstage
          · cases hs
            exact .put _ _ _ hstage
      · cases hs
  | addBlock order =>
      simp only [Call.step] at hs
      split at hs
      · next header hstage =>
          split at hs
          · cases hs
            exact .leaves _ c.valErr
          · cases hs
            exact .add header _ hstage
      · cases hs

/-- Every step of a call keeps its invariant. -/
theorem Wf.step (h : c.Wf) (hs : Steps c c' effect) : c'.Wf := by
  have hpassed := h.passed
  -- the checks behind a call and the new one
  have hconcat : ∀ e, c.stage.passed ++ [e] ⊆ c.log ++ [e] := fun e =>
    List.append_subset.2 ⟨List.Subset.trans hpassed (List.subset_append_left _ _),
      List.subset_append_right _ _⟩
  cases hs with
  | verifyBlock err ret hret hstage =>
      refine h.check (fun he => by cases he) (fun herr => ?_) (fun _ => by rw [hstage]; rfl)
        (fun _ => by rw [hstage]; rfl)
      rw [hret herr]
      exact List.subset_append_right _ _
  | unregistered err hstage =>
      exact h.check (fun he => by cases he) (fun herr => by cases herr) (fun hu => by cases hu)
        (fun _ => by rw [hstage]; rfl)
  | registered hstage =>
      have hreports := h.reports (by rw [hstage]; rfl)
      have hidle : c.validation.hasReported = false := by
        rw [h.idle (by rw [hstage]; rfl)]
        rfl
      rw [hstage] at hconcat
      exact ⟨hconcat _, fun hu => (by cases hu), fun _ => ⟨fun _ => hreports.silent hidle,
        fun hv => (by cases hv)⟩, ordered_concat h.ordered fun he => by cases he⟩
  | verifySignature err hstage =>
      rw [hstage] at hconcat
      refine h.check (fun he => by cases he) (fun herr => ?_) (fun hu => by cases hu)
        (fun _ => by rw [hstage]; rfl)
      rw [herr]
      exact hconcat _
  | verifyWithdrawals err ret hret hstage =>
      rw [hstage] at hconcat
      refine h.check (fun he => by cases he) (fun herr => ?_) (fun hu => by cases hu)
        (fun _ => by rw [hstage]; rfl)
      rw [hret herr]
      exact hconcat _
  | validated hv =>
      refine h.report hv none fun hearly => .inl ⟨?_, rfl⟩
      exact ((h.reports hearly).silent (by rw [hv]; rfl)).1
  | invalid hv err valErr hsend =>
      refine h.report hv _ fun hearly => .inr ⟨err, ?_⟩
      rw [(Go.Chan.trySend_eq_some hsend).1, ((h.reports hearly).silent (by rw [hv]; rfl)).1,
        List.nil_append]
  | closeValErr hv hopen =>
      refine ⟨hpassed, fun hu => ?_, fun hearly => ⟨fun hv => (by cases hv), fun _ => ?_⟩,
        h.ordered⟩
      · rw [h.idle hu] at hv
        cases hv
      · exact (h.reports hearly).spoken (by rw [hv]; rfl)
  | cancel err =>
      exact ⟨hpassed, h.idle, fun hearly =>
        ⟨(h.reports hearly).silent, (h.reports hearly).spoken⟩, h.ordered⟩
  | letThrough hstage valErr hrecv =>
      rw [hstage] at hpassed
      have hval := (h.letThrough hstage hrecv).2.2
      refine h.leave ?_ rfl
      simp only [Stage.passed, allPassed, List.cons_subset, List.nil_subset, and_true]
        at hpassed ⊢
      exact ⟨hpassed.1, hpassed.2.1, hval, hpassed.2.2⟩
  | leaves err valErr => exact h.leave (List.nil_subset _) rfl
  | putFails err ret hstage =>
      rw [hstage] at hpassed
      exact h.check (fun _ => hpassed) (fun herr => by cases herr) (fun hu => by cases hu)
        (fun hearly => by cases hearly)
  | put header key payload hstage =>
      rw [hstage] at hpassed
      exact h.check (fun _ => hpassed)
        (fun _ => List.Subset.trans hpassed (List.subset_append_left _ _)) (fun hu => by cases hu)
        (fun hearly => by cases hearly)
  | add header call hstage =>
      rw [hstage] at hpassed
      exact h.check (fun _ => hpassed) (fun _ => List.nil_subset _) (fun hu => by cases hu)
        (fun hearly => by cases hearly)

/-- A call gets past its wait by taking the `nil` error from the channel. -/
theorem recv_of_validated (hs : Steps c c' effect) (hstage : c.stage = .waiting)
    (hstage' : c'.stage = .validated) : ∃ valErr, c.valErr.recv none = some (none, valErr) := by
  cases hs with
  | letThrough _ valErr hrecv => exact ⟨valErr, hrecv⟩
  | leaves err valErr => cases hstage'
  | validated _ => exact absurd (hstage.symm.trans hstage') (by simp)
  | invalid _ _ _ _ => exact absurd (hstage.symm.trans hstage') (by simp)
  | closeValErr _ _ => exact absurd (hstage.symm.trans hstage') (by simp)
  | cancel _ => exact absurd (hstage.symm.trans hstage') (by simp)
  | _ =>
      -- the other steps belong to other stages
      next hother => exact absurd (hstage.symm.trans hother) (by simp)

/-- A call has an effect in two stages only. -/
theorem stage_of_effect (hs : Steps c c' effect) (heff : effect ≠ .none) :
    c.stage = .validated ∨ ∃ header, c.stage = .stored header := by
  cases hs with
  | put header key payload hstage => exact .inl hstage
  | add header call hstage => exact .inr ⟨header, hstage⟩
  | _ => exact absurd rfl heff

/-- A call that has an effect has all the checks behind it. -/
theorem Wf.allPassed_of_effect (h : c.Wf) (hs : Steps c c' effect) (heff : effect ≠ .none) :
    allPassed ⊆ c.log := by
  have hpassed := h.passed
  rcases stage_of_effect hs heff with hstage | ⟨header, hstage⟩
  · rw [hstage] at hpassed
    exact hpassed
  · rw [hstage] at hpassed
    exact hpassed

end Call

/-! ### The calls together -/

variable {S : Setup}

/-- Every call meets its invariant. -/
def Inv (s : SubmitRun) : Prop := ∀ c ∈ s.calls, c.Wf

theorem step_call_eq_some {s t : SubmitRun} {k : ℕ} {act : CallAction}
    (h : step S s (.call k act) = some t) :
    ∃ c c' effect, s.calls[k]? = some c ∧ c.step S act = some (c', effect) ∧
      t = ⟨s.world.apply S effect, s.calls.set k c'⟩ := by
  simp only [step, Option.bind_eq_bind] at h
  obtain ⟨c, hc, h⟩ := Option.bind_eq_some_iff.1 h
  obtain ⟨⟨c', effect⟩, hstep, h⟩ := Option.bind_eq_some_iff.1 h
  exact ⟨c, c', effect, hc, hstep, (Option.some_inj.1 h).symm⟩

theorem inv_step (s : SubmitRun) (a : Action) (t : SubmitRun) (h : Inv s)
    (hs : step S s a = some t) : Inv t := by
  cases a with
  | submit sbr =>
      rw [step, Option.some_inj] at hs
      subst hs
      intro c hc
      rcases List.mem_append.1 hc with hc | hc
      · exact h c hc
      · rw [List.mem_singleton.1 hc]
        exact Call.wf_new sbr
  | call k act =>
      obtain ⟨c, c', effect, hc, hstep, rfl⟩ := step_call_eq_some hs
      intro d hd
      rcases List.mem_or_eq_of_mem_set hd with hd | rfl
      · exact h d hd
      · exact (h c (List.mem_of_getElem? hc)).step (Call.steps_of_step hstep)

theorem inv_run {w : World} {as : List Action} {s : SubmitRun}
    (hrun : Runs.run (step S) (init w) as = some s) : Inv s :=
  Runs.run_invariant (step S) inv_step (fun c hc => by cases hc) hrun

/-- **Effects come after all the checks**, in every interleaving of the calls, their goroutines and
their contexts: in the log of every call each effect comes after all the checks, without errors; a
step changes what is shared only for a call that has them behind it; and a call gets past its wait
only when its channel is closed and empty and `validateBlock` has returned without an error. -/
theorem effects_after_checks (S : Setup) (w : World) {as : List Action} {s : SubmitRun}
    (hrun : Runs.run (step S) (init w) as = some s) :
    (∀ c ∈ s.calls, ∀ pre e post, c.log = pre ++ e :: post → e.isEffect = true →
      allPassed ⊆ pre) ∧
    (∀ a t, step S s a = some t → t.world ≠ s.world →
      ∃ k act c, a = .call k act ∧ s.calls[k]? = some c ∧ allPassed ⊆ c.log) ∧
    ∀ a t, step S s a = some t → ∀ (k : ℕ) (c c' : Call), s.calls[k]? = some c →
      t.calls[k]? = some c' → c.stage = .waiting → c'.stage = .validated →
      c.valErr.closed = true ∧ c.valErr.buf = [] ∧ .validateBlock none ∈ c.log := by
  have hinv := inv_run hrun
  refine ⟨fun c hc => (hinv c hc).ordered, fun a t hs hw => ?_,
    fun a t hs k c c' hc hc' hst hst' => ?_⟩
  · cases a with
    | submit sbr =>
        rw [step, Option.some_inj] at hs
        subst hs
        exact absurd rfl hw
    | call k act =>
        obtain ⟨c, c', effect, hc, hstep, rfl⟩ := step_call_eq_some hs
        refine ⟨k, act, c, rfl, hc, (hinv c (List.mem_of_getElem? hc)).allPassed_of_effect
          (Call.steps_of_step hstep) ?_⟩
        rintro rfl
        exact hw rfl
  · have hmoved : c' ≠ c := by
      rintro rfl
      rw [hst] at hst'
      cases hst'
    cases a with
    | submit sbr =>
        rw [step, Option.some_inj] at hs
        subst hs
        obtain ⟨hlt, -⟩ := List.getElem?_eq_some_iff.1 hc
        rw [List.getElem?_append_left hlt, hc, Option.some_inj] at hc'
        exact absurd hc'.symm hmoved
    | call j act =>
        obtain ⟨d, d', effect, hd, hstep, rfl⟩ := step_call_eq_some hs
        by_cases hjk : j = k
        · subst hjk
          obtain rfl := Option.some_inj.1 (hc.symm.trans hd)
          obtain ⟨hlt, -⟩ := List.getElem?_eq_some_iff.1 hc
          rw [List.getElem?_set_self hlt, Option.some_inj] at hc'
          subst hc'
          obtain ⟨valErr, hrecv⟩ := Call.recv_of_validated (Call.steps_of_step hstep) hst hst'
          exact (hinv c (List.mem_of_getElem? hc)).letThrough hst hrecv
        · rw [List.getElem?_set_ne hjk, hc, Option.some_inj] at hc'
          exact absurd hc'.symm hmoved

/-- A relay with a key, before the slot `32`, where the Capella fork begins. -/
def plainSetup : Setup where
  primitives := default
  cfg := { (default : RelayConfig) with secretKey := some default }
  fork := ⟨0, 0, 1⟩
  distributed := true

def plainView : SubmitView where
  genesisTime := 0
  headSlot := 31
  randao := hexString (default : Hash)
  randaoAgain := ""
  withdrawalsRoot := default
  withdrawalsRootAgain := default
  registration := .ok 0
  validation := none
  enqueue := none

/-- A submission for the slot `32`. -/
def plainSubmission : SubmitBlockRequest where
  signature := default
  message := { (default : BidTrace) with slot := 32, value := U256Str.ofNat 1 }
  executionPayload := .capella { (default : Capella.ExecutionPayload) with epTimestamp := 384 }

/-- The goroutine reports after the signature has been checked and before the wait. -/
def plainRun : List Action :=
  [.submit plainSubmission, .call 0 (.verifyBlock plainView), .call 0 (.checkRegistration (.ok 0)),
    .call 0 (.verifySignature none), .call 0 (.validate false none), .call 0 .closeValErr,
    .call 0 (.verifyWithdrawals plainView), .call 0 .receive, .call 0 (.putPayload none),
    .call 0 (.addBlock Go.RangeOrder.stored)]

/-- The bid is added, after all the checks. -/
theorem effects_after_checks_plainRun :
    ∃ s, Runs.run (step plainSetup) (init ⟨fun _ => none, Auctioneer.new, []⟩) plainRun = some s ∧
      ∃ c ∈ s.calls, c.log.getLast? = some .addBlock ∧ allPassed ⊆ c.log.dropLast := by
  obtain ⟨s, hs, hlog⟩ : ∃ s, Runs.run (step plainSetup)
      (init ⟨fun _ => none, Auctioneer.new, []⟩) plainRun = some s ∧
      ∃ c ∈ s.calls, c.log.getLast? = some .addBlock :=
    Runs.exists_run_of_any _ (by decide +kernel)
  obtain ⟨c, hc, hlast⟩ := hlog
  refine ⟨s, hs, c, hc, hlast, ?_⟩
  exact (effects_after_checks plainSetup _ hs).1 c hc c.log.dropLast .addBlock []
    (List.dropLast_append_getLast? _ hlast).symm rfl

end SubmitRun

end Dreamboat
