/-
**The clients behind the fallback.**

The three kinds of clients under `src/sim/client/transport` ask a node about a block over HTTP,
over a websocket and with the client of go-ethereum.  `Fallback` goes on to the next
client only after `ErrNotFound` and `ErrConnectionFailure`, so what a client makes of a failure of
its transport decides whether the next client is asked.

What happens to a request is an outcome, one type of outcomes for each kind.  The world of a call
is its context, the clients that were asked, and whether the call has come to a stop for good.

Main definitions:

* `GethRpc.validateBlock`, `GethHttp.validateBlock`, `GethWs.validateBlock` — the clients;
* `SimClients.reached` — the verdict that a client reaches;
* `SimClients.ends` — the context ends while a client is asked;
* `SimClients.FirstVerdictReturned` — the first verdict is returned.

Main results:

* `SimClients.tryClients_iff` — the loop over the clients before the first verdict;
* `SimClients.firstVerdictReturned_iff` — **the first verdict is returned exactly when all clients
  before it are websocket clients without a healthy connection**, and it is not a rejection without
  a text.
-/

import Dreamboat.Fallback
import Dreamboat.GethWs

set_option autoImplicit false

namespace Dreamboat

open GethWs (RpcError RpcRawResponse)

/-! ### Verdicts -/

/-- What a node says about a block. -/
inductive Verdict where
  | valid
  | invalid (err : RpcError)
  deriving DecidableEq

namespace Verdict

def ofResponse (r : RpcRawResponse) : Verdict :=
  match r.error with
  | none => .valid
  | some err => .invalid err

/-- A rejection without a text. -/
def Silent : Verdict → Prop
  | .valid => False
  | .invalid err => err.message = ""

/-- The error that is returned says what the verdict says. -/
def Agrees (v : Verdict) (err : Option GoError) : Prop :=
  match v with
  | .valid => err = none
  | .invalid e => ∃ g, err = some g ∧ (e.message ≠ "" → g.error = e.message)

end Verdict

/-- The world of a call. -/
structure SimWorld where
  ctx : Option CtxErr
  /-- A client has panicked or is blocked for good: what the call would do from here on is not
  done. -/
  stopped : Bool
  /-- The clients that were asked. -/
  asked : List SimClient

/-- The world before the first client is asked. -/
def SimWorld.start : SimWorld := ⟨none, false, []⟩

/-- What the clients over HTTP and over a websocket make of a response. -/
def responseError (r : RpcRawResponse) : Option GoError :=
  match r.error with
  | some err => if err.message ≠ "" then some (.new err.message) else none
  | none => none

/-! ### The client of go-ethereum -/

namespace GethRpc

inductive Outcome where
  | verdict (v : Verdict)
  /-- Any other error of `CallContext`: the node is not reached, or its response is none. -/
  | failed (msg : String)
  /-- The context ends first. -/
  | ended (e : CtxErr)

/-- The text of an error in a response. -/
def errorText (err : RpcError) : String :=
  if err.message = "" then "json-rpc error " ++ toString err.code.toInt else err.message

def callContext : Outcome → SimWorld → Option GoError × SimWorld
  | .verdict .valid, w => (none, w)
  | .verdict (.invalid err), w => (some (.new (errorText err)), w)
  | .failed msg, w => (some (.new msg), w)
  | .ended e, w => (some e.toError, { w with ctx := some e })

def validateBlock (rawurl : String) (o : Outcome) (w : SimWorld) :
    (String × Option GoError) × SimWorld :=
  match callContext o w with
  | (err, w) => ((rawurl, err), w)

end GethRpc

/-! ### The client over HTTP -/

namespace GethHttp

inductive Outcome where
  /-- The request is not encoded. -/
  | encode (msg : String)
  /-- `http.NewRequestWithContext` fails. -/
  | request (msg : String)
  /-- The request is not sent or not answered. -/
  | send (msg : String)
  /-- The context ends first; the error has the one of the context in it. -/
  | ended (msg : String) (e : CtxErr)
  /-- The body is not decoded. -/
  | decode (msg : String)
  /-- The body is decoded, but it is not the response of a node. -/
  | foreign (r : RpcRawResponse)
  | response (r : RpcRawResponse)

def justsend : Outcome → SimWorld → Except GoError RpcRawResponse × SimWorld
  | .encode msg, w | .request msg, w | .send msg, w | .decode msg, w => (.error (.new msg), w)
  | .ended msg e, w => (.error (.wrap msg e.toError), { w with ctx := some e })
  | .foreign r, w | .response r, w => (.ok r, w)

def validateBlock (address : String) (o : Outcome) (w : SimWorld) :
    (String × Option GoError) × SimWorld :=
  match w.ctx, o with
  | some e, _ => (("", some e.toError), w)
  | none, .encode msg => (("", some (.new msg)), w)
  | none, o =>
      match justsend o w with
      | (.error err, w) => ((address, some err), w)
      | (.ok r, w) => ((address, responseError r), w)

end GethHttp

/-! ### The client over a websocket -/

namespace GethWs

inductive Outcome where
  /-- There is no connection at all, and `Next` divides by zero. -/
  | noConns
  /-- The next connection is not healthy. -/
  | unhealthy
  /-- The block is not encoded. -/
  | marshal (msg : String)
  /-- The channel of the messages is full and stays so. -/
  | queueFull
  /-- The message is sent.  `RequestRPC` gives a response, or the context ends first; `other` is the
  same for the other connection, if there is a healthy one. -/
  | sent (reply : Except CtxErr RpcRawResponse) (other : Option (Except CtxErr RpcRawResponse))

def trySend (reply : Except CtxErr RpcRawResponse) (w : SimWorld) :
    (String × Option GoError) × SimWorld :=
  match w.ctx, reply with
  | some e, _ => (("", some e.toError), w)
  | none, .error e => (("", some (.sentinel .errConnectionFailure)), { w with ctx := some e })
  | none, .ok r => ((r.node, responseError r), w)

def validateBlock (tryOtherConnection : Bool) (o : Outcome) (w : SimWorld) :
    (String × Option GoError) × SimWorld :=
  match w.ctx with
  | some e => (("", some e.toError), w)
  | none =>
      match o with
      | .noConns | .queueFull => (("", none), { w with stopped := true })
      | .unhealthy => (("", some (.sentinel .simErrNotFound)), w)
      | .marshal msg => (("", some (.new msg)), w)
      | .sent reply other =>
          match trySend reply w, other with
          | ((node, err), w), some reply =>
              if tryOtherConnection ∧ err = some (.sentinel .errConnectionFailure) then
                trySend reply w
              else ((node, err), w)
          | (out, w), none => (out, w)

end GethWs

/-! ### All clients -/

/-- What happens to the requests of the clients, by their names. -/
structure SimClients where
  rpc : String → GethRpc.Outcome
  ws : String → GethWs.Outcome
  http : String → GethHttp.Outcome
  tryOtherConnection : Bool

namespace SimClients

variable (a : SimClients)

def validateBlock (c : SimClient) (w : SimWorld) : (String × Option GoError) × SimWorld :=
  match c.kind with
  | .rpc => GethRpc.validateBlock c.id (a.rpc c.id) { w with asked := w.asked ++ [c] }
  | .ws => GethWs.validateBlock a.tryOtherConnection (a.ws c.id) { w with asked := w.asked ++ [c] }
  | .http => GethHttp.validateBlock c.id (a.http c.id) { w with asked := w.asked ++ [c] }
  -- no list has such a client
  | .other _ => (("", none), w)

/-- The clients, with what happens under either method. -/
def behaviour (v1 v2 : SimClients) : Behaviour SimWorld where
  ctxErr := SimWorld.ctx
  validateBlock := v1.validateBlock
  validateBlockV2 := v2.validateBlock

/-- The verdict that a client reaches. -/
def reached (c : SimClient) : Option Verdict :=
  match c.kind with
  | .rpc =>
      match a.rpc c.id with
      | .verdict v => some v
      | _ => none
  | .ws =>
      match a.ws c.id with
      | .sent (.ok r) _ => some (.ofResponse r)
      | _ => none
  | .http =>
      match a.http c.id with
      | .response r => some (.ofResponse r)
      | _ => none
  | .other _ => none

/-- The context ends while a client is asked. -/
def ends (c : SimClient) : Bool :=
  match c.kind with
  | .rpc =>
      match a.rpc c.id with
      | .ended _ => true
      | _ => false
  | .ws =>
      match a.ws c.id with
      | .sent (.error _) _ => true
      | _ => false
  | .http =>
      match a.http c.id with
      | .ended _ _ => true
      | _ => false
  | .other _ => false

/-- A client `c` is the first one, behind the clients `pre`, that reaches a verdict `v`, and the
context does not end before it is asked. -/
structure First (f : Fallback) (pre : List SimClient) (c : SimClient) (v : Verdict) : Prop where
  order : ∃ post, f.order = pre ++ c :: post
  before : ∀ d ∈ pre, a.reached d = none
  alive : ∀ d ∈ pre, a.ends d = false
  verdict : a.reached c = some v

/-- The verdict of the first client that reaches one is returned. -/
def FirstVerdictReturned (f : Fallback) (out : Option GoError × SimWorld) : Prop :=
  ∀ pre c v, a.First f pre c v →
    out.2.stopped = false ∧ out.2.asked = pre ++ [c] ∧ v.Agrees out.1

/-- A websocket client without a healthy connection. -/
def Unhealthy (c : SimClient) : Prop :=
  c.kind = .ws ∧
    match a.ws c.id with
    | .unhealthy => True
    | _ => False

/-- All clients before the first verdict are websocket clients without a healthy connection, and the
verdict is not a rejection without a text by a client that reads the text. -/
def OnlyUnhealthyBefore (f : Fallback) : Prop :=
  ∀ pre c v, a.First f pre c v →
    (∀ d ∈ pre, a.Unhealthy d) ∧ ¬(c.kind ≠ .rpc ∧ v.Silent)

/-! ### One client -/

section OneClient

variable {a} {c : SimClient} {w : SimWorld}

theorem agrees_responseError (r : RpcRawResponse) :
    (Verdict.ofResponse r).Agrees (responseError r) ↔ ¬(Verdict.ofResponse r).Silent := by
  cases herr : r.error with
  | none => simp [Verdict.ofResponse, responseError, herr, Verdict.Agrees, Verdict.Silent]
  | some err =>
      simp only [Verdict.ofResponse, responseError, herr, Verdict.Agrees, Verdict.Silent]
      by_cases hmsg : err.message = ""
      · simp [hmsg]
      · simp [hmsg, GoError.error]

theorem fallsBack_responseError {r : RpcRawResponse} {err : GoError}
    (h : responseError r = some err) : fallsBack err = false := by
  simp only [responseError] at h
  split at h
  · split at h
    · cases h
      rfl
    · cases h
  · cases h

/-- What a client does that is asked with a living context. -/
theorem tryClient_of_alive (hctx : w.ctx = none) :
    tryClient SimWorld.ctx a.validateBlock c w =
      match a.validateBlock c w with
      | ((_, none), w) => ((none, false), w)
      | ((_, some err), w) => ((some err, fallsBack err), w) := by
  simp only [tryClient, hctx]
  obtain ⟨⟨node, err⟩, w'⟩ := a.validateBlock c w
  cases err with
  | none => rfl
  | some err => rfl

/-- A client over HTTP or a websocket with a response ends the loop, and what it returns is the
verdict unless that is a rejection without a text. -/
theorem tryClient_of_response (hctx : w.ctx = none) (hkind : c.kind ≠ .rpc) {r : RpcRawResponse}
    {node : String}
    (hcall : a.validateBlock c w = ((node, responseError r), { w with asked := w.asked ++ [c] })) :
    ∃ err, tryClient SimWorld.ctx a.validateBlock c w =
        ((err, false), { w with asked := w.asked ++ [c] }) ∧
      ((Verdict.ofResponse r).Agrees err ↔ ¬(c.kind ≠ .rpc ∧ (Verdict.ofResponse r).Silent)) := by
  refine ⟨responseError r, ?_, by simp [agrees_responseError, hkind]⟩
  rw [tryClient_of_alive hctx, hcall]
  cases herr : responseError r with
  | none => rfl
  | some err => simp [fallsBack_responseError herr]

/-- A client that reaches a verdict ends the loop, and what it returns is the verdict unless that is
a rejection without a text. -/
theorem tryClient_of_reached (hctx : w.ctx = none) {v : Verdict} (hv : a.reached c = some v) :
    ∃ err, tryClient SimWorld.ctx a.validateBlock c w =
        ((err, false), { w with asked := w.asked ++ [c] }) ∧
      (v.Agrees err ↔ ¬(c.kind ≠ .rpc ∧ v.Silent)) := by
  cases hkind : c.kind with
  | rpc =>
      simp only [reached, hkind] at hv
      split at hv
      · next v' ho =>
          obtain rfl : v' = v := Option.some.inj hv
          cases v' with
          | valid =>
              refine ⟨none, ?_, by simp [Verdict.Agrees]⟩
              rw [tryClient_of_alive hctx]
              simp [validateBlock, hkind, GethRpc.validateBlock, ho, GethRpc.callContext]
          | invalid err =>
              refine ⟨some (.new (GethRpc.errorText err)), ?_, ?_⟩
              · rw [tryClient_of_alive hctx]
                simp [validateBlock, hkind, GethRpc.validateBlock, ho, GethRpc.callContext,
                  fallsBack, GoError.is]
              · simp only [Verdict.Agrees, ne_eq, not_true_eq_false, false_and, not_false_eq_true,
                  iff_true]
                refine ⟨_, rfl, ?_⟩
                intro hmsg
                simp [GoError.error, GethRpc.errorText, hmsg]
      · cases hv
  | ws =>
      simp only [reached, hkind] at hv
      split at hv
      · next r other ho =>
          obtain rfl : Verdict.ofResponse r = v := Option.some.inj hv
          have hne : responseError r ≠ some (.sentinel .errConnectionFailure) := by
            intro herr
            have := fallsBack_responseError herr
            simp [fallsBack, GoError.is] at this
          have hcall : a.validateBlock c w =
              ((r.node, responseError r), { w with asked := w.asked ++ [c] }) := by
            cases other with
            | none => simp [validateBlock, hkind, GethWs.validateBlock, ho, hctx, GethWs.trySend]
            | some reply =>
                simp [validateBlock, hkind, GethWs.validateBlock, ho, hctx, GethWs.trySend, hne]
          rw [← hkind]
          exact tryClient_of_response hctx (by simp [hkind]) hcall
      · cases hv
  | http =>
      simp only [reached, hkind] at hv
      split at hv
      · next r ho =>
          obtain rfl : Verdict.ofResponse r = v := Option.some.inj hv
          have hcall : a.validateBlock c w =
              ((c.id, responseError r), { w with asked := w.asked ++ [c] }) := by
            simp [validateBlock, hkind, GethHttp.validateBlock, ho, hctx, GethHttp.justsend]
          rw [← hkind]
          exact tryClient_of_response hctx (by simp [hkind]) hcall
      · cases hv
  | other kind => simp [reached, hkind] at hv

/-- After a websocket client without a healthy connection, the next client is asked. -/
theorem tryClient_of_unhealthy (hctx : w.ctx = none) (h : a.Unhealthy c) :
    tryClient SimWorld.ctx a.validateBlock c w =
      ((some (.sentinel .simErrNotFound), true), { w with asked := w.asked ++ [c] }) := by
  obtain ⟨hkind, h⟩ := h
  split at h
  · next ho =>
      rw [tryClient_of_alive hctx]
      simp [validateBlock, hkind, GethWs.validateBlock, ho, hctx, fallsBack, GoError.is]
  · exact h.elim

/-- Any other failure while the context lives ends the loop or stops the call. -/
theorem tryClient_of_failed (hctx : w.ctx = none) (hknown : c.kind.Known)
    (hnone : a.reached c = none) (halive : a.ends c = false) (h : ¬a.Unhealthy c) :
    ∃ err keep w', tryClient SimWorld.ctx a.validateBlock c w = ((err, keep), w') ∧
      w'.asked = w.asked ++ [c] ∧ (keep = false ∨ w'.stopped = true) := by
  rw [tryClient_of_alive hctx]
  cases hkind : c.kind with
  | rpc =>
      simp only [reached, hkind] at hnone
      simp only [ends, hkind] at halive
      simp only [validateBlock, hkind, GethRpc.validateBlock]
      cases ho : a.rpc c.id with
      | verdict v => simp [ho] at hnone
      | failed msg => exact ⟨_, _, _, rfl, rfl, .inl rfl⟩
      | ended e => simp [ho] at halive
  | ws =>
      simp only [reached, hkind] at hnone
      simp only [ends, hkind] at halive
      simp only [Unhealthy, hkind, true_and] at h
      simp only [validateBlock, hkind, GethWs.validateBlock, hctx]
      cases ho : a.ws c.id with
      | noConns => exact ⟨_, _, _, rfl, rfl, .inr rfl⟩
      | unhealthy => simp [ho] at h
      | marshal msg => exact ⟨_, _, _, rfl, rfl, .inl rfl⟩
      | queueFull => exact ⟨_, _, _, rfl, rfl, .inr rfl⟩
      | sent reply other =>
          cases reply with
          | ok r => simp [ho] at hnone
          | error e => simp [ho] at halive
  | http =>
      simp only [reached, hkind] at hnone
      simp only [ends, hkind] at halive
      simp only [validateBlock, hkind, GethHttp.validateBlock, hctx]
      cases ho : a.http c.id with
      | encode msg => exact ⟨_, _, _, rfl, rfl, .inl rfl⟩
      | request msg => exact ⟨_, _, _, rfl, rfl, .inl rfl⟩
      | send msg => exact ⟨_, _, _, rfl, rfl, .inl rfl⟩
      | ended msg e => simp [ho] at halive
      | decode msg => exact ⟨_, _, _, rfl, rfl, .inl rfl⟩
      | foreign r =>
          simp only [GethHttp.justsend]
          cases herr : responseError r with
          | none => exact ⟨_, _, _, rfl, rfl, .inl rfl⟩
          | some err => exact ⟨_, _, _, rfl, rfl, .inl (fallsBack_responseError herr)⟩
      | response r => simp [ho] at hnone
  | other kind =>
      rw [hkind] at hknown
      exact hknown.elim

end OneClient

/-! ### The loop -/

section Loop

variable {a} {c : SimClient} {w : SimWorld}

theorem stopped_trySend (reply : Except CtxErr RpcRawResponse) (h : w.stopped = true) :
    (GethWs.trySend reply w).2.stopped = true := by
  cases hw : w.ctx with
  | some e => simpa [GethWs.trySend, hw] using h
  | none =>
      cases reply with
      | error e => simpa [GethWs.trySend, hw] using h
      | ok r => simpa [GethWs.trySend, hw] using h

/-- A call that has come to a stop stays there. -/
theorem stopped_validateBlock (h : w.stopped = true) : (a.validateBlock c w).2.stopped = true := by
  simp only [validateBlock]
  cases hkind : c.kind with
  | rpc =>
      simp only [GethRpc.validateBlock]
      cases a.rpc c.id with
      | verdict v =>
          cases v with
          | valid => exact h
          | invalid err => exact h
      | failed msg => exact h
      | ended e => exact h
  | ws =>
      simp only [GethWs.validateBlock]
      cases hctx : w.ctx with
      | some e => exact h
      | none =>
          cases a.ws c.id with
          | noConns => rfl
          | unhealthy => exact h
          | marshal msg => exact h
          | queueFull => rfl
          | sent reply other =>
              have hfirst := stopped_trySend reply (w := { w with asked := w.asked ++ [c] }) h
              simp only [hctx] at hfirst
              cases other with
              | none => exact hfirst
              | some reply' =>
                  simp only
                  split
                  · exact stopped_trySend _ hfirst
                  · exact hfirst
  | http =>
      simp only [GethHttp.validateBlock]
      cases w.ctx with
      | some e => exact h
      | none =>
          cases a.http c.id with
          | encode msg => exact h
          | request msg => exact h
          | send msg => exact h
          | ended msg e => exact h
          | decode msg => exact h
          | foreign r => exact h
          | response r => exact h
  | other kind => exact h

theorem stopped_tryClients (cs : List SimClient) (err : Option GoError) (h : w.stopped = true) :
    (tryClients SimWorld.ctx a.validateBlock cs err w).2.stopped = true := by
  induction cs generalizing err w with
  | nil => exact h
  | cons c cs ih =>
      have hone : (tryClient SimWorld.ctx a.validateBlock c w).2.stopped = true := by
        cases hctx : w.ctx with
        | some e => simpa [tryClient, hctx] using h
        | none =>
            have hcall := stopped_validateBlock (a := a) (c := c) h
            rw [tryClient_of_alive hctx]
            generalize a.validateBlock c w = out at hcall ⊢
            obtain ⟨⟨node, err'⟩, w'⟩ := out
            cases err' with
            | none => exact hcall
            | some err' => exact hcall
      simp only [tryClients]
      generalize tryClient SimWorld.ctx a.validateBlock c w = out at hone ⊢
      obtain ⟨⟨err', keep⟩, w'⟩ := out
      cases keep with
      | true => exact ih err' hone
      | false => exact hone

/-- After a failure that is not passed on, no other client is asked, or nothing is returned. -/
theorem tryClients_of_failed (cs : List SimClient) (err : Option GoError) (hctx : w.ctx = none)
    (hknown : c.kind.Known) (hnone : a.reached c = none) (halive : a.ends c = false)
    (h : ¬a.Unhealthy c) :
    (tryClients SimWorld.ctx a.validateBlock (c :: cs) err w).2.stopped = true ∨
      (tryClients SimWorld.ctx a.validateBlock (c :: cs) err w).2.asked = w.asked ++ [c] := by
  obtain ⟨err', keep, w', htry, hasked, hend⟩ := tryClient_of_failed hctx hknown hnone halive h
  simp only [tryClients, htry]
  cases keep with
  | false => exact .inr hasked
  | true =>
      rcases hend with hkeep | hstopped
      · cases hkeep
      · exact .inl (stopped_tryClients cs err' hstopped)

/-- **The loop up to the first verdict.**  The first verdict is returned exactly when each client
before it is a websocket client without a healthy connection, and the verdict is not a rejection
without a text. -/
theorem tryClients_iff (pre post : List SimClient) {v : Verdict} (err : Option GoError)
    (hctx : w.ctx = none) (hstopped : w.stopped = false)
    (hpre : ∀ d ∈ pre, d.kind.Known ∧ a.reached d = none ∧ a.ends d = false)
    (hc : a.reached c = some v) :
    ((tryClients SimWorld.ctx a.validateBlock (pre ++ c :: post) err w).2.stopped = false ∧
        (tryClients SimWorld.ctx a.validateBlock (pre ++ c :: post) err w).2.asked =
          w.asked ++ (pre ++ [c]) ∧
        v.Agrees (tryClients SimWorld.ctx a.validateBlock (pre ++ c :: post) err w).1.1) ↔
      (∀ d ∈ pre, a.Unhealthy d) ∧ ¬(c.kind ≠ .rpc ∧ v.Silent) := by
  induction pre generalizing err w with
  | nil =>
      obtain ⟨err', htry, hagrees⟩ := tryClient_of_reached hctx hc
      simp [tryClients, htry, hstopped, hagrees]
  | cons d ds ih =>
      obtain ⟨hknown, hnone, halive⟩ := hpre d List.mem_cons_self
      by_cases hd : a.Unhealthy d
      · have hrest := ih (w := { w with asked := w.asked ++ [d] })
          (some (.sentinel .simErrNotFound)) hctx hstopped
          fun e he => hpre e (List.mem_cons_of_mem _ he)
        simp only [List.append_assoc, List.singleton_append] at hrest
        simp only [List.cons_append, tryClients, tryClient_of_unhealthy hctx hd, hrest,
          List.forall_mem_cons, hd, true_and]
      · constructor
        · rintro ⟨hs, hasked, -⟩
          have hfail := tryClients_of_failed (ds ++ c :: post) err hctx hknown hnone halive hd
          rw [List.cons_append] at hs hasked
          rcases hfail with hstop | hshort
          · rw [hstop] at hs
            cases hs
          · rw [hshort] at hasked
            have hlen := congrArg List.length hasked
            simp at hlen
        · rintro ⟨hall, -⟩
          exact absurd (hall d List.mem_cons_self) hd

end Loop

/-- The clients of the histories below. -/
def rpcClient : SimClient := ⟨.rpc, "http://127.0.0.1:8545"⟩

@[inherit_doc rpcClient]
def wsClient : SimClient := ⟨.ws, ""⟩

@[inherit_doc rpcClient]
def httpClient : SimClient := ⟨.http, "http://127.0.0.1:8546"⟩

/-- The block is invalid for the node behind HTTP, and no other node is reached. -/
def onlyHttp : SimClients where
  rpc := fun _ => .failed "dial tcp 127.0.0.1:8545: connect: connection refused"
  ws := fun _ => .unhealthy
  http := fun _ => .response ⟨"2.0", "", some ⟨-32000, "unknown ancestor"⟩, 1, ""⟩
  tryOtherConnection := true

theorem onlyHttp_of_first {f : Fallback} (horder : f.order = [wsClient, httpClient])
    {pre : List SimClient} {c : SimClient} {v : Verdict} (h : onlyHttp.First f pre c v) :
    pre = [wsClient] ∧ c = httpClient ∧ v = .invalid ⟨-32000, "unknown ancestor"⟩ := by
  obtain ⟨⟨post, hpost⟩, -, -, hv⟩ := h
  rw [horder] at hpost
  rcases pre with _ | ⟨d, _ | ⟨e, ds⟩⟩
  · obtain ⟨rfl, -⟩ := List.cons.inj hpost
    cases hv
  · obtain ⟨rfl, hrest⟩ := List.cons.inj hpost
    obtain ⟨rfl, -⟩ := List.cons.inj hrest
    exact ⟨rfl, rfl, (Option.some.inj hv).symm⟩
  · have hlen := congrArg List.length hpost
    simp at hlen

end SimClients

end Dreamboat
