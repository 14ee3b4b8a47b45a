/-
**Concurrent deliveries do not equivocate, as long as nobody stores over a value it has not seen.**

Each call of `GetPayload` finds and validates its payload, publishes the block if it is configured
to, loads `lastDelivered`, and then acts on what it has loaded: it stores its own slot and block
hash, or lets the request pass as a repetition, or rejects it.  The load and the store are two
steps.

So a call may store over a value it has not seen, and then two block hashes are delivered for one
slot.  This module shows that this is the only way: in every run in which no call stores over a
value that would have rejected it, deliveries never equivocate and the recorded slot never goes
back.

Main definitions:

* `Delivery.State`, `Delivery.Action`, `Delivery.step` — the calls and their steps;
* `Delivery.StoresFresh` — the condition;
* `Delivery.Ledger`, `Delivery.Inv` — the invariant.

Main results:

* `Delivery.step_cases` — everything one step can do;
* `Delivery.no_equivocation` — **no two block hashes are delivered for one slot**.
-/

import Dreamboat.GetPayload

set_option autoImplicit false

namespace Dreamboat

namespace Delivery

/-- How far a call is. -/
inductive Stage where
  /-- The payload is found and validated. -/
  | validated
  /-- `PublishBlock` has failed once. -/
  | retrying
  /-- The guard is next. -/
  | delivering
  /-- The guard has loaded `lastDelivered`. -/
  | loaded (last : LastDelivered)
  /-- The call has returned; `none` is a panic. -/
  | done (result : Option (Except GoError GetPayloadResponse))

namespace Stage

/-- The value the guard has loaded. -/
def value : Stage → Option LastDelivered
  | .loaded last => some last
  | _ => none

/-- About to publish. -/
def isValidated : Stage → Bool
  | .validated => true
  | _ => false

/-- Between the publication and the guard. -/
def inFlight : Stage → Bool
  | .retrying | .delivering | .loaded _ => true
  | _ => false

/-- Returned with a payload. -/
def delivered : Stage → Bool
  | .done (some (.ok _)) => true
  | _ => false

/-- Returned with an error of the guard. -/
def rejected : Stage → Bool
  | .done (some (.error (.sentinel .errPayloadDiffBlockHash))) => true
  | .done (some (.error (.sentinel .errHigherSlotDelivered))) => true
  | _ => false

end Stage

/-- A call of `GetPayload`. -/
structure Call where
  request : SignedBlindedBeaconBlock
  fork : ForkVersion
  payload : BlockAndTraceExtended
  stage : Stage
  /-- How often `PublishBlock` was invoked. -/
  invocations : ℕ
  /-- `PublishBlock` has returned without an error. -/
  published : Bool
  /-- The evidence of a delivery is to be stored. -/
  storeTrace : Bool

structure State where
  lastDelivered : LastDelivered
  calls : List Call
  /-- The values that `lastDelivered` has had. -/
  history : List LastDelivered

/-- `lastDelivered` starts with its zero value. -/
def State.init : State := ⟨default, [], [default]⟩

inductive Action where
  /-- A call comes in; the last argument is what the cache and the store have. -/
  | call (v : PayloadView) (request : SignedBlindedBeaconBlock)
      (find : PayloadKey → Except GoError BlockAndTraceExtended)
  /-- `PublishBlock`, with its result. -/
  | publish (k : ℕ) (ok : Bool)
  /-- The load of `lastDelivered`. -/
  | load (k : ℕ)
  /-- The rest of the guard, with the store. -/
  | resolve (k : ℕ)

variable (P : Primitives) (cfg : RelayConfig)

/-- A call up to the validated payload. -/
def accept (v : PayloadView) (request : SignedBlindedBeaconBlock)
    (find : PayloadKey → Except GoError BlockAndTraceExtended) :
    Except GoError BlockAndTraceExtended := do
  let key ← payloadRequestKey cfg v request
  let payload ← find key
  match validatePayload P payload request with
  | some err => throw err
  | none => return payload

/-- A call as it comes in. -/
def newCall (v : PayloadView) (request : SignedBlindedBeaconBlock)
    (find : PayloadKey → Except GoError BlockAndTraceExtended) : Call where
  request := request
  fork := v.beacon.fork.version request.slot
  payload := ((accept P cfg v request find).toOption).getD default
  stage := match accept P cfg v request find with
    | .error err => .done (some (.error err))
    | .ok _ => .validated
  invocations := 0
  published := false
  storeTrace := false

/-- What a call does about the publication of its block. -/
def Call.publish (c : Call) (ok : Bool) : Option Call :=
  match c.stage with
  | .validated =>
      if cfg.publishBlock then
        match c.request.toBeaconBlock c.payload.executionPayload with
        | .error _ => some { c with stage := .done (some (.error (.sentinel .errWrongPayload))) }
        | .ok _ =>
            some { c with
              stage := if ok then .delivering else .retrying
              invocations := c.invocations + 1
              published := ok }
      else some { c with stage := .delivering }
  | .retrying =>
      some { c with
        stage := if ok then .delivering else .done (some (.error (.sentinel .errFailedToPublish)))
        invocations := c.invocations + 1
        published := ok }
  | _ => none

/-- The guard, on the value the call has loaded: what is stored, and how the call ends. -/
def Call.resolve (c : Call) : Option (Option LastDelivered × Call) :=
  match c.stage with
  | .loaded last =>
      match guard last c.request.delivery with
      | .record => some (some c.request.delivery,
          { c with stage := .done (payloadResponse c.fork c.payload.executionPayload) })
      | .again => some (none,
          { c with stage := .done (payloadResponse c.fork c.payload.executionPayload) })
      | .reject err => some (none, { c with stage := .done (some (.error (.sentinel err))) })
  | _ => none

def step (s : State) : Action → Option State
  | .call v request find => some { s with calls := s.calls ++ [newCall P cfg v request find] }
  | .publish k ok => do
      let c ← s.calls[k]?
      let c' ← c.publish cfg ok
      return { s with calls := s.calls.set k c' }
  | .load k => do
      let c ← s.calls[k]?
      match c.stage with
      | .delivering =>
          return { s with
            calls := s.calls.set k { c with stage := .loaded s.lastDelivered, storeTrace := true } }
      | _ => none
  | .resolve k => do
      let c ← s.calls[k]?
      let (stored, c') ← c.resolve
      match stored with
      | some last =>
          return ⟨last, s.calls.set k c', last :: s.history⟩
      | none => return { s with calls := s.calls.set k c' }

/-- The call has returned a payload with a `nil` error. -/
abbrev Call.Delivered (c : Call) : Prop := c.stage.delivered = true

/-- The guard has rejected the request. -/
abbrev Call.Rejected (c : Call) : Prop := c.stage.rejected = true

/-- The call is between its publication and the guard. -/
abbrev Call.InFlight (c : Call) : Prop := c.stage.inFlight = true

/-- The next step of the call invokes `PublishBlock` for the first time. -/
abbrev Call.Publishes (c : Call) : Prop :=
  cfg.publishBlock = true ∧ c.stage.isValidated = true ∧
    (c.request.toBeaconBlock c.payload.executionPayload).isOk = true

/-- The condition: a call does not store over a value that would have rejected it. -/
def StoresFresh (s : State) : Action → Prop
  | .resolve k => ∀ c, s.calls[k]? = some c → ∀ last ∈ c.stage.value,
      last.slot < c.request.slot → s.lastDelivered.Accepts c.request.delivery
  | _ => True

instance (s : State) : ∀ a : Action, Decidable (StoresFresh s a)
  | .call _ _ _ => inferInstanceAs (Decidable True)
  | .publish _ _ => inferInstanceAs (Decidable True)
  | .load _ => inferInstanceAs (Decidable True)
  | .resolve k => inferInstanceAs (Decidable (∀ c ∈ s.calls[k]?, _))

/-! ### What a step can do -/

variable {P cfg} {s s' : State} {c c' : Call}

/-- What a call can do about the publication of its block. -/
theorem publish_eq_some {ok : Bool} (h : c.publish cfg ok = some c') :
    (c.stage = .validated ∧ cfg.publishBlock = false ∧ c' = { c with stage := .delivering }) ∨
    (c.stage = .validated ∧
      c' = { c with stage := .done (some (.error (.sentinel .errWrongPayload))) }) ∨
    ((c.Publishes cfg ∨ c.stage = .retrying) ∧ ok = true ∧
      c' = { c with
        stage := .delivering, invocations := c.invocations + 1, published := true }) ∨
    (c.Publishes cfg ∧ ok = false ∧
      c' = { c with
        stage := .retrying, invocations := c.invocations + 1, published := false }) ∨
    (c.stage = .retrying ∧ ok = false ∧
      c' = { c with
        stage := .done (some (.error (.sentinel .errFailedToPublish)))
        invocations := c.invocations + 1, published := false }) := by
  unfold Call.publish at h
  split at h
  · next hstage =>
      split at h
      · next hcfg =>
          split at h
          · cases h
            exact Or.inr (Or.inl ⟨hstage, rfl⟩)
          · next b hb =>
              have hpub : c.Publishes cfg := ⟨hcfg, by rw [hstage]; rfl, by rw [hb]; rfl⟩
              cases h
              cases ok with
              | true => exact Or.inr (Or.inr (Or.inl ⟨Or.inl hpub, rfl, rfl⟩))
              | false => exact Or.inr (Or.inr (Or.inr (Or.inl ⟨hpub, rfl, rfl⟩)))
      · next hcfg =>
          cases h
          exact Or.inl ⟨hstage, by simpa using hcfg, rfl⟩
  · next hstage =>
      cases h
      cases ok with
      | true => exact Or.inr (Or.inr (Or.inl ⟨Or.inr hstage, rfl, rfl⟩))
      | false => exact Or.inr (Or.inr (Or.inr (Or.inr ⟨hstage, rfl, rfl⟩)))
  · cases h

/-- What the guard can do. -/
theorem resolve_eq_some {stored : Option LastDelivered} (h : c.resolve = some (stored, c')) :
    ∃ last, c.stage = .loaded last ∧
      ((last.slot < c.request.slot ∧ stored = some c.request.delivery ∧
          c' = { c with stage := .done (payloadResponse c.fork c.payload.executionPayload) }) ∨
        (last = c.request.delivery ∧ stored = none ∧
          c' = { c with stage := .done (payloadResponse c.fork c.payload.executionPayload) }) ∨
        ∃ err, guard last c.request.delivery = .reject err ∧ stored = none ∧
          c' = { c with stage := .done (some (.error (.sentinel err))) }) := by
  unfold Call.resolve at h
  split at h
  · next last hstage =>
      refine ⟨last, hstage, ?_⟩
      split at h
      · next hguard =>
          cases h
          exact Or.inl ⟨guard_eq_record_iff.1 hguard, rfl, rfl⟩
      · next hguard =>
          cases h
          exact Or.inr (Or.inl ⟨guard_eq_again_iff.1 hguard, rfl, rfl⟩)
      · next err hguard =>
          cases h
          exact Or.inr (Or.inr ⟨err, hguard, rfl, rfl⟩)
  · cases h

/-- **Everything one step can do.** -/
theorem step_cases {a : Action} (hs : step P cfg s a = some s') :
    (∃ v request find, s' = { s with calls := s.calls ++ [newCall P cfg v request find] }) ∨
    (∃ k ok c c', a = .publish k ok ∧ s.calls[k]? = some c ∧ c.publish cfg ok = some c' ∧
      s' = { s with calls := s.calls.set k c' }) ∨
    (∃ k c, a = .load k ∧ s.calls[k]? = some c ∧ c.stage = .delivering ∧
      s' = { s with
        calls := s.calls.set k { c with stage := .loaded s.lastDelivered, storeTrace := true } }) ∨
    (∃ k c c' last, a = .resolve k ∧ s.calls[k]? = some c ∧ c.resolve = some (some last, c') ∧
      s' = ⟨last, s.calls.set k c', last :: s.history⟩) ∨
    (∃ k c c', s.calls[k]? = some c ∧ c.resolve = some (none, c') ∧
      s' = { s with calls := s.calls.set k c' }) := by
  cases a with
  | call v request find =>
      cases hs
      exact Or.inl ⟨v, request, find, rfl⟩
  | publish k ok =>
      obtain ⟨c, hc, hs⟩ := Option.bind_eq_some_iff.1 hs
      obtain ⟨c', hc', hs⟩ := Option.bind_eq_some_iff.1 hs
      cases hs
      exact Or.inr (Or.inl ⟨k, ok, c, c', rfl, hc, hc', rfl⟩)
  | load k =>
      obtain ⟨c, hc, hs⟩ := Option.bind_eq_some_iff.1 hs
      split at hs
      · next hstage =>
          cases hs
          exact Or.inr (Or.inr (Or.inl ⟨k, c, rfl, hc, hstage, rfl⟩))
      · cases hs
  | resolve k =>
      obtain ⟨c, hc, hs⟩ := Option.bind_eq_some_iff.1 hs
      obtain ⟨⟨stored, c'⟩, hc', hs⟩ := Option.bind_eq_some_iff.1 hs
      cases stored with
      | some last =>
          cases hs
          exact Or.inr (Or.inr (Or.inr (Or.inl ⟨k, c, c', last, rfl, hc, hc', rfl⟩)))
      | none =>
          cases hs
          exact Or.inr (Or.inr (Or.inr (Or.inr ⟨k, c, c', hc, hc', rfl⟩)))

/-! ### The history of `lastDelivered` -/

/-- The history of `lastDelivered`: its value is the newest of it, and it has one block hash a
slot. -/
structure Ledger (last : LastDelivered) (history : List LastDelivered) : Prop where
  mem : last ∈ history
  le : ∀ x ∈ history, x.slot ≤ last.slot
  unique : ∀ x ∈ history, ∀ y ∈ history, x.slot = y.slot → x = y

theorem ledger_init : Ledger default [default] where
  mem := List.mem_singleton.2 rfl
  le x hx := by
    rw [List.mem_singleton.1 hx]
    exact UInt64.le_refl _
  unique x hx y hy _ := by rw [List.mem_singleton.1 hx, List.mem_singleton.1 hy]

/-- Storing a value that is accepted keeps one block hash a slot. -/
theorem Ledger.store {last new : LastDelivered} {history : List LastDelivered}
    (h : Ledger last history) (hacc : last.Accepts new) : Ledger new (new :: history) := by
  have hle : last.slot ≤ new.slot := by
    rcases hacc with hlt | rfl
    · exact UInt64.le_of_lt hlt
    · exact UInt64.le_refl _
  -- an older value of the same slot is the value itself
  have hsame : ∀ x ∈ history, x.slot = new.slot → x = new := by
    intro x hx hslot
    rcases hacc with hlt | rfl
    · have hxlt := UInt64.lt_of_le_of_lt (h.le x hx) hlt
      rw [hslot] at hxlt
      exact absurd hxlt (UInt64.lt_irrefl _)
    · exact h.unique x hx last h.mem hslot
  refine ⟨List.mem_cons_self, ?_, ?_⟩
  · intro x hx
    rcases List.mem_cons.1 hx with rfl | hx
    · exact UInt64.le_refl _
    · exact UInt64.le_trans (h.le x hx) hle
  · intro x hx y hy hxy
    rcases List.mem_cons.1 hx with rfl | hx'
    · rcases List.mem_cons.1 hy with rfl | hy'
      · rfl
      · exact (hsame y hy' hxy.symm).symm
    · rcases List.mem_cons.1 hy with rfl | hy'
      · exact hsame x hx' hxy
      · exact h.unique x hx' y hy' hxy

/-! ### Deliveries do not equivocate -/

/-- What is loaded or delivered is in the history. -/
structure Inv (s : State) : Prop where
  ledger : Ledger s.lastDelivered s.history
  loaded : ∀ c ∈ s.calls, ∀ last, c.stage = .loaded last → last ∈ s.history
  delivered : ∀ c ∈ s.calls, c.Delivered → c.request.delivery ∈ s.history

theorem inv_init : Inv State.init where
  ledger := ledger_init
  loaded c hc := by cases hc
  delivered c hc := by cases hc

/-- A call that has not just loaded or delivered keeps the invariant. -/
theorem Inv.set (h : Inv s) {k : ℕ} (hload : ∀ last, c'.stage = .loaded last → last ∈ s.history)
    (hdone : c'.Delivered → c'.request.delivery ∈ s.history) :
    Inv { s with calls := s.calls.set k c' } where
  ledger := h.ledger
  loaded d hd := by
    rcases List.mem_or_eq_of_mem_set hd with hd | rfl
    · exact h.loaded d hd
    · exact hload
  delivered d hd := by
    rcases List.mem_or_eq_of_mem_set hd with hd | rfl
    · exact h.delivered d hd
    · exact hdone

/-- The guard stores what `lastDelivered` accepts. -/
theorem Inv.record (h : Inv s) {k : ℕ} (hacc : s.lastDelivered.Accepts c.request.delivery)
    (result : Option (Except GoError GetPayloadResponse)) :
    Inv ⟨c.request.delivery, s.calls.set k { c with stage := .done result },
      c.request.delivery :: s.history⟩ where
  ledger := h.ledger.store hacc
  loaded d hd last hlast := by
    rcases List.mem_or_eq_of_mem_set hd with hd | rfl
    · exact List.mem_cons_of_mem _ (h.loaded d hd last hlast)
    · cases hlast
  delivered d hd hdel := by
    rcases List.mem_or_eq_of_mem_set hd with hd | rfl
    · exact List.mem_cons_of_mem _ (h.delivered d hd hdel)
    · exact List.mem_cons_self

theorem newCall_not_delivered (P : Primitives) (cfg : RelayConfig) (v : PayloadView)
    (request : SignedBlindedBeaconBlock)
    (find : PayloadKey → Except GoError BlockAndTraceExtended) :
    (∀ last, (newCall P cfg v request find).stage ≠ .loaded last) ∧
      ¬(newCall P cfg v request find).Delivered ∧
      ¬(newCall P cfg v request find).InFlight := by
  unfold newCall Call.Delivered Call.InFlight
  cases accept P cfg v request find with
  | error err => simp [Stage.delivered, Stage.inFlight]
  | ok payload => simp [Stage.delivered, Stage.inFlight]

theorem Inv.newCall (h : Inv s) (P : Primitives) (cfg : RelayConfig) (v : PayloadView)
    (request : SignedBlindedBeaconBlock)
    (find : PayloadKey → Except GoError BlockAndTraceExtended) :
    Inv { s with calls := s.calls ++ [Delivery.newCall P cfg v request find] } := by
  obtain ⟨hload, hdel, -⟩ := newCall_not_delivered P cfg v request find
  refine ⟨h.ledger, fun d hd => ?_, fun d hd => ?_⟩
  · rcases List.mem_append.1 hd with hd | hd
    · exact h.loaded d hd
    · rw [List.mem_singleton.1 hd]
      exact fun last hlast => absurd hlast (hload last)
  · rcases List.mem_append.1 hd with hd | hd
    · exact h.delivered d hd
    · rw [List.mem_singleton.1 hd]
      exact fun hd => absurd hd hdel

/-- A call that is about to publish, or publishes, has not delivered. -/
theorem publish_not_delivered {ok : Bool} (h : c.publish cfg ok = some c') :
    (∀ last, c'.stage ≠ .loaded last) ∧ ¬c'.Delivered := by
  rcases publish_eq_some h with ⟨-, -, rfl⟩ | ⟨-, rfl⟩ | ⟨-, -, rfl⟩ | ⟨-, -, rfl⟩ | ⟨-, -, rfl⟩ <;>
    simp [Stage.delivered]

theorem Inv.step (h : Inv s) {a : Action} (hC : StoresFresh s a)
    (hs : step P cfg s a = some s') : Inv s' := by
  rcases step_cases hs with ⟨v, request, find, rfl⟩ | ⟨k, ok, c, c', rfl, hc, hc', rfl⟩ |
    ⟨k, c, -, hc, -, rfl⟩ | ⟨k, c, c', last, rfl, hc, hc', rfl⟩ | ⟨k, c, c', hc, hc', rfl⟩
  · exact h.newCall P cfg v request find
  · obtain ⟨hload, hdel⟩ := publish_not_delivered hc'
    exact h.set (fun last hlast => absurd hlast (hload last)) fun hd => absurd hd hdel
  · refine h.set (fun last hlast => ?_) fun hd => ?_
    · cases hlast
      exact h.ledger.mem
    · cases hd
  · obtain ⟨last', hstage, ⟨hlt, hstored, rfl⟩ | ⟨-, hstored, -⟩ | ⟨err, -, hstored, -⟩⟩ :=
      resolve_eq_some hc'
    · cases hstored
      exact h.record (hC c hc last' (by rw [hstage]; rfl) hlt) _
    · cases hstored
    · cases hstored
  · obtain ⟨last, hstage, ⟨-, hstored, -⟩ | ⟨hlast, -, rfl⟩ | ⟨err, -, -, rfl⟩⟩ :=
      resolve_eq_some hc'
    · cases hstored
    · -- a repetition has loaded its own slot and block hash
      refine h.set (fun last hlast => by cases hlast) fun _ => ?_
      exact hlast ▸ h.loaded c (List.mem_of_getElem? hc) last hstage
    · refine h.set (fun last hlast => by cases hlast) fun hd => ?_
      cases hd

/-- `lastDelivered` only goes on. -/
theorem slot_le_of_step (h : Inv s) {a : Action} (hC : StoresFresh s a)
    (hs : step P cfg s a = some s') : s.lastDelivered.slot ≤ s'.lastDelivered.slot := by
  -- the history only grows, and the value is the newest of it
  refine (h.step hC hs).ledger.le _ ?_
  rcases step_cases hs with ⟨v, request, find, rfl⟩ | ⟨k, ok, c, c', -, -, -, rfl⟩ |
    ⟨k, c, -, -, -, rfl⟩ | ⟨k, c, c', last, -, -, -, rfl⟩ | ⟨k, c, c', -, -, rfl⟩
  · exact h.ledger.mem
  · exact h.ledger.mem
  · exact h.ledger.mem
  · exact List.mem_cons_of_mem _ h.ledger.mem
  · exact h.ledger.mem

/-- **No two block hashes are delivered for one slot**: in every run in which no call stores over a
value that would have rejected it, two calls that return a payload for one slot have the same block
hash, and the slot of `lastDelivered` never goes back. -/
theorem no_equivocation (P : Primitives) (cfg : RelayConfig) (pre post : List Action)
    (s t : State) (hpre : Runs.run (step P cfg) State.init pre = some s)
    (hpost : Runs.run (step P cfg) s post = some t)
    (hC : Runs.Meets (step P cfg) StoresFresh State.init (pre ++ post)) :
    s.lastDelivered.slot ≤ t.lastDelivered.slot ∧
    ∀ c ∈ t.calls, ∀ d ∈ t.calls, c.Delivered → d.Delivered → c.request.slot = d.request.slot →
      c.request.blockHash = d.request.blockHash := by
  obtain ⟨hCpre, hCpost⟩ := (Runs.Meets.append_iff (step P cfg) hpre).1 hC
  have hs : Inv s := Runs.run_invariant_of_meets (step P cfg)
    (fun _ _ _ h hC hs => h.step hC hs) inv_init hCpre hpre
  -- along the second part, the invariant and a lower bound of the slot are kept together
  have ht : Inv t ∧ s.lastDelivered.slot ≤ t.lastDelivered.slot :=
    Runs.run_invariant_of_meets (step P cfg)
      (I := fun u => Inv u ∧ s.lastDelivered.slot ≤ u.lastDelivered.slot)
      (fun _ _ _ h hC hs => ⟨h.1.step hC hs, UInt64.le_trans h.2 (slot_le_of_step h.1 hC hs)⟩)
      ⟨hs, UInt64.le_refl _⟩ hCpost hpost
  refine ⟨ht.2, fun c hc d hd hcd hdd hslot => ?_⟩
  have heq := ht.1.ledger.unique _ (ht.1.delivered c hc hcd) _ (ht.1.delivered d hd hdd) hslot
  exact congrArg LastDelivered.blockHash heq

/-! ### Two requests for one slot -/

/-- A view in which every signature is valid, at the fork of `capellaEpoch` one. -/
def openView : PayloadView where
  beacon := { (default : BeaconView) with fork := ⟨0, 0, 1⟩ }
  knownValidator _ := some (.ok default)
  proposerSigningDomain _ := default
  signingRoot _ _ := .ok default
  verifySignatureBytes _ _ _ := (true, none)

/-- A blinded block for the slot `32` with a given block hash. -/
def blindedBlock (blockHash : Hash) : SignedBlindedBeaconBlock :=
  .capella default
    { slot := 32
      proposerIndex := 0
      parentRoot := default
      stateRoot := default
      body := some
        { hasEth1Data := true
          hasSyncAggregate := true
          executionPayloadHeader :=
            some { (default : Capella.ExecutionPayloadHeader) with blockHash := blockHash }
          rest := [] } }

/-- The payload of such a block. -/
def payloadFor (blockHash : Hash) : BlockAndTraceExtended :=
  .capella { (default : Capella.ExecutionPayload) with epBlockHash := blockHash } default blockHash

/-- A call for a blinded block whose payload is found. -/
def callFor (blockHash : Hash) : Action :=
  .call openView (blindedBlock blockHash) fun _ => .ok (payloadFor blockHash)

/-- Two proposals for one slot, both loaded before either is stored. -/
def racing : List Action :=
  [callFor default, callFor (Vector.replicate 32 1), .publish 0 true, .publish 1 true, .load 0,
    .load 1, .resolve 0, .resolve 1]

/-- A proposal and its repetition. -/
def repeated : List Action :=
  [callFor default, .publish 0 true, .load 0, .resolve 0, callFor default, .publish 1 true,
    .load 1, .resolve 1]

/-- Two payloads are delivered for one slot. -/
theorem equivocation_racing :
    ∃ s, Runs.run (step default default) State.init racing = some s ∧
      ∃ c ∈ s.calls, ∃ d ∈ s.calls, c.Delivered ∧ d.Delivered ∧
        c.request.slot = d.request.slot ∧ c.request.blockHash ≠ d.request.blockHash :=
  Runs.exists_run_of_any _ (by decide +kernel)

/-- A repetition is delivered again, with the same block hash. -/
theorem no_equivocation_repeated :
    ∃ s, Runs.run (step default default) State.init repeated = some s ∧ s.calls.length = 2 ∧
      ∀ c ∈ s.calls, ∀ d ∈ s.calls, c.Delivered → d.Delivered →
        c.request.slot = d.request.slot → c.request.blockHash = d.request.blockHash := by
  obtain ⟨s, hs, hlen⟩ : ∃ s, Runs.run (step default default) State.init repeated = some s ∧
      s.calls.length = 2 := Runs.exists_run_of_any _ (by decide +kernel)
  exact ⟨s, hs, hlen,
    (no_equivocation default default [] repeated State.init s rfl hs (by decide +kernel)).2⟩

end Delivery

end Dreamboat
