/-
**What is published and then rejected.**

A call of `GetPayload` publishes its block before it comes to the guard, so a block may be published
although the guard then rejects the request, and two blocks may be published for one slot.  This
module shows when that does not happen: in every run in which a call publishes only what the guard
would accept at that moment and what agrees with the publications on their way to the guard, nothing
that is published is rejected, and no two blocks are published for one slot.

Main definitions:

* `Delivery.PublishesAccepted` — the condition;
* `Delivery.PublishInv` — the invariant.

Main results:

* `Delivery.published_is_accepted` — **what is published is accepted**.
-/

import Dreamboat.Delivery

set_option autoImplicit false

namespace Dreamboat

namespace Delivery

variable (cfg : RelayConfig)

/-- The condition: a call publishes only what the guard would accept now and what agrees
with the calls that are between their publication and the guard. -/
def PublishesAccepted (s : State) : Action → Prop
  | .publish k _ => ∀ c, s.calls[k]? = some c → c.Publishes cfg →
      s.lastDelivered.Accepts c.request.delivery ∧
      ∀ d ∈ s.calls, d.InFlight → d.request.delivery = c.request.delivery
  | _ => True

instance (s : State) : ∀ a : Action, Decidable (PublishesAccepted cfg s a)
  | .call _ _ _ => inferInstanceAs (Decidable True)
  | .publish k _ => inferInstanceAs (Decidable (∀ c ∈ s.calls[k]?, _))
  | .load _ => inferInstanceAs (Decidable True)
  | .resolve _ => inferInstanceAs (Decidable True)

variable {P : Primitives} {cfg} {s s' : State} {c c' : Call}

/-! ### What is published is accepted -/

/-- The calls between their publication and the guard agree, and the guard accepts them; what was
rejected was not published, and what was published is on its way to the guard or delivered. -/
structure PublishInv (s : State) : Prop extends Inv s where
  same : ∀ c ∈ s.calls, ∀ d ∈ s.calls, c.InFlight → d.InFlight →
    c.request.delivery = d.request.delivery
  accepts : ∀ c ∈ s.calls, c.InFlight → s.lastDelivered.Accepts c.request.delivery
  loaded_accepts : ∀ c ∈ s.calls, ∀ last, c.stage = .loaded last →
    last.Accepts c.request.delivery
  rejected : ∀ c ∈ s.calls, c.Rejected → c.invocations = 0
  published : ∀ c ∈ s.calls, c.published = true → c.InFlight ∨ c.request.delivery ∈ s.history

theorem publishInv_init : PublishInv State.init where
  toInv := inv_init
  same c hc := by cases hc
  accepts c hc := by cases hc
  loaded_accepts c hc := by cases hc
  rejected c hc := by cases hc
  published c hc := by cases hc

/-- One call goes on, without a store. -/
theorem PublishInv.set (h : PublishInv s) {k : ℕ} (hinv : Inv { s with calls := s.calls.set k c' })
    (hflight : c'.InFlight → s.lastDelivered.Accepts c'.request.delivery ∧
      ∀ d ∈ s.calls, d.InFlight → d.request.delivery = c'.request.delivery)
    (hload : ∀ last, c'.stage = .loaded last → last.Accepts c'.request.delivery)
    (hrej : c'.Rejected → c'.invocations = 0)
    (hpub : c'.published = true → c'.InFlight ∨ c'.request.delivery ∈ s.history) :
    PublishInv { s with calls := s.calls.set k c' } where
  toInv := hinv
  same d hd e he hdf hef := by
    rcases List.mem_or_eq_of_mem_set hd with hd' | rfl
    · rcases List.mem_or_eq_of_mem_set he with he' | rfl
      · exact h.same d hd' e he' hdf hef
      · exact (hflight hef).2 d hd' hdf
    · rcases List.mem_or_eq_of_mem_set he with he' | rfl
      · exact ((hflight hdf).2 e he' hef).symm
      · rfl
  accepts d hd hdf := by
    rcases List.mem_or_eq_of_mem_set hd with hd | rfl
    · exact h.accepts d hd hdf
    · exact (hflight hdf).1
  loaded_accepts d hd := by
    rcases List.mem_or_eq_of_mem_set hd with hd | rfl
    · exact h.loaded_accepts d hd
    · exact hload
  rejected d hd := by
    rcases List.mem_or_eq_of_mem_set hd with hd | rfl
    · exact h.rejected d hd
    · exact hrej
  published d hd := by
    rcases List.mem_or_eq_of_mem_set hd with hd | rfl
    · exact h.published d hd
    · exact hpub

/-- A call that has come to its answer was not rejected. -/
theorem not_rejected_of_response {fork : ForkVersion} {payload : ExecutionPayload}
    (h : c.stage = .done (payloadResponse fork payload)) : ¬c.Rejected := by
  rw [Call.Rejected, h]
  cases fork <;> cases payload <;> simp [payloadResponse, Stage.rejected]

theorem PublishInv.newCall (h : PublishInv s) (P : Primitives) (cfg : RelayConfig)
    (v : PayloadView) (request : SignedBlindedBeaconBlock)
    (find : PayloadKey → Except GoError BlockAndTraceExtended) :
    PublishInv { s with calls := s.calls ++ [Delivery.newCall P cfg v request find] } := by
  obtain ⟨hload, -, hflight⟩ := newCall_not_delivered P cfg v request find
  -- a call that is in flight is an older one
  have hold : ∀ d ∈ s.calls ++ [Delivery.newCall P cfg v request find], d.InFlight →
      d ∈ s.calls := by
    intro d hd hdf
    rcases List.mem_append.1 hd with hd | hd
    · exact hd
    · rw [List.mem_singleton.1 hd] at hdf
      exact absurd hdf hflight
  refine ⟨h.toInv.newCall P cfg v request find, ?_, ?_, ?_, ?_, ?_⟩
  · exact fun d hd e he hdf hef => h.same d (hold d hd hdf) e (hold e he hef) hdf hef
  · exact fun d hd hdf => h.accepts d (hold d hd hdf) hdf
  · intro d hd last hlast
    rcases List.mem_append.1 hd with hd | hd
    · exact h.loaded_accepts d hd last hlast
    · rw [List.mem_singleton.1 hd] at hlast
      exact absurd hlast (hload last)
  · intro d hd hrej
    rcases List.mem_append.1 hd with hd | hd
    · exact h.rejected d hd hrej
    · rw [List.mem_singleton.1 hd]
      rfl
  · intro d hd hpub
    rcases List.mem_append.1 hd with hd | hd
    · exact h.published d hd hpub
    · rw [List.mem_singleton.1 hd] at hpub
      cases hpub

/-- The publication step. -/
theorem PublishInv.publish (h : PublishInv s) {k : ℕ} {ok : Bool} (hcfg : cfg.publishBlock = true)
    (hC : PublishesAccepted cfg s (.publish k ok)) (hc : s.calls[k]? = some c)
    (hc' : c.publish cfg ok = some c') : PublishInv { s with calls := s.calls.set k c' } := by
  have hmem := List.mem_of_getElem? hc
  obtain ⟨hload, hdel⟩ := publish_not_delivered hc'
  have hinv : Inv { s with calls := s.calls.set k c' } :=
    h.toInv.set (fun last hlast => absurd hlast (hload last)) fun hd => absurd hd hdel
  -- a call that publishes, now or again, is accepted and agrees with the others
  have hagree : c.Publishes cfg ∨ c.stage = .retrying →
      s.lastDelivered.Accepts c.request.delivery ∧
        ∀ d ∈ s.calls, d.InFlight → d.request.delivery = c.request.delivery := by
    rintro (hpub | hretry)
    · exact hC c hc hpub
    · have hflight : c.InFlight := by simp [Call.InFlight, hretry, Stage.inFlight]
      exact ⟨h.accepts c hmem hflight, fun d hd hdf => h.same d hd c hmem hdf hflight⟩
  rcases publish_eq_some hc' with ⟨-, hno, -⟩ | ⟨hstage, rfl⟩ | ⟨hpub, -, rfl⟩ | ⟨hpub, -, rfl⟩ |
    ⟨-, -, rfl⟩
  · rw [hcfg] at hno
    cases hno
  · refine h.set hinv (fun hf => by cases hf) (fun last hlast => by cases hlast)
      (fun hrej => by cases hrej) fun hp => ?_
    rcases h.published c hmem hp with hf | hhist
    · simp [Call.InFlight, hstage, Stage.inFlight] at hf
    · exact Or.inr hhist
  · exact h.set hinv (fun _ => hagree hpub) (fun last hlast => by cases hlast)
      (fun hrej => by cases hrej) fun _ => Or.inl rfl
  · exact h.set hinv (fun _ => hagree (Or.inl hpub)) (fun last hlast => by cases hlast)
      (fun hrej => by cases hrej) fun hp => by cases hp
  · exact h.set hinv (fun hf => by cases hf) (fun last hlast => by cases hlast)
      (fun hrej => by cases hrej) fun hp => by cases hp

/-- The guard stores the slot and the block hash of a call. -/
theorem PublishInv.record (h : PublishInv s) {k : ℕ} (hc : s.calls[k]? = some c)
    {last : LastDelivered} (hstage : c.stage = .loaded last) :
    PublishInv ⟨c.request.delivery,
      s.calls.set k { c with stage := .done (payloadResponse c.fork c.payload.executionPayload) },
      c.request.delivery :: s.history⟩ := by
  have hmem := List.mem_of_getElem? hc
  have hflight : c.InFlight := by simp [Call.InFlight, hstage, Stage.inFlight]
  have hnot : ¬Call.Rejected
      { c with stage := .done (payloadResponse c.fork c.payload.executionPayload) } :=
    not_rejected_of_response rfl
  refine ⟨h.toInv.record (h.accepts c hmem hflight) _, ?_, ?_, ?_, ?_, ?_⟩
  · intro d hd e he hdf hef
    rcases List.mem_or_eq_of_mem_set hd with hd | rfl
    · rcases List.mem_or_eq_of_mem_set he with he | rfl
      · exact h.same d hd e he hdf hef
      · cases hef
    · cases hdf
  · -- the others in flight agree with the value that is stored now
    intro d hd hdf
    rcases List.mem_or_eq_of_mem_set hd with hd | rfl
    · exact Or.inr (h.same c hmem d hd hflight hdf)
    · cases hdf
  · intro d hd last hlast
    rcases List.mem_or_eq_of_mem_set hd with hd | rfl
    · exact h.loaded_accepts d hd last hlast
    · cases hlast
  · intro d hd hrej
    rcases List.mem_or_eq_of_mem_set hd with hd | rfl
    · exact h.rejected d hd hrej
    · exact absurd hrej hnot
  · intro d hd hpub
    rcases List.mem_or_eq_of_mem_set hd with hd | rfl
    · exact (h.published d hd hpub).imp id (List.mem_cons_of_mem _)
    · exact Or.inr List.mem_cons_self

/-- **Steps that meet the condition keep the invariant.** -/
theorem PublishInv.step (h : PublishInv s) {a : Action} (hcfg : cfg.publishBlock = true)
    (hC : PublishesAccepted cfg s a) (hs : Delivery.step P cfg s a = some s') :
    PublishInv s' := by
  rcases step_cases hs with ⟨v, request, find, rfl⟩ | ⟨k, ok, c, c', rfl, hc, hc', rfl⟩ |
    ⟨k, c, -, hc, hstage, rfl⟩ | ⟨k, c, c', last, -, hc, hc', rfl⟩ | ⟨k, c, c', hc, hc', rfl⟩
  · exact h.newCall P cfg v request find
  · exact h.publish hcfg hC hc hc'
  · have hmem := List.mem_of_getElem? hc
    have hflight : c.InFlight := by simp [Call.InFlight, hstage, Stage.inFlight]
    have hacc := h.accepts c hmem hflight
    refine h.set ?_ (fun _ => ⟨hacc, fun d hd hdf => h.same d hd c hmem hdf hflight⟩) ?_ ?_ ?_
    · refine h.toInv.set (fun last hlast => ?_) fun hd => by cases hd
      cases hlast
      exact h.ledger.mem
    · intro last hlast
      cases hlast
      exact hacc
    · intro hrej
      cases hrej
    · exact fun _ => Or.inl rfl
  · obtain ⟨last', hstage, ⟨-, hstored, rfl⟩ | ⟨-, hstored, -⟩ | ⟨err, -, hstored, -⟩⟩ :=
      resolve_eq_some hc'
    · cases hstored
      exact h.record hc hstage
    · cases hstored
    · cases hstored
  · have hmem := List.mem_of_getElem? hc
    obtain ⟨last, hstage, ⟨-, hstored, -⟩ | ⟨hlast, -, rfl⟩ | ⟨err, hguard, -, -⟩⟩ :=
      resolve_eq_some hc'
    · cases hstored
    · have hhist : c.request.delivery ∈ s.history := hlast ▸ h.loaded c hmem last hstage
      refine h.set (h.toInv.set (fun last hlast => by cases hlast) fun _ => hhist)
        (fun hf => by cases hf) (fun last hlast => by cases hlast)
        (fun hrej => absurd hrej (not_rejected_of_response rfl)) fun _ => Or.inr hhist
    · exact absurd hguard (guard_ne_reject_of_accepts (h.loaded_accepts c hmem last hstage) err)

/-- **What is published is accepted**: in every run with `PublishBlock` set in which a call
publishes only what the guard would accept at that moment and what agrees with the calls between
their publication and the guard, `PublishBlock` is not invoked for a request that the guard rejects,
and no two blocks with different block hashes are published for one slot. -/
theorem published_is_accepted (P : Primitives) (cfg : RelayConfig)
    (hcfg : cfg.publishBlock = true) (as : List Action) (s : State)
    (hrun : Runs.run (step P cfg) State.init as = some s)
    (hC : Runs.Meets (step P cfg) (PublishesAccepted cfg) State.init as) :
    (∀ c ∈ s.calls, c.Rejected → c.invocations = 0) ∧
    ∀ c ∈ s.calls, ∀ d ∈ s.calls, c.published = true → d.published = true →
      c.request.slot = d.request.slot → c.request.blockHash = d.request.blockHash := by
  have h : PublishInv s := Runs.run_invariant_of_meets (step P cfg)
    (fun _ _ _ h hC hs => h.step hcfg hC hs) publishInv_init hC hrun
  -- a delivery of the history that has the slot of a call in flight is that call's
  have hmixed : ∀ c ∈ s.calls, c.InFlight → ∀ x ∈ s.history, x.slot = c.request.slot →
      x = c.request.delivery := by
    intro c hc hcf x hx hslot
    rcases h.accepts c hc hcf with hlt | heq
    · have hxlt := UInt64.lt_of_le_of_lt (h.ledger.le x hx) hlt
      rw [hslot] at hxlt
      exact absurd hxlt (UInt64.lt_irrefl _)
    · rw [← heq]
      exact h.ledger.unique x hx _ h.ledger.mem (by rw [hslot, heq]; rfl)
  refine ⟨h.rejected, fun c hc d hd hcp hdp hslot => ?_⟩
  have heq : c.request.delivery = d.request.delivery := by
    rcases h.published c hc hcp with hcf | hch
    · rcases h.published d hd hdp with hdf | hdh
      · exact h.same c hc d hd hcf hdf
      · exact (hmixed c hc hcf _ hdh hslot.symm).symm
    · rcases h.published d hd hdp with hdf | hdh
      · exact hmixed d hd hdf _ hch hslot
      · exact h.ledger.unique _ hch _ hdh hslot
  exact congrArg LastDelivered.blockHash heq

/-! ### Two requests for one slot -/

/-- A configuration with `PublishBlock` set. -/
def publishing : RelayConfig := { (default : RelayConfig) with publishBlock := true }

/-- Two proposals for one slot, one after the other. -/
def oneAfterOther : List Action :=
  [callFor default, .publish 0 true, .load 0, .resolve 0, callFor (Vector.replicate 32 1),
    .publish 1 true, .load 1, .resolve 1]

/-- A repetition is published and accepted. -/
theorem published_is_accepted_repeated :
    ∃ s, Runs.run (step default publishing) State.init repeated = some s ∧ s.calls.length = 2 ∧
      ∀ c ∈ s.calls, c.Rejected → c.invocations = 0 := by
  obtain ⟨s, hs, hlen⟩ : ∃ s, Runs.run (step default publishing) State.init repeated = some s ∧
      s.calls.length = 2 := Runs.exists_run_of_any _ (by decide +kernel)
  exact ⟨s, hs, hlen,
    (published_is_accepted default publishing rfl repeated s hs (by decide +kernel)).1⟩

/-- Of two proposals for one slot, one after the other, both are published, and the second one is
rejected after that. -/
theorem published_then_rejected :
    ∃ s, Runs.run (step default publishing) State.init oneAfterOther = some s ∧
      ∃ c ∈ s.calls, ∃ d ∈ s.calls, c.published = true ∧ d.published = true ∧ d.Rejected ∧
        d.invocations = 1 ∧ c.request.slot = d.request.slot ∧
        c.request.blockHash ≠ d.request.blockHash :=
  Runs.exists_run_of_any _ (by decide +kernel)

end Delivery

end Dreamboat
