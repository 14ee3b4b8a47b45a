/-
**The evidence of a delivery.**

When `GetPayload` returns, a background task stores the trace of the payload as evidence of the
delivery, provided that the flag `storeTrace` is set.  The flag is set after the publication and
*before* the guard, so a request that the guard then rejects, or whose answer fails, leaves evidence
of a delivery that has not taken place.

This module adds the tasks to the calls of `Dreamboat/Delivery.lean`, and shows that there is no
other way: in every run in which a call that comes to the guard is accepted by it and has a payload
of the fork of its slot, and in which no trace is missing, `PutDelivered` is called once for each
delivery and for nothing else.

Main definitions:

* `BlockAndTraceExtended.toDeliveredTrace` — the evidence;
* `Evidence.State`, `Evidence.Action`, `Evidence.step` — the calls and their tasks;
* `Evidence.GuardAccepts` — the condition;
* `Evidence.Inv` — the invariant.

Main results:

* `Delivery.call_of_step` — a call that has returned stays as it is;
* `Evidence.put_iff_delivered` — **`PutDelivered` is called for what is delivered**.
-/

import Dreamboat.Delivery

set_option autoImplicit false

namespace Dreamboat

/-! ### The trace of a delivery -/

/-- `BidTraceWithTimestamp`, with the fields of `BidTraceExtended`. -/
structure BidTraceWithTimestamp where
  bidTrace : BidTrace
  blockNumber : UInt64
  numTx : UInt64
  timestamp : UInt64
  timestampMs : UInt64
  deriving DecidableEq, Inhabited, Repr

structure DeliveredTrace where
  trace : BidTraceWithTimestamp
  blockNumber : UInt64
  deriving DecidableEq, Inhabited, Repr

namespace BlockAndTraceExtended

/-- The trace of a payload; both forks fill it in the same way. -/
def deliveredTrace (slot : UInt64) (b : BlockAndTraceExtended) : DeliveredTrace :=
  let payload := b.executionPayload.base
  { trace :=
      { bidTrace :=
          { slot := slot
            parentHash := payload.epParentHash
            blockHash := payload.epBlockHash
            builderPubkey := b.trace.message.builderPubkey
            proposerPubkey := b.trace.message.proposerPubkey
            proposerFeeRecipient := b.trace.message.proposerFeeRecipient
            gasLimit := payload.epGasLimit
            gasUsed := payload.epGasUsed
            value := b.trace.message.value }
        blockNumber := payload.epBlockNumber
        numTx := UInt64.ofNat payload.epTransactions.length
        timestamp := payload.epTimestamp
        timestampMs := 0 }
    blockNumber := payload.epBlockNumber }

/-- `ToDeliveredTrace`.  The record of a Bellatrix payload points to its trace; `hasTrace` says
whether the pointer, and the one in the trace, are not `nil`. -/
def toDeliveredTrace (hasTrace : Bool) (slot : UInt64) :
    BlockAndTraceExtended → Except GoError DeliveredTrace
  | b@(bellatrix _ _ _) =>
      if hasTrace then .ok (b.deliveredTrace slot) else .error (.new "empty trace contents")
  | b@(capella _ _ _) => .ok (b.deliveredTrace slot)

end BlockAndTraceExtended

namespace Delivery

/-- The call has returned. -/
def Stage.returned : Stage → Bool
  | .done _ => true
  | _ => false

variable {P : Primitives} {cfg : RelayConfig} {s s' : State} {c c' : Call}

/-- The publication comes before the guard, and leaves the flag alone. -/
theorem before_guard_of_publish {ok : Bool} (h : c.publish cfg ok = some c') :
    (c.stage = .validated ∨ c.stage = .retrying) ∧ c'.storeTrace = c.storeTrace := by
  unfold Call.publish at h
  split at h
  · next hstage =>
      refine ⟨Or.inl hstage, ?_⟩
      split at h
      · split at h
        · cases h
          rfl
        · cases h
          rfl
      · cases h
        rfl
  · next hstage =>
      cases h
      exact ⟨Or.inr hstage, rfl⟩
  · cases h

/-- **A call that has returned stays as it is.** -/
theorem call_of_step {a : Action} (hs : step P cfg s a = some s') {i : ℕ}
    (hc : s.calls[i]? = some c) (hret : c.stage.returned = true) : s'.calls[i]? = some c := by
  -- a call that goes on has not returned, so it is another one
  have hset : ∀ k d d', s.calls[k]? = some d → d.stage.returned = false →
      (s.calls.set k d')[i]? = some c := by
    intro k d d' hd hgo
    rw [List.getElem?_set_ne, hc]
    rintro rfl
    rw [hc] at hd
    cases hd
    rw [hret] at hgo
    cases hgo
  rcases step_cases hs with ⟨v, request, find, rfl⟩ | ⟨k, ok, d, d', -, hd, hd', rfl⟩ |
    ⟨k, d, -, hd, hstage, rfl⟩ | ⟨k, d, d', last, -, hd, hd', rfl⟩ | ⟨k, d, d', hd, hd', rfl⟩
  · exact List.getElem?_append_left (List.getElem?_eq_some_iff.1 hc).1 ▸ hc
  · rcases (before_guard_of_publish hd').1 with hstage | hstage
    · exact hset k d d' hd (by rw [hstage]; rfl)
    · exact hset k d d' hd (by rw [hstage]; rfl)
  · exact hset k d _ hd (by rw [hstage]; rfl)
  · obtain ⟨last, hstage, -⟩ := resolve_eq_some hd'
    exact hset k d d' hd (by rw [hstage]; rfl)
  · obtain ⟨last, hstage, -⟩ := resolve_eq_some hd'
    exact hset k d d' hd (by rw [hstage]; rfl)

end Delivery

/-! ### The calls and their tasks -/

namespace Evidence

/-- A call of `PutDelivered`, by the task of the call with the given number. -/
structure Put where
  call : ℕ
  slot : UInt64
  trace : DeliveredTrace
  deriving DecidableEq, Repr

structure State where
  relay : Delivery.State
  /-- The calls whose task has run. -/
  ran : List ℕ
  /-- The calls of `PutDelivered`. -/
  puts : List Put
  /-- Those of them that have succeeded. -/
  evidence : List Put

def State.init : State := ⟨Delivery.State.init, [], [], []⟩

inductive Action where
  /-- A step of a call. -/
  | relay (a : Delivery.Action)
  /-- The task of a call that has returned: whether its record has a trace, and the result of
  `PutDelivered`. -/
  | task (k : ℕ) (hasTrace : Bool) (result : Option GoError)

variable (P : Primitives) (cfg : RelayConfig)

/-- `storeTraceDelivered`, for the call with the number `k`. -/
def storeTraceDelivered (s : State) (k : ℕ) (hasTrace : Bool) (result : Option GoError)
    (slot : UInt64) (payload : BlockAndTraceExtended) : State :=
  match payload.toDeliveredTrace hasTrace slot with
  | .error _ => s
  | .ok trace =>
      { s with
        puts := ⟨k, slot, trace⟩ :: s.puts
        evidence := match result with
          | none => ⟨k, slot, trace⟩ :: s.evidence
          | some _ => s.evidence }

def step (s : State) : Action → Option State
  | .relay a => do
      let relay ← Delivery.step P cfg s.relay a
      return { s with relay }
  | .task k hasTrace result => do
      let c ← s.relay.calls[k]?
      -- a call that returns before the task is deferred has not set the flag either
      if c.stage.returned ∧ k ∉ s.ran then
        let s := { s with ran := k :: s.ran }
        if c.storeTrace then
          return storeTraceDelivered s k hasTrace result c.request.slot c.payload
        else return s
      else none

/-- The condition: a call that comes to the guard is accepted by it and has a payload of the fork of
its slot, and a Bellatrix record has its trace. -/
def GuardAccepts (s : State) : Action → Prop
  | .relay (.load k) => ∀ c, s.relay.calls[k]? = some c →
      s.relay.lastDelivered.Accepts c.request.delivery ∧
        c.payload.executionPayload.fork = c.fork
  | .task k hasTrace _ => ∀ c, s.relay.calls[k]? = some c →
      c.payload.executionPayload.fork = .bellatrix → hasTrace = true
  | _ => True

instance (s : State) : ∀ a : Action, Decidable (GuardAccepts s a)
  | .relay (.call _ _ _) => inferInstanceAs (Decidable True)
  | .relay (.publish _ _) => inferInstanceAs (Decidable True)
  | .relay (.load k) => inferInstanceAs (Decidable (∀ c ∈ s.relay.calls[k]?, _))
  | .relay (.resolve _) => inferInstanceAs (Decidable True)
  | .task k _ _ => inferInstanceAs (Decidable (∀ c ∈ s.relay.calls[k]?, _))

/-! ### The flag -/

variable {P cfg} {s s' : State} {c c' : Delivery.Call}

/-- The flag is set from the guard on, and a call that has come to the guard is going to deliver. -/
structure Flagged (c : Delivery.Call) : Prop where
  flag : c.storeTrace = true ↔ (∃ last, c.stage = .loaded last) ∨ c.Delivered
  accepts : ∀ last, c.stage = .loaded last → last.Accepts c.request.delivery
  fork : ∀ last, c.stage = .loaded last → c.payload.executionPayload.fork = c.fork

/-- A call whose payload is of the fork of its slot is answered with it. -/
theorem delivered_of_response {stage : Delivery.Stage} {payload : ExecutionPayload}
    (h : stage = .done (payloadResponse payload.fork payload)) : stage.delivered = true := by
  rw [h]
  cases payload <;> rfl

theorem Flagged.of_not {c : Delivery.Call} (hflag : c.storeTrace = false)
    (hload : ∀ last, c.stage ≠ .loaded last) (hdel : ¬c.Delivered) : Flagged c where
  flag := by
    constructor
    · intro h
      rw [hflag] at h
      cases h
    · rintro (⟨last, h⟩ | h)
      · exact absurd h (hload last)
      · exact absurd h hdel
  accepts last h := absurd h (hload last)
  fork last h := absurd h (hload last)

theorem Flagged.newCall (P : Primitives) (cfg : RelayConfig) (v : PayloadView)
    (request : SignedBlindedBeaconBlock)
    (find : PayloadKey → Except GoError BlockAndTraceExtended) :
    Flagged (Delivery.newCall P cfg v request find) := by
  obtain ⟨hload, hdel, -⟩ := Delivery.newCall_not_delivered P cfg v request find
  exact .of_not rfl hload hdel

theorem Flagged.publish (h : Flagged c) {ok : Bool} (hc : c.publish cfg ok = some c') :
    Flagged c' := by
  obtain ⟨hload, hdel⟩ := Delivery.publish_not_delivered hc
  obtain ⟨hstage, hsame⟩ := Delivery.before_guard_of_publish hc
  refine .of_not ?_ hload hdel
  rw [hsame, ← Bool.not_eq_true, h.flag]
  rintro (⟨last, hlast⟩ | hdel)
  · rcases hstage with hstage | hstage
    · rw [hstage] at hlast
      cases hlast
    · rw [hstage] at hlast
      cases hlast
  · rcases hstage with hstage | hstage
    · rw [Delivery.Call.Delivered, hstage] at hdel
      cases hdel
    · rw [Delivery.Call.Delivered, hstage] at hdel
      cases hdel

/-- A call comes to the guard. -/
theorem Flagged.load {last : LastDelivered} (hacc : last.Accepts c.request.delivery)
    (hfork : c.payload.executionPayload.fork = c.fork) :
    Flagged { c with stage := .loaded last, storeTrace := true } where
  flag := iff_of_true rfl (Or.inl ⟨last, rfl⟩)
  accepts last' h := by
    cases h
    exact hacc
  fork _ _ := hfork

/-- The guard accepts the call, and it delivers. -/
theorem Flagged.resolve (h : Flagged c) {stored : Option LastDelivered}
    (hc : c.resolve = some (stored, c')) : Flagged c' := by
  obtain ⟨last, hstage, hcases⟩ := Delivery.resolve_eq_some hc
  have hflag : c.storeTrace = true := h.flag.2 (Or.inl ⟨last, hstage⟩)
  have hdone : Flagged
      { c with stage := .done (payloadResponse c.fork c.payload.executionPayload) } := by
    refine ⟨iff_of_true hflag (Or.inr ?_), fun last h => (by cases h), fun last h => (by cases h)⟩
    exact delivered_of_response (by rw [h.fork last hstage])
  rcases hcases with ⟨-, -, rfl⟩ | ⟨-, -, rfl⟩ | ⟨err, hguard, -, -⟩
  · exact hdone
  · exact hdone
  · exact absurd hguard (guard_ne_reject_of_accepts (h.accepts last hstage) err)

/-- A step of the calls keeps the flags. -/
theorem flagged_of_step {r r' : Delivery.State} {a : Delivery.Action}
    (h : ∀ c ∈ r.calls, Flagged c) (hC : GuardAccepts ⟨r, [], [], []⟩ (.relay a))
    (hs : Delivery.step P cfg r a = some r') : ∀ c ∈ r'.calls, Flagged c := by
  have hset : ∀ k c', Flagged c' → ∀ c ∈ r.calls.set k c', Flagged c := by
    intro k c' hc' c hc
    rcases List.mem_or_eq_of_mem_set hc with hc | rfl
    · exact h c hc
    · exact hc'
  rcases Delivery.step_cases hs with ⟨v, request, find, rfl⟩ | ⟨k, ok, c, c', -, hc, hc', rfl⟩ |
    ⟨k, c, rfl, hc, hstage, rfl⟩ | ⟨k, c, c', last, -, hc, hc', rfl⟩ | ⟨k, c, c', hc, hc', rfl⟩
  · intro c hc
    rcases List.mem_append.1 hc with hc | hc
    · exact h c hc
    · rw [List.mem_singleton.1 hc]
      exact .newCall P cfg v request find
  · exact hset k c' ((h c (List.mem_of_getElem? hc)).publish hc')
  · obtain ⟨hacc, hfork⟩ := hC c hc
    exact hset k _ (.load hacc hfork)
  · exact hset k c' ((h c (List.mem_of_getElem? hc)).resolve hc')
  · exact hset k c' ((h c (List.mem_of_getElem? hc)).resolve hc')

/-! ### What is put -/

/-- What `PutDelivered` is to be called with for the call with the number `k`. -/
def putOf (k : ℕ) (c : Delivery.Call) : Put :=
  ⟨k, c.request.slot, c.payload.deliveredTrace c.request.slot⟩

/-- The calls of `PutDelivered` for the call with the number `k`. -/
def State.putsFor (s : State) (k : ℕ) : List Put := s.puts.filter fun e => e.call = k

/-- The calls carry their flags; what has been put is that of the calls whose task has run. -/
structure Inv (s : State) : Prop where
  flagged : ∀ c ∈ s.relay.calls, Flagged c
  returned : ∀ k ∈ s.ran, ∃ c, s.relay.calls[k]? = some c ∧ c.stage.returned = true
  waiting : ∀ k ∉ s.ran, s.putsFor k = []
  put : ∀ k ∈ s.ran, ∀ c, s.relay.calls[k]? = some c →
    s.putsFor k = if c.Delivered then [putOf k c] else []
  evidence : ∀ e ∈ s.evidence, e ∈ s.puts

theorem inv_init : Inv State.init where
  flagged c hc := by cases hc
  returned k hk := by cases hk
  waiting k hk := rfl
  put k hk := by cases hk
  evidence e he := by cases he

/-- A record that has its trace is put with it. -/
theorem toDeliveredTrace_eq_ok {hasTrace : Bool} {slot : UInt64} {b : BlockAndTraceExtended}
    (h : b.executionPayload.fork = .bellatrix → hasTrace = true) :
    b.toDeliveredTrace hasTrace slot = .ok (b.deliveredTrace slot) := by
  cases b with
  | bellatrix trace bid payload =>
      rw [h rfl]
      rfl
  | capella payload trace hash => rfl

/-- A step of the calls leaves what was put alone. -/
theorem Inv.relay (h : Inv s) {a : Delivery.Action} {r : Delivery.State}
    (hC : GuardAccepts s (.relay a)) (hs : Delivery.step P cfg s.relay a = some r) :
    Inv { s with relay := r } where
  flagged := flagged_of_step h.flagged (by cases a <;> exact hC) hs
  returned k hk := by
    obtain ⟨c, hc, hret⟩ := h.returned k hk
    exact ⟨c, Delivery.call_of_step hs hc hret, hret⟩
  waiting := h.waiting
  put k hk c hc := by
    obtain ⟨d, hd, hret⟩ := h.returned k hk
    have heq : c = d := Option.some.inj (hc.symm.trans (Delivery.call_of_step hs hd hret))
    exact heq ▸ h.put k hk d hd
  evidence := h.evidence

/-- A call that has returned has the flag set exactly when it has delivered. -/
theorem Flagged.returned (h : Flagged c) (hret : c.stage.returned = true) :
    c.storeTrace = true ↔ c.Delivered := by
  rw [h.flag]
  constructor
  · rintro (⟨last, hlast⟩ | hdel)
    · rw [hlast] at hret
      cases hret
    · exact hdel
  · exact Or.inr

/-- The task of a call runs; `puts` is what it puts. -/
theorem Inv.task (h : Inv s) {k : ℕ} (puts : List Put) {evidence : List Put}
    (hc : s.relay.calls[k]? = some c) (hret : c.stage.returned = true) (hk : k ∉ s.ran)
    (hputs : puts = if c.Delivered then [putOf k c] else [])
    (hev : ∀ e ∈ evidence, e ∈ puts ∨ e ∈ s.evidence) :
    Inv ⟨s.relay, k :: s.ran, puts ++ s.puts, evidence⟩ := by
  have hcall : ∀ e ∈ puts, e.call = k := by
    intro e he
    rw [hputs] at he
    split at he
    · rw [List.mem_singleton.1 he]
      rfl
    · cases he
  have hself : puts.filter (fun e => e.call = k) = puts :=
    List.filter_eq_self.2 fun e he => by simpa using hcall e he
  have hother : ∀ j, j ≠ k → puts.filter (fun e => e.call = j) = [] := by
    intro j hj
    refine List.filter_eq_nil_iff.2 fun e he => ?_
    rw [hcall e he]
    simpa using hj.symm
  refine ⟨h.flagged, ?_, ?_, ?_, ?_⟩
  · intro j hj
    rcases List.mem_cons.1 hj with rfl | hj
    · exact ⟨c, hc, hret⟩
    · exact h.returned j hj
  · intro j hj
    obtain ⟨hjk, hj⟩ := List.ne_and_not_mem_of_not_mem_cons hj
    rw [State.putsFor, List.filter_append, hother j hjk, List.nil_append]
    exact h.waiting j hj
  · intro j hj d hd
    rw [State.putsFor, List.filter_append]
    rcases List.mem_cons.1 hj with rfl | hj
    · have heq : c = d := Option.some.inj (hc.symm.trans hd)
      have hnil : s.puts.filter (fun e => e.call = j) = [] := h.waiting j hk
      rw [hself, hnil, List.append_nil, hputs, heq]
    · have hjk : j ≠ k := fun hjk => hk (hjk ▸ hj)
      rw [hother j hjk, List.nil_append]
      exact h.put j hj d hd
  · intro e he
    rcases hev e he with he | he
    · exact List.mem_append_left _ he
    · exact List.mem_append_right _ (h.evidence e he)

theorem Inv.step (h : Inv s) {a : Action} (hC : GuardAccepts s a)
    (hs : Evidence.step P cfg s a = some s') : Inv s' := by
  cases a with
  | relay a =>
      obtain ⟨r, hr, hs⟩ := Option.bind_eq_some_iff.1 hs
      cases hs
      exact h.relay hC hr
  | task k hasTrace result =>
      obtain ⟨c, hc, hs⟩ := Option.bind_eq_some_iff.1 hs
      split at hs
      · next hready =>
          obtain ⟨hret, hk⟩ := hready
          have hflag := (h.flagged c (List.mem_of_getElem? hc)).returned hret
          split at hs
          · next hset =>
              have hdel := hflag.1 hset
              cases hs
              rw [storeTraceDelivered, toDeliveredTrace_eq_ok (hC c hc)]
              refine h.task [putOf k c] hc hret hk (by rw [if_pos hdel]) fun e he => ?_
              cases result with
              | none =>
                  rcases List.mem_cons.1 he with rfl | he
                  · exact Or.inl List.mem_cons_self
                  · exact Or.inr he
              | some err => exact Or.inr he
          · next hset =>
              have hdel := mt hflag.2 hset
              cases hs
              exact h.task [] hc hret hk (by rw [if_neg hdel]) fun e he => Or.inr he
      · cases hs

/-- **`PutDelivered` is called for what is delivered**: in every run in which a call that comes to
the guard is accepted by it and has a payload of the fork of its slot, and in which no trace is
missing, the task of a call that has returned its payload calls `PutDelivered` once, with the trace
of the payload; it is called for nothing else, and all the evidence is that of such calls. -/
theorem put_iff_delivered (P : Primitives) (cfg : RelayConfig) (as : List Action) (s : State)
    (hrun : Runs.run (step P cfg) State.init as = some s)
    (hC : Runs.Meets (step P cfg) GuardAccepts State.init as) :
    (∀ k c, s.relay.calls[k]? = some c →
      s.putsFor k = if k ∈ s.ran ∧ c.Delivered then [putOf k c] else []) ∧
    ∀ e ∈ s.evidence, ∃ c, s.relay.calls[e.call]? = some c ∧ c.Delivered ∧ e = putOf e.call c := by
  have h : Inv s := Runs.run_invariant_of_meets (step P cfg)
    (fun _ _ _ h hC hs => h.step hC hs) inv_init hC hrun
  refine ⟨fun k c hc => ?_, fun e he => ?_⟩
  · by_cases hran : k ∈ s.ran
    · simp only [h.put k hran c hc, hran, true_and]
    · simp only [h.waiting k hran, hran, false_and, if_false]
  have hfor : e ∈ s.putsFor e.call := List.mem_filter.2 ⟨h.evidence e he, by simp⟩
  by_cases hran : e.call ∈ s.ran
  · obtain ⟨c, hc, -⟩ := h.returned e.call hran
    rw [h.put e.call hran c hc] at hfor
    split at hfor
    · next hdel => exact ⟨c, hc, hdel, List.mem_singleton.1 hfor⟩
    · cases hfor
  · rw [h.waiting e.call hran] at hfor
    cases hfor

/-- A call from its publication to its task. -/
def wholeCall (k : ℕ) : List Action :=
  [.relay (.publish k true), .relay (.load k), .relay (.resolve k), .task k true none]

/-- A proposal and its repetition: both leave their evidence. -/
theorem put_iff_delivered_repeated :
    ∃ s, Runs.run (step default default) State.init
        (.relay (Delivery.callFor default) :: wholeCall 0 ++
          .relay (Delivery.callFor default) :: wholeCall 1) = some s ∧
      s.evidence.length = 2 ∧
      ∀ e ∈ s.evidence, ∃ c, s.relay.calls[e.call]? = some c ∧ c.Delivered ∧
        e = putOf e.call c := by
  obtain ⟨s, hs, hlen⟩ : ∃ s, Runs.run (step default default) State.init
        (.relay (Delivery.callFor default) :: wholeCall 0 ++
          .relay (Delivery.callFor default) :: wholeCall 1) = some s ∧
      s.evidence.length = 2 := Runs.exists_run_of_any _ (by decide +kernel)
  exact ⟨s, hs, hlen, (put_iff_delivered default default _ s hs (by decide +kernel)).2⟩

/-- A second proposal for a slot is rejected, and leaves evidence all the same. -/
theorem put_of_rejected :
    ∃ s, Runs.run (step default default) State.init
        (.relay (Delivery.callFor default) :: wholeCall 0 ++
          .relay (Delivery.callFor (Vector.replicate 32 1)) :: wholeCall 1) = some s ∧
      ∃ c, s.relay.calls[1]? = some c ∧ c.Rejected ∧ ¬c.Delivered ∧
        (s.putsFor 1).length = 1 ∧ ∃ e ∈ s.evidence, e.call = 1 := by
  obtain ⟨s, hs, h⟩ : ∃ s, Runs.run (step default default) State.init
        (.relay (Delivery.callFor default) :: wholeCall 0 ++
          .relay (Delivery.callFor (Vector.replicate 32 1)) :: wholeCall 1) = some s ∧
      (∃ c ∈ s.relay.calls[1]?, c.Rejected ∧ ¬c.Delivered) ∧
        (s.putsFor 1).length = 1 ∧ ∃ e ∈ s.evidence, e.call = 1 :=
    Runs.exists_run_of_any _ (by decide +kernel)
  obtain ⟨⟨c, hc, hrej, hdel⟩, hlen, hev⟩ := h
  exact ⟨s, hs, c, hc, hrej, hdel, hlen, hev⟩

end Evidence

end Dreamboat
