/-
**One store of registrations for several relays.**

With the flag for distribution, several relays keep the registrations of the validators in one
key-value store.  `PutNewerRegistration` of `src/datastore/validator/badger/badger.go` reads the
stored timestamp, compares, and writes the timestamp and then the registration, under a mutex that
every relay has for itself.  The reads and writes of different relays may come in any order.

Main definitions:

* `SharedStore.State`, `SharedStore.Action`, `SharedStore.step` — the calls and the store;
* `SharedStore.HoldsNewest` — a newest registration is stored when all calls have finished;
* `SharedStore.KeepsNewer` — a registration is not written over a newer one.

Main results:

* `SharedStore.holdsNewest_of_keepsNewer` — **the store ends with a newest registration if no
  registration is written over a newer one**;
* `SharedStore.keepsNewer_of_oneInstance` — that is so when there is one relay and no read fails.
-/

import Dreamboat.Runs
import Dreamboat.ValidatorStore
import Mathlib.Data.List.MinMax

set_option autoImplicit false

namespace Dreamboat

namespace SharedStore

/-! ### The calls -/

/-- How far a call of `PutNewerRegistration` is. -/
inductive Stage where
  | called
  /-- It has the mutex of its relay. -/
  | locked
  /-- It has not found a newer timestamp. -/
  | checked
  /-- It has written the timestamp. -/
  | timePut
  | returned (err : Option GoError)
  deriving DecidableEq

/-- The call has the mutex. -/
def Stage.holds : Stage → Bool
  | .locked | .checked | .timePut => true
  | .called | .returned _ => false

structure Call where
  /-- The relay that makes the call. -/
  inst : ℕ
  pk : PublicKey
  reg : SignedValidatorRegistration
  stage : Stage

structure State where
  store : Datastore
  calls : List Call

def init : State := ⟨Datastore.empty, []⟩

inductive Action where
  | putNewerRegistration (inst : ℕ) (pk : PublicKey) (reg : SignedValidatorRegistration)
  | lock (k : ℕ)
  | get (k : ℕ)
  /-- The read fails, which is not returned. -/
  | getFailed (k : ℕ)
  | putTime (k : ℕ)
  /-- A write that fails may have been made. -/
  | putTimeFailed (k : ℕ) (err : GoError) (written : Bool)
  | putRegistration (k : ℕ)
  | putRegistrationFailed (k : ℕ) (err : GoError) (written : Bool)

/-- A step of the call `k`, which is at `stage`. -/
def stepCall (s : State) (k : ℕ) (stage : Stage) (f : Call → Option (Stage × Datastore)) :
    Option State := do
  let call ← s.calls[k]?
  if call.stage = stage then
    let (stage, store) ← f call
    return ⟨store, s.calls.set k { call with stage }⟩
  else none

def step (s : State) : Action → Option State
  | .putNewerRegistration inst pk reg =>
      some { s with calls := s.calls ++ [⟨inst, pk, reg, .called⟩] }
  | .lock k => stepCall s k .called fun call =>
      if ∀ d ∈ s.calls, d.inst = call.inst → d.stage.holds = false then some (.locked, s.store)
      else none
  | .get k => stepCall s k .locked fun call =>
      some (if s.store.hasNewer call.pk call.reg then .returned none else .checked, s.store)
  | .getFailed k => stepCall s k .locked fun _ => some (.checked, s.store)
  | .putTime k => stepCall s k .checked fun call =>
      some (.timePut, s.store.putTime call.pk call.reg.timestamp)
  | .putTimeFailed k err written => stepCall s k .checked fun call =>
      some (.returned (some err),
        if written then s.store.putTime call.pk call.reg.timestamp else s.store)
  | .putRegistration k => stepCall s k .timePut fun call =>
      some (.returned none, s.store.putRegistration call.pk call.reg)
  | .putRegistrationFailed k err written => stepCall s k .timePut fun call =>
      some (.returned (some err),
        if written then s.store.putRegistration call.pk call.reg else s.store)

/-! ### The property and the condition -/

/-- When all calls have finished without an error, the store returns a registration with the
greatest timestamp of all calls for the validator. -/
def HoldsNewest (s : State) : Prop :=
  (∀ c ∈ s.calls, c.stage = .returned none) → ∀ pk, (∃ c ∈ s.calls, c.pk = pk) →
    ∃ reg, s.store.getRegistration pk = .ok reg ∧
      (∃ c ∈ s.calls, c.pk = pk ∧ c.reg.timestamp = reg.timestamp) ∧
      ∀ c ∈ s.calls, c.pk = pk → c.reg.timestamp ≤ reg.timestamp

/-- The stored registration is not newer than the one of the call `k`. -/
def NotNewer (s : State) (k : ℕ) : Prop :=
  ∀ c ∈ s.calls[k]?, ∀ reg ∈ s.store.registrations.lookup c.pk, reg.timestamp ≤ c.reg.timestamp

/-- A registration is not written over a newer one. -/
def KeepsNewer (s : State) : Action → Prop
  | .putRegistration k | .putRegistrationFailed k _ true => NotNewer s k
  | _ => True

instance (s : State) (k : ℕ) : Decidable (NotNewer s k) :=
  inferInstanceAs (Decidable (∀ _ ∈ _, _))

instance (s : State) : DecidablePred (KeepsNewer s)
  | .putRegistration _ | .putRegistrationFailed _ _ true =>
      inferInstanceAs (Decidable (NotNewer _ _))
  | .putRegistrationFailed _ _ false => isTrue trivial
  | .putNewerRegistration _ _ _ | .lock _ | .get _ | .getFailed _ | .putTime _
  | .putTimeFailed _ _ _ => isTrue trivial

/-! ### One step -/

variable {s s' : State} {a : Action}

theorem stepCall_eq_some {k : ℕ} {stage : Stage} {f : Call → Option (Stage × Datastore)}
    (h : stepCall s k stage f = some s') : ∃ call stage' store, s.calls[k]? = some call ∧
      call.stage = stage ∧ f call = some (stage', store) ∧
      s' = ⟨store, s.calls.set k { call with stage := stage' }⟩ := by
  obtain ⟨call, hcall, h⟩ := Option.bind_eq_some_iff.1 h
  split at h
  · next hstage =>
      obtain ⟨⟨stage', store⟩, hf, h⟩ := Option.bind_eq_some_iff.1 h
      exact ⟨call, stage', store, hcall, hstage, hf, (Option.some_inj.1 h).symm⟩
  · cases h

/-- What a step of a call does to the store, with the next stage of the call. -/
inductive Effect (s : State) (a : Action) (k : ℕ) (call : Call) : Stage → Datastore → Prop
  | lock : a = .lock k → call.stage = .called →
      (∀ d ∈ s.calls, d.inst = call.inst → d.stage.holds = false) →
      Effect s a k call .locked s.store
  | newer : a = .get k → call.stage = .locked → s.store.hasNewer call.pk call.reg = true →
      Effect s a k call (.returned none) s.store
  | check : call.stage = .locked →
      (a = .get k ∧ s.store.hasNewer call.pk call.reg = false ∨ a = .getFailed k) →
      Effect s a k call .checked s.store
  | putTime (stage : Stage) : call.stage = .checked →
      stage = .timePut ∨ (∃ err, stage = .returned (some err)) →
      Effect s a k call stage (s.store.putTime call.pk call.reg.timestamp)
  | putRegistration (err : Option GoError) : call.stage = .timePut →
      a = .putRegistration k ∨ (∃ e, a = .putRegistrationFailed k e true) →
      Effect s a k call (.returned err) (s.store.putRegistration call.pk call.reg)
  | failed (err : GoError) : call.stage.holds = true →
      Effect s a k call (.returned (some err)) s.store

/-- **Everything a step can do**: a new call, or a step of one call. -/
theorem step_cases (h : step s a = some s') :
    (∃ inst pk reg, a = .putNewerRegistration inst pk reg ∧
      s' = { s with calls := s.calls ++ [⟨inst, pk, reg, .called⟩] }) ∨
    ∃ k call stage store, s.calls[k]? = some call ∧ Effect s a k call stage store ∧
      s' = ⟨store, s.calls.set k { call with stage }⟩ := by
  cases a with
  | putNewerRegistration inst pk reg => exact .inl ⟨inst, pk, reg, rfl, (Option.some_inj.1 h).symm⟩
  | lock k =>
      obtain ⟨call, stage, store, hcall, hstage, hf, hs'⟩ := stepCall_eq_some h
      split at hf
      · next hfree =>
          obtain ⟨rfl, rfl⟩ := Prod.mk.inj (Option.some_inj.1 hf)
          exact .inr ⟨k, call, _, _, hcall, .lock rfl hstage hfree, hs'⟩
      · cases hf
  | get k =>
      obtain ⟨call, stage, store, hcall, hstage, hf, hs'⟩ := stepCall_eq_some h
      obtain ⟨rfl, rfl⟩ := Prod.mk.inj (Option.some_inj.1 hf)
      refine .inr ⟨k, call, _, _, hcall, ?_, hs'⟩
      cases hnewer : s.store.hasNewer call.pk call.reg with
      | true => exact .newer rfl hstage hnewer
      | false => exact .check hstage (.inl ⟨rfl, hnewer⟩)
  | getFailed k =>
      obtain ⟨call, stage, store, hcall, hstage, hf, hs'⟩ := stepCall_eq_some h
      obtain ⟨rfl, rfl⟩ := Prod.mk.inj (Option.some_inj.1 hf)
      exact .inr ⟨k, call, _, _, hcall, .check hstage (.inr rfl), hs'⟩
  | putTime k =>
      obtain ⟨call, stage, store, hcall, hstage, hf, hs'⟩ := stepCall_eq_some h
      obtain ⟨rfl, rfl⟩ := Prod.mk.inj (Option.some_inj.1 hf)
      exact .inr ⟨k, call, _, _, hcall, .putTime _ hstage (.inl rfl), hs'⟩
  | putTimeFailed k err written =>
      obtain ⟨call, stage, store, hcall, hstage, hf, hs'⟩ := stepCall_eq_some h
      obtain ⟨rfl, rfl⟩ := Prod.mk.inj (Option.some_inj.1 hf)
      refine .inr ⟨k, call, _, _, hcall, ?_, hs'⟩
      cases written with
      | true => exact .putTime _ hstage (.inr ⟨err, rfl⟩)
      | false => exact .failed err (by rw [hstage]; rfl)
  | putRegistration k =>
      obtain ⟨call, stage, store, hcall, hstage, hf, hs'⟩ := stepCall_eq_some h
      obtain ⟨rfl, rfl⟩ := Prod.mk.inj (Option.some_inj.1 hf)
      exact .inr ⟨k, call, _, _, hcall, .putRegistration none hstage (.inl rfl), hs'⟩
  | putRegistrationFailed k err written =>
      obtain ⟨call, stage, store, hcall, hstage, hf, hs'⟩ := stepCall_eq_some h
      obtain ⟨rfl, rfl⟩ := Prod.mk.inj (Option.some_inj.1 hf)
      refine .inr ⟨k, call, _, _, hcall, ?_, hs'⟩
      cases written with
      | true => exact .putRegistration (some err) hstage (.inr ⟨err, rfl⟩)
      | false => exact .failed err (by rw [hstage]; rfl)

/-! ### A newest registration -/

/-- There is a call for a validator with a timestamp. -/
def Called (s : State) (pk : PublicKey) (time : UInt64) : Prop :=
  ∃ c ∈ s.calls, c.pk = pk ∧ c.reg.timestamp = time

/-- What is stored comes from the calls, and a call that has finished without an error has left a
registration that is not older, or there is a call for a newer one. -/
structure Inv (s : State) : Prop where
  times : ∀ pk time, s.store.times.lookup pk = some time → Called s pk time
  registrations : ∀ pk reg, s.store.registrations.lookup pk = some reg → Called s pk reg.timestamp
  finished : ∀ c ∈ s.calls, c.stage = .returned none →
    (∃ reg, s.store.registrations.lookup c.pk = some reg ∧ c.reg.timestamp ≤ reg.timestamp) ∨
      ∃ time, Called s c.pk time ∧ c.reg.timestamp < time

theorem inv_init : Inv init := ⟨by simp [init, Datastore.empty], by simp [init, Datastore.empty],
  by simp [init]⟩

/-- The calls stay, whatever stage one of them comes to. -/
theorem called_set {k : ℕ} {call : Call} (hcall : s.calls[k]? = some call) (store : Datastore)
    (stage : Stage) {pk : PublicKey} {time : UInt64} (h : Called s pk time) :
    Called ⟨store, s.calls.set k { call with stage }⟩ pk time := by
  obtain ⟨c, hc, hpk, htime⟩ := h
  by_cases hcc : c = call
  · subst hcc
    exact ⟨_, List.mem_set (List.getElem?_eq_some_iff.1 hcall).1 _, hpk, htime⟩
  · exact ⟨c, Runs.mem_set_of_ne hcall hc hcc _, hpk, htime⟩

theorem called_call {k : ℕ} {call : Call} (hcall : s.calls[k]? = some call) :
    Called s call.pk call.reg.timestamp :=
  ⟨call, List.mem_of_getElem? hcall, rfl, rfl⟩

section Effect

variable {k : ℕ} {call : Call} {stage : Stage} {store : Datastore}

/-- The timestamps that are stored after a step. -/
theorem Effect.times (h : Effect s a k call stage store) {pk : PublicKey} {time : UInt64}
    (ht : store.times.lookup pk = some time) :
    s.store.times.lookup pk = some time ∨ (pk = call.pk ∧ time = call.reg.timestamp) := by
  cases h with
  | lock ha hstage hfree => exact .inl ht
  | newer ha hstage hnewer => exact .inl ht
  | check hstage ha => exact .inl ht
  | putTime stage hstage hnext =>
      simp only [Datastore.putTime, Go.lookup_insert_eq] at ht
      split at ht
      · next hpk => exact .inr ⟨hpk, (Option.some_inj.1 ht).symm⟩
      · exact .inl ht
  | putRegistration err hstage ha => exact .inl ht
  | failed err hholds => exact .inl ht

/-- The registrations that are stored after a step. -/
theorem Effect.registrations (h : Effect s a k call stage store) {pk : PublicKey}
    {reg : SignedValidatorRegistration} (hreg : store.registrations.lookup pk = some reg) :
    s.store.registrations.lookup pk = some reg ∨ (pk = call.pk ∧ reg = call.reg) := by
  cases h with
  | lock ha hstage hfree => exact .inl hreg
  | newer ha hstage hnewer => exact .inl hreg
  | check hstage ha => exact .inl hreg
  | putTime stage hstage hnext => exact .inl hreg
  | putRegistration err hstage ha =>
      simp only [Datastore.putRegistration, Go.lookup_insert_eq] at hreg
      split at hreg
      · next hpk => exact .inr ⟨hpk, (Option.some_inj.1 hreg).symm⟩
      · exact .inl hreg
  | failed err hholds => exact .inl hreg

/-- Under the condition, what is stored does not get older. -/
theorem Effect.stored_mono (h : Effect s a k call stage store) (hcall : s.calls[k]? = some call)
    (hkeeps : KeepsNewer s a) {pk : PublicKey} {reg : SignedValidatorRegistration}
    (hreg : s.store.registrations.lookup pk = some reg) :
    ∃ reg', store.registrations.lookup pk = some reg' ∧ reg.timestamp ≤ reg'.timestamp := by
  cases h with
  | lock ha hstage hfree => exact ⟨reg, hreg, UInt64.le_refl _⟩
  | newer ha hstage hnewer => exact ⟨reg, hreg, UInt64.le_refl _⟩
  | check hstage ha => exact ⟨reg, hreg, UInt64.le_refl _⟩
  | putTime stage hstage hnext => exact ⟨reg, hreg, UInt64.le_refl _⟩
  | putRegistration err hstage ha =>
      have hnot : NotNewer s k := by
        obtain rfl | ⟨e, rfl⟩ := ha
        · exact hkeeps
        · exact hkeeps
      simp only [Datastore.putRegistration, Go.lookup_insert_eq]
      split
      · next hpk =>
          subst hpk
          exact ⟨call.reg, rfl, hnot call hcall reg hreg⟩
      · exact ⟨reg, hreg, UInt64.le_refl _⟩
  | failed err hholds => exact ⟨reg, hreg, UInt64.le_refl _⟩

/-- How a call finishes without an error: it has found a newer timestamp, or it has written its
registration. -/
theorem Effect.finished (h : Effect s a k call stage store) (hstage : stage = .returned none) :
    (∃ time, s.store.times.lookup call.pk = some time ∧ call.reg.timestamp < time) ∨
      store.registrations.lookup call.pk = some call.reg := by
  cases h with
  | lock ha hstage' hfree => cases hstage
  | newer ha hstage' hnewer =>
      simp only [Datastore.hasNewer] at hnewer
      cases htime : s.store.times.lookup call.pk with
      | none => simp [htime] at hnewer
      | some time =>
          rw [htime] at hnewer
          exact .inl ⟨time, rfl, of_decide_eq_true hnewer⟩
  | check hstage' ha => cases hstage
  | putTime stage hstage' hnext =>
      subst hstage
      obtain hnext | ⟨err, hnext⟩ := hnext
      · cases hnext
      · cases hnext
  | putRegistration err hstage' ha => exact .inr (by simp [Datastore.putRegistration])
  | failed err hholds => cases hstage

end Effect

/-- **One step under the condition.** -/
theorem inv_step (hinv : Inv s) (hkeeps : KeepsNewer s a) (h : step s a = some s') : Inv s' := by
  obtain ⟨inst, pk, reg, -, rfl⟩ | ⟨k, call, stage, store, hcall, heffect, rfl⟩ := step_cases h
  · have hcalled : ∀ {pk' time}, Called s pk' time →
        Called { s with calls := s.calls ++ [⟨inst, pk, reg, .called⟩] } pk' time := by
      rintro pk' time ⟨c, hc, hc'⟩
      exact ⟨c, List.mem_append_left _ hc, hc'⟩
    refine ⟨fun pk' time ht => hcalled (hinv.times pk' time ht),
      fun pk' reg' hreg => hcalled (hinv.registrations pk' reg' hreg), ?_⟩
    intro c hc hstage
    rcases List.mem_append.1 hc with hc | hc
    · obtain hstored | ⟨time, htime, hlt⟩ := hinv.finished c hc hstage
      · exact .inl hstored
      · exact .inr ⟨time, hcalled htime, hlt⟩
    · rw [List.mem_singleton.1 hc] at hstage
      cases hstage
  · have hcalled : ∀ {pk time}, Called s pk time →
        Called ⟨store, s.calls.set k { call with stage }⟩ pk time := called_set hcall store stage
    refine ⟨?_, ?_, ?_⟩
    · intro pk time ht
      obtain ht | ⟨rfl, rfl⟩ := heffect.times ht
      · exact hcalled (hinv.times pk time ht)
      · exact hcalled (called_call hcall)
    · intro pk reg hreg
      obtain hreg | ⟨rfl, rfl⟩ := heffect.registrations hreg
      · exact hcalled (hinv.registrations pk reg hreg)
      · exact hcalled (called_call hcall)
    · intro c hc hstage
      rcases List.mem_or_eq_of_mem_set hc with hc | rfl
      · obtain ⟨reg, hreg, hle⟩ | ⟨time, htime, hlt⟩ := hinv.finished c hc hstage
        · obtain ⟨reg', hreg', hle'⟩ := heffect.stored_mono hcall hkeeps hreg
          exact .inl ⟨reg', hreg', UInt64.le_trans hle hle'⟩
        · exact .inr ⟨time, hcalled htime, hlt⟩
      · obtain ⟨time, htime, hlt⟩ | hreg := heffect.finished hstage
        · exact .inr ⟨time, hcalled (hinv.times _ _ htime), hlt⟩
        · exact .inl ⟨call.reg, hreg, UInt64.le_refl _⟩

/-- Of the calls for a validator there is one with the greatest timestamp. -/
theorem exists_newest_call {calls : List Call} {pk : PublicKey} (h : ∃ c ∈ calls, c.pk = pk) :
    ∃ c ∈ calls, c.pk = pk ∧ ∀ d ∈ calls, d.pk = pk → d.reg.timestamp ≤ c.reg.timestamp := by
  have hmem : ∀ {c}, c ∈ calls.filter (fun c => c.pk = pk) ↔ c ∈ calls ∧ c.pk = pk := by
    simp [List.mem_filter]
  cases hmax : (calls.filter fun c => c.pk = pk).argmax fun c => c.reg.timestamp.toNat with
  | none =>
      obtain ⟨c, hc⟩ := h
      have hnil := List.argmax_eq_none.1 hmax
      have hin := hmem.2 hc
      simp [hnil] at hin
  | some c =>
      obtain ⟨hc, hpk⟩ := hmem.1 (List.argmax_mem hmax)
      refine ⟨c, hc, hpk, ?_⟩
      intro d hd hdpk
      have hle : d.reg.timestamp.toNat ≤ c.reg.timestamp.toNat :=
        List.le_of_mem_argmax (f := fun c : Call => c.reg.timestamp.toNat) (hmem.2 ⟨hd, hdpk⟩) hmax
      exact UInt64.le_iff_toNat_le.2 hle

/-- The call with the greatest timestamp has not been skipped. -/
theorem Inv.holdsNewest (hinv : Inv s) : HoldsNewest s := by
  intro hdone pk hpk
  obtain ⟨c, hc, rfl, hmax⟩ := exists_newest_call hpk
  obtain ⟨reg, hreg, hle⟩ | ⟨time, ⟨d, hd, hdpk, rfl⟩, hlt⟩ := hinv.finished c hc (hdone c hc)
  · obtain ⟨d, hd, hdpk, hdtime⟩ := hinv.registrations _ _ hreg
    refine ⟨reg, Datastore.getRegistration_eq_ok_iff.2 hreg, ⟨d, hd, hdpk, hdtime⟩, ?_⟩
    intro e he hepk
    exact UInt64.le_trans (hmax e he hepk) hle
  · exact absurd (hmax d hd hdpk) (UInt64.not_le.2 hlt)

/-- **The store ends with a newest registration** in every run of any number of relays in which no
registration is written over a newer one. -/
theorem holdsNewest_of_keepsNewer (as : List Action) (hkeeps : Runs.Meets step KeepsNewer init as)
    (t : State) (ht : Runs.Visits step init as t) : HoldsNewest t :=
  (Runs.visits_invariant_of_meets step (fun _ _ _ hinv hC hs => inv_step hinv hC hs) inv_init hkeeps
    ht).holdsNewest

/-- A registration of one validator. -/
def registrationAt (timestamp : UInt64) : SignedValidatorRegistration :=
  ⟨⟨default, 30000000, timestamp, default⟩, default⟩

/-- Two relays; the second one reads after the first one has written its timestamp. -/
def oneAfterTheOther : List Action :=
  [.putNewerRegistration 0 default (registrationAt 2),
    .putNewerRegistration 1 default (registrationAt 1), .lock 0, .lock 1, .get 0, .putTime 0,
    .get 1, .putRegistration 0]

theorem holdsNewest_oneAfterTheOther : ∃ s, Runs.run step init oneAfterTheOther = some s ∧
    (∀ c ∈ s.calls, c.stage = .returned none) ∧ HoldsNewest s := by
  obtain ⟨s, hrun, hdone⟩ : ∃ s, Runs.run step init oneAfterTheOther = some s ∧
      ∀ c ∈ s.calls, c.stage = .returned none := Runs.exists_run_of_any step (by decide)
  exact ⟨s, hrun, hdone, holdsNewest_of_keepsNewer oneAfterTheOther (by decide) s
    (Runs.visits_last step hrun)⟩

/-- Two relays that both read before either of them has written. -/
def crossing : List Action :=
  [.putNewerRegistration 0 default (registrationAt 1),
    .putNewerRegistration 1 default (registrationAt 2), .lock 0, .lock 1, .get 0, .get 1,
    .putTime 1, .putRegistration 1, .putTime 0, .putRegistration 0]

/-- All calls have finished without an error, and the older registration is stored. -/
theorem older_registration_stored : ∃ s, Runs.run step init crossing = some s ∧
    (∀ c ∈ s.calls, c.stage = .returned none) ∧
    s.store.registrations.lookup default = some (registrationAt 1) ∧ ¬HoldsNewest s := by
  obtain ⟨s, hrun, hdone, hold, hcall⟩ : ∃ s, Runs.run step init crossing = some s ∧
      (∀ c ∈ s.calls, c.stage = .returned none) ∧
      s.store.registrations.lookup default = some (registrationAt 1) ∧
      ∃ c ∈ s.calls, c.pk = default ∧ c.reg = registrationAt 2 :=
    Runs.exists_run_of_any step (by decide)
  refine ⟨s, hrun, hdone, hold, ?_⟩
  intro hnewest
  obtain ⟨c, hc, hpk, hreg⟩ := hcall
  obtain ⟨reg, hget, -, hmax⟩ := hnewest hdone default ⟨c, hc, hpk⟩
  have hreg' : reg = registrationAt 1 :=
    Option.some_inj.1 ((Datastore.getRegistration_eq_ok_iff.1 hget).symm.trans hold)
  have hle := hmax c hc hpk
  rw [hreg, hreg'] at hle
  exact absurd hle (by decide)

/-! ### One relay -/

/-- The calls are those of one relay, and no read fails. -/
def OneInstance (inst : ℕ) : Action → Prop
  | .putNewerRegistration inst' _ _ => inst' = inst
  | .getFailed _ => False
  | _ => True

/-- One call at a time, and the stored timestamp is that of the stored registration or newer. -/
structure Serial (inst : ℕ) (s : State) : Prop where
  same : ∀ c ∈ s.calls, c.inst = inst
  one : ∀ (j k : ℕ) (c d : Call), s.calls[j]? = some c → s.calls[k]? = some d →
    c.stage.holds = true → d.stage.holds = true → j = k
  ahead : ∀ pk reg, s.store.registrations.lookup pk = some reg →
    ∃ time, s.store.times.lookup pk = some time ∧ reg.timestamp ≤ time
  notNewer : ∀ c ∈ s.calls, c.stage = .checked ∨ c.stage = .timePut →
    ∀ reg, s.store.registrations.lookup c.pk = some reg → reg.timestamp ≤ c.reg.timestamp
  timePut : ∀ c ∈ s.calls, c.stage = .timePut →
    s.store.times.lookup c.pk = some c.reg.timestamp

theorem serial_init (inst : ℕ) : Serial inst init :=
  ⟨by simp [init], by simp [init], by simp [init, Datastore.empty], by simp [init], by simp [init]⟩

/-- While one call has the mutex, no other call is between its read and its return. -/
theorem Serial.eq_of_holds {inst k : ℕ} {call : Call} (h : Serial inst s)
    (hcall : s.calls[k]? = some call) (hholds : call.stage.holds = true) {stage : Stage}
    {c : Call} (hc : c ∈ s.calls.set k { call with stage }) (hc' : c.stage.holds = true) :
    c = { call with stage } := by
  obtain ⟨j, hj⟩ := List.mem_iff_getElem?.1 hc
  by_cases hjk : k = j
  · subst hjk
    rw [List.getElem?_set_self (List.getElem?_eq_some_iff.1 hcall).1] at hj
    exact (Option.some_inj.1 hj).symm
  · rw [List.getElem?_set_ne hjk] at hj
    exact absurd (h.one k j call c hcall hj hholds hc') hjk

/-- A call that comes to have the mutex had it before, or nobody had it. -/
theorem Effect.holds {k : ℕ} {call : Call} {stage : Stage} {store : Datastore}
    (h : Effect s a k call stage store) (hstage : stage.holds = true) :
    call.stage.holds = true ∨ ∀ d ∈ s.calls, d.inst = call.inst → d.stage.holds = false := by
  cases h with
  | lock ha hcalled hfree => exact .inr hfree
  | newer ha hlocked hnewer => cases hstage
  | check hlocked ha => exact .inl (by rw [hlocked]; rfl)
  | putTime stage hchecked hnext => exact .inl (by rw [hchecked]; rfl)
  | putRegistration err htimePut ha => cases hstage
  | failed err hholds => cases hstage

/-- One step of a call keeps the mutex. -/
theorem Serial.one_set {inst k : ℕ} {call : Call} {stage : Stage} {store : Datastore}
    (h : Serial inst s) (hcall : s.calls[k]? = some call) (heffect : Effect s a k call stage store)
    (i j : ℕ) (c d : Call) (hc : (s.calls.set k { call with stage })[i]? = some c)
    (hd : (s.calls.set k { call with stage })[j]? = some d) (hc' : c.stage.holds = true)
    (hd' : d.stage.holds = true) : i = j := by
  have hlen := (List.getElem?_eq_some_iff.1 hcall).1
  -- another call that has the mutex is a contradiction when this one has it now
  have hother : ∀ (i : ℕ) (c : Call), k ≠ i → s.calls[i]? = some c → c.stage.holds = true →
      stage.holds = true → False := by
    intro i c hki hc hc' hstage
    obtain hheld | hfree := heffect.holds hstage
    · exact hki (h.one k i call c hcall hc hheld hc')
    · have hmem := List.mem_of_getElem? hc
      have hsame : c.inst = call.inst := by
        rw [h.same c hmem, h.same call (List.mem_of_getElem? hcall)]
      rw [hfree c hmem hsame] at hc'
      cases hc'
  by_cases hki : k = i
  · subst hki
    rw [List.getElem?_set_self hlen, Option.some_inj] at hc
    subst hc
    by_contra hkj
    rw [List.getElem?_set_ne hkj] at hd
    exact hother j d hkj hd hd' hc'
  · rw [List.getElem?_set_ne hki] at hc
    by_cases hkj : k = j
    · subst hkj
      rw [List.getElem?_set_self hlen, Option.some_inj] at hd
      subst hd
      exact (hother i c hki hc hc' hd').elim
    · rw [List.getElem?_set_ne hkj] at hd
      exact h.one i j c d hc hd hc' hd'

theorem Serial.same_set {inst k : ℕ} {call : Call} (h : Serial inst s)
    (hcall : s.calls[k]? = some call) (stage : Stage) :
    ∀ c ∈ s.calls.set k { call with stage }, c.inst = inst := by
  intro c hc
  rcases List.mem_or_eq_of_mem_set hc with hc | rfl
  · exact h.same c hc
  · exact h.same call (List.mem_of_getElem? hcall)

/-- A step that leaves the store alone, to a stage in which nothing is to be written. -/
theorem Serial.set_idle {inst k : ℕ} {call : Call} {stage : Stage} (h : Serial inst s)
    (hcall : s.calls[k]? = some call) (heffect : Effect s a k call stage s.store)
    (hchecked : stage ≠ .checked) (htimePut : stage ≠ .timePut) :
    Serial inst ⟨s.store, s.calls.set k { call with stage }⟩ := by
  refine ⟨h.same_set hcall _, h.one_set hcall heffect, h.ahead, ?_, ?_⟩
  · intro c hc hstage
    rcases List.mem_or_eq_of_mem_set hc with hc | rfl
    · exact h.notNewer c hc hstage
    · exact absurd hstage (not_or.2 ⟨hchecked, htimePut⟩)
  · intro c hc hstage
    rcases List.mem_or_eq_of_mem_set hc with hc | rfl
    · exact h.timePut c hc hstage
    · exact absurd hstage htimePut

/-- A call comes in. -/
theorem Serial.call {inst : ℕ} (h : Serial inst s) (pk : PublicKey)
    (reg : SignedValidatorRegistration) :
    Serial inst { s with calls := s.calls ++ [⟨inst, pk, reg, .called⟩] } := by
  have hold : ∀ (j : ℕ) (c : Call), (s.calls ++ [⟨inst, pk, reg, .called⟩])[j]? = some c →
      c.stage.holds = true → s.calls[j]? = some c := by
    intro j c hc hholds
    rw [List.getElem?_append] at hc
    split at hc
    · exact hc
    · obtain rfl := List.mem_singleton.1 (List.mem_of_getElem? hc)
      cases hholds
  refine ⟨?_, ?_, h.ahead, ?_, ?_⟩
  · intro c hc
    rcases List.mem_append.1 hc with hc | hc
    · exact h.same c hc
    · rw [List.mem_singleton.1 hc]
  · intro i j c d hc hd hc' hd'
    exact h.one i j c d (hold i c hc hc') (hold j d hd hd') hc' hd'
  · intro c hc hstage
    rcases List.mem_append.1 hc with hc | hc
    · exact h.notNewer c hc hstage
    · rw [List.mem_singleton.1 hc] at hstage
      simp at hstage
  · intro c hc hstage
    rcases List.mem_append.1 hc with hc | hc
    · exact h.timePut c hc hstage
    · rw [List.mem_singleton.1 hc] at hstage
      cases hstage

/-- A call between its read and its return has the mutex. -/
theorem Stage.holds_of_busy {stage : Stage} (h : stage = .checked ∨ stage = .timePut) :
    stage.holds = true := by
  rcases h with rfl | rfl
  · rfl
  · rfl

/-- A call has read that nothing newer is stored. -/
theorem Serial.check {inst k : ℕ} {call : Call} (h : Serial inst s)
    (hcall : s.calls[k]? = some call) (heffect : Effect s a k call .checked s.store)
    (hnewer : s.store.hasNewer call.pk call.reg = false) :
    Serial inst ⟨s.store, s.calls.set k { call with stage := .checked }⟩ := by
  refine ⟨h.same_set hcall _, h.one_set hcall heffect, h.ahead, ?_, ?_⟩
  · intro c hc hstage reg hreg
    rcases List.mem_or_eq_of_mem_set hc with hc | rfl
    · exact h.notNewer c hc hstage reg hreg
    · obtain ⟨time, htime, hle⟩ := h.ahead _ reg hreg
      simp only [Datastore.hasNewer, htime, decide_eq_false_iff_not, UInt64.not_lt] at hnewer
      exact UInt64.le_trans hle hnewer
  · intro c hc hstage
    rcases List.mem_or_eq_of_mem_set hc with hc | rfl
    · exact h.timePut c hc hstage
    · cases hstage

/-- A call has written its timestamp. -/
theorem Serial.putTime {inst k : ℕ} {call : Call} {stage : Stage} (h : Serial inst s)
    (hcall : s.calls[k]? = some call) (hchecked : call.stage = .checked)
    (heffect : Effect s a k call stage (s.store.putTime call.pk call.reg.timestamp)) :
    Serial inst ⟨s.store.putTime call.pk call.reg.timestamp,
      s.calls.set k { call with stage }⟩ := by
  have hmem := List.mem_of_getElem? hcall
  have hheld : call.stage.holds = true := Stage.holds_of_busy (.inl hchecked)
  refine ⟨h.same_set hcall _, h.one_set hcall heffect, ?_, ?_, ?_⟩
  · intro pk reg hreg
    simp only [Datastore.putTime, Go.lookup_insert_eq]
    split
    · next hpk =>
        subst hpk
        exact ⟨_, rfl, h.notNewer call hmem (.inl hchecked) reg hreg⟩
    · exact h.ahead pk reg hreg
  · intro c hc hstage reg hreg
    obtain rfl := h.eq_of_holds hcall hheld hc (Stage.holds_of_busy hstage)
    exact h.notNewer call hmem (.inl hchecked) reg hreg
  · intro c hc hstage
    obtain rfl := h.eq_of_holds hcall hheld hc (Stage.holds_of_busy (.inr hstage))
    simp [Datastore.putTime]

/-- A call has written its registration. -/
theorem Serial.putRegistration {inst k : ℕ} {call : Call} {err : Option GoError}
    (h : Serial inst s) (hcall : s.calls[k]? = some call) (htimePut : call.stage = .timePut)
    (heffect : Effect s a k call (.returned err) (s.store.putRegistration call.pk call.reg)) :
    Serial inst ⟨s.store.putRegistration call.pk call.reg,
      s.calls.set k { call with stage := .returned err }⟩ := by
  have hheld : call.stage.holds = true := Stage.holds_of_busy (.inr htimePut)
  refine ⟨h.same_set hcall _, h.one_set hcall heffect, ?_, ?_, ?_⟩
  · intro pk reg hreg
    simp only [Datastore.putRegistration, Go.lookup_insert_eq] at hreg
    split at hreg
    · next hpk =>
        subst hpk
        obtain rfl := Option.some_inj.1 hreg
        exact ⟨_, h.timePut call (List.mem_of_getElem? hcall) htimePut, UInt64.le_refl _⟩
    · exact h.ahead pk reg hreg
  · intro c hc hstage
    obtain rfl := h.eq_of_holds hcall hheld hc (Stage.holds_of_busy hstage)
    simp at hstage
  · intro c hc hstage
    obtain rfl := h.eq_of_holds hcall hheld hc (Stage.holds_of_busy (.inr hstage))
    cases hstage

/-- **One step of one relay.** -/
theorem serial_step {inst : ℕ} (h : Serial inst s) (hone : OneInstance inst a)
    (hs : step s a = some s') : Serial inst s' := by
  obtain ⟨inst', pk, reg, rfl, rfl⟩ | ⟨k, call, stage, store, hcall, heffect, rfl⟩ := step_cases hs
  · obtain rfl : inst' = inst := hone
    exact h.call pk reg
  · cases heffect with
    | lock ha hcalled hfree => exact h.set_idle hcall (.lock ha hcalled hfree) (by simp) (by simp)
    | newer ha hlocked hnewer =>
        exact h.set_idle hcall (.newer ha hlocked hnewer) (by simp) (by simp)
    | check hlocked ha =>
        obtain ⟨rfl, hnewer⟩ | rfl := ha
        · exact h.check hcall (.check hlocked (.inl ⟨rfl, hnewer⟩)) hnewer
        · exact hone.elim
    | putTime stage hchecked hnext =>
        exact h.putTime (a := a) hcall hchecked (.putTime stage hchecked hnext)
    | putRegistration err htimePut ha =>
        exact h.putRegistration hcall htimePut (.putRegistration err htimePut ha)
    | failed err hholds =>
        exact h.set_idle (a := a) hcall (.failed err hholds) (by simp) (by simp)

/-- The writes of one relay do not replace anything newer. -/
theorem Serial.keepsNewer {inst : ℕ} (h : Serial inst s) (hs : step s a = some s') :
    KeepsNewer s a := by
  have hwrite : ∀ {k : ℕ} {f : Call → Option (Stage × Datastore)},
      stepCall s k .timePut f = some s' → NotNewer s k := by
    intro k f hs c hc reg hreg
    obtain ⟨call, stage, store, hcall, hstage, -⟩ := stepCall_eq_some hs
    obtain rfl : call = c := Option.some_inj.1 (hcall.symm.trans hc)
    exact h.notNewer call (List.mem_of_getElem? hcall) (.inr hstage) reg hreg
  cases a with
  | putRegistration k => exact hwrite hs
  | putRegistrationFailed k err written =>
      cases written with
      | true => exact hwrite hs
      | false => trivial
  | putNewerRegistration inst pk reg => trivial
  | lock k => trivial
  | get k => trivial
  | getFailed k => trivial
  | putTime k => trivial
  | putTimeFailed k err written => trivial

/-- **One relay is enough**: in a run of the calls of one relay in which no read fails, no
registration is written over a newer one, so that the store ends with a newest one. -/
theorem keepsNewer_of_oneInstance (inst : ℕ) (as : List Action)
    (hone : ∀ a ∈ as, OneInstance inst a) (t : State) (hrun : Runs.run step init as = some t) :
    Runs.Meets step KeepsNewer init as :=
  Runs.meets_of_invariant step (I := Serial inst)
    (fun _ _ _ h ha hs => ⟨serial_step h ha hs, h.keepsNewer hs⟩) (serial_init inst) hone hrun

end SharedStore

end Dreamboat
