/-
**The events of a new slot.**

The manager of `src/beacon/manager.go` consumes the events with the payload attributes of the next
slot, from several beacon nodes.  `processNewSlot` raises the head slot, drops what is old and what
it takes for a duplicate, and otherwise queries the duties and records the withdrawals and the
randao of the slot.

An event is a duplicate if its slot and its parent hash are those of the state.  Both are written
before the fallible part of the call, so an event that fails makes the later copies of it
duplicates, and the slot is never recorded.  This module shows when that does not happen: for every
event that is not such a copy of one that raised the head slot to a slot of the Capella fork and
was not processed to the end.

Main definitions:

* `PayloadAttributesEvent`, `Answers` — the events, and what the calls to the outside are answered;
* `updateWithdrawalsAndRandao`, `processNewSlot` — a call;
* `MultiSlotState.Recorded` — the withdrawals and the randao of a slot are recorded;
* `Completes` — the condition.

Main results:

* `updateWithdrawalsAndRandao_eq_some` — what is recorded;
* `processNewSlot_cases` — everything one call can do;
* `recorded_of_processNewSlot` — **a call that succeeds leaves its slot recorded**.
-/

import Dreamboat.BeaconState
import Dreamboat.GetHeader
import Dreamboat.Runs

set_option autoImplicit false

namespace Dreamboat

/-! ### Events -/

structure PayloadAttributes where
  prevRandao : String
  withdrawals : List Withdrawal

/-- An event; the parent hash is as `UnmarshalText` reads it. -/
structure PayloadAttributesEvent where
  proposalSlot : UInt64
  parentBlockHash : Except GoError Hash
  payloadAttributes : PayloadAttributes

/-- The slot an event is for, in machine arithmetic. -/
def PayloadAttributesEvent.receivedSlot (e : PayloadAttributesEvent) : UInt64 := e.proposalSlot - 1

/-- What the calls to the beacon nodes and to the registrations are answered while an event is
processed. -/
structure Answers where
  /-- `GetProposerDuties` of an epoch: the keys of the proposers and their slots. -/
  getProposerDuties : UInt64 → Except GoError (List (PublicKey × UInt64))
  /-- The registration from the cache, or else from the store. -/
  registration : PublicKey → Option SignedValidatorRegistration

/-- The duties of the epoch of a slot and of the next one. -/
def getProposerDuties (c : Answers) (headSlot : UInt64) :
    Except GoError (List (PublicKey × UInt64)) :=
  match c.getProposerDuties (epoch headSlot) with
  | .error err => .error (.wrap ("current epoch: get proposer duties: " ++ err.error) err)
  | .ok current =>
      match c.getProposerDuties (epoch headSlot + 1) with
      | .error err => .error (.wrap ("next epoch: get proposer duties: " ++ err.error) err)
      | .ok next => .ok (current ++ next)

/-- The duties of the proposers that are registered. -/
def storeProposerDuties (c : Answers) (s : MultiSlotState) (headSlot : UInt64)
    (entries : List (PublicKey × UInt64)) : MultiSlotState :=
  { s with
    duties := ⟨headSlot,
      entries.filterMap fun e => (c.registration e.1).map fun reg => (e.2, reg)⟩ }

variable (P : Primitives)

/-- Records the withdrawals and the randao of an event; `none` is a panic. -/
def updateWithdrawalsAndRandao (s : MultiSlotState) (e : PayloadAttributesEvent)
    (parentHash : Hash) : Option (MultiSlotState × Option GoError) :=
  match P.withdrawalsRoot e.payloadAttributes.withdrawals with
  | .error err => some (s, some (.wrap ("failed to compute withdrawals root: " ++ err.error) err))
  | .ok root => do
      let s ← s.setWithdrawals ⟨e.receivedSlot, parentHash, root⟩
      let s ← s.setRandao ⟨e.receivedSlot, parentHash, e.payloadAttributes.prevRandao⟩
      return (s, none)

/-- A fork that has no withdrawals. -/
def ForkState.isAltairOrBellatrix (fork : ForkState) (slot : UInt64) : Bool :=
  fork.isAltair slot || fork.isBellatrix slot

/-- The part of `processNewSlot` for what is neither old nor a duplicate.  The known validators are
updated in the background and not awaited. -/
def processNewHead (s : MultiSlotState) (c : Answers) (e : PayloadAttributesEvent)
    (receivedParentBlockHash : Hash) : Option (MultiSlotState × Option GoError) :=
  match s.fork.version e.receivedSlot with
  | .altair => some (s, some (.new "unknown fork: 1"))
  | .bellatrix => some (s, some (.new "unknown fork: 2"))
  | _ =>
      let s := { s with parentBlockHash := some receivedParentBlockHash }
      match getProposerDuties c e.receivedSlot with
      | .error err => some (s, some err)
      | .ok entries =>
          let s := storeProposerDuties c s e.receivedSlot entries
          if s.fork.isAltairOrBellatrix e.receivedSlot then some (s, none)
          else updateWithdrawalsAndRandao P s e receivedParentBlockHash

/-- `processNewSlot`: the state and the error; `none` is a panic. -/
def processNewSlot (s : MultiSlotState) (c : Answers) (e : PayloadAttributesEvent) :
    Option (MultiSlotState × Option GoError) :=
  let currParentBlockHash := s.getParentBlockHash
  match s.setHeadSlotIfHigher e.receivedSlot with
  | (s, currHeadSlot, isNewHighest) =>
      match e.parentBlockHash with
      | .error err =>
          some (s, some (.wrap ("failed to unmarshal parentBlockHash: " ++ err.error) err))
      | .ok receivedParentBlockHash =>
          if !isNewHighest ∧ e.receivedSlot < currHeadSlot then some (s, none)
          else if !isNewHighest ∧ e.receivedSlot = currHeadSlot ∧
              receivedParentBlockHash = currParentBlockHash then some (s, none)
          else if !isNewHighest ∧ e.receivedSlot = currHeadSlot ∧
              receivedParentBlockHash ≠ currParentBlockHash ∧
              !s.fork.isAltairOrBellatrix e.receivedSlot then
            updateWithdrawalsAndRandao P s e receivedParentBlockHash
          else processNewHead P s c e receivedParentBlockHash

/-- The withdrawals of a slot are recorded, and a randao that is not empty. -/
def MultiSlotState.Recorded (s : MultiSlotState) (slot : UInt64) (parentHash : Hash) : Prop :=
  (∃ r, s.randao slot parentHash = some r ∧ r.slot = slot ∧ r.parentHash = parentHash ∧
    r.randao ≠ "") ∧
  ∃ w, s.withdrawals slot parentHash = some w ∧ w.slot = slot ∧ w.parentHash = parentHash

/-- A slot is above the head slot, or the first one. -/
def MultiSlotState.Raises (s : MultiSlotState) (slot : UInt64) : Prop := ∀ h ∈ s.headSlot, h < slot

instance (s : MultiSlotState) (slot : UInt64) : Decidable (s.Raises slot) :=
  s.headSlot.decidableForallMem

/-- An event has a slot and a parent hash. -/
def PayloadAttributesEvent.Copies (e : PayloadAttributesEvent) (slot : UInt64) (p : Hash) : Prop :=
  e.receivedSlot = slot ∧ e.parentBlockHash.toOption = some p

instance (e : PayloadAttributesEvent) (slot : UInt64) (p : Hash) : Decidable (e.Copies slot p) :=
  inferInstanceAs (Decidable (_ ∧ _))

/-- The condition on an event for a slot of the Capella fork, seen from a last event: the slot is
not one of the Altair fork as well; an event that raises the head slot is processed to the end, with
a randao, or the last event is no copy of it, which means that it has another slot or not the parent
hash that the state is left with; and before the first parent hash is set, an event for the head
slot is not taken for a duplicate. -/
def Completes (last : PayloadAttributesEvent) (s : MultiSlotState)
    (a : Answers × PayloadAttributesEvent) : Prop :=
  s.fork.version a.2.receivedSlot = .capella →
    s.fork.isAltair a.2.receivedSlot = false ∧
    (s.Raises a.2.receivedSlot →
      (a.2.parentBlockHash.isOk = true ∧ (getProposerDuties a.1 a.2.receivedSlot).isOk = true ∧
        (P.withdrawalsRoot a.2.payloadAttributes.withdrawals).isOk = true ∧
        a.2.payloadAttributes.prevRandao ≠ "") ∨
      ¬last.Copies a.2.receivedSlot (a.2.parentBlockHash.toOption.getD s.getParentBlockHash)) ∧
    (s.parentBlockHash = none → s.headSlot = some a.2.receivedSlot →
      a.2.parentBlockHash.toOption ≠ some default)

instance (last : PayloadAttributesEvent) (s : MultiSlotState)
    (a : Answers × PayloadAttributesEvent) : Decidable (Completes P last s a) :=
  inferInstanceAs (Decidable (_ → _ ∧ (_ → (_ ∧ _ ∧ _ ∧ ¬_) ∨ ¬_) ∧ (_ → _ → ¬_)))

/-- A call of `processNewSlot` as a step; the error is logged. -/
def newSlotStep (s : MultiSlotState) (a : Answers × PayloadAttributesEvent) :
    Option MultiSlotState :=
  (processNewSlot P s a.1 a.2).map Prod.fst

/-! ### What is recorded -/

variable {P} {s s' : MultiSlotState} {e : PayloadAttributesEvent} {slot : UInt64} {p : Hash}

/-- The maps of a slot have entries for a parent hash, with a randao that is not empty. -/
def MultiSlotState.Holds (s : MultiSlotState) (slot : UInt64) (p : Hash) : Prop :=
  ∃ m, s.maps slot = some m ∧
    (∃ r, m.randao.lookup p = some r ∧ r.slot = slot ∧ r.parentHash = p ∧ r.randao ≠ "") ∧
    ∃ w, m.withdrawals.lookup p = some w ∧ w.slot = slot ∧ w.parentHash = p

/-- What the maps have is what the reads find. -/
theorem MultiSlotState.Holds.recorded (h : s.Holds slot p) : s.Recorded slot p := by
  obtain ⟨m, hm, ⟨r, hr, hr'⟩, w, hw, hw'⟩ := h
  have hrandao : s.randao slot p = some r := by
    have h := MultiSlotState.read_of_maps hm SlotMaps.randao p
    rw [hr] at h
    exact h
  have hwithdrawals : s.withdrawals slot p = some w := by
    have h := MultiSlotState.read_of_maps hm SlotMaps.withdrawals p
    rw [hw] at h
    exact h
  exact ⟨⟨r, hrandao, hr'⟩, w, hwithdrawals, hw'⟩

/-- The entries that are recorded for an event: they are added to those of the slot. -/
structure Records (s s' : MultiSlotState) (e : PayloadAttributesEvent) (p : Hash) : Prop where
  same : s' = { s with slots := s'.slots }
  maps : ∃ m root, s'.maps e.receivedSlot = some
      ⟨m.withdrawals.insert p ⟨e.receivedSlot, p, root⟩,
        m.randao.insert p ⟨e.receivedSlot, p, e.payloadAttributes.prevRandao⟩⟩ ∧
    ∀ m₀, s.maps e.receivedSlot = some m₀ → m = m₀

/-- Either the root is not computed, or both entries are recorded. -/
theorem updateWithdrawalsAndRandao_eq_some {err : Option GoError}
    (h : updateWithdrawalsAndRandao P s e p = some (s', err)) :
    ((P.withdrawalsRoot e.payloadAttributes.withdrawals).isOk = false ∧ s' = s ∧ err ≠ none) ∨
      (err = none ∧ Records s s' e p) := by
  unfold updateWithdrawalsAndRandao at h
  split at h
  · next err' hroot =>
      cases h
      exact Or.inl ⟨by rw [hroot]; rfl, rfl, fun h => by cases h⟩
  · next root hroot =>
      obtain ⟨s₁, hs₁, h⟩ := Option.bind_eq_some_iff.1 h
      obtain ⟨s₂, hs₂, h⟩ := Option.bind_eq_some_iff.1 h
      cases h
      obtain ⟨⟨m₁, hm₁, hsame₁⟩, hs₁⟩ := MultiSlotState.write_eq_some hs₁
      obtain ⟨⟨m₂, hm₂, hsame₂⟩, hs₂⟩ := MultiSlotState.write_eq_some hs₂
      refine Or.inr ⟨rfl, ⟨?_, m₁, root, ?_, hsame₁⟩⟩
      · rw [hs₂, hs₁]
      · -- the second write finds what the first has left
        rw [hm₂, hsame₂ _ hm₁]

/-- The entries of an event are there after it. -/
theorem Records.holds_self (h : Records s s' e p) (hr : e.payloadAttributes.prevRandao ≠ "") :
    s'.Holds e.receivedSlot p := by
  obtain ⟨m, root, hm, -⟩ := h.maps
  exact ⟨_, hm, ⟨_, AList.lookup_insert _, rfl, rfl, hr⟩, _, AList.lookup_insert _, rfl, rfl⟩

/-- The entries of other parent hashes stay. -/
theorem Records.holds_of_ne {q : Hash} (h : Records s s' e p) (hne : q ≠ p)
    (hq : s.Holds e.receivedSlot q) : s'.Holds e.receivedSlot q := by
  obtain ⟨m, root, hm, hsame⟩ := h.maps
  obtain ⟨m₀, hm₀, ⟨r, hr, hr'⟩, w, hw, hw'⟩ := hq
  cases hsame m₀ hm₀
  refine ⟨_, hm, ⟨r, ?_, hr'⟩, w, ?_, hw'⟩
  · rw [AList.lookup_insert_ne hne, hr]
  · rw [AList.lookup_insert_ne hne, hw]

/-! ### What a call can do -/

/-- The state after the head slot is raised, if it is. -/
def MultiSlotState.raised (s : MultiSlotState) (slot : UInt64) : MultiSlotState :=
  (s.setHeadSlotIfHigher slot).1

/-- The head slot, when it is raised and when it is not. -/
theorem setHeadSlotIfHigher_cases (s : MultiSlotState) (slot : UInt64) :
    (s.Raises slot ∧
      s.setHeadSlotIfHigher slot = ({ s with headSlot := some slot }, slot, true)) ∨
    ∃ h, s.headSlot = some h ∧ slot ≤ h ∧ s.setHeadSlotIfHigher slot = (s, h, false) := by
  unfold MultiSlotState.setHeadSlotIfHigher
  split
  · next hnone =>
      refine Or.inl ⟨fun h hh => ?_, rfl⟩
      rw [hnone] at hh
      cases hh
  · next h hsome =>
      split
      · next hlt =>
          refine Or.inl ⟨fun h' hh' => ?_, rfl⟩
          rw [hsome] at hh'
          cases hh'
          exact hlt
      · next hlt => exact Or.inr ⟨h, hsome, UInt64.not_lt.1 hlt, rfl⟩

/-- The slot is above the head slot, or it is the head slot and of a fork without withdrawals. -/
def NewHead (s : MultiSlotState) (slot : UInt64) : Prop :=
  s.Raises slot ∨ s.headSlot = some slot ∧ s.fork.isAltairOrBellatrix slot = true

/-- What a call of `processNewSlot` can do, by its branches. -/
inductive Outcome (P : Primitives) (s : MultiSlotState) (c : Answers)
    (e : PayloadAttributesEvent) : MultiSlotState → Option GoError → Prop
  /-- The parent hash is malformed. -/
  | malformed (err : GoError) (h : e.parentBlockHash.isOk = false) :
      Outcome P s c e (s.raised e.receivedSlot) (some err)
  | old (h : UInt64) (hhead : s.headSlot = some h) (hlt : e.receivedSlot < h) :
      Outcome P s c e s none
  | duplicate (hhead : s.headSlot = some e.receivedSlot)
      (hparent : e.parentBlockHash = .ok s.getParentBlockHash) : Outcome P s c e s none
  /-- Another parent hash for the head slot. -/
  | otherParent (p : Hash) (s' : MultiSlotState) (err : Option GoError)
      (hhead : s.headSlot = some e.receivedSlot) (hne : p ≠ s.getParentBlockHash)
      (hparent : e.parentBlockHash = .ok p)
      (hupdate : updateWithdrawalsAndRandao P s e p = some (s', err)) : Outcome P s c e s' err
  /-- The fork has no withdrawals. -/
  | unknownFork (err : GoError) (h : s.fork.version e.receivedSlot ≠ .capella) :
      Outcome P s c e (s.raised e.receivedSlot) (some err)
  | dutiesFail (p : Hash) (err : GoError) (hnew : NewHead s e.receivedSlot)
      (hparent : e.parentBlockHash = .ok p)
      (hduties : (getProposerDuties c e.receivedSlot).isOk = false) :
      Outcome P s c e { s.raised e.receivedSlot with parentBlockHash := some p } (some err)
  /-- Only the duties are stored. -/
  | dutiesOnly (p : Hash) (entries : List (PublicKey × UInt64)) (hnew : NewHead s e.receivedSlot)
      (h : s.fork.isAltairOrBellatrix e.receivedSlot = true) :
      Outcome P s c e (storeProposerDuties c
        { s.raised e.receivedSlot with parentBlockHash := some p } e.receivedSlot entries) none
  /-- The event is processed to the end. -/
  | processed (p : Hash) (entries : List (PublicKey × UInt64)) (s' : MultiSlotState)
      (err : Option GoError) (hraises : s.Raises e.receivedSlot)
      (hparent : e.parentBlockHash = .ok p)
      (hupdate : updateWithdrawalsAndRandao P (storeProposerDuties c
        { s.raised e.receivedSlot with parentBlockHash := some p } e.receivedSlot entries) e p =
          some (s', err)) : Outcome P s c e s' err

/-- The head slot that is raised. -/
theorem raised_of_raises (h : s.Raises slot) :
    s.raised slot = { s with headSlot := some slot } := by
  unfold MultiSlotState.raised
  rcases setHeadSlotIfHigher_cases s slot with ⟨-, hset⟩ | ⟨hd, hhead, hle, -⟩
  · rw [hset]
  · exact absurd (h hd hhead) (UInt64.not_lt.2 hle)

/-- The head slot that is not raised. -/
theorem raised_of_not_raises (h : ¬s.Raises slot) : s.raised slot = s := by
  unfold MultiSlotState.raised
  rcases setHeadSlotIfHigher_cases s slot with ⟨hraises, -⟩ | ⟨hd, -, -, hset⟩
  · exact absurd hraises h
  · rw [hset]

theorem headSlot_raised (h : NewHead s slot) : (s.raised slot).headSlot = some slot := by
  rcases h with h | ⟨h, -⟩
  · rw [raised_of_raises h]
  · rw [raised_of_not_raises fun hr => UInt64.lt_irrefl _ (hr slot h), h]

theorem fork_raised (s : MultiSlotState) (slot : UInt64) : (s.raised slot).fork = s.fork := by
  unfold MultiSlotState.raised
  rcases setHeadSlotIfHigher_cases s slot with ⟨-, hset⟩ | ⟨hd, -, -, hset⟩
  · rw [hset]
  · rw [hset]

/-- A call for what is neither old nor a duplicate. -/
theorem outcome_of_processNewHead {c : Answers} {err : Option GoError}
    (hparent : e.parentBlockHash = .ok p)
    (hnew : NewHead s e.receivedSlot)
    (h : processNewHead P (s.raised e.receivedSlot) c e p = some (s', err)) :
    Outcome P s c e s' err := by
  have hfork := fork_raised s e.receivedSlot
  unfold processNewHead at h
  split at h
  · next hv =>
      cases h
      exact .unknownFork _ fun hcap => by rw [hfork, hcap] at hv; cases hv
  · next hv =>
      cases h
      exact .unknownFork _ fun hcap => by rw [hfork, hcap] at hv; cases hv
  · dsimp only at h
    split at h
    · next err' hduties =>
        cases h
        exact .dutiesFail p err' hnew hparent (by rw [hduties]; rfl)
    · next entries hduties =>
        have hsame : (storeProposerDuties c { s.raised e.receivedSlot with
            parentBlockHash := some p } e.receivedSlot entries).fork = s.fork := hfork
        split at h
        · next hab =>
            cases h
            exact .dutiesOnly p entries hnew (hsame ▸ hab)
        · next hab =>
            refine .processed p entries s' err (hnew.resolve_right fun hh => ?_) hparent h
            exact absurd hh.2 (hsame ▸ hab)

/-- **Everything one call can do.** -/
theorem processNewSlot_cases {c : Answers} {err : Option GoError}
    (h : processNewSlot P s c e = some (s', err)) : Outcome P s c e s' err := by
  unfold processNewSlot at h
  rcases setHeadSlotIfHigher_cases s e.receivedSlot with ⟨hraises, hset⟩ | ⟨hd, hhead, hle, hset⟩
  · have hraised : { s with headSlot := some e.receivedSlot } = s.raised e.receivedSlot := by
      rw [MultiSlotState.raised, hset]
    rw [hset, hraised] at h
    dsimp only at h
    split at h
    · next err' hparent =>
        cases h
        exact .malformed _ (by rw [hparent]; rfl)
    · next p hparent =>
        simp only [Bool.not_true, Bool.false_eq_true, false_and, if_false] at h
        exact outcome_of_processNewHead hparent (Or.inl hraises) h
  · have hraised : s = s.raised e.receivedSlot := by rw [MultiSlotState.raised, hset]
    rw [hset] at h
    dsimp only at h
    split at h
    · next err' hparent =>
        cases h
        nth_rewrite 2 [hraised]
        exact .malformed _ (by rw [hparent]; rfl)
    · next p hparent =>
        simp only [Bool.not_false, true_and] at h
        split_ifs at h with hlt hdup hother
        · cases h
          exact .old hd hhead hlt
        · cases h
          exact .duplicate (by rw [hhead, hdup.1]) (by rw [hparent, hdup.2])
        · exact .otherParent p s' err (by rw [hhead, hother.1]) hother.2.1 hparent h
        · rw [hraised] at h
          -- the slot is the head slot, with another parent hash
          have heq : e.receivedSlot = hd := UInt64.le_antisymm hle (UInt64.not_lt.1 hlt)
          refine outcome_of_processNewHead hparent (Or.inr ⟨heq ▸ hhead, ?_⟩) h
          by_contra hab
          exact hother ⟨heq, fun hp => hdup ⟨heq, hp⟩, by simpa using hab⟩

/-! ### The slot of the head is recorded -/

variable {last : PayloadAttributesEvent}

/-- The head slot is recorded under the parent hash of the state, if it is of the Capella fork and a
parent hash has been set, or the last event is not for both. -/
def HeadHolds (last : PayloadAttributesEvent) (s : MultiSlotState) : Prop :=
  ∀ h, s.headSlot = some h → s.fork.version h = .capella → s.parentBlockHash = none ∨
    s.Holds h s.getParentBlockHash ∨ ¬last.Copies h s.getParentBlockHash

/-- What is asked of a new head slot of the Capella fork. -/
theorem headHolds_of_head (hhead : s.headSlot = some slot)
    (h : s.fork.version slot = .capella →
      s.Holds slot s.getParentBlockHash ∨ ¬last.Copies slot s.getParentBlockHash) :
    HeadHolds last s := by
  intro h' hh hcap
  cases hhead.symm.trans hh
  exact .inr (h hcap)

theorem HeadHolds.raised (h : HeadHolds last s) (hno : s.Raises slot →
      s.fork.version slot = .capella → ¬last.Copies slot s.getParentBlockHash) :
    HeadHolds last (s.raised slot) := by
  by_cases hr : s.Raises slot
  · rw [raised_of_raises hr]
    exact headHolds_of_head rfl fun hcap => .inr (hno hr hcap)
  · rw [raised_of_not_raises hr]
    exact h

/-- A slot of the Capella fork is not one of the Bellatrix fork. -/
theorem isAltairOrBellatrix_of_capella {fork : ForkState} (hcap : fork.version slot = .capella)
    (halt : fork.isAltair slot = false) : fork.isAltairOrBellatrix slot = false := by
  rw [ForkState.isAltairOrBellatrix, halt, Bool.false_or, ← Bool.not_eq_true,
    ForkState.isBellatrix_iff]
  have hnum := ForkState.version_eq_capella_iff.1 hcap
  omega

/-- An event that is processed to the end leaves the head slot recorded. -/
theorem HeadHolds.processed {c : Answers} {entries : List (PublicKey × UInt64)}
    {err : Option GoError} (hC : Completes P last s (c, e)) (hraises : s.Raises e.receivedSlot)
    (hparent : e.parentBlockHash = .ok p)
    (hupdate : updateWithdrawalsAndRandao P (storeProposerDuties c
      { s.raised e.receivedSlot with parentBlockHash := some p } e.receivedSlot entries) e p =
        some (s', err)) : HeadHolds last s' := by
  rw [raised_of_raises hraises] at hupdate
  rcases updateWithdrawalsAndRandao_eq_some hupdate with ⟨hroot, rfl, -⟩ | ⟨-, hrec⟩
  · refine headHolds_of_head rfl fun hcap => .inr ?_
    obtain ⟨-, hall, -⟩ := hC hcap
    rw [hroot, hparent] at hall
    exact (hall hraises).resolve_left fun hdone => by cases hdone.2.2.1
  · have hhead : s'.headSlot = some e.receivedSlot := by rw [hrec.same]; rfl
    have hp : s'.getParentBlockHash = p := by rw [hrec.same]; rfl
    refine headHolds_of_head hhead fun hcap => ?_
    rw [hrec.same] at hcap
    obtain ⟨-, hall, -⟩ := hC hcap
    rw [hp]
    rw [hparent] at hall
    exact (hall hraises).imp_left fun hdone => hrec.holds_self hdone.2.2.2

theorem HeadHolds.step (h : HeadHolds last s) {c : Answers} {err : Option GoError}
    (hC : Completes P last s (c, e)) (hs : processNewSlot P s c e = some (s', err)) :
    HeadHolds last s' := by
  cases processNewSlot_cases hs with
  | malformed err hparent =>
      refine h.raised fun hraises hcap => ?_
      obtain ⟨-, hall, -⟩ := hC hcap
      cases he : e.parentBlockHash with
      | ok p => rw [he] at hparent; cases hparent
      | error err =>
          rw [he] at hall
          exact (hall hraises).resolve_left fun hdone => by cases hdone.1
  | old hd hhead hlt => exact h
  | duplicate hhead hparent => exact h
  | otherParent p s' err hhead hne hparent hupdate =>
      rcases updateWithdrawalsAndRandao_eq_some hupdate with ⟨-, rfl, -⟩ | ⟨-, hrec⟩
      · exact h
      · have hsame : s'.getParentBlockHash = s.getParentBlockHash := by rw [hrec.same]; rfl
        intro hd hh hcap
        rw [hrec.same] at hh hcap
        cases hhead.symm.trans hh
        rw [hsame]
        rcases h e.receivedSlot hhead hcap with hnone | hholds | hcopies
        · exact .inl (by rw [hrec.same]; exact hnone)
        · exact .inr (.inl (hrec.holds_of_ne hne.symm hholds))
        · exact .inr (.inr hcopies)
  | unknownFork err hv => exact h.raised fun _ hcap => absurd hcap hv
  | dutiesFail p err hnew hparent hduties =>
      refine headHolds_of_head (headSlot_raised hnew) fun hcap => .inr ?_
      rw [fork_raised] at hcap
      obtain ⟨halt, hall, -⟩ := hC hcap
      rcases hnew with hraises | ⟨-, hab⟩
      · rw [hduties, hparent] at hall
        exact (hall hraises).resolve_left fun hdone => by cases hdone.2.1
      · rw [isAltairOrBellatrix_of_capella hcap halt] at hab
        cases hab
  | dutiesOnly p entries hnew hab =>
      refine headHolds_of_head (headSlot_raised hnew) fun hcap => ?_
      have hcap : s.fork.version e.receivedSlot = .capella := by rwa [← fork_raised s]
      rw [isAltairOrBellatrix_of_capella hcap (hC hcap).1] at hab
      cases hab
  | processed p entries s' err hraises hparent hupdate =>
      exact .processed hC hraises hparent hupdate

/-- What a call that returns without an error leaves recorded. -/
theorem HeadHolds.holds_of_ok (h : HeadHolds e s) {c : Answers} (hC : Completes P e s (c, e))
    (hs : processNewSlot P s c e = some (s', none))
    (hrandao : e.payloadAttributes.prevRandao ≠ "")
    (hcap : s.fork.version e.receivedSlot = .capella) (hle : s.getHeadSlot ≤ e.receivedSlot) :
    ∃ p, e.parentBlockHash = .ok p ∧ s'.Holds e.receivedSlot p := by
  obtain ⟨halt, -, hfirst⟩ := hC hcap
  cases processNewSlot_cases hs with
  | old hd hhead hlt =>
      rw [MultiSlotState.getHeadSlot, hhead, Option.getD_some] at hle
      exact absurd hlt (UInt64.not_lt.2 hle)
  | duplicate hhead hparent =>
      have hcopies : e.Copies e.receivedSlot s.getParentBlockHash := ⟨rfl, by rw [hparent]; rfl⟩
      rcases h _ hhead hcap with hnone | hholds | hno
      · refine absurd ?_ (hfirst hnone hhead)
        rw [hparent, MultiSlotState.getParentBlockHash, hnone, Option.getD_none]
        rfl
      · exact ⟨_, hparent, hholds⟩
      · exact absurd hcopies hno
  | otherParent p s' err hhead hne hparent hupdate =>
      rcases updateWithdrawalsAndRandao_eq_some hupdate with ⟨-, -, herr⟩ | ⟨-, hrec⟩
      · exact absurd rfl herr
      · exact ⟨p, hparent, hrec.holds_self hrandao⟩
  | dutiesOnly p entries hnew hab =>
      rw [isAltairOrBellatrix_of_capella hcap halt] at hab
      cases hab
  | processed p entries s' err hraises hparent hupdate =>
      rcases updateWithdrawalsAndRandao_eq_some hupdate with ⟨-, -, herr⟩ | ⟨-, hrec⟩
      · exact absurd rfl herr
      · exact ⟨p, hparent, hrec.holds_self hrandao⟩

/-- **A call that succeeds leaves its slot recorded**: from any state in which no parent hash has
been set yet, after every run, a call that returns without an error, for an event with a randao and
a slot of the Capella fork that is not below the head slot, leaves the randao and the withdrawals of
the slot and of the parent hash recorded, unless the event is a copy of one that raised the head
slot and was not processed to the end. -/
theorem recorded_of_processNewSlot (P : Primitives) (s₀ : MultiSlotState)
    (hs₀ : s₀.parentBlockHash = none) (as : List (Answers × PayloadAttributesEvent))
    (s : MultiSlotState) (hrun : Runs.run (newSlotStep P) s₀ as = some s) (c : Answers)
    (e : PayloadAttributesEvent) (s' : MultiSlotState)
    (hC : Runs.Meets (newSlotStep P) (Completes P e) s₀ (as ++ [(c, e)]))
    (hs : processNewSlot P s c e = some (s', none))
    (hrandao : e.payloadAttributes.prevRandao ≠ "")
    (hcap : s.fork.version e.receivedSlot = .capella) (hle : s.getHeadSlot ≤ e.receivedSlot) :
    ∃ p, e.parentBlockHash = .ok p ∧ s'.Recorded e.receivedSlot p := by
  obtain ⟨hCrun, hClast⟩ := (Runs.Meets.append_iff (newSlotStep P) hrun).1 hC
  have h : HeadHolds e s := by
    refine Runs.run_invariant_of_meets (newSlotStep P) ?_ (fun _ _ _ => Or.inl hs₀) hCrun hrun
    rintro s a s' h hC hs
    obtain ⟨⟨t, err⟩, ht, rfl⟩ := Option.map_eq_some_iff.1 hs
    exact h.step hC ht
  obtain ⟨p, hparent, hholds⟩ := h.holds_of_ok hClast.1 hs hrandao hcap hle
  exact ⟨p, hparent, hholds.recorded⟩

/-- Beacon nodes that answer every query with the given result. -/
def answering (result : Except GoError (List (PublicKey × UInt64))) : Answers where
  getProposerDuties _ := result
  registration _ := none

/-- An event for the slot `64`, the first of the Capella fork. -/
def eventAt64 : PayloadAttributesEvent where
  proposalSlot := 65
  parentBlockHash := .ok (Vector.replicate 32 1)
  payloadAttributes := ⟨"0x01", []⟩

/-- The state at the start, with the Capella fork from the slot `64` on. -/
def newState64 : MultiSlotState := .new ⟨0, 1, 2⟩

/-- A copy of an event that has been processed. -/
theorem recorded_of_processNewSlot_copy :
    ∃ s s', Runs.run (newSlotStep default) newState64 [(answering (.ok []), eventAt64)] = some s ∧
      processNewSlot default s (answering (.ok [])) eventAt64 = some (s', none) ∧
      s'.Recorded 64 (Vector.replicate 32 1) := by
  refine ⟨_, _, rfl, rfl, ?_⟩
  obtain ⟨p, hp, hrec⟩ := recorded_of_processNewSlot default newState64 rfl
    [(answering (.ok []), eventAt64)] _ rfl (answering (.ok [])) eventAt64 _ (by decide +kernel) rfl
    (by decide) rfl (UInt64.le_refl _)
  cases hp
  exact hrec

/-- A copy of an event for which the duties have failed: the call succeeds, and nothing is
recorded. -/
theorem unrecorded_after_failed_duties :
    ∃ s s', Runs.run (newSlotStep default) newState64
        [(answering (.error (.new "timeout")), eventAt64)] = some s ∧
      processNewSlot default s (answering (.ok [])) eventAt64 = some (s', none) ∧
      eventAt64.payloadAttributes.prevRandao ≠ "" ∧
      s.fork.version eventAt64.receivedSlot = .capella ∧
      s.getHeadSlot ≤ eventAt64.receivedSlot ∧
      s'.randao eventAt64.receivedSlot (Vector.replicate 32 1) = some default ∧
      s'.withdrawals eventAt64.receivedSlot (Vector.replicate 32 1) = some default :=
  ⟨_, _, rfl, rfl, by decide, rfl, UInt64.le_refl _, rfl, rfl⟩

end Dreamboat
