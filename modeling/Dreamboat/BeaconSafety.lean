/-
**Where the beacon state panics.**

The places of a new ring have the slot zero, no mutex and no maps, and a place is made only when its
slot differs from the one asked for.  So the slot zero is taken for one that is there: `Randao`,
`Withdrawals` and both setters lock a `nil` mutex, until something is recorded for another slot of
the same place.  `verifyBlock` for the slot 1 and an event with the proposal slot 1 ask for the slot
zero.

A call of the manager changes the state by a sequence of setters, so the states in question are
those that setters reach.

Main definitions:

* `Touched` — something was recorded for another slot in the place of the slot zero;
* `NeverPanics` — nothing that concerns a slot panics.

Main results:

* `exists_run_of_processNewSlot` — a call of the manager is a sequence of setters;
* `touched_iff_of_run` — in a run without a panic, the slot zero is recorded only after another slot
  of its place;
* `neverPanics_iff` — **nothing panics for a slot above zero, and for the slot zero nothing does
  from the first entry for another slot of its place on**.
-/

import Dreamboat.HeadSlot
import Dreamboat.VerifyBlock

set_option autoImplicit false

namespace Dreamboat

/-! ### The place of the slot zero -/

/-- An entry was recorded for a slot above zero in the place of the slot zero. -/
def Touched (calls : List SetCall) : Prop :=
  ∃ c ∈ calls, ∃ slot ∈ c.slot, slot ≠ 0 ∧ slot.toNat % numberOfSlotsInState = 0

theorem Touched.append {calls : List SetCall} (h : Touched calls) (more : List SetCall) :
    Touched (calls ++ more) := by
  obtain ⟨c, hc, hslot⟩ := h
  exact ⟨c, List.mem_append_left _ hc, hslot⟩

theorem ringIndex_eq_zero_iff {slot : UInt64} :
    ringIndex slot = ringIndex 0 ↔ slot.toNat % numberOfSlotsInState = 0 := by
  rw [ringIndex_eq_iff]
  rfl

/-- In a run without a panic, the first entry in the place of the slot zero is for another slot. -/
theorem touched_iff_of_run {fork : ForkState} {calls : List SetCall} {t : MultiSlotState}
    (hrun : Runs.run SetCall.apply (.new fork) calls = some t) :
    Touched calls ↔ ∃ c ∈ calls, ∃ slot ∈ c.slot, ringIndex slot = ringIndex 0 := by
  constructor
  · rintro ⟨c, hc, slot, hslot, -, hmod⟩
    exact ⟨c, hc, slot, hslot, ringIndex_eq_zero_iff.2 hmod⟩
  · intro h
    induction calls using List.reverseRecOn generalizing t with
    | nil =>
        obtain ⟨c, hc, -⟩ := h
        cases hc
    | append_singleton calls c ih =>
        obtain ⟨s, hs, hlast⟩ := (Runs.run_append_eq_some SetCall.apply).1 hrun
        obtain ⟨s', hs', -⟩ := (Runs.run_cons_eq_some SetCall.apply).1 hlast
        obtain ⟨d, hd, slot, hslot, hi⟩ := h
        rcases List.mem_append.1 hd with hd | hd
        · exact (ih hs ⟨d, hd, slot, hslot, hi⟩).append [c]
        · rw [List.mem_singleton.1 hd] at hslot
          by_cases hzero : slot = 0
          · -- an entry for the slot zero finds the place made, by an earlier entry
            refine (ih hs ?_).append [c]
            by_contra hnone
            push Not at hnone
            have hnil : s.NilPlace 0 := ((ringTracks_of_run hs).nilPlace_iff 0).2 ⟨rfl, hnone⟩
            rcases SetCall.apply_cases hs' with ⟨hno, -, -⟩ | ⟨e, rfl, hwrite⟩
            · rw [hno] at hslot
              cases hslot
            · have hzero' : e.slot = 0 := (Option.some_inj.1 hslot).trans hzero
              rw [hzero', MultiSlotState.write_eq_none_iff.2 hnil] at hwrite
              cases hwrite
          · exact ⟨c, by simp, slot, hslot, hzero, ringIndex_eq_zero_iff.1 hi⟩

/-- **Where the place of a slot is `nil`.** -/
theorem nilPlace_iff_of_run {fork : ForkState} {calls : List SetCall} {t : MultiSlotState}
    (hrun : Runs.run SetCall.apply (.new fork) calls = some t) (slot : UInt64) :
    t.NilPlace slot ↔ ¬(slot ≠ 0 ∨ Touched calls) := by
  rw [(ringTracks_of_run hrun).nilPlace_iff, touched_iff_of_run hrun, not_or, not_not]
  refine and_congr_right ?_
  rintro rfl
  push Not
  rfl

/-! ### The calls of the manager -/

section Manager

variable {P : Primitives} {s s' : MultiSlotState} {e : PayloadAttributesEvent}

/-- The ring decides whether a place is `nil`. -/
theorem nilPlace_congr (h : s'.slots = s.slots) (slot : UInt64) :
    s'.NilPlace slot ↔ s.NilPlace slot := by
  rw [MultiSlotState.NilPlace, MultiSlotState.NilPlace, MultiSlotState.place, MultiSlotState.place,
    h]

/-- An entry is recorded where the place of its slot is not `nil`, and there it is not `nil`
afterwards. -/
theorem exists_record (entry : Entry) (h : ¬s.NilPlace entry.slot) :
    ∃ s', SetCall.apply s (.record entry) = some s' ∧ ¬s'.NilPlace entry.slot := by
  rw [SetCall.apply_record]
  cases hwrite : s.write entry.slot fun a => a.write entry.update with
  | none => exact absurd (MultiSlotState.write_eq_none_iff.1 hwrite) h
  | some s' =>
      refine ⟨s', rfl, ?_⟩
      rintro ⟨-, hnone⟩
      obtain ⟨m, -, hplace⟩ := MultiSlotState.place_of_write hwrite
      rw [hplace, if_pos rfl] at hnone
      cases hnone

/-- What an event records is recorded by two setters. -/
theorem exists_run_of_update {p : Hash} {err : Option GoError}
    (h : updateWithdrawalsAndRandao P s e p = some (s', err)) :
    ∃ more, Runs.run SetCall.apply s more = some s' := by
  unfold updateWithdrawalsAndRandao at h
  split at h
  · cases h
    exact ⟨[], rfl⟩
  · next root hroot =>
      obtain ⟨s₁, hs₁, h⟩ := Option.bind_eq_some_iff.1 h
      obtain ⟨s₂, hs₂, h⟩ := Option.bind_eq_some_iff.1 h
      cases h
      refine ⟨[.record (.withdrawals ⟨e.receivedSlot, p, root⟩),
        .record (.randao ⟨e.receivedSlot, p, e.payloadAttributes.prevRandao⟩)], ?_⟩
      rw [Runs.run_cons_eq_some]
      refine ⟨s₁, hs₁, ?_⟩
      rw [Runs.run_cons_eq_some]
      exact ⟨_, hs₂, rfl⟩

theorem update_ne_none (h : ¬s.NilPlace e.receivedSlot) (p : Hash) :
    updateWithdrawalsAndRandao P s e p ≠ none := by
  unfold updateWithdrawalsAndRandao
  split
  · simp
  · next root hroot =>
      obtain ⟨s₁, hs₁, h₁⟩ := exists_record (.withdrawals ⟨e.receivedSlot, p, root⟩) h
      obtain ⟨s₂, hs₂, -⟩ :=
        exists_record (.randao ⟨e.receivedSlot, p, e.payloadAttributes.prevRandao⟩) h₁
      have hw : s.setWithdrawals ⟨e.receivedSlot, p, root⟩ = some s₁ := hs₁
      have hr : s₁.setRandao ⟨e.receivedSlot, p, e.payloadAttributes.prevRandao⟩ = some s₂ := hs₂
      simp [hw, hr]

/-- **A call of the manager is a sequence of setters.** -/
theorem exists_run_of_processNewSlot {c : Answers} {err : Option GoError}
    (h : processNewSlot P s c e = some (s', err)) :
    ∃ more, Runs.run SetCall.apply s more = some s' := by
  cases processNewSlot_cases h with
  | malformed err hparent => exact ⟨[.setHeadSlotIfHigher e.receivedSlot], rfl⟩
  | old hd hhead hlt => exact ⟨[], rfl⟩
  | duplicate hhead hparent => exact ⟨[], rfl⟩
  | otherParent p s' err hhead hne hparent hupdate => exact exists_run_of_update hupdate
  | unknownFork err hv => exact ⟨[.setHeadSlotIfHigher e.receivedSlot], rfl⟩
  | dutiesFail p err hnew hparent hduties =>
      exact ⟨[.setHeadSlotIfHigher e.receivedSlot, .setParentBlockHash p], rfl⟩
  | dutiesOnly p entries hnew hab =>
      exact ⟨[.setHeadSlotIfHigher e.receivedSlot, .setParentBlockHash p, .setDuties _], rfl⟩
  | processed p entries s' err hraises hparent hupdate =>
      obtain ⟨more, hmore⟩ := exists_run_of_update hupdate
      exact ⟨[.setHeadSlotIfHigher e.receivedSlot, .setParentBlockHash p, .setDuties _] ++ more,
        (Runs.run_append_eq_some _).2 ⟨_, rfl, hmore⟩⟩

theorem processNewHead_ne_none (h : ¬s.NilPlace e.receivedSlot) (c : Answers) (p : Hash) :
    processNewHead P s c e p ≠ none := by
  unfold processNewHead
  split
  · simp
  · simp
  · dsimp only
    split
    · simp
    · split
      · simp
      · refine update_ne_none ?_ p
        exact mt (nilPlace_congr (s := s) rfl _).1 h

/-- It does not panic if the place of the slot of its event is not `nil`. -/
theorem processNewSlot_ne_none (h : ¬s.NilPlace e.receivedSlot) (c : Answers) :
    processNewSlot P s c e ≠ none := by
  obtain ⟨s₁, currHeadSlot, isNewHighest, hset, hslots⟩ : ∃ s₁ currHeadSlot isNewHighest,
      s.setHeadSlotIfHigher e.receivedSlot = (s₁, currHeadSlot, isNewHighest) ∧
        s₁.slots = s.slots := by
    rcases setHeadSlotIfHigher_cases s e.receivedSlot with ⟨-, hset⟩ | ⟨hd, -, -, hset⟩
    · exact ⟨_, _, _, hset, rfl⟩
    · exact ⟨_, _, _, hset, rfl⟩
  have hnil : ¬s₁.NilPlace e.receivedSlot := by rwa [nilPlace_congr hslots]
  simp only [processNewSlot, hset]
  split
  · simp
  · split
    · simp
    · split
      · simp
      · split
        · exact update_ne_none hnil _
        · exact processNewHead_ne_none hnil c _

theorem initEvent_ne_none {a : Received} (h : ¬s.NilPlace a.event.receivedSlot) :
    initEvent P s a ≠ none := by
  unfold initEvent
  dsimp only
  split
  · simp
  · split
    · simp
    · split
      · simp
      · split
        · next hnone =>
            refine absurd hnone (update_ne_none ?_ _)
            rcases setHeadSlotIfHigher_cases s a.event.receivedSlot with
              ⟨-, hset⟩ | ⟨hd, -, -, hset⟩
            · exact mt (nilPlace_congr (s := s) (by rw [hset]; rfl) _).1 h
            · exact mt (nilPlace_congr (s := s) (by rw [hset]; rfl) _).1 h
        · simp
        · simp

end Manager

/-! ### Where nothing panics -/

/-- Nothing that concerns a slot panics: no read and no write for it, no call of `verifyBlock` for
the next slot, whatever is set between its two questions, and no round of the loops of the manager
with an event for the next slot. -/
structure NeverPanics (s : MultiSlotState) (slot : UInt64) : Prop where
  randao : ∀ p, s.randao slot p ≠ none
  withdrawals : ∀ p, s.withdrawals slot p ≠ none
  setRandao : ∀ r, r.slot = slot → s.setRandao r ≠ none
  setWithdrawals : ∀ w, w.slot = slot → s.setWithdrawals w ≠ none
  verifyBlock : ∀ v sbr between s', sbr.slot - 1 = slot →
    Runs.run SetCall.apply s between = some s' → verifyBlockOn v s s' sbr ≠ none
  initEvent : ∀ P a, a.event.receivedSlot = slot → Dreamboat.initEvent P s a ≠ none
  runEvent : ∀ P a, a.event.receivedSlot = slot → Dreamboat.runEvent P s a ≠ none

section Reached

variable {fork : ForkState} {calls : List SetCall} {t : MultiSlotState} {slot : UInt64}

/-- A state that is reached from a state that is reached. -/
theorem run_append_of_run (hrun : Runs.run SetCall.apply (.new fork) calls = some t)
    {more : List SetCall} {t' : MultiSlotState}
    (hmore : Runs.run SetCall.apply t more = some t') :
    Runs.run SetCall.apply (.new fork) (calls ++ more) = some t' :=
  (Runs.run_append_eq_some _).2 ⟨t, hrun, hmore⟩

/-- `verifyBlock` panics only at one of its two questions. -/
theorem verifyBlockOn_ne_none {v : SubmitView} {sbr : SubmitBlockRequest} {t' : MultiSlotState}
    (hfirst : ¬t.NilPlace (sbr.slot - 1)) (hsecond : ¬t'.NilPlace (sbr.slot - 1)) :
    verifyBlockOn v t t' sbr ≠ none := by
  obtain ⟨r, hr⟩ : ∃ r, t.randao (sbr.slot - 1) sbr.parentHash = some r :=
    Option.ne_none_iff_exists'.1 (mt MultiSlotState.read_eq_none_iff.1 hfirst)
  obtain ⟨r', hr'⟩ : ∃ r', t'.randao (sbr.slot - 1) sbr.parentHash = some r' :=
    Option.ne_none_iff_exists'.1 (mt MultiSlotState.read_eq_none_iff.1 hsecond)
  unfold verifyBlockOn
  split
  · simp only [hr, hr', Option.bind_eq_bind, Option.bind_some]
    split
    · simp
    · simp
  · simp

/-- A round of `Run` reads the entries of the head slot, which is not below the slot of the
event. -/
theorem runEvent_ne_none (hrun : Runs.run SetCall.apply (.new fork) calls = some t)
    {P : Primitives} {a : Received} (h : a.event.receivedSlot ≠ 0 ∨ Touched calls) :
    runEvent P t a ≠ none := by
  have hnil : ¬t.NilPlace a.event.receivedSlot := by
    rw [nilPlace_iff_of_run hrun]
    exact not_not.2 h
  unfold runEvent
  split
  · simp
  · obtain ⟨⟨s', err⟩, hnew⟩ := Option.ne_none_iff_exists'.1
      (processNewSlot_ne_none (P := P) hnil a.answers)
    obtain ⟨more, hmore⟩ := exists_run_of_processNewSlot hnew
    have hhead : ¬s'.NilPlace s'.getHeadSlot := by
      rw [nilPlace_iff_of_run (run_append_of_run hrun hmore)]
      refine not_not.2 (h.imp (fun hslot hzero => hslot ?_) fun ht => ht.append more)
      -- the head slot is at least that of the event
      have hmax := getHeadSlot_raised t a.event.receivedSlot
      rw [MultiSlotState.getHeadSlot, ← headSlot_of_processNewSlot hnew,
        ← MultiSlotState.getHeadSlot, hzero] at hmax
      have hle := le_max_right t.getHeadSlot.toNat a.event.receivedSlot.toNat
      rw [← hmax] at hle
      exact UInt64.toNat_inj.1 (Nat.le_zero.1 hle)
    obtain ⟨r, hr⟩ : ∃ r, s'.randao s'.getHeadSlot s'.getParentBlockHash = some r :=
      Option.ne_none_iff_exists'.1 (mt MultiSlotState.read_eq_none_iff.1 hhead)
    obtain ⟨w, hw⟩ : ∃ w, s'.withdrawals s'.getHeadSlot s'.getParentBlockHash = some w :=
      Option.ne_none_iff_exists'.1 (mt MultiSlotState.read_eq_none_iff.1 hhead)
    simp [hnew, hr, hw]

/-- **Where nothing panics.**  In every state that setters reach, nothing that concerns a slot
panics if and only if the slot is not zero, or an entry was recorded before for a slot above zero in
the place of the slot zero. -/
theorem neverPanics_iff (fork : ForkState) (calls : List SetCall) (t : MultiSlotState)
    (hrun : Runs.run SetCall.apply (.new fork) calls = some t) (slot : UInt64) :
    NeverPanics t slot ↔ slot ≠ 0 ∨ Touched calls := by
  have hnil := nilPlace_iff_of_run hrun slot
  constructor
  · intro h
    by_contra hcond
    exact h.randao default (MultiSlotState.read_eq_none_iff.2 (hnil.2 hcond))
  · intro hcond
    have hready : ¬t.NilPlace slot := fun h => hnil.1 h hcond
    refine ⟨fun p => mt MultiSlotState.read_eq_none_iff.1 hready,
      fun p => mt MultiSlotState.read_eq_none_iff.1 hready, ?_, ?_, ?_, ?_, ?_⟩
    · rintro r rfl
      exact mt MultiSlotState.write_eq_none_iff.1 hready
    · rintro w rfl
      exact mt MultiSlotState.write_eq_none_iff.1 hready
    · rintro v sbr between s' rfl hbetween
      refine verifyBlockOn_ne_none hready ?_
      rw [nilPlace_iff_of_run (run_append_of_run hrun hbetween)]
      exact not_not.2 (hcond.imp_right fun ht => ht.append between)
    · rintro P a rfl
      exact initEvent_ne_none hready
    · rintro P a rfl
      exact runEvent_ne_none hrun hcond

end Reached

/-- The randao of the slot 2 comes first; then the slot zero is there for everything. -/
theorem neverPanics_after_slot_two :
    ∃ t, Runs.run SetCall.apply (.new default) [.record (.randao ⟨2, default, "0x02"⟩)] = some t ∧
      t.randao 0 default ≠ none ∧
      Dreamboat.runEvent default t (Manager.received 1) ≠ none := by
  have hrun : Runs.run SetCall.apply (.new default) [.record (.randao ⟨2, default, "0x02"⟩)] =
      some _ := rfl
  have h := (neverPanics_iff default _ _ hrun 0).2
    (Or.inr ⟨_, List.mem_singleton_self _, 2, rfl, by decide, by decide⟩)
  exact ⟨_, hrun, h.randao default, h.runEvent default (Manager.received 1) rfl⟩

/-- A submission for the slot 1, with genesis at the time zero. -/
def firstSubmission : SubmitBlockRequest where
  signature := default
  message := { (default : BidTrace) with slot := 1 }
  executionPayload := .bellatrix { (default : Bellatrix.ExecutionPayload) with epTimestamp := 12 }

/-- Before anything is recorded, everything that asks for the slot zero panics: both reads, both
writes, `verifyBlock` for the slot 1 and an event with the proposal slot 1. -/
theorem slot_zero_panics :
    (MultiSlotState.new default).randao 0 default = none ∧
      (MultiSlotState.new default).withdrawals 0 default = none ∧
      ((MultiSlotState.new default).setRandao default).isNone = true ∧
      ((MultiSlotState.new default).setWithdrawals default).isNone = true ∧
      verifyBlockOn { earlyView with headSlot := 0 } (.new default) (.new default)
        firstSubmission = none ∧
      (Dreamboat.initEvent default (.new default) (Manager.received 1)).isNone = true ∧
      (Dreamboat.runEvent default (.new default) (Manager.received 1)).isNone = true := by
  decide +kernel

end Dreamboat
