/-
**The beacon state as a log of what was set.**

The ring of `src/beacon/state.go` has one place for all slots that are congruent modulo its size,
and a setter that finds the place of its slot in use for another slot clears it, with the entries of
both kinds.  What a read returns can be said without the ring: it is the last entry of its kind that
was set for the slot and the parent hash, unless an entry for another slot of the same place was set
after it.  `Dreamboat/KeyedLog.lean` develops that reading of a log with resets.

The other setters of the state leave the ring alone.

Main definitions:

* `Entry`, `SetCall` — what is recorded for a slot, and the calls that change the state;
* `SetCall.Evicts` — a call for another slot of the same place;
* `LastSet` — the last call that sets something, with no eviction after it;
* `RingTracks` — the ring answers for the log of the calls.

Main results:

* `RingTracks.concat` — one call refines one entry of the log;
* `ringTracks_of_run` — **the ring refines the log of the calls**;
* `reads_last_set` — **what is read is what was set last**, for slots above zero.
-/

import Dreamboat.BeaconState
import Dreamboat.KeyedLog
import Dreamboat.Runs

set_option autoImplicit false

namespace Dreamboat

open KeyedLog

/-! ### The calls -/

/-- What is recorded for a slot and a parent hash. -/
inductive Entry where
  | withdrawals (w : WithdrawalsState)
  | randao (r : RandaoState)

namespace Entry

def slot : Entry → UInt64
  | .withdrawals w => w.slot
  | .randao r => r.slot

/-- What the entry does to the maps of its place. -/
def update : Entry → SlotMaps → SlotMaps
  | .withdrawals w, m => ⟨m.withdrawals.insert w.parentHash w, m.randao⟩
  | .randao r, m => ⟨m.withdrawals, m.randao.insert r.parentHash r⟩

/-- The withdrawals that an entry has for a parent hash. -/
def withdrawalsFor (p : Hash) : Entry → Option WithdrawalsState
  | .withdrawals w => if w.parentHash = p then some w else none
  | .randao _ => none

/-- The randao that an entry has for a parent hash. -/
def randaoFor (p : Hash) : Entry → Option RandaoState
  | .randao r => if r.parentHash = p then some r else none
  | .withdrawals _ => none

theorem lookup_withdrawals_update (e : Entry) (m : SlotMaps) (p : Hash) :
    (e.update m).withdrawals.lookup p = (e.withdrawalsFor p).or (m.withdrawals.lookup p) := by
  cases e with
  | withdrawals w =>
      simp only [update, withdrawalsFor, Go.lookup_insert_eq, eq_comm (a := p)]
      split
      · rfl
      · rfl
  | randao r => rfl

theorem lookup_randao_update (e : Entry) (m : SlotMaps) (p : Hash) :
    (e.update m).randao.lookup p = (e.randaoFor p).or (m.randao.lookup p) := by
  cases e with
  | withdrawals w => rfl
  | randao r =>
      simp only [update, randaoFor, Go.lookup_insert_eq, eq_comm (a := p)]
      split
      · rfl
      · rfl

end Entry

/-- A call that changes the state. -/
inductive SetCall where
  /-- `SetWithdrawals` or `SetRandao`. -/
  | record (e : Entry)
  | setHeadSlotIfHigher (slot : UInt64)
  | setDuties (duties : DutiesState)
  | setFork (fork : ForkState)
  | setParentBlockHash (blockHash : Hash)

namespace SetCall

/-- The state after the call; `none` is a panic. -/
def apply (s : MultiSlotState) : SetCall → Option MultiSlotState
  | .record (.withdrawals w) => s.setWithdrawals w
  | .record (.randao r) => s.setRandao r
  | .setHeadSlotIfHigher slot => some (s.setHeadSlotIfHigher slot).1
  | .setDuties duties => some { s with duties }
  | .setFork fork => some { s with fork }
  | .setParentBlockHash blockHash => some { s with parentBlockHash := some blockHash }

/-- The slot that a call records something for. -/
def slot : SetCall → Option UInt64
  | .record e => some e.slot
  | _ => none

/-- What a call sets for a slot, of one kind of entry. -/
def setFor {V : Type} (slot : UInt64) (value : Entry → Option V) : SetCall → Option V
  | .record e => if e.slot = slot then value e else none
  | _ => none

/-- The call records something for another slot that is congruent to `slot`. -/
def Evicts (slot : UInt64) (c : SetCall) : Prop :=
  ∃ slot' ∈ c.slot, slot' ≠ slot ∧
    slot'.toNat % numberOfSlotsInState = slot.toNat % numberOfSlotsInState

instance (slot : UInt64) : DecidablePred (Evicts slot) := fun c =>
  match h : c.slot with
  | none => isFalse (by simp [Evicts, h])
  | some slot' => decidable_of_iff (slot' ≠ slot ∧
      slot'.toNat % numberOfSlotsInState = slot.toNat % numberOfSlotsInState) (by simp [Evicts, h])

theorem apply_record (s : MultiSlotState) (e : Entry) :
    apply s (.record e) = s.write e.slot fun a => a.write e.update := by
  cases e with
  | withdrawals w => rfl
  | randao r => rfl

end SetCall

/-- `v` is what the last call with a value for the slot has set, and no call after it is for another
slot of the same place. -/
def LastSet {V : Type} (calls : List SetCall) (slot : UInt64) (value : Entry → Option V) (v : V) :
    Prop :=
  ∃ pre c post, calls = pre ++ c :: post ∧ c.setFor slot value = some v ∧
    (∀ d ∈ post, d.setFor slot value = none) ∧ ∀ d ∈ post, ¬d.Evicts slot

/-! ### The refinement -/

/-- The ring answers for the log of the calls. -/
structure RingTracks (calls : List SetCall) (t : MultiSlotState) : Prop where
  /-- A place without maps has the slot it had in the zero value. -/
  slot_eq_zero : ∀ slot, (t.place slot).maps = none → (t.place slot).slot = 0
  /-- The places without maps are those that nothing was recorded in. -/
  maps_eq_none_iff : ∀ slot, (t.place slot).maps = none ↔
    ∀ c ∈ calls, ∀ slot' ∈ c.slot, ringIndex slot' ≠ ringIndex slot
  withdrawals : ∀ slot p, ¬t.NilPlace slot → t.withdrawals slot p =
    some ((lastSince (SetCall.Evicts slot)
      (SetCall.setFor slot (Entry.withdrawalsFor p)) calls).getD default)
  randao : ∀ slot p, ¬t.NilPlace slot → t.randao slot p =
    some ((lastSince (SetCall.Evicts slot)
      (SetCall.setFor slot (Entry.randaoFor p)) calls).getD default)

/-- A call leaves the ring alone, or it records an entry. -/
theorem SetCall.apply_cases {s s' : MultiSlotState} {c : SetCall} (h : apply s c = some s') :
    (c.slot = none ∧ s'.slots = s.slots ∧
      ∀ (V : Type) slot (value : Entry → Option V), c.setFor slot value = none) ∨
    ∃ e, c = .record e ∧ (s.write e.slot fun a => a.write e.update) = some s' := by
  cases c with
  | record e => exact Or.inr ⟨e, rfl, apply_record s e ▸ h⟩
  | setHeadSlotIfHigher slot =>
      cases h
      refine Or.inl ⟨rfl, ?_, fun _ _ _ => rfl⟩
      unfold MultiSlotState.setHeadSlotIfHigher
      split
      · rfl
      · split
        · rfl
        · rfl
  | setDuties duties => cases h; exact Or.inl ⟨rfl, rfl, fun _ _ _ => rfl⟩
  | setFork fork => cases h; exact Or.inl ⟨rfl, rfl, fun _ _ _ => rfl⟩
  | setParentBlockHash blockHash => cases h; exact Or.inl ⟨rfl, rfl, fun _ _ _ => rfl⟩

section OneKind

variable {V : Type} [Inhabited V] {map : SlotMaps → Go.Map Hash V}
  {value : Hash → Entry → Option V} {calls : List SetCall} {s s' : MultiSlotState} {c : SetCall}

/-- The reads of one kind, when a call is added to the log. -/
theorem read_concat (hempty : map ⟨∅, ∅⟩ = ∅)
    (hmap : ∀ e m p, (map (Entry.update e m)).lookup p = (value p e).or ((map m).lookup p))
    (h : SetCall.apply s c = some s')
    (hs : ∀ slot p, ¬s.NilPlace slot → (s.read slot fun a => a.read map p) =
      some ((lastSince (SetCall.Evicts slot) (SetCall.setFor slot (value p)) calls).getD default))
    (slot : UInt64) (p : Hash) (hnil : ¬s'.NilPlace slot) :
    (s'.read slot fun a => a.read map p) =
      some ((lastSince (SetCall.Evicts slot) (SetCall.setFor slot (value p))
        (calls ++ [c])).getD default) := by
  rw [lastSince_concat]
  -- what does not concern the place of the slot changes neither side
  have hframe : s'.place slot = s.place slot → ¬c.Evicts slot → c.setFor slot (value p) = none →
      (s'.read slot fun a => a.read map p) = some ((if c.Evicts slot then none else
        (c.setFor slot (value p)).or (lastSince (SetCall.Evicts slot)
          (SetCall.setFor slot (value p)) calls)).getD default) := by
    intro hplace hevicts hnone
    rw [MultiSlotState.NilPlace, hplace] at hnil
    rw [if_neg hevicts, hnone, Option.none_or, ← hs slot p hnil, MultiSlotState.read,
      MultiSlotState.read, hplace]
  rcases SetCall.apply_cases h with ⟨hslot, hslots, hnone⟩ | ⟨e, rfl, hwrite⟩
  · refine hframe ?_ (by simp [SetCall.Evicts, hslot]) (hnone V slot (value p))
    rw [MultiSlotState.place, MultiSlotState.place, hslots]
  · obtain ⟨m, -, hplace⟩ := MultiSlotState.place_of_write hwrite
    by_cases hsame : e.slot = slot
    · subst hsame
      have hevicts : ¬(SetCall.record e).Evicts e.slot := by
        rintro ⟨slot', hslot', hne, -⟩
        exact hne (Option.some_inj.1 hslot').symm
      have hready : ¬s.NilPlace e.slot := by
        rw [← MultiSlotState.write_eq_none_iff (f := e.update), hwrite]
        simp
      obtain ⟨m, hm⟩ := MultiSlotState.read_of_write hempty hwrite
      obtain ⟨hbefore, hafter⟩ := hm p
      rw [hafter, hmap, if_neg hevicts, SetCall.setFor, if_pos rfl]
      cases hvalue : value p e with
      | some v => rfl
      | none =>
          rw [Option.none_or, Option.none_or, ← hbefore]
          exact hs e.slot p hready
    · by_cases hi : ringIndex slot = ringIndex e.slot
      · -- the place is now for another slot
        have hevicts : (SetCall.record e).Evicts slot :=
          ⟨e.slot, rfl, hsame, (ringIndex_eq_iff.1 hi).symm⟩
        rw [if_pos hevicts, Option.getD_none]
        refine MultiSlotState.read_of_ne ?_ map p
        rw [hplace, if_pos hi]
        exact hsame
      · refine hframe (by rw [hplace, if_neg hi]) ?_ (if_neg hsame)
        rintro ⟨slot', hslot', -, hmod⟩
        cases hslot'
        exact hi (ringIndex_eq_iff.2 hmod.symm)

end OneKind

namespace RingTracks

variable {calls : List SetCall} {s s' : MultiSlotState} {c : SetCall}

/-- **One call refines one entry of the log.** -/
theorem concat (h : RingTracks calls s) (hc : SetCall.apply s c = some s') :
    RingTracks (calls ++ [c]) s' := by
  refine ⟨?_, ?_, read_concat rfl Entry.lookup_withdrawals_update hc h.withdrawals,
    read_concat rfl Entry.lookup_randao_update hc h.randao⟩
  · intro slot hnone
    rcases SetCall.apply_cases hc with ⟨-, hslots, -⟩ | ⟨e, rfl, hwrite⟩
    · rw [MultiSlotState.place, hslots] at hnone ⊢
      exact h.slot_eq_zero slot hnone
    · obtain ⟨m, -, hplace⟩ := MultiSlotState.place_of_write hwrite
      rw [hplace] at hnone ⊢
      split at hnone
      · cases hnone
      · next hi =>
          rw [if_neg hi]
          exact h.slot_eq_zero slot hnone
  · intro slot
    simp only [List.mem_append, List.mem_singleton, or_imp, forall_and, forall_eq]
    rcases SetCall.apply_cases hc with ⟨hslot, hslots, -⟩ | ⟨e, rfl, hwrite⟩
    · have hplace : s'.place slot = s.place slot := by
        rw [MultiSlotState.place, MultiSlotState.place, hslots]
      rw [hplace, hslot]
      simpa using h.maps_eq_none_iff slot
    · obtain ⟨m, -, hplace⟩ := MultiSlotState.place_of_write hwrite
      rw [hplace]
      split
      · next hi => simp [SetCall.slot, hi]
      · next hi => simpa [SetCall.slot, Ne.symm hi] using h.maps_eq_none_iff slot

/-- The zero value answers for the empty log. -/
theorem new (fork : ForkState) : RingTracks [] (MultiSlotState.new fork) where
  slot_eq_zero slot _ := rfl
  maps_eq_none_iff slot := by simp [MultiSlotState.new, MultiSlotState.place, AtomicState.zero]
  withdrawals slot p hnil := by
    refine MultiSlotState.read_of_ne (fun hslot => hnil ⟨hslot, rfl⟩) _ _
  randao slot p hnil := by
    refine MultiSlotState.read_of_ne (fun hslot => hnil ⟨hslot, rfl⟩) _ _

/-- Where a read or a write panics: for the slot zero, before anything is recorded in its place. -/
theorem nilPlace_iff (h : RingTracks calls s) (slot : UInt64) :
    s.NilPlace slot ↔
      slot = 0 ∧ ∀ c ∈ calls, ∀ slot' ∈ c.slot, ringIndex slot' ≠ ringIndex slot := by
  rw [MultiSlotState.NilPlace, h.maps_eq_none_iff]
  constructor
  · rintro ⟨hslot, hnone⟩
    refine ⟨?_, hnone⟩
    rw [← hslot]
    exact h.slot_eq_zero slot ((h.maps_eq_none_iff slot).2 hnone)
  · rintro ⟨rfl, hnone⟩
    exact ⟨h.slot_eq_zero 0 ((h.maps_eq_none_iff 0).2 hnone), hnone⟩

end RingTracks

/-- **The ring refines the log of the calls**, in every run that does not panic. -/
theorem ringTracks_of_run {fork : ForkState} {calls : List SetCall} {t : MultiSlotState}
    (hrun : Runs.run SetCall.apply (MultiSlotState.new fork) calls = some t) :
    RingTracks calls t := by
  induction calls using List.reverseRecOn generalizing t with
  | nil =>
      cases hrun
      exact RingTracks.new fork
  | append_singleton calls c ih =>
      obtain ⟨s, hs, hc⟩ := (Runs.run_append_eq_some SetCall.apply).1 hrun
      obtain ⟨s', hs', hlast⟩ := (Runs.run_cons_eq_some SetCall.apply).1 hc
      cases hlast
      exact (ih hs).concat hs'

/-! ### Slots above zero -/

/-- The last value since the last reset, by its place in the log. -/
theorem lastSet_iff {V : Type} {calls : List SetCall} {slot : UInt64} {value : Entry → Option V}
    {v : V} : LastSet calls slot value v ↔
      lastSince (SetCall.Evicts slot) (SetCall.setFor slot value) calls = some v := by
  rw [lastSince_eq_some_iff]
  constructor
  · rintro ⟨pre, c, post, hcalls, hc, hnone, hevicts⟩
    refine ⟨pre, c, post, hcalls, ?_, hc, fun d hd => ⟨hevicts d hd, hnone d hd⟩⟩
    -- a call that sets something for the slot is not for another one
    cases c with
    | record e =>
        simp only [SetCall.setFor] at hc
        split at hc
        · next hsame =>
            rintro ⟨slot', hslot', hne, -⟩
            cases hslot'
            exact hne hsame
        · cases hc
    | setHeadSlotIfHigher slot' => cases hc
    | setDuties duties => cases hc
    | setFork fork => cases hc
    | setParentBlockHash blockHash => cases hc
  · rintro ⟨pre, c, post, hcalls, -, hc, hpost⟩
    exact ⟨pre, c, post, hcalls, hc, fun d hd => (hpost d hd).2, fun d hd => (hpost d hd).1⟩

/-- What a read returns, according to the log. -/
def ReadsLastSet {V : Type} [Inhabited V] (calls : List SetCall) (slot : UInt64)
    (value : Entry → Option V) (r : Option V) : Prop :=
  (∀ v, LastSet calls slot value v → r = some v) ∧
    ((∀ v, ¬LastSet calls slot value v) → r = some default)

theorem readsLastSet_lastSince {V : Type} [Inhabited V] (calls : List SetCall) (slot : UInt64)
    (value : Entry → Option V) :
    ReadsLastSet calls slot value (some
      ((lastSince (SetCall.Evicts slot) (SetCall.setFor slot value) calls).getD default)) := by
  simp only [ReadsLastSet, lastSet_iff]
  constructor
  · intro v hv
    rw [hv, Option.getD_some]
  · intro hnone
    rw [Option.eq_none_iff_forall_ne_some.2 hnone, Option.getD_none]

/-- A run of calls for slots above zero does not panic. -/
theorem exists_run_of_slots (fork : ForkState) (calls : List SetCall)
    (hslots : ∀ c ∈ calls, ∀ slot ∈ c.slot, 1 ≤ slot) :
    ∃ t, Runs.run SetCall.apply (MultiSlotState.new fork) calls = some t := by
  induction calls using List.reverseRecOn with
  | nil => exact ⟨_, rfl⟩
  | append_singleton calls c ih =>
      obtain ⟨s, hs⟩ := ih fun d hd => hslots d (by simp [hd])
      have hready : ∀ e, c = .record e → ¬s.NilPlace e.slot := by
        rintro e rfl hnil
        have hpos := hslots (.record e) (by simp) e.slot rfl
        rw [(((ringTracks_of_run hs).nilPlace_iff e.slot).1 hnil).1] at hpos
        exact absurd hpos (by decide)
      obtain ⟨s', hs'⟩ : ∃ s', SetCall.apply s c = some s' := by
        cases c with
        | record e =>
            rw [SetCall.apply_record]
            refine Option.ne_none_iff_exists'.1 fun hnone => ?_
            exact hready e rfl (MultiSlotState.write_eq_none_iff.1 hnone)
        | setHeadSlotIfHigher slot => exact ⟨_, rfl⟩
        | setDuties duties => exact ⟨_, rfl⟩
        | setFork fork => exact ⟨_, rfl⟩
        | setParentBlockHash blockHash => exact ⟨_, rfl⟩
      refine ⟨s', (Runs.run_append_eq_some SetCall.apply).2 ⟨s, hs, ?_⟩⟩
      rw [Runs.run_cons, hs']
      rfl

/-- **What is read is what was set last.**  After any sequence of calls for slots above zero, none
of which panics, `Withdrawals` and `Randao` of a slot above zero return the argument of the last
call that set them for the slot and the parent hash, if no call for another slot of the same place
came after it, and otherwise the zero value. -/
theorem reads_last_set (fork : ForkState) (calls : List SetCall)
    (hslots : ∀ c ∈ calls, ∀ slot ∈ c.slot, 1 ≤ slot) (slot : UInt64) (hslot : 1 ≤ slot)
    (p : Hash) :
    ∃ t, Runs.run SetCall.apply (MultiSlotState.new fork) calls = some t ∧
      ReadsLastSet calls slot (Entry.randaoFor p) (t.randao slot p) ∧
      ReadsLastSet calls slot (Entry.withdrawalsFor p) (t.withdrawals slot p) := by
  obtain ⟨t, ht⟩ := exists_run_of_slots fork calls hslots
  have htracks := ringTracks_of_run ht
  have hnil : ¬t.NilPlace slot := by
    intro hnil
    rw [((htracks.nilPlace_iff slot).1 hnil).1] at hslot
    exact absurd hslot (by decide)
  refine ⟨t, ht, ?_, ?_⟩
  · rw [htracks.randao slot p hnil]
    exact readsLastSet_lastSince _ _ _
  · rw [htracks.withdrawals slot p hnil]
    exact readsLastSet_lastSince _ _ _

/-- The randao of the slot 3, the withdrawals of the slot 5 of the same place, and the randao of the
slot 4. -/
def threeSlots : List SetCall :=
  [.record (.randao ⟨3, default, "0x03"⟩), .record (.withdrawals ⟨5, default, default⟩),
    .record (.randao ⟨4, default, "0x04"⟩)]

/-- The randao of the slot 4 is read, and the one of the slot 3 is gone. -/
theorem reads_last_set_threeSlots :
    ∃ t, Runs.run SetCall.apply (MultiSlotState.new default) threeSlots = some t ∧
      t.randao 4 default = some ⟨4, default, "0x04"⟩ ∧ t.randao 3 default = some default := by
  have hslots : ∀ c ∈ threeSlots, ∀ slot ∈ c.slot, 1 ≤ slot := by
    intro c hc slot hslot
    simp only [threeSlots, List.mem_cons, List.not_mem_nil, or_false] at hc
    rcases hc with rfl | rfl | rfl
    all_goals
      cases hslot
      decide
  obtain ⟨t, ht, h4, -⟩ := reads_last_set default threeSlots hslots 4 (by decide) default
  obtain ⟨t', ht', h3, -⟩ := reads_last_set default threeSlots hslots 3 (by decide) default
  obtain rfl : t = t' := Option.some_inj.1 (ht.symm.trans ht')
  refine ⟨t, ht, h4.1 _ ?_, h3.2 fun v hv => ?_⟩
  · exact lastSet_iff.2 (by decide +kernel)
  · have hnone : lastSince (SetCall.Evicts 3) (SetCall.setFor 3 (Entry.randaoFor default))
        threeSlots = none := by decide +kernel
    rw [lastSet_iff, hnone] at hv
    cases hv

end Dreamboat
