/-
**The beacon state of the last slots.**

`src/beacon/state.go` keeps what the beacon nodes have announced: the head slot, the parent block
hash of the head, the duties, and for each of the last slots the withdrawals and the randao by
parent hash.  The slots share a ring of `numberOfSlotsInState` places; a write for another slot
clears the place first.

The places of a new ring have neither a mutex nor maps, and they carry the slot `0`.  So a read or a
write for the slot `0` goes through a `nil` pointer until the place has been used for another slot.

Main definitions:

* `AtomicState` — a place of the ring;
* `MultiSlotState` — the beacon state, with its reads and writes;
* `MultiSlotState.setHeadSlotIfHigher` — the head slot.

Main results:

* `MultiSlotState.read_of_maps` — what a read finds;
* `MultiSlotState.write_eq_some` — **what a write changes**;
* `MultiSlotState.read_eq_none_iff`, `MultiSlotState.write_eq_none_iff` — when a read and a write
  panic;
* `MultiSlotState.place_of_write`, `MultiSlotState.read_of_write` — the ring and the reads after a
  write.
-/

import Dreamboat.GoMap
import Dreamboat.ValidatorStore

set_option autoImplicit false

namespace Dreamboat

structure WithdrawalsState where
  slot : UInt64
  parentHash : Hash
  root : Root
  deriving DecidableEq, Inhabited, Repr

structure RandaoState where
  slot : UInt64
  parentHash : Hash
  randao : String
  deriving DecidableEq, Inhabited, Repr

/-- The slots of the next proposers, with their registrations. -/
structure DutiesState where
  currentSlot : UInt64
  proposerDutiesResponse : List (UInt64 × SignedValidatorRegistration)
  deriving Inhabited

/-! ### A place of the ring -/

/-- The two maps of a place. -/
structure SlotMaps where
  withdrawals : Go.Map Hash WithdrawalsState
  randao : Go.Map Hash RandaoState

/-- A place of the ring.  The mutex and the maps are made together; in the zero value they are
`nil`. -/
structure AtomicState where
  slot : UInt64
  maps : Option SlotMaps

namespace AtomicState

/-- The zero value. -/
def zero : AtomicState := ⟨0, none⟩

/-- A place that is cleared for a slot. -/
def make (slot : UInt64) : AtomicState := ⟨slot, some ⟨∅, ∅⟩⟩

/-- The value of one of the maps at a parent hash; `none` is the panic of a `nil` mutex. -/
def read {V : Type} [Inhabited V] (a : AtomicState) (map : SlotMaps → Go.Map Hash V)
    (parentHash : Hash) : Option V :=
  a.maps.map fun m => ((map m).lookup parentHash).getD default

/-- A change of the maps; `none` is the panic of a `nil` mutex. -/
def write (a : AtomicState) (f : SlotMaps → SlotMaps) : Option AtomicState :=
  a.maps.map fun m => ⟨a.slot, some (f m)⟩

def withdrawals (a : AtomicState) (parentHash : Hash) : Option WithdrawalsState :=
  a.read SlotMaps.withdrawals parentHash

def setWithdrawals (a : AtomicState) (w : WithdrawalsState) : Option AtomicState :=
  a.write fun m => ⟨m.withdrawals.insert w.parentHash w, m.randao⟩

def randao (a : AtomicState) (parentHash : Hash) : Option RandaoState :=
  a.read SlotMaps.randao parentHash

def setRandao (a : AtomicState) (r : RandaoState) : Option AtomicState :=
  a.write fun m => ⟨m.withdrawals, m.randao.insert r.parentHash r⟩

/-- The place, cleared if it is for another slot. -/
def forSlot (a : AtomicState) (slot : UInt64) : AtomicState :=
  if a.slot ≠ slot then make slot else a

theorem slot_forSlot (a : AtomicState) (slot : UInt64) : (a.forSlot slot).slot = slot := by
  unfold forSlot
  split
  · rfl
  · next h => exact not_not.1 h

theorem forSlot_of_eq {a : AtomicState} {slot : UInt64} (h : a.slot = slot) :
    a.forSlot slot = a := if_neg (not_not.2 h)

end AtomicState

/-! ### The ring -/

structure MultiSlotState where
  slots : Fin numberOfSlotsInState → AtomicState
  duties : DutiesState
  headSlot : Option UInt64
  fork : ForkState
  parentBlockHash : Option Hash

namespace MultiSlotState

/-- The zero value, with the fork schedule that is set once at the start. -/
def new (fork : ForkState) : MultiSlotState := ⟨fun _ => .zero, default, none, fork, none⟩

/-- `HeadSlot`. -/
def getHeadSlot (s : MultiSlotState) : UInt64 := s.headSlot.getD 0

/-- `ParentBlockHash`. -/
def getParentBlockHash (s : MultiSlotState) : Hash := s.parentBlockHash.getD default

/-- `SetHeadSlotIfHigher`: the new state, the head slot, and whether it is a new one. -/
def setHeadSlotIfHigher (s : MultiSlotState) (slot : UInt64) : MultiSlotState × UInt64 × Bool :=
  match s.headSlot with
  | none => ({ s with headSlot := some slot }, slot, true)
  | some headSlot =>
      if slot > headSlot then ({ s with headSlot := some slot }, slot, true)
      else (s, headSlot, false)

/-- The place of a slot in the ring. -/
def place (s : MultiSlotState) (slot : UInt64) : AtomicState := s.slots (ringIndex slot)

/-- A read for a slot: of a place that is for another slot, the zero value is read. -/
def read {V : Type} [Inhabited V] (s : MultiSlotState) (slot : UInt64)
    (get : AtomicState → Option V) : Option V :=
  if (s.place slot).slot = slot then get (s.place slot) else some default

/-- A write for a slot: a place that is for another slot is cleared first. -/
def write (s : MultiSlotState) (slot : UInt64) (set : AtomicState → Option AtomicState) :
    Option MultiSlotState := do
  let curr ← set ((s.place slot).forSlot slot)
  return { s with slots := Function.update s.slots (ringIndex slot) curr }

/-- `Withdrawals`; `none` is a panic. -/
def withdrawals (s : MultiSlotState) (slot : UInt64) (parentHash : Hash) :
    Option WithdrawalsState :=
  s.read slot fun ws => ws.withdrawals parentHash

def setWithdrawals (s : MultiSlotState) (w : WithdrawalsState) : Option MultiSlotState :=
  s.write w.slot fun curr => curr.setWithdrawals w

/-- `Randao`; `none` is a panic. -/
def randao (s : MultiSlotState) (slot : UInt64) (parentHash : Hash) : Option RandaoState :=
  s.read slot fun randao => randao.randao parentHash

def setRandao (s : MultiSlotState) (r : RandaoState) : Option MultiSlotState :=
  s.write r.slot fun curr => curr.setRandao r

/-! ### Reads after writes -/

variable {s s' : MultiSlotState} {slot : UInt64}

/-- The maps of a slot, as long as its place is for it. -/
def maps (s : MultiSlotState) (slot : UInt64) : Option SlotMaps :=
  if (s.place slot).slot = slot then (s.place slot).maps else none

/-- A read finds what stands in the maps of its slot. -/
theorem read_of_maps {V : Type} [Inhabited V] {m : SlotMaps} (h : s.maps slot = some m)
    (map : SlotMaps → Go.Map Hash V) (parentHash : Hash) :
    (s.read slot fun a => a.read map parentHash) =
      some (((map m).lookup parentHash).getD default) := by
  unfold maps at h
  split at h
  · next hslot => rw [read, if_pos hslot, AtomicState.read, h, Option.map_some]
  · cases h

/-- **A write changes the maps of its slot**, which are empty if the place was for another slot, and
nothing but the ring. -/
theorem write_eq_some {f : SlotMaps → SlotMaps}
    (h : (s.write slot fun a => a.write f) = some s') :
    (∃ m, s'.maps slot = some (f m) ∧ ∀ m₀, s.maps slot = some m₀ → m = m₀) ∧
      s' = { s with slots := s'.slots } := by
  obtain ⟨curr, hcurr, h⟩ := Option.bind_eq_some_iff.1 h
  obtain ⟨m, hm, rfl⟩ := Option.map_eq_some_iff.1 hcurr
  cases h
  refine ⟨⟨m, ?_, fun m₀ hm₀ => ?_⟩, rfl⟩
  · simp only [maps, place, Function.update_self, AtomicState.slot_forSlot, if_true]
  · unfold maps at hm₀
    split at hm₀
    · next hslot =>
        rw [AtomicState.forSlot_of_eq hslot, hm₀] at hm
        exact (Option.some.inj hm).symm
    · cases hm₀

/-! ### When a read or a write panics -/

/-- The place of the slot passes for one that is for the slot, but has neither mutex nor maps. -/
def NilPlace (s : MultiSlotState) (slot : UInt64) : Prop :=
  (s.place slot).slot = slot ∧ (s.place slot).maps = none

/-- **When a read panics.** -/
theorem read_eq_none_iff {V : Type} [Inhabited V] {map : SlotMaps → Go.Map Hash V} {p : Hash} :
    (s.read slot fun a => a.read map p) = none ↔ s.NilPlace slot := by
  unfold read NilPlace AtomicState.read
  split
  · next h => simp [h]
  · next h => simp [h]

/-- **When a write panics.** -/
theorem write_eq_none_iff {f : SlotMaps → SlotMaps} :
    (s.write slot fun a => a.write f) = none ↔ s.NilPlace slot := by
  have hwrite : (s.write slot fun a => a.write f) = none ↔
      ((s.place slot).forSlot slot).maps = none := by
    unfold write AtomicState.write
    cases hmaps : ((s.place slot).forSlot slot).maps with
    | none => simp [hmaps]
    | some m => simp [hmaps]
  rw [hwrite]
  unfold NilPlace
  by_cases h : (s.place slot).slot = slot
  · rw [AtomicState.forSlot_of_eq h, and_iff_right h]
  · simp [AtomicState.forSlot, AtomicState.make, h]

/-! ### What a write leaves in the ring -/

/-- **The places after a write**: that of its slot has the maps `m` of the slot, which are empty if
the place was for another slot, with the change; the others are as before. -/
theorem place_of_write {f : SlotMaps → SlotMaps}
    (h : (s.write slot fun a => a.write f) = some s') :
    ∃ m, ((s.place slot).forSlot slot).maps = some m ∧ ∀ slot', s'.place slot' =
      if ringIndex slot' = ringIndex slot then ⟨slot, some (f m)⟩ else s.place slot' := by
  obtain ⟨curr, hcurr, h⟩ := Option.bind_eq_some_iff.1 h
  obtain ⟨m, hm, rfl⟩ := Option.map_eq_some_iff.1 hcurr
  cases h
  refine ⟨m, hm, fun slot' => ?_⟩
  rw [AtomicState.slot_forSlot]
  unfold place
  split
  · next hi => simp only [hi, Function.update_self]
  · next hi => exact Function.update_of_ne hi _ _

/-- Of a slot whose place is for another one, every read gives the zero value. -/
theorem read_of_ne {V : Type} [Inhabited V] (h : (s.place slot).slot ≠ slot)
    (map : SlotMaps → Go.Map Hash V) (p : Hash) :
    (s.read slot fun a => a.read map p) = some default := if_neg h

/-- **The reads for a slot before and after a write for it**, of a kind of entry that a cleared
place has none of. -/
theorem read_of_write {V : Type} [Inhabited V] {map : SlotMaps → Go.Map Hash V}
    (hempty : map ⟨∅, ∅⟩ = ∅) {f : SlotMaps → SlotMaps}
    (h : (s.write slot fun a => a.write f) = some s') :
    ∃ m, ∀ p,
      (s.read slot fun a => a.read map p) = some (((map m).lookup p).getD default) ∧
      (s'.read slot fun a => a.read map p) = some (((map (f m)).lookup p).getD default) := by
  obtain ⟨m, hm, hplace⟩ := place_of_write h
  have hself := hplace slot
  rw [if_pos rfl] at hself
  refine ⟨m, fun p => ⟨?_, ?_⟩⟩
  · by_cases hslot : (s.place slot).slot = slot
    · rw [AtomicState.forSlot_of_eq hslot] at hm
      rw [read, if_pos hslot, AtomicState.read, hm, Option.map_some]
    · -- the place is cleared for the slot
      rw [AtomicState.forSlot, if_pos hslot, AtomicState.make, Option.some_inj] at hm
      rw [read_of_ne hslot, ← hm, hempty, AList.lookup_empty, Option.getD_none]
  · rw [read, if_pos (by rw [hself]), hself, AtomicState.read, Option.map_some]

end MultiSlotState

end Dreamboat
