/-
**What `verifyBlock` vouches for.**

`verifyBlock` of `src/relay/submit.go` compares a submission with the beacon state: slot and time,
and the randomness that was recorded for the slot before.  If the randomness is not there, or is
another one, the function sleeps and asks the state a second time; the state may have changed in the
meantime.  Three checks of the submission itself come last: it carries a bid or transactions, and
the two hashes of the bid trace are those of the payload.  The branch with the second question
returns before them.

Here the two answers come from the ring of the beacon state, and a question may panic there.

Main definitions:

* `verifyBlockOn` — `verifyBlock` with the two states that it asks;
* `Verified` — what a submission without an error should have;
* `Rechecked` — the second question is asked and answered with the right randomness.

Main results:

* `verifyBlock_eq_nil_iff`, `verifyBlockOn_eq_nil_iff` — when there is no error;
* `verified_iff` — **what `verifyBlock` vouches for**: all of it, unless a submission is accepted at
  the second question without the last checks.
-/

import Dreamboat.BeaconHistory
import Dreamboat.SubmitBlock

set_option autoImplicit false

namespace Dreamboat

/-! ### The questions to the state -/

/-- The checks before the first question for the randomness pass. -/
def SubmitView.Asks (v : SubmitView) (sbr : SubmitBlockRequest) : Prop :=
  sbr.slot ≠ 0 ∧ sbr.timestamp = v.genesisTime + sbr.slot * 12 ∧
    ¬(sbr.slot > v.headSlot + 1 ∨
      sbr.slot < v.headSlot + 1 - (UInt64.ofNat numberOfSlotsInState - 1))

instance (v : SubmitView) (sbr : SubmitBlockRequest) : Decidable (v.Asks sbr) :=
  inferInstanceAs (Decidable (¬_ ∧ _ ∧ ¬_))

/-- The randomness is not there, or it is not that of the payload. -/
def SubmitBlockRequest.Missed (sbr : SubmitBlockRequest) (randao : String) : Prop :=
  randao = "" ∨ randao ≠ hexString sbr.random

instance (sbr : SubmitBlockRequest) (randao : String) : Decidable (sbr.Missed randao) :=
  inferInstanceAs (Decidable (_ ∨ ¬_))

/-- `verifyBlock` when the state is `first` at the first question for the randomness and `second` at
the second one; `none` is a panic. -/
def verifyBlockOn (v : SubmitView) (first second : MultiSlotState) (sbr : SubmitBlockRequest) :
    Option (Bool × Option GoError) :=
  if v.Asks sbr then do
    let randao ← first.randao (sbr.slot - 1) sbr.parentHash
    if sbr.Missed randao.randao then do
      let again ← second.randao (sbr.slot - 1) sbr.parentHash
      return verifyBlock { v with randao := randao.randao, randaoAgain := again.randao } sbr
    else return verifyBlock { v with randao := randao.randao } sbr
  else return verifyBlock v sbr

/-! ### When there is no error -/

/-- The checks that come last. -/
structure SubmitBlockRequest.Consistent (sbr : SubmitBlockRequest) : Prop where
  bid : ¬(sbr.value.bigInt = 0 ∧ sbr.numTx = 0)
  blockHash : sbr.blockHash = sbr.traceBlockHash
  parentHash : sbr.parentHash = sbr.traceParentHash

variable {v : SubmitView} {first second : MultiSlotState} {sbr : SubmitBlockRequest} {retry : Bool}

/-- A check whose error is not returned is passed. -/
theorem ite_error_eq_nil_iff {c : Prop} [Decidable c] {asked : Bool} {err : GoError}
    {rest : Bool × Option GoError} :
    (if c then (asked, some err) else rest) = (retry, none) ↔ ¬c ∧ rest = (retry, none) := by
  by_cases hc : c
  · simp [hc]
  · simp [hc]

/-- **When `verifyBlock` returns no error**: the first checks pass, and either the first answer is
the right one and the last checks pass, or the second answer is the right one. -/
theorem verifyBlock_eq_nil_iff : verifyBlock v sbr = (retry, none) ↔ v.Asks sbr ∧
    ((retry = false ∧ ¬sbr.Missed v.randao ∧ sbr.Consistent) ∨
      (retry = true ∧ sbr.Missed v.randao ∧ ¬sbr.Missed v.randaoAgain)) := by
  simp only [verifyBlock, ite_error_eq_nil_iff, SubmitView.Asks, and_assoc, ne_eq, not_not]
  refine and_congr_right fun _ => and_congr_right fun _ => and_congr_right fun _ => ?_
  split
  · next h =>
      have hmissed : sbr.Missed v.randao := h
      have hagain : ¬sbr.Missed v.randaoAgain ↔
          ¬v.randaoAgain = "" ∧ v.randaoAgain = hexString sbr.random := by
        rw [SubmitBlockRequest.Missed, not_or, not_not]
      simp only [ite_error_eq_nil_iff, hmissed, hagain, Prod.mk.injEq, not_not,
        eq_comm (b := retry)]
      tauto
  · next h =>
      have hfound : ¬sbr.Missed v.randao := h
      simp only [ite_error_eq_nil_iff, hfound, Prod.mk.injEq, not_not, eq_comm (b := retry)]
      constructor
      · rintro ⟨hbid, hblock, hparent, hretry, -⟩
        exact Or.inl ⟨hretry, not_false, ⟨hbid, hblock, hparent⟩⟩
      · rintro (⟨hretry, -, hbid, hblock, hparent⟩ | ⟨-, hfalse, -⟩)
        · exact ⟨hbid, hblock, hparent, hretry, trivial⟩
        · exact hfalse.elim

/-- The state has the randomness of the payload for the slot before and the parent hash. -/
def MultiSlotState.Announces (s : MultiSlotState) (sbr : SubmitBlockRequest) : Prop :=
  ∃ r, s.randao (sbr.slot - 1) sbr.parentHash = some r ∧ r.randao ≠ "" ∧
    r.randao = hexString sbr.random

/-- The state answers without it. -/
def MultiSlotState.Misses (s : MultiSlotState) (sbr : SubmitBlockRequest) : Prop :=
  ∃ r, s.randao (sbr.slot - 1) sbr.parentHash = some r ∧ sbr.Missed r.randao

/-- The first checks pass, the first answer is not the right one, and the second is. -/
def Rechecked (v : SubmitView) (first second : MultiSlotState) (sbr : SubmitBlockRequest) : Prop :=
  v.Asks sbr ∧ first.Misses sbr ∧ second.Announces sbr

theorem not_missed_iff {randao : String} :
    ¬sbr.Missed randao ↔ randao ≠ "" ∧ randao = hexString sbr.random := by
  rw [SubmitBlockRequest.Missed, not_or, not_not]

/-- **When there is no error**, by the states that are asked. -/
theorem verifyBlockOn_eq_nil_iff : verifyBlockOn v first second sbr = some (retry, none) ↔
    (retry = false ∧ v.Asks sbr ∧ first.Announces sbr ∧ sbr.Consistent) ∨
      (retry = true ∧ Rechecked v first second sbr) := by
  unfold verifyBlockOn Rechecked
  by_cases hasks : v.Asks sbr
  swap
  · simp [hasks, verifyBlock_eq_nil_iff]
  simp only [hasks, true_and]
  -- what is left are the two questions
  unfold MultiSlotState.Announces MultiSlotState.Misses
  cases hfirst : first.randao (sbr.slot - 1) sbr.parentHash with
  | none => simp
  | some r =>
      simp only [Option.some.injEq, exists_eq_left', ← not_missed_iff]
      by_cases hmissed : sbr.Missed r.randao
      · cases hsecond : second.randao (sbr.slot - 1) sbr.parentHash with
        | none => simp [hmissed]
        | some r' =>
            have hasks' : SubmitView.Asks
                { v with randao := r.randao, randaoAgain := r'.randao } sbr := hasks
            simp [hmissed, verifyBlock_eq_nil_iff, hasks']
      · have hasks' : SubmitView.Asks { v with randao := r.randao } sbr := hasks
        simp [hmissed, verifyBlock_eq_nil_iff, hasks']

/-! ### What it vouches for -/

/-- What a submission should have for which `verifyBlock` returns no error. -/
structure Verified (v : SubmitView) (first second : MultiSlotState) (sbr : SubmitBlockRequest) :
    Prop where
  slot_ne_zero : sbr.slot ≠ 0
  timestamp : sbr.timestamp = v.genesisTime + sbr.slot * 12
  le_slot : v.headSlot.toNat + 1 - (numberOfSlotsInState - 1) ≤ sbr.slot.toNat
  slot_le : sbr.slot.toNat ≤ v.headSlot.toNat + 1
  randao : first.Announces sbr ∨ second.Announces sbr
  bid : ¬(sbr.value.bigInt = 0 ∧ sbr.numTx = 0)
  blockHash : sbr.blockHash = sbr.traceBlockHash
  parentHash : sbr.parentHash = sbr.traceParentHash

/-- The slots that pass, without machine arithmetic: where the head slot is the last one there is,
none does. -/
theorem SubmitView.Asks.slot_range (h : v.Asks sbr) :
    v.headSlot.toNat + 1 - (numberOfSlotsInState - 1) ≤ sbr.slot.toNat ∧
      sbr.slot.toNat ≤ v.headSlot.toNat + 1 := by
  obtain ⟨hslot, -, hrange⟩ := h
  have hone : UInt64.ofNat numberOfSlotsInState - 1 = 1 := by decide
  have hpos : sbr.slot.toNat ≠ 0 := fun h => hslot (UInt64.toNat_inj.1 h)
  rw [hone, UInt64.add_sub_cancel, not_or, UInt64.not_lt, UInt64.not_lt, UInt64.le_iff_toNat_le,
    UInt64.le_iff_toNat_le, UInt64.toNat_add, UInt64.toNat_one] at hrange
  have hlt := v.headSlot.toNat_lt
  have hmod : (v.headSlot.toNat + 1) % 2 ^ 64 ≤ v.headSlot.toNat + 1 := Nat.mod_le _ _
  unfold numberOfSlotsInState
  omega

/-- A submission that passes the first checks and the last ones, and whose randomness is announced,
has everything. -/
theorem verified_of_consistent (hasks : v.Asks sbr)
    (hrandao : first.Announces sbr ∨ second.Announces sbr) (h : sbr.Consistent) :
    Verified v first second sbr := by
  obtain ⟨hge, hle⟩ := hasks.slot_range
  exact ⟨hasks.1, hasks.2.1, hge, hle, hrandao, h.bid, h.blockHash, h.parentHash⟩

/-- **What `verifyBlock` vouches for.**  Whatever the state is at the two questions, a submission
for which it returns no error has everything it should have, if and only if it passes the last
checks in case it is accepted at the second question. -/
theorem verified_iff (v : SubmitView) (first second : MultiSlotState) (sbr : SubmitBlockRequest) :
    (∀ retry, verifyBlockOn v first second sbr = some (retry, none) →
      Verified v first second sbr) ↔
      (Rechecked v first second sbr → sbr.Consistent) := by
  simp only [verifyBlockOn_eq_nil_iff]
  constructor
  · intro h hre
    have hv := h true (Or.inr ⟨rfl, hre⟩)
    exact ⟨hv.bid, hv.blockHash, hv.parentHash⟩
  · rintro h retry (⟨-, hasks, hfirst, hconsistent⟩ | ⟨-, hre⟩)
    · exact verified_of_consistent hasks (Or.inl hfirst) hconsistent
    · exact verified_of_consistent hre.1 (Or.inr hre.2.2) (h hre)

/-! ### An early submission -/

/-- A call when the head is at the slot 2, with genesis at the time zero. -/
def earlyView : SubmitView where
  genesisTime := 0
  headSlot := 2
  randao := ""
  randaoAgain := ""
  withdrawalsRoot := default
  withdrawalsRootAgain := default
  registration := .ok 0
  validation := none
  enqueue := none

/-- A submission for the slot 3 without value and transactions, with other hashes in its trace than
in its payload. -/
def emptySubmission : SubmitBlockRequest where
  signature := default
  message :=
    { (default : BidTrace) with
      slot := 3, blockHash := Vector.replicate 32 1, parentHash := Vector.replicate 32 1 }
  executionPayload := .bellatrix { (default : Bellatrix.ExecutionPayload) with epTimestamp := 36 }

/-- The randomness of the slot 2 arrives between the two questions.  The submission is accepted,
with neither value nor transactions and with both hashes wrong. -/
theorem unverified_early_submission :
    ∃ second, SetCall.apply (.new default)
        (.record (.randao ⟨2, default, hexString emptySubmission.random⟩)) = some second ∧
      verifyBlockOn earlyView (.new default) second emptySubmission = some (true, none) ∧
      emptySubmission.value.bigInt = 0 ∧ emptySubmission.numTx = 0 ∧
      emptySubmission.blockHash ≠ emptySubmission.traceBlockHash ∧
      emptySubmission.parentHash ≠ emptySubmission.traceParentHash := by
  have h : ((SetCall.apply (.new default)
      (.record (.randao ⟨2, default, hexString emptySubmission.random⟩))).any fun second =>
        decide (verifyBlockOn earlyView (.new default) second emptySubmission =
          some (true, none))) = true := by decide +kernel
  obtain ⟨second, hsecond, hv⟩ := (Option.any_eq_true _ _).1 h
  exact ⟨second, hsecond, of_decide_eq_true hv, by decide +kernel⟩

end Dreamboat
