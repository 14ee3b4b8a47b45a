/-
**What a call of `SubmitBlock` leaves behind.**

`storeSubmission` has three effects: it puts the payload into the store, adds the bid to the auction
and hands the bid to the stream.  Between the first and the second stands a conversion that fails
when the header is not of the fork of the slot; the payload is stored by then.  So a call that
returns an error has left everything as it was in all cases but this one.

`verifyWithdrawals` accepts a submission without looking at the beacon state when its list of
withdrawals is `nil`.  This is meant for the earlier fork, whose payloads have no withdrawals; but a
payload of the later fork has such a list, too, when it is decoded from a text in which the list is
missing.

Main definitions:

* `storeSubmission`, `submitBlock` — a call without others in between;
* `LeavesUnchanged` — an error means that nothing has changed;
* `WithdrawalsEncoding`, `unmarshalWithdrawals` — how a list of withdrawals arrives;
* `ChecksWithdrawals` — what is accepted has the recorded withdrawals.

Main results:

* `exists_run_submitBlock` — `submitBlock` is a run of the model with the goroutine;
* `leavesUnchanged_iff` — **an error means that nothing has changed exactly when the payload is of
  the fork of its slot**;
* `checksWithdrawals_iff` — **the withdrawals are checked exactly when the list is not `nil`**.
-/

import Dreamboat.PayloadRoot
import Dreamboat.SubmitRun

set_option autoImplicit false

namespace Dreamboat

open SubmitRun

/-! ### The call -/

/-- `storeSubmission`, where `put` is what `PutPayload` returns. -/
def storeSubmission (S : SubmitRun.Setup) (put : Option GoError) (order : LoopOrder) (w : World)
    (sbr : SubmitBlockRequest) : World × Except GoError Bool :=
  match storeContents S.primitives S.cfg sbr with
  | .error err => (w, .error err)
  | .ok (payload, header) =>
      match put with
      | some err =>
          (w, .error (.wrap (Sentinel.errStore.text ++ " block as payload: " ++ err.error)
            (.sentinel .errStore)))
      | none =>
          let w := w.apply S (.put sbr.toPayloadKey payload)
          match bidExtended S.fork sbr header with
          | .error err => (w, .error (.wrap ("failed to generate bid: " ++ err.error) err))
          | .ok bid =>
              (w.apply S (.add ⟨order, bid⟩), .ok (w.auction.addBlock ⟨order, bid⟩).2)

/-- `SubmitBlock`: what is shared afterwards, and the error. -/
def submitBlock (S : SubmitRun.Setup) (v : SubmitView) (put : Option GoError) (order : LoopOrder)
    (w : World) (sbr : SubmitBlockRequest) : World × Option GoError :=
  match submitChecks S.primitives S.cfg v sbr with
  | .error err => (w, some err)
  | .ok () =>
      match storeSubmission S put order w sbr with
      | (w, .error err) => (w, some err)
      | (w, .ok _) => (w, none)

/-! ### The forks of payloads and headers -/

variable {S : SubmitRun.Setup} {v : SubmitView} {put : Option GoError} {order : LoopOrder}
  {w : World} {sbr : SubmitBlockRequest} {payload : BlockAndTraceExtended}
  {header : ExecutionPayloadHeader}

/-- A header is of the fork of its payload. -/
theorem fork_of_payloadToPayloadHeader {P : Primitives} {p : ExecutionPayload}
    (h : payloadToPayloadHeader P p = .ok header) : header.fork = p.fork := by
  cases p with
  | bellatrix p =>
      obtain ⟨txroot, -, h⟩ := exists_of_bind_eq_ok h
      cases h
      rfl
  | capella p =>
      obtain ⟨txroot, -, h⟩ := exists_of_bind_eq_ok h
      obtain ⟨withdrawalsRoot, -, h⟩ := exists_of_bind_eq_ok h
      cases h
      rfl

theorem fork_of_storeContents {P : Primitives} {cfg : RelayConfig}
    (h : storeContents P cfg sbr = .ok (payload, header)) :
    header.fork = sbr.executionPayload.fork := by
  obtain ⟨signed, hsigned, h⟩ :=
    exists_of_bind_eq_ok (preparePayloadContents_of_storeContents h)
  obtain ⟨header', hheader, hsigned⟩ := exists_of_bind_eq_ok hsigned
  obtain ⟨signature, -, hsigned⟩ := exists_of_bind_eq_ok hsigned
  have hfork := fork_of_payloadToPayloadHeader hheader
  cases hsigned
  split at h
  · cases h
    exact hfork
  · split at h
    · cases h
    · cases h
      exact hfork

/-- The conversion succeeds exactly for a header of the fork of the slot. -/
theorem bidExtended_eq_ok_iff (fork : ForkState) (sbr : SubmitBlockRequest)
    (header : ExecutionPayloadHeader) :
    (∃ bid, bidExtended fork sbr header = .ok bid) ↔ header.fork = fork.version sbr.slot := by
  unfold bidExtended
  cases fork.version sbr.slot with
  | unknown => cases header <;> simp [ExecutionPayloadHeader.fork]
  | altair => cases header <;> simp [ExecutionPayloadHeader.fork]
  | bellatrix => cases header <;> simp [ExecutionPayloadHeader.fork]
  | capella => cases header <;> simp [ExecutionPayloadHeader.fork]

/-! ### Errors -/

/-- An error of `SubmitBlock` means that the store, the auction and the stream are as they were,
whatever the configuration, the answers and the state. -/
def LeavesUnchanged (fork : ForkState) (sbr : SubmitBlockRequest) : Prop :=
  ∀ (S : SubmitRun.Setup) (v : SubmitView) (put : Option GoError) (order : LoopOrder) (w : World)
    (err : GoError), S.fork = fork → (submitBlock S v put order w sbr).2 = some err →
      (submitBlock S v put order w sbr).1 = w

/-- When the payload is of the fork of its slot, an error comes before every effect. -/
theorem submitBlock_eq_of_error (hfork : sbr.executionPayload.fork = S.fork.version sbr.slot)
    {err : GoError} (h : (submitBlock S v put order w sbr).2 = some err) :
    (submitBlock S v put order w sbr).1 = w := by
  unfold submitBlock at h ⊢
  cases hchecks : submitChecks S.primitives S.cfg v sbr with
  | error err => rfl
  | ok u =>
      simp only [hchecks] at h ⊢
      unfold storeSubmission at h ⊢
      cases hcontents : storeContents S.primitives S.cfg sbr with
      | error err => rfl
      | ok contents =>
          obtain ⟨payload, header⟩ := contents
          cases put with
          | some err => rfl
          | none =>
              -- the conversion cannot fail, so there is no error
              obtain ⟨bid, hbid⟩ := (bidExtended_eq_ok_iff S.fork sbr header).2
                ((fork_of_storeContents hcontents).trans hfork)
              simp [hcontents, hbid] at h

/-! ### Answers under which a submission is accepted -/

/-- Answers that every submission with a slot passes; `root` is what is recorded for its
withdrawals. -/
def acceptingView (sbr : SubmitBlockRequest) (root : Root) : SubmitView where
  genesisTime := sbr.timestamp - sbr.slot * 12
  headSlot := sbr.slot - 1
  randao := ""
  randaoAgain := hexString sbr.random
  withdrawalsRoot := root
  withdrawalsRootAgain := root
  registration := .ok 0
  validation := none
  enqueue := none

/-- A relay with a key, and a hash under which every list of withdrawals has the same root. -/
def acceptingSetup (fork : ForkState) : SubmitRun.Setup where
  primitives := { (default : Primitives) with withdrawalsRoot := fun _ => .ok onesRoot }
  cfg := { (default : RelayConfig) with secretKey := some default }
  fork := fork
  distributed := false

theorem verifyBlock_acceptingView (hslot : sbr.slot ≠ 0) (root : Root) :
    verifyBlock (acceptingView sbr root) sbr = (true, none) := by
  have hempty : hexString sbr.random ≠ "" := by simp [hexString]
  have htime : sbr.timestamp - sbr.slot * 12 + sbr.slot * 12 = sbr.timestamp :=
    UInt64.sub_add_cancel _ _
  have hmax : sbr.slot - 1 + 1 = sbr.slot := UInt64.sub_add_cancel _ _
  have hone : UInt64.ofNat numberOfSlotsInState - 1 = 1 := by decide
  have hpos : 1 ≤ sbr.slot := UInt64.le_iff_toNat_le.2
    (Nat.one_le_iff_ne_zero.2 fun h => hslot (UInt64.toNat_inj.1 h))
  have hmin : ¬sbr.slot < sbr.slot - 1 := by
    rw [UInt64.lt_iff_toNat_lt, UInt64.toNat_sub_of_le _ _ hpos]
    omega
  unfold verifyBlock
  simp [acceptingView, hslot, htime, hmax, hone, hmin, hempty]

/-- The checks let a submission through when its list of withdrawals is `nil` or has the recorded
root. -/
theorem submitChecks_acceptingView (hslot : sbr.slot ≠ 0) (fork : ForkState) {root : Root}
    (hroot : sbr.withdrawals = none ∨ root = onesRoot) :
    submitChecks (acceptingSetup fork).primitives (acceptingSetup fork).cfg
      (acceptingView sbr root) sbr = .ok () := by
  have hsig : verifySignature (acceptingSetup fork).primitives (acceptingSetup fork).cfg sbr
      (fun _ _ _ => none) = none := rfl
  have hw : (verifyWithdrawals (acceptingSetup fork).primitives (acceptingView sbr root) sbr).2.2 =
      none := by
    unfold verifyWithdrawals
    cases hws : sbr.withdrawals with
    | none => rfl
    | some ws =>
        obtain rfl : root = onesRoot := hroot.resolve_left fun hnil => by
          rw [hws] at hnil
          cases hnil
        simp [acceptingView, acceptingSetup, onesRoot_ne_default]
  unfold submitChecks
  rw [verifyBlock_acceptingView hslot, hw]
  simp only [acceptingView, hsig]
  rfl

/-- There is always something to store. -/
theorem exists_storeContents_acceptingSetup (fork : ForkState) (sbr : SubmitBlockRequest) :
    ∃ payload header, storeContents (acceptingSetup fork).primitives (acceptingSetup fork).cfg sbr =
      .ok (payload, header) := by
  obtain ⟨signature, message, executionPayload⟩ := sbr
  cases executionPayload with
  | bellatrix p => exact ⟨_, _, rfl⟩
  | capella p =>
      cases hws : p.epWithdrawals with
      | none =>
          obtain ⟨p, ws⟩ := p
          subst hws
          exact ⟨_, _, rfl⟩
      | some ws =>
          obtain ⟨p, ws'⟩ := p
          subst hws
          exact ⟨_, _, rfl⟩

/-- What the call stores, when the payload is not of the fork of its slot. -/
theorem submitBlock_accepting_of_ne (fork : ForkState) (sbr : SubmitBlockRequest) (w : World)
    (hslot : sbr.slot ≠ 0) (hfork : sbr.executionPayload.fork ≠ fork.version sbr.slot) :
    ∃ payload err,
      submitBlock (acceptingSetup fork) (acceptingView sbr onesRoot) none Go.RangeOrder.stored w
        sbr = (w.apply (acceptingSetup fork) (.put sbr.toPayloadKey payload), some err) := by
  obtain ⟨payload, header, hcontents⟩ := exists_storeContents_acceptingSetup fork sbr
  have hbid : ∀ bid, bidExtended fork sbr header ≠ .ok bid := fun bid hbid =>
    hfork ((fork_of_storeContents hcontents).symm.trans
      ((bidExtended_eq_ok_iff fork sbr header).1 ⟨bid, hbid⟩))
  cases hres : bidExtended fork sbr header with
  | ok bid => exact absurd hres (hbid bid)
  | error err =>
      have hres' : bidExtended (acceptingSetup fork).fork sbr header = .error err := hres
      refine ⟨payload, .wrap ("failed to generate bid: " ++ err.error) err, ?_⟩
      rw [submitBlock, submitChecks_acceptingView hslot fork (.inr rfl)]
      simp only [storeSubmission, hcontents, hres']

/-- **An error means that nothing has changed exactly when the payload is of the fork of its
slot**, or the slot is the one that is rejected at once. -/
theorem leavesUnchanged_iff (fork : ForkState) (sbr : SubmitBlockRequest) :
    LeavesUnchanged fork sbr ↔
      sbr.slot = 0 ∨ sbr.executionPayload.fork = fork.version sbr.slot := by
  constructor
  · intro h
    by_contra hne
    obtain ⟨hslot, hfork⟩ := not_or.1 hne
    let w : World := ⟨fun _ => none, Auctioneer.new, []⟩
    obtain ⟨payload, err, hres⟩ := submitBlock_accepting_of_ne fork sbr w hslot hfork
    have hunchanged := h (acceptingSetup fork) (acceptingView sbr onesRoot) none
      Go.RangeOrder.stored w err rfl (by rw [hres])
    -- the store has the payload now
    rw [hres] at hunchanged
    have hstore := congrFun (congrArg World.store hunchanged) sbr.toPayloadKey
    simp [World.apply, w] at hstore
  · rintro (hslot | hfork) S v put order w err rfl herr
    · have hchecks : ∃ err, submitChecks S.primitives S.cfg v sbr = .error err := by
        unfold submitChecks
        have hblock : (verifyBlock v sbr).2 = some (.sentinel .errEmptyBlock) := by
          simp [verifyBlock, hslot]
        rw [hblock]
        exact ⟨_, rfl⟩
      obtain ⟨err', hchecks⟩ := hchecks
      rw [submitBlock, hchecks]
    · exact submitBlock_eq_of_error hfork herr

/-- A submission for a slot, with the time of the slot on a chain that begins at time zero. -/
def submissionFor (slot : UInt64) (payload : Bellatrix.ExecutionPayload → ExecutionPayload) :
    SubmitBlockRequest :=
  ⟨default, { (default : BidTrace) with slot := slot, value := .ofNat 1 },
    payload { (default : Bellatrix.ExecutionPayload) with
      epBlockNumber := 1, epTimestamp := slot * 12 }⟩

/-- A Bellatrix submission for the first slot of the Capella fork, with the head at the last slot
before it: the call returns an error, and the payload is in the store. -/
theorem changed_bellatrix_in_capella :
    ∃ (sbr : SubmitBlockRequest) (w : World), sbr = submissionFor 64 .bellatrix ∧
      (⟨0, 1, 2⟩ : ForkState).version (acceptingView sbr onesRoot).headSlot = .bellatrix ∧
      (⟨0, 1, 2⟩ : ForkState).version sbr.slot = .capella ∧
      (submitBlock (acceptingSetup ⟨0, 1, 2⟩) (acceptingView sbr onesRoot) none
        Go.RangeOrder.stored w sbr).2 ≠ none ∧
      w.store sbr.toPayloadKey = none ∧
      (submitBlock (acceptingSetup ⟨0, 1, 2⟩) (acceptingView sbr onesRoot) none
        Go.RangeOrder.stored w sbr).1.store sbr.toPayloadKey ≠ none := by
  let w : World := ⟨fun _ => none, Auctioneer.new, []⟩
  obtain ⟨payload, err, hres⟩ :=
    submitBlock_accepting_of_ne ⟨0, 1, 2⟩ (submissionFor 64 .bellatrix) w (by decide) (by decide)
  refine ⟨_, w, rfl, by decide, by decide, ?_, rfl, ?_⟩
  · rw [hres]
    exact Option.some_ne_none _
  · rw [hres]
    simp [World.apply]

/-! ### Withdrawals -/

/-- How the list of withdrawals of a Capella payload arrives: in a text, in which it may be missing
or `null`, or as bytes. -/
inductive WithdrawalsEncoding where
  | json (value : Option (List Withdrawal))
  | ssz (buf : List UInt8)

/-- The number with the given bytes, the lowest first. -/
def unmarshallUint64 (buf : List UInt8) : UInt64 :=
  buf.foldr (fun b acc => b.toUInt64 + 256 * acc) 0

/-- `UnmarshalSSZ` of one withdrawal. -/
def Withdrawal.unmarshalSSZ (buf : List UInt8) : Except GoError Withdrawal :=
  if buf.length ≠ 44 then .error (.new "incorrect size")
  else .ok
    { index := unmarshallUint64 (buf.take 8)
      validatorIndex := unmarshallUint64 ((buf.drop 8).take 8)
      address := Vector.ofFn fun i => ((buf.drop 16).take 20).getD i 0
      amount := unmarshallUint64 ((buf.drop 36).take 8) }

/-- The part of `UnmarshalSSZ` of a payload that reads the withdrawals. -/
def unmarshalWithdrawals (buf : List UInt8) : Except GoError (List Withdrawal) :=
  -- `ssz.DivideInt2(len(buf), 44, 16)`
  if buf.length % 44 ≠ 0 then .error (.new "xx")
  else if buf.length / 44 > 16 then .error (.new "yy")
  else (List.range (buf.length / 44)).mapM fun i =>
    Withdrawal.unmarshalSSZ ((buf.drop (i * 44)).take 44)

/-- The list a decoder leaves in the payload: only a text can leave a list that is `nil`. -/
def WithdrawalsEncoding.decode : WithdrawalsEncoding → Except GoError (Option (List Withdrawal))
  | .json value => .ok value
  | .ssz buf => (unmarshalWithdrawals buf).map some

/-- The root recorded for the slot and the parent hash of a submission, as `verifyWithdrawals` asks
for it. -/
def SubmitView.recordedRoot (v : SubmitView) : Root :=
  if v.withdrawalsRoot = default then v.withdrawalsRootAgain else v.withdrawalsRoot

/-- What is accepted has the withdrawals recorded for it, whatever the configuration, the answers
and the state; a list that is `nil` counts as an empty one. -/
def ChecksWithdrawals (fork : ForkState) (sbr : SubmitBlockRequest) : Prop :=
  ∀ (S : SubmitRun.Setup) (v : SubmitView) (put : Option GoError) (order : LoopOrder) (w : World),
    S.fork = fork → (submitBlock S v put order w sbr).2 = none →
      v.recordedRoot ≠ default ∧
        S.primitives.withdrawalsRoot (sbr.withdrawals.getD []) = .ok v.recordedRoot

/-- What is known of a submission that is accepted. -/
theorem submitBlock_eq_none (h : (submitBlock S v put order w sbr).2 = none) :
    submitChecks S.primitives S.cfg v sbr = .ok () ∧
      sbr.executionPayload.fork = S.fork.version sbr.slot := by
  unfold submitBlock at h
  cases hchecks : submitChecks S.primitives S.cfg v sbr with
  | error err => simp [hchecks] at h
  | ok u =>
      refine ⟨rfl, ?_⟩
      simp only [hchecks] at h
      unfold storeSubmission at h
      cases hcontents : storeContents S.primitives S.cfg sbr with
      | error err => simp [hcontents] at h
      | ok contents =>
          obtain ⟨payload, header⟩ := contents
          rw [← fork_of_storeContents hcontents, ← bidExtended_eq_ok_iff]
          cases hbid : bidExtended S.fork sbr header with
          | ok bid => exact ⟨bid, rfl⟩
          | error err =>
              cases put with
              | none => simp [hcontents, hbid] at h
              | some err => simp [hcontents] at h

/-- A submission that passes the checks has passed `verifyWithdrawals`. -/
theorem verifyWithdrawals_of_submitChecks {P : Primitives} {cfg : RelayConfig}
    (h : submitChecks P cfg v sbr = .ok ()) : (verifyWithdrawals P v sbr).2.2 = none := by
  have hblock := verifyBlock_of_submitChecks h
  unfold submitChecks at h
  rw [hblock] at h
  obtain ⟨gasLimit, -, h⟩ := exists_of_bind_eq_ok h
  cases hsig : verifySignature P cfg sbr (fun _ _ _ => v.enqueue) with
  | some err =>
      rw [hsig] at h
      cases h
  | none =>
      rw [hsig] at h
      cases hw : (verifyWithdrawals P v sbr).2.2 with
      | none => rfl
      | some err =>
          rw [hw] at h
          cases h

/-- A list that is not `nil` passes `verifyWithdrawals` with the recorded root only. -/
theorem withdrawalsRoot_of_verifyWithdrawals {P : Primitives} {ws : List Withdrawal}
    (hws : sbr.withdrawals = some ws) (h : (verifyWithdrawals P v sbr).2.2 = none) :
    v.recordedRoot ≠ default ∧ P.withdrawalsRoot ws = .ok v.recordedRoot := by
  have hexpected : (if v.withdrawalsRoot = default then v.withdrawalsRootAgain
      else v.withdrawalsRoot) = v.recordedRoot := rfl
  unfold verifyWithdrawals at h
  simp only [hws, decide_eq_true_eq, hexpected] at h
  generalize v.recordedRoot = expected at h ⊢
  split at h
  · cases h
  · next hrec =>
      cases hroot : P.withdrawalsRoot ws with
      | error err => simp [hroot] at h
      | ok root =>
          have heq : expected = root := by
            by_contra hne
            simp [hroot, hne] at h
          exact ⟨hrec, by rw [heq]⟩

/-- A slot of the Capella fork is not the first one. -/
theorem slot_ne_zero_of_capella {fork : ForkState} {slot : UInt64}
    (h : fork.version slot = .capella) : slot ≠ 0 := by
  rintro rfl
  have hnum := ForkState.version_eq_capella_iff.1 h
  rw [UInt64.toNat_zero] at hnum
  omega

/-- How the withdrawals of a submission have arrived. -/
def Arrived (e : WithdrawalsEncoding) (sbr : SubmitBlockRequest) : Prop :=
  sbr.executionPayload.fork = .capella → e.decode = .ok sbr.withdrawals

theorem recordedRoot_acceptingView (sbr : SubmitBlockRequest) (root : Root) :
    (acceptingView sbr root).recordedRoot = root := by
  unfold SubmitView.recordedRoot acceptingView
  exact ite_self _

/-- A submission is accepted under the accepting answers when its list of withdrawals is `nil`. -/
theorem submitBlock_accepting_of_nil (fork : ForkState) (w : World) (hslot : sbr.slot ≠ 0)
    (hfork : sbr.executionPayload.fork = fork.version sbr.slot) (hnil : sbr.withdrawals = none)
    (root : Root) :
    (submitBlock (acceptingSetup fork) (acceptingView sbr root) none Go.RangeOrder.stored w
      sbr).2 = none := by
  obtain ⟨payload, header, hcontents⟩ := exists_storeContents_acceptingSetup fork sbr
  obtain ⟨bid, hbid⟩ := (bidExtended_eq_ok_iff (acceptingSetup fork).fork sbr header).2
    ((fork_of_storeContents hcontents).trans hfork)
  rw [submitBlock, submitChecks_acceptingView hslot fork (.inl hnil)]
  simp only [storeSubmission, hcontents, hbid]

/-- **The withdrawals of what is accepted in a Capella slot are checked exactly when the list is not
`nil`**: when it arrives as bytes, or in a text that has it. -/
theorem checksWithdrawals_iff (fork : ForkState) (sbr : SubmitBlockRequest)
    (e : WithdrawalsEncoding) (hcap : fork.version sbr.slot = .capella) (harr : Arrived e sbr) :
    ChecksWithdrawals fork sbr ↔ (sbr.executionPayload.fork = .capella → e ≠ .json none) := by
  constructor
  · rintro hchecks hpayload rfl
    have hnil : sbr.withdrawals = none := (Except.ok.inj (harr hpayload)).symm
    -- nothing is recorded for the slot and the parent hash
    obtain ⟨hrec, -⟩ := hchecks (acceptingSetup fork) (acceptingView sbr default) none
      Go.RangeOrder.stored ⟨fun _ => none, Auctioneer.new, []⟩ rfl
      (submitBlock_accepting_of_nil fork _ (slot_ne_zero_of_capella hcap)
        (hpayload.trans hcap.symm) hnil default)
    exact hrec (recordedRoot_acceptingView sbr default)
  · rintro hne S v put order w rfl hacc
    obtain ⟨hchecks, hfork⟩ := submitBlock_eq_none hacc
    have hpayload := hfork.trans hcap
    have hdecode := harr hpayload
    cases hws : sbr.withdrawals with
    | some ws =>
        exact withdrawalsRoot_of_verifyWithdrawals hws (verifyWithdrawals_of_submitChecks hchecks)
    | none =>
        -- only a text leaves a list that is `nil`
        rw [hws] at hdecode
        cases e with
        | json value =>
            cases hdecode
            exact absurd rfl (hne hpayload)
        | ssz buf =>
            simp only [WithdrawalsEncoding.decode] at hdecode
            cases hbuf : unmarshalWithdrawals buf with
            | error err => simp [hbuf, Except.map] at hdecode
            | ok ws => simp [hbuf, Except.map] at hdecode

/-- A submission for the second slot of the Capella fork with a list of withdrawals. -/
def withdrawalsSubmission (ws : Option (List Withdrawal)) : SubmitBlockRequest :=
  submissionFor 65 fun p => .capella ⟨p, ws⟩

/-- An empty list that arrives as bytes is checked. -/
theorem checksWithdrawals_empty_ssz :
    (WithdrawalsEncoding.ssz []).decode = .ok (withdrawalsSubmission (some [])).withdrawals ∧
      ChecksWithdrawals ⟨0, 1, 2⟩ (withdrawalsSubmission (some [])) :=
  ⟨rfl, (checksWithdrawals_iff ⟨0, 1, 2⟩ (withdrawalsSubmission (some [])) (.ssz []) (by decide)
    fun _ => rfl).2 fun _ h => by cases h⟩

/-- A text without the list, with the head and the submission in Capella slots: the submission is
accepted although the recorded root is not that of an empty list. -/
theorem unchecked_missing_withdrawals :
    ∃ (v : SubmitView) (w : World),
      (WithdrawalsEncoding.json none).decode = .ok (withdrawalsSubmission none).withdrawals ∧
      (⟨0, 1, 2⟩ : ForkState).version v.headSlot = .capella ∧
      (⟨0, 1, 2⟩ : ForkState).version (withdrawalsSubmission none).slot = .capella ∧
      (submitBlock (acceptingSetup ⟨0, 1, 2⟩) v none Go.RangeOrder.stored w
        (withdrawalsSubmission none)).2 = none ∧
      v.recordedRoot ≠ default ∧
      (acceptingSetup ⟨0, 1, 2⟩).primitives.withdrawalsRoot [] ≠ .ok v.recordedRoot := by
  let root : Root := Vector.replicate 32 2
  have hzero : root ≠ default := fun h => by
    have h₀ := congrArg (fun r : Root => r[0]) h
    cases h₀
  have hones : onesRoot ≠ root := fun h => by
    have h₀ := congrArg (fun r : Root => r[0]) h
    cases h₀
  have hrec := recordedRoot_acceptingView (withdrawalsSubmission none) root
  refine ⟨acceptingView (withdrawalsSubmission none) root, ⟨fun _ => none, Auctioneer.new, []⟩, rfl,
    by decide, by decide, submitBlock_accepting_of_nil _ _ (by decide) (by decide) rfl root, ?_, ?_⟩
  · rw [hrec]
    exact hzero
  · rw [hrec]
    exact fun h => hones (Except.ok.inj h)

/-! ### The call as a run -/

/-- What a run of one call leads to. -/
def Reaches (S : SubmitRun.Setup) (w : World) (c : Call) (w' : World) (c' : Call) : Prop :=
  ∃ as, Runs.run (SubmitRun.step S) ⟨w, [c]⟩ as = some ⟨w', [c']⟩

theorem Reaches.refl (w : World) (c : Call) : Reaches S w c w c := ⟨[], rfl⟩

theorem Reaches.head {c c' d : Call} {w' : World} (act : CallAction) {effect : Effect}
    (hstep : c.step S act = some (c', effect)) (h : Reaches S (w.apply S effect) c' w' d) :
    Reaches S w c w' d := by
  obtain ⟨as, has⟩ := h
  refine ⟨.call 0 act :: as, (Runs.run_cons_eq_some _).2 ⟨⟨w.apply S effect, [c']⟩, ?_, has⟩⟩
  simp [SubmitRun.step, hstep]

theorem Reaches.trans {c d e : Call} {w' w'' : World} (h : Reaches S w c w' d)
    (h' : Reaches S w' d w'' e) : Reaches S w c w'' e := by
  obtain ⟨as, has⟩ := h
  obtain ⟨bs, hbs⟩ := h'
  exact ⟨as ++ bs, (Runs.run_append_eq_some _).2 ⟨_, has, hbs⟩⟩

/-- A call can be brought to an end with `result`, or past its checks. -/
def Ends (S : SubmitRun.Setup) (w : World) (c : Call) : Except GoError Unit → Prop
  | .error err => ∃ d, Reaches S w c w d ∧ d.stage = .returned (some err)
  | .ok () => ∃ d, Reaches S w c w d ∧ d.stage = .validated ∧ d.sbr = c.sbr

theorem Ends.head {c c' : Call} {result : Except GoError Unit} (act : CallAction)
    (hstep : c.step S act = some (c', .none)) (hsbr : c'.sbr = c.sbr) (h : Ends S w c' result) :
    Ends S w c result := by
  cases result with
  | error err =>
      obtain ⟨d, hd, hstage⟩ := h
      exact ⟨d, hd.head act hstep, hstage⟩
  | ok u =>
      obtain ⟨d, hd, hstage, hd'⟩ := h
      exact ⟨d, hd.head act hstep, hstage, hd'.trans hsbr⟩

/-- A call in front of its wait, whose goroutine has not reported yet. -/
structure SubmitRun.Call.Fresh (c : Call) : Prop where
  validation : c.validation = .running
  valErr : c.valErr = Go.Chan.make 1
  ctxErr : c.ctxErr = none

/-- The wait ends with the error of the context, or with the close of the channel. -/
theorem ends_waiting {c : Call} (hstage : c.stage = .waiting) (hc : c.Fresh)
    (err : Option GoError) :
    Ends S w c (match err with | some err => .error err | none => .ok ()) := by
  obtain ⟨sbr, stage, validation, valErr, ctxErr, log⟩ := c
  obtain ⟨rfl, rfl, rfl⟩ := hc
  subst hstage
  cases err with
  | some err =>
      exact ⟨_, .head (.cancel err) rfl (.head .ctxDone rfl (.refl _ _)), rfl⟩
  | none =>
      exact ⟨_, .head (.validate false none) rfl (.head .closeValErr rfl
        (.head .receive rfl (.refl _ _))), rfl, rfl⟩

/-- The checks of a call that is not disturbed are those of `submitChecks`. -/
theorem ends_submitChecks (S : SubmitRun.Setup) (v : SubmitView) (w : World)
    (sbr : SubmitBlockRequest) :
    Ends S w (Call.new sbr) (submitChecks S.primitives S.cfg v sbr) := by
  unfold submitChecks
  cases hblock : (verifyBlock v sbr).2 with
  | some err =>
      exact ⟨_, .head (.verifyBlock v) (by simp only [Call.step, Call.new, hblock]; rfl)
        (.refl _ _), rfl⟩
  | none =>
      refine Ends.head (.verifyBlock v) (by simp only [Call.step, Call.new, hblock]; rfl) ?_ ?_
      · rfl
      cases hreg : v.registration with
      | error err => exact ⟨_, .head (.checkRegistration (.error err)) rfl (.refl _ _), rfl⟩
      | ok gasLimit =>
          refine Ends.head (.checkRegistration (.ok gasLimit)) (by rfl) ?_ ?_
          · rfl
          cases hsig : verifySignature S.primitives S.cfg sbr (fun _ _ _ => v.enqueue) with
          | some err =>
              exact ⟨_, .head (.verifySignature v.enqueue)
                (by simp only [Call.step, Call.check, hsig]; rfl) (.refl _ _), rfl⟩
          | none =>
              refine Ends.head (.verifySignature v.enqueue)
                (by simp only [Call.step, Call.check, hsig]; rfl) ?_ ?_
              · rfl
              cases hw : (verifyWithdrawals S.primitives v sbr).2.2 with
              | some err =>
                  exact ⟨_, .head (.verifyWithdrawals v)
                    (by simp only [Call.step, Call.check, hw]; rfl) (.refl _ _), rfl⟩
              | none =>
                  refine Ends.head (.verifyWithdrawals v)
                    (by simp only [Call.step, Call.check, hw]; rfl) ?_ ?_
                  · rfl
                  cases v.validation with
                  | some err => exact ends_waiting rfl ⟨rfl, rfl, rfl⟩ (some err)
                  | none => exact ends_waiting rfl ⟨rfl, rfl, rfl⟩ none

/-- The error of `SubmitBlock` after `storeSubmission`. -/
def storeError : Except GoError Bool → Option GoError
  | .error err => some err
  | .ok _ => none

/-- A call that has its checks behind it ends as `storeSubmission` does. -/
theorem reaches_storeSubmission (S : SubmitRun.Setup) (put : Option GoError) (order : LoopOrder)
    (w : World) {c : Call} (hstage : c.stage = .validated) :
    ∃ d, Reaches S w c (storeSubmission S put order w c.sbr).1 d ∧
      d.stage = .returned (storeError (storeSubmission S put order w c.sbr).2) := by
  unfold storeSubmission
  cases hcontents : storeContents S.primitives S.cfg c.sbr with
  | error err =>
      exact ⟨_, .head (.putPayload none) (by simp only [Call.step, hstage, hcontents]; rfl)
        (.refl _ _), rfl⟩
  | ok contents =>
      obtain ⟨payload, header⟩ := contents
      cases put with
      | some err =>
          exact ⟨_, .head (.putPayload (some err))
            (by simp only [Call.step, hstage, hcontents]; rfl) (.refl _ _), rfl⟩
      | none =>
          cases hbid : bidExtended S.fork c.sbr header with
          | error err =>
              simp only [hbid]
              exact ⟨_, .head (.putPayload none)
                (by simp only [Call.step, hstage, hcontents]; rfl)
                (.head (.addBlock order) (by simp only [Call.step, Call.check, hbid]; rfl)
                  (.refl _ _)), rfl⟩
          | ok bid =>
              simp only [hbid]
              exact ⟨_, .head (.putPayload none)
                (by simp only [Call.step, hstage, hcontents]; rfl)
                (.head (.addBlock order) (by simp only [Call.step, Call.check, hbid]; rfl)
                  (.refl _ _)), rfl⟩

/-- **`submitBlock` is a run of the model with the goroutine**: one in which the call is not
disturbed by others. -/
theorem exists_run_submitBlock (S : SubmitRun.Setup) (v : SubmitView) (put : Option GoError)
    (order : LoopOrder) (w : World) (sbr : SubmitBlockRequest) :
    ∃ c, Reaches S w (Call.new sbr) (submitBlock S v put order w sbr).1 c ∧
      c.stage = .returned (submitBlock S v put order w sbr).2 := by
  have hends := ends_submitChecks S v w sbr
  unfold submitBlock
  cases hchecks : submitChecks S.primitives S.cfg v sbr with
  | error err =>
      rw [hchecks] at hends
      exact hends
  | ok u =>
      rw [hchecks] at hends
      obtain ⟨c, hc, hstage, hsbr⟩ := hends
      have hsbr : c.sbr = sbr := hsbr
      obtain ⟨d, hd, hd'⟩ := reaches_storeSubmission S put order w hstage
      rw [hsbr] at hd hd'
      cases hstore : storeSubmission S put order w sbr with
      | mk w' result =>
          rw [hstore] at hd hd'
          cases result with
          | error err => exact ⟨d, hc.trans hd, hd'⟩
          | ok newMax => exact ⟨d, hc.trans hd, hd'⟩

end Dreamboat
