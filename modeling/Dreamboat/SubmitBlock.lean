/-
**`SubmitBlock`: the checks of a submission and what is stored for it.**

A submission passes a row of checks (slot, time and randomness of the block, registration of the
proposer, signature, withdrawals, validation by simulation) before its payload is put into the
payload store and its bid into the auction.  What the beacon state, the other components and the
clock answer during one call is a record of its own; the beacon state is asked a second time, a
second later, where the code waits for a state that has not arrived yet.

Three keys are computed along the way: the payload is stored under a key taken from the bid trace,
and the bid carries a header from which the key of `GetHeader` is taken later.  They agree when the
check compares trace and payload; the branch that asks for the randomness a second time returns
before that comparison.

Main definitions:

* `SubmitView` — what a call observes;
* `verifyBlock`, `verifyWithdrawals`, `submitChecks` — the checks;
* `payloadToPayloadHeader`, `preparePayloadContents`, `bidExtended` — what is stored.

Main results:

* `traceBlockHash_eq_of_verifyBlock` — the check that is not repeated compares the two block hashes;
* `executionHeaderHash_of_prepare` — **the stored payload answers for the header of the bid**.
-/

import Dreamboat.VerificationManager

set_option autoImplicit false

namespace Dreamboat

/-! ### The checks -/

/-- What one call of `SubmitBlock` is answered by the beacon state, by the other components and by
the clock.  A second answer is that of the repeated question. -/
structure SubmitView where
  genesisTime : UInt64
  headSlot : UInt64
  /-- The randomness, empty where it is not known. -/
  randao : String
  randaoAgain : String
  /-- The root of the expected withdrawals, zero where it is not known. -/
  withdrawalsRoot : Root
  withdrawalsRootAgain : Root
  /-- The result of `checkRegistration`. -/
  registration : Except GoError UInt64
  /-- The result of `validateBlock`, or the error of the context if it ends first. -/
  validation : Option GoError
  /-- The result of `Enqueue`. -/
  enqueue : Option GoError

/-- `verifyBlock`: whether the beacon state was asked again, and the error. -/
def verifyBlock (v : SubmitView) (sbr : SubmitBlockRequest) : Bool × Option GoError :=
  let expectedTimestamp := v.genesisTime + sbr.slot * 12
  let maxSlot := v.headSlot + 1
  let minSlot := maxSlot - (UInt64.ofNat numberOfSlotsInState - 1)
  if sbr.slot = 0 then (false, some (.sentinel .errEmptyBlock))
  else if sbr.timestamp ≠ expectedTimestamp then
    (false, some (.wrapf .errInvalidTimestamp
      ("got " ++ toString sbr.timestamp ++ ", expected " ++ toString expectedTimestamp)))
  else if sbr.slot > maxSlot ∨ sbr.slot < minSlot then
    (false, some (.wrapf .errInvalidSlot
      ("got " ++ toString sbr.slot ++ ", expected slot in range [" ++ toString minSlot ++ "-" ++
        toString maxSlot ++ "]")))
  else if v.randao = "" ∨ v.randao ≠ hexString sbr.random then
    if v.randaoAgain = "" then
      (true, some (.new ("randao for slot " ++ toString sbr.slot ++ " not found")))
    else if v.randaoAgain ≠ hexString sbr.random then
      (true, some (.wrapf .errInvalidRandao
        ("got " ++ hexString sbr.random ++ ", expected " ++ v.randaoAgain)))
    else (true, none)
  else if sbr.value.bigInt = 0 ∧ sbr.numTx = 0 then (false, some (.sentinel .errZeroBid))
  else if sbr.blockHash ≠ sbr.traceBlockHash then (false, some (.sentinel .errTraceMismatch))
  else if sbr.parentHash ≠ sbr.traceParentHash then (false, some (.sentinel .errTraceMismatch))
  else (false, none)

/-- `verifyWithdrawals`: the root, whether the beacon state was asked again, and the error. -/
def verifyWithdrawals (P : Primitives) (v : SubmitView) (sbr : SubmitBlockRequest) :
    Root × Bool × Option GoError :=
  match sbr.withdrawals with
  | none => (default, false, none)
  | some withdrawals =>
      let retried := decide (v.withdrawalsRoot = default)
      let expected := if retried then v.withdrawalsRootAgain else v.withdrawalsRoot
      if expected = default then
        (default, retried,
          some (.new ("withdrawals for slot " ++ toString sbr.slot ++ " not found")))
      else
        match P.withdrawalsRoot withdrawals with
        | .error err =>
            (default, retried,
              some (.wrap ("failed to compute withdrawals root: " ++ err.error) err))
        | .ok root =>
            (root, retried,
              if expected ≠ root then
                some (.wrapf .errInvalidWithdrawalRoot
                  ("got " ++ hexString root ++ ", expected " ++ hexString expected))
              else none)

/-- The checks of `SubmitBlock`, in the order in which their errors are returned. -/
def submitChecks (P : Primitives) (cfg : RelayConfig) (v : SubmitView)
    (sbr : SubmitBlockRequest) : Except GoError Unit := do
  if let some err := (verifyBlock v sbr).2 then throw (.wrapf .errVerification err.error)
  let _ ← v.registration
  if let some err := verifySignature P cfg sbr (fun _ _ _ => v.enqueue) then throw err
  if let some err := (verifyWithdrawals P v sbr).2.2 then
    throw (.wrap ("failed to verify withdrawals: " ++ err.error) err)
  if let some err := v.validation then throw err

/-- Without the second question, the check compares the block hash of the trace with that of the
payload. -/
theorem traceBlockHash_eq_of_verifyBlock {v : SubmitView} {sbr : SubmitBlockRequest}
    (h : verifyBlock v sbr = (false, none)) : sbr.blockHash = sbr.traceBlockHash := by
  unfold verifyBlock at h
  by_contra hne
  simp only at h
  split_ifs at h
  all_goals simp_all

/-- A submission that passes the checks has passed `verifyBlock`. -/
theorem verifyBlock_of_submitChecks {P : Primitives} {cfg : RelayConfig} {v : SubmitView}
    {sbr : SubmitBlockRequest} (h : submitChecks P cfg v sbr = .ok ()) :
    (verifyBlock v sbr).2 = none := by
  unfold submitChecks at h
  cases hv : (verifyBlock v sbr).2 with
  | none => rfl
  | some err =>
      rw [hv] at h
      cases h

/-! ### What is stored -/

/-- The fields that a header copies from its payload. -/
def Bellatrix.header (p : Bellatrix.ExecutionPayload) (txroot : Root) :
    Bellatrix.ExecutionPayloadHeader where
  parentHash := p.epParentHash
  feeRecipient := p.epFeeRecipient
  stateRoot := p.epStateRoot
  receiptsRoot := p.epReceiptsRoot
  logsBloom := p.epLogsBloom
  random := p.epRandom
  blockNumber := p.epBlockNumber
  gasLimit := p.epGasLimit
  gasUsed := p.epGasUsed
  timestamp := p.epTimestamp
  extraData := p.epExtraData
  baseFeePerGas := p.epBaseFeePerGas
  blockHash := p.epBlockHash
  transactionsRoot := txroot

/-- The root of the withdrawals in a header; a list that is `nil` keeps the zero root. -/
def headerWithdrawalsRoot (P : Primitives) : Option (List Withdrawal) → Except GoError Root
  | none => .ok default
  | some withdrawals => P.withdrawalsRoot withdrawals

/-- `PayloadToPayloadHeader` of the two forks. -/
def payloadToPayloadHeader (P : Primitives) :
    ExecutionPayload → Except GoError ExecutionPayloadHeader
  | .bellatrix p => do
      let txroot ← P.transactionsRoot p.epTransactions
      return .bellatrix (Bellatrix.header p txroot)
  | .capella p => do
      let txroot ← P.transactionsRoot p.epTransactions
      let withdrawalsRoot ← headerWithdrawalsRoot P p.epWithdrawals
      return .capella ⟨Bellatrix.header p.toExecutionPayload txroot, withdrawalsRoot⟩

/-- `toSignedBuilderBid`. -/
def toSignedBuilderBid (P : Primitives) (cfg : RelayConfig) (sbr : SubmitBlockRequest) :
    Except GoError SignedBuilderBid := do
  let header ← payloadToPayloadHeader P sbr.executionPayload
  let builderBid : BuilderBid := ⟨header, sbr.value, cfg.pubKey⟩
  let signature ← P.signMessage builderBid cfg.builderSigningDomain cfg.secretKey
  return ⟨builderBid, signature⟩

/-- `PreparePayloadContents`: what is put into the payload store, and the header of the bid. -/
def preparePayloadContents (P : Primitives) (cfg : RelayConfig) (sbr : SubmitBlockRequest) :
    Except GoError (BlockAndTraceExtended × ExecutionPayloadHeader) := do
  let signed ← toSignedBuilderBid P cfg sbr
  match sbr.executionPayload with
  | .bellatrix p => return (.bellatrix ⟨sbr.message, sbr.signature⟩ signed p, signed.message.header)
  | .capella p =>
      match P.headerRoot signed.message.header with
      | .error err =>
          throw (.wrap ("failed to create BlockBidAndTrace: failed to calculate header hash: " ++
            err.error) err)
      | .ok root =>
          return (.capella p ⟨sbr.message, sbr.signature⟩ root, signed.message.header)

/-- The part of `storeSubmission` that comes before the first effect. -/
def storeContents (P : Primitives) (cfg : RelayConfig) (sbr : SubmitBlockRequest) :
    Except GoError (BlockAndTraceExtended × ExecutionPayloadHeader) :=
  match cfg.secretKey, preparePayloadContents P cfg sbr with
  | none, _ => .error (.sentinel .errMissingSecretKey)
  | some _, .error err =>
      .error (.wrap ("fail to generate contents from block submission: " ++ err.error) err)
  | some _, .ok contents => .ok contents

/-- `ExecutionHeaderHash` of a stored payload. -/
def BlockAndTraceExtended.executionHeaderHash (P : Primitives) :
    BlockAndTraceExtended → Except GoError Hash
  | .bellatrix _ bid _ => P.headerRoot bid.message.header
  | .capella _ _ root => .ok root

/-- `bidExtended`: the header must be of the fork of the slot. -/
def bidExtended (fork : ForkState) (sbr : SubmitBlockRequest) (header : ExecutionPayloadHeader) :
    Except GoError BuilderBidExtended :=
  match fork.version sbr.slot, header with
  | .bellatrix, .bellatrix _ => .ok ⟨⟨header, sbr.value, sbr.builderPubkey⟩, sbr.proposerPubkey,
      sbr.slot⟩
  | .bellatrix, .capella _ => .error (.new "failed to cast header to bellatrix")
  | .capella, .capella _ => .ok ⟨⟨header, sbr.value, sbr.builderPubkey⟩, sbr.proposerPubkey,
      sbr.slot⟩
  | .capella, .bellatrix _ => .error (.new "failed to cast header to capella")
  | .altair, _ => .error (.new ("unkown fork: " ++ toString 1))
  | .unknown, _ => .error (.new ("unkown fork: " ++ toString 0))

/-! ### The keys -/

section Keys

variable {P : Primitives} {cfg : RelayConfig} {sbr : SubmitBlockRequest}
  {bbt : BlockAndTraceExtended} {header : ExecutionPayloadHeader}

/-- A header has the block hash of its payload. -/
theorem getBlockHash_of_payloadToPayloadHeader {payload : ExecutionPayload}
    (h : payloadToPayloadHeader P payload = .ok header) :
    header.getBlockHash = payload.base.epBlockHash := by
  cases payload with
  | bellatrix p =>
      obtain ⟨txroot, -, h⟩ := exists_of_bind_eq_ok h
      cases h
      rfl
  | capella p =>
      obtain ⟨txroot, -, h⟩ := exists_of_bind_eq_ok h
      obtain ⟨withdrawalsRoot, -, h⟩ := exists_of_bind_eq_ok h
      cases h
      rfl

theorem getBlockHash_of_toSignedBuilderBid {signed : SignedBuilderBid}
    (h : toSignedBuilderBid P cfg sbr = .ok signed) :
    signed.message.header.getBlockHash = sbr.blockHash := by
  obtain ⟨header, hheader, h⟩ := exists_of_bind_eq_ok h
  obtain ⟨signature, -, h⟩ := exists_of_bind_eq_ok h
  cases h
  exact getBlockHash_of_payloadToPayloadHeader hheader

/-- **The stored payload answers for the header of the bid**, and the header is that of the
submitted payload. -/
theorem executionHeaderHash_of_prepare
    (h : preparePayloadContents P cfg sbr = .ok (bbt, header)) :
    bbt.executionHeaderHash P = P.headerRoot header ∧
      header.getBlockHash = sbr.blockHash ∧
      bbt.trace.message = sbr.message ∧ bbt.executionPayload = sbr.executionPayload := by
  obtain ⟨signed, hsigned, h⟩ := exists_of_bind_eq_ok h
  have hhash := getBlockHash_of_toSignedBuilderBid hsigned
  split at h
  · next p hp =>
      cases h
      exact ⟨rfl, hhash, rfl, hp.symm⟩
  · next p hp =>
      split at h
      · cases h
      · next root hroot =>
          cases h
          exact ⟨hroot.symm, hhash, rfl, hp.symm⟩

theorem preparePayloadContents_of_storeContents
    (h : storeContents P cfg sbr = .ok (bbt, header)) :
    preparePayloadContents P cfg sbr = .ok (bbt, header) := by
  unfold storeContents at h
  split at h
  · cases h
  · cases h
  · next hprep =>
      cases h
      exact hprep

/-- The bid carries the header, and its key is that of the header and of the trace. -/
theorem payloadKey_of_bidExtended {fork : ForkState} {bid : BuilderBidExtended}
    (h : bidExtended fork sbr header = .ok bid) :
    bid.builderBid.header = header ∧
      bid.payloadKey = ⟨header.getBlockHash, sbr.proposerPubkey, sbr.slot⟩ := by
  unfold bidExtended at h
  split at h
  all_goals first
    | cases h
      exact ⟨rfl, rfl⟩
    | cases h

end Keys

end Dreamboat
