/-
**`GetPayload`: the pieces of a delivery.**

A proposer that has signed a blinded block sends it back and asks for the payload.  `GetPayload`
checks the time and the signature, finds the payload under the key of the blinded block, compares
the root of its header with the one that was signed, publishes the block, and only then looks at
`lastDelivered`, the last slot and block hash a payload was handed out for.

This module has the sequential pieces.  How they interleave between concurrent calls is the matter
of `Dreamboat/Delivery.lean`.

Main definitions:

* `SignedBlindedBeaconBlock` — the request;
* `PayloadView` — what a call observes;
* `payloadRequestKey` — the checks up to the key;
* `validatePayload` — the comparison of the header roots;
* `LastDelivered`, `guard` — the guard on what was delivered last;
* `payloadResponse` — the answer.
-/

import Dreamboat.SubmitBlock

set_option autoImplicit false

namespace Dreamboat

/-! ### Blinded blocks -/

/-- The body of a blinded block with headers of the type `H`.  Pointers that may be `nil` are
options; the other parts are in `rest`, as they are encoded. -/
structure BlindedBeaconBlockBody (H : Type) where
  hasEth1Data : Bool
  hasSyncAggregate : Bool
  executionPayloadHeader : Option H
  rest : List UInt8
  deriving DecidableEq, Repr

structure BlindedBeaconBlock (H : Type) where
  slot : UInt64
  proposerIndex : UInt64
  parentRoot : Root
  stateRoot : Root
  body : Option (BlindedBeaconBlockBody H)
  deriving DecidableEq, Repr

/-- The interface over the signed blinded blocks of the forks. -/
inductive SignedBlindedBeaconBlock where
  | bellatrix (signature : Signature)
      (message : BlindedBeaconBlock Bellatrix.ExecutionPayloadHeader)
  | capella (signature : Signature) (message : BlindedBeaconBlock Capella.ExecutionPayloadHeader)
  deriving DecidableEq, Repr

namespace SignedBlindedBeaconBlock

def signature : SignedBlindedBeaconBlock → Signature
  | bellatrix signature _ => signature
  | capella signature _ => signature

def slot : SignedBlindedBeaconBlock → UInt64
  | bellatrix _ message => message.slot
  | capella _ message => message.slot

def proposerIndex : SignedBlindedBeaconBlock → UInt64
  | bellatrix _ message => message.proposerIndex
  | capella _ message => message.proposerIndex

/-- The header, if the body and the header are there. -/
def header : SignedBlindedBeaconBlock → Option ExecutionPayloadHeader
  | bellatrix _ message => message.body.bind fun body =>
      body.executionPayloadHeader.map .bellatrix
  | capella _ message => message.body.bind fun body =>
      body.executionPayloadHeader.map .capella

/-- The body has all the parts that the signing root is computed from. -/
def isComplete : SignedBlindedBeaconBlock → Bool
  | bellatrix _ message => message.body.any fun body =>
      body.hasEth1Data && body.hasSyncAggregate && body.executionPayloadHeader.isSome
  | capella _ message => message.body.any fun body =>
      body.hasEth1Data && body.hasSyncAggregate && body.executionPayloadHeader.isSome

def blockHash (b : SignedBlindedBeaconBlock) : Hash :=
  (b.header.map ExecutionPayloadHeader.getBlockHash).getD default

def executionHeaderHash (P : Primitives) (b : SignedBlindedBeaconBlock) : Except GoError Hash :=
  match b.header with
  | none => .ok default
  | some header => P.headerRoot header

def toPayloadKey (b : SignedBlindedBeaconBlock) (pk : PublicKey) : Except GoError PayloadKey :=
  match b.header with
  | none => .error (.new "wrong payload key")
  | some header => .ok ⟨header.getBlockHash, pk, b.slot⟩

/-- `ToBeaconBlock` takes a payload of its own fork only. -/
def toBeaconBlock : SignedBlindedBeaconBlock → ExecutionPayload → Except GoError ExecutionPayload
  | bellatrix _ _, .bellatrix p => .ok (.bellatrix p)
  | bellatrix _ _, .capella _ => .error (.new "ExecutionPayload is not bellatrix")
  | capella _ _, .capella p => .ok (.capella p)
  | capella _ _, .bellatrix _ => .error (.new "ExecutionPayload is not Capella")

end SignedBlindedBeaconBlock

/-! ### Up to the payload -/

/-- What a call of `GetPayload` observes before it looks for the payload: the clock and the beacon
state, the validators, and the functions for signatures. -/
structure PayloadView where
  beacon : BeaconView
  /-- The key of a known validator, parsed from its text. -/
  knownValidator : UInt64 → Option (Except GoError PublicKey)
  proposerSigningDomain : ForkVersion → Domain
  signingRoot : SignedBlindedBeaconBlock → Domain → Except GoError Hash
  verifySignatureBytes : Verify.VerifySignatureBytes

/-- `ComputeSigningRoot` of a blinded block. -/
def PayloadView.computeSigningRoot (v : PayloadView) (request : SignedBlindedBeaconBlock)
    (d : Domain) : Except GoError Hash :=
  if request.isComplete then v.signingRoot request d else .error (.new "empty block body")

/-- The checks of `GetPayload` up to the key of the payload. -/
def payloadRequestKey (cfg : RelayConfig) (v : PayloadView) (request : SignedBlindedBeaconBlock) :
    Except GoError PayloadKey := do
  if v.beacon.msIntoSlot request.slot > cfg.getPayloadRequestTimeLimit then
    throw (.sentinel .errLateRequest)
  match v.knownValidator request.proposerIndex with
  | none =>
      throw (.wrap (Sentinel.errUnknownValidator.text ++ " for index " ++
        toString request.proposerIndex) (.sentinel .errUnknownValidator))
  | some parsed =>
      let pk ← parsed
      let forkv := v.beacon.fork.version request.slot
      match v.computeSigningRoot request (v.proposerSigningDomain forkv) with
      | .error _ => throw (.sentinel .errInvalidSignature)
      | .ok msg =>
          match v.verifySignatureBytes msg request.signature pk with
          | (true, none) =>
              match request.toPayloadKey pk with
              | .error _ => throw (.sentinel .errNoPayloadFound)
              | .ok key => return key
          | _ => throw (.sentinel .errInvalidSignature)

/-- The payload of a key: from the cache, or else from the store. -/
def findPayload (cache store : PayloadKey → Option BlockAndTraceExtended) (key : PayloadKey) :
    Except GoError BlockAndTraceExtended :=
  match (cache key).or (store key) with
  | none => .error (.sentinel .errNoPayloadFound)
  | some payload => .ok payload

/-- `validatePayload`. -/
def validatePayload (P : Primitives) (expected : BlockAndTraceExtended)
    (requested : SignedBlindedBeaconBlock) : Option GoError :=
  match expected.executionHeaderHash P with
  | .error err => some (.wrap ("failed to read expected header hash: " ++ err.error) err)
  | .ok have' =>
      match requested.executionHeaderHash P with
      | .error err => some (.wrap ("failed to read requested header hash: " ++ err.error) err)
      | .ok got =>
          if have' ≠ got then
            some (.wrapf .errInvalidExecutionPayload
              ("expected " ++ hexString have' ++ ", received " ++ hexString got))
          else none

/-! ### The guard and the answer -/

/-- The slot and the block hash of the last delivery. -/
structure LastDelivered where
  slot : UInt64
  blockHash : Hash
  deriving DecidableEq, Inhabited, Repr

/-- What a request would be recorded as. -/
def SignedBlindedBeaconBlock.delivery (b : SignedBlindedBeaconBlock) : LastDelivered :=
  ⟨b.slot, b.blockHash⟩

/-- What the guard makes of the value it has loaded: the request is recorded, it is a repetition, or
it is rejected. -/
inductive Guard where
  | record
  | again
  | reject (err : Sentinel)
  deriving DecidableEq, Repr

def guard (last : LastDelivered) (request : LastDelivered) : Guard :=
  if last.slot < request.slot then .record
  else if last.slot = request.slot ∧ last.blockHash ≠ request.blockHash then
    .reject .errPayloadDiffBlockHash
  else if last.slot = request.slot ∧ last.blockHash = request.blockHash then .again
  else if last.slot > request.slot then .reject .errHigherSlotDelivered
  else .again

structure GetPayloadResponse where
  version : String
  data : ExecutionPayload
  deriving DecidableEq, Repr

/-- The answer with a payload; `none` is the panic of a type assertion that fails. -/
def payloadResponse (fork : ForkVersion) (payload : ExecutionPayload) :
    Option (Except GoError GetPayloadResponse) :=
  match fork, payload with
  | .bellatrix, .bellatrix p => some (.ok ⟨"bellatrix", .bellatrix p⟩)
  | .bellatrix, .capella _ => none
  | .capella, .capella p => some (.ok ⟨"capella", .capella p⟩)
  | .capella, .bellatrix _ => none
  | .altair, _ => some (.error (.new "unknown fork"))
  | .unknown, _ => some (.error (.new "unknown fork"))

/-- The guard records what is newer. -/
theorem guard_eq_record_iff {last request : LastDelivered} :
    guard last request = .record ↔ last.slot < request.slot := by
  unfold guard
  split_ifs <;> simp_all

/-- The guard takes a request for a repetition exactly when it is the last delivery. -/
theorem guard_eq_again_iff {last request : LastDelivered} :
    guard last request = .again ↔ last = request := by
  constructor
  · intro h
    unfold guard at h
    split_ifs at h with hlt hdiff hsame hgt
    · cases last
      cases request
      simp_all
    · -- one of the comparisons holds
      have hslot := UInt64.le_antisymm (UInt64.not_lt.1 hgt) (UInt64.not_lt.1 hlt)
      by_cases hhash : last.blockHash = request.blockHash
      · exact absurd ⟨hslot, hhash⟩ hsame
      · exact absurd ⟨hslot, hhash⟩ hdiff
  · rintro rfl
    simp [guard, UInt64.lt_irrefl]

/-- The guard accepts what is newer than the last delivery or repeats it. -/
def LastDelivered.Accepts (last request : LastDelivered) : Prop :=
  last.slot < request.slot ∨ last = request

instance (last request : LastDelivered) : Decidable (last.Accepts request) :=
  inferInstanceAs (Decidable (_ ∨ _))

theorem guard_ne_reject_of_accepts {last request : LastDelivered} (h : last.Accepts request)
    (err : Sentinel) : guard last request ≠ .reject err := by
  rcases h with h | h
  · rw [guard_eq_record_iff.2 h]
    exact fun h => by cases h
  · rw [guard_eq_again_iff.2 h]
    exact fun h => by cases h

end Dreamboat
