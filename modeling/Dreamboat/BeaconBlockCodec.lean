/-
**The form in which a block is published.**

`SignedBeaconBlock` of both forks is written as SSZ by hand: the signed block, the block, its body
and the payload are four containers, one within the other, and the body has lists with offsets of
their own (`src/structs/forks/bellatrix/bellatrix.go`, `src/structs/forks/capella/capella.go`).  An
offset is a running sum that starts with a constant, the size of the fixed part.

The forks have the same signed block and block.  Their bodies differ in the payload and in one more
list of the later fork.  The types of `go-boost-utils` write as many bytes as their `SizeSSZ` says,
and nothing more is known of them.

The constant of the payload of the earlier fork is the one of the later fork, whose fixed part has
one offset more.  So in every block of the earlier fork the offsets of the payload are too high by
four, although `SizeSSZ` has the right constant.

Main definitions:

* `Encoder`, `BoostTypes` — the types that are not part of the repository;
* `BeaconBlockBody.marshalOffsets`, `BeaconBlockBody.marshalFields` — the two halves of the writer
  of a body;
* `SignedBeaconBlock.marshalSSZTo`, `SignedBeaconBlock.sizeSSZ` — the writers of both forks;
* `SignedBeaconBlock.OffsetsRight` — every offset points to its field.

Main results:

* `SignedBeaconBlock.length_marshalSSZTo` — `SizeSSZ` is the number of bytes;
* `SignedBeaconBlock.offsetsRight_iff` — **every offset points to its field exactly in the later
  fork**.
-/

import Dreamboat.PayloadCodec
import Dreamboat.SszLayout

set_option autoImplicit false

namespace Dreamboat

open Ssz (writeOffset writeOffsets writeList uint64Bytes layOut Field OffsetsPoint)
open SszError

/-! ### Types that are not part of the repository -/

/-- An encoder of `go-boost-utils`: what it appends for a value has the size of the value. -/
structure Encoder (α : Type) where
  encode : α → Except GoError (List UInt8)
  sizeSSZ : α → ℕ
  length_encode : ∀ {x b}, encode x = .ok b → b.length = sizeSSZ x

namespace Encoder

variable {α : Type}

def marshalSSZTo (E : Encoder α) (x : α) (buf : List UInt8) : Except GoError (List UInt8) :=
  (E.encode x).map (buf ++ ·)

end Encoder

/-- The types of `go-boost-utils` in a body, with the sizes of those that have a fixed one. -/
structure BoostTypes where
  Eth1Data : Type
  SyncAggregate : Type
  ProposerSlashing : Type
  AttesterSlashing : Type
  Attestation : Type
  Deposit : Type
  SignedVoluntaryExit : Type
  eth1Data : Encoder Eth1Data
  syncAggregate : Encoder SyncAggregate
  proposerSlashing : Encoder ProposerSlashing
  attesterSlashing : Encoder AttesterSlashing
  attestation : Encoder Attestation
  deposit : Encoder Deposit
  voluntaryExit : Encoder SignedVoluntaryExit
  newEth1Data : Eth1Data
  newSyncAggregate : SyncAggregate
  size_eth1Data : ∀ x, eth1Data.sizeSSZ x = 72
  size_syncAggregate : ∀ x, syncAggregate.sizeSSZ x = 160
  size_proposerSlashing : ∀ x, proposerSlashing.sizeSSZ x = 416
  size_deposit : ∀ x, deposit.sizeSSZ x = 1240
  size_voluntaryExit : ∀ x, voluntaryExit.sizeSSZ x = 112

/-! ### Lists -/

section

variable {α : Type}

/-- The limit of a list and the loop that appends its elements. -/
def appendList (name : String) (max : ℕ)
    (marshalSSZTo : α → List UInt8 → Except GoError (List UInt8)) (xs : List α)
    (dst : List UInt8) : Except GoError (List UInt8) :=
  if xs.length > max then .error (errListTooBigFn name xs.length max)
  else xs.foldlM (fun dst x => marshalSSZTo x dst) dst

/-- The loop that writes the offsets of elements of the given sizes. -/
def writeSizeOffsets : ℕ → List ℕ → List UInt8
  | _, [] => []
  | offset, size :: sizes => writeOffset offset ++ writeSizeOffsets (offset + size) sizes

/-- The same for a list of variable elements: the offsets come first. -/
def appendDynamicList (name : String) (max : ℕ) (E : Encoder α) (xs : List α)
    (dst : List UInt8) : Except GoError (List UInt8) :=
  if xs.length > max then .error (errListTooBigFn name xs.length max)
  else
    let dst := dst ++ writeSizeOffsets (4 * xs.length) (xs.map E.sizeSSZ)
    xs.foldlM (fun dst x => E.marshalSSZTo x dst) dst

end

/-! ### The body -/

/-- The fields that the bodies of both forks have; `none` is a pointer that is `nil`. -/
structure BeaconBlockBody (B : BoostTypes) (P : Type) where
  randaoReveal : Signature
  eth1Data : Option B.Eth1Data
  graffiti : Hash
  proposerSlashings : List B.ProposerSlashing
  attesterSlashings : List B.AttesterSlashing
  attestations : List B.Attestation
  deposits : List B.Deposit
  voluntaryExits : List B.SignedVoluntaryExit
  syncAggregate : Option B.SyncAggregate
  executionPayload : Option P

namespace BeaconBlockBody

variable {B : BoostTypes} {P : Type}

/-- The first half of `MarshalSSZTo`: the fixed part with the offsets, the first one at `offset`.
The offset behind the payload goes with it. -/
def marshalOffsets (offset payloadSize : ℕ) (b : BeaconBlockBody B P) (buf : List UInt8) :
    Except GoError (List UInt8 × ℕ) := do
  let dst := buf ++ b.randaoReveal.toList
  let dst ← B.eth1Data.marshalSSZTo (b.eth1Data.getD B.newEth1Data) dst
  let dst := dst ++ b.graffiti.toList
  -- offset (3) `ProposerSlashings`
  let dst := dst ++ writeOffset offset
  let offset := offset + b.proposerSlashings.length * 416
  -- offset (4) `AttesterSlashings`
  let dst := dst ++ writeOffset offset
  let offset := offset + (b.attesterSlashings.map fun x => 4 + B.attesterSlashing.sizeSSZ x).sum
  -- offset (5) `Attestations`
  let dst := dst ++ writeOffset offset
  let offset := offset + (b.attestations.map fun x => 4 + B.attestation.sizeSSZ x).sum
  -- offset (6) `Deposits`
  let dst := dst ++ writeOffset offset
  let offset := offset + b.deposits.length * 1240
  -- offset (7) `VoluntaryExits`
  let dst := dst ++ writeOffset offset
  let offset := offset + b.voluntaryExits.length * 112
  let dst ← B.syncAggregate.marshalSSZTo (b.syncAggregate.getD B.newSyncAggregate) dst
  -- offset (9) `ExecutionPayload`
  let dst := dst ++ writeOffset offset
  return (dst, offset + payloadSize)

/-- The second half: the fields behind the fixed part, up to the payload. -/
def marshalFields (marshalPayload : List UInt8 → Except GoError (List UInt8))
    (b : BeaconBlockBody B P) (dst : List UInt8) : Except GoError (List UInt8) := do
  let dst ← appendList "BeaconBlockBody.ProposerSlashings" 16 B.proposerSlashing.marshalSSZTo
    b.proposerSlashings dst
  let dst ← appendDynamicList "BeaconBlockBody.AttesterSlashings" 2 B.attesterSlashing
    b.attesterSlashings dst
  let dst ← appendDynamicList "BeaconBlockBody.Attestations" 128 B.attestation b.attestations dst
  let dst ← appendList "BeaconBlockBody.Deposits" 16 B.deposit.marshalSSZTo b.deposits dst
  let dst ← appendList "BeaconBlockBody.VoluntaryExits" 16 B.voluntaryExit.marshalSSZTo
    b.voluntaryExits dst
  marshalPayload dst

/-- The sum that both bodies make, up to the payload. -/
def fieldsSize (size : ℕ) (b : BeaconBlockBody B P) : ℕ :=
  size + b.proposerSlashings.length * 416 +
    (b.attesterSlashings.map fun x => 4 + B.attesterSlashing.sizeSSZ x).sum +
    (b.attestations.map fun x => 4 + B.attestation.sizeSSZ x).sum + b.deposits.length * 1240 +
    b.voluntaryExits.length * 112

end BeaconBlockBody

namespace Bellatrix

namespace ExecutionPayload

def sizeSSZ (e : ExecutionPayload) : ℕ :=
  508 + e.epExtraData.length + (e.epTransactions.map fun tx => 4 + tx.length).sum

def marshalSSZTo (e : ExecutionPayload) (buf : List UInt8) : Except GoError (List UInt8) :=
  let offset := 512
  let dst := buf ++ e.epParentHash.toList ++ e.epFeeRecipient.toList ++ e.epStateRoot.toList ++
    e.epReceiptsRoot.toList ++ e.epLogsBloom.toList ++ e.epRandom.toList ++
    uint64Bytes e.epBlockNumber ++ uint64Bytes e.epGasLimit ++ uint64Bytes e.epGasUsed ++
    uint64Bytes e.epTimestamp
  -- offset (10) `ExtraData`
  let dst := dst ++ writeOffset offset
  let offset := offset + e.epExtraData.length
  let dst := dst ++ e.epBaseFeePerGas.bytes.toList ++ e.epBlockHash.toList
  -- offset (13) `Transactions`
  let dst := dst ++ writeOffset offset
  if e.epExtraData.length > 32 then
    .error (errBytesLengthFn "ExecutionPayload.ExtraData" e.epExtraData.length 32)
  else
    let dst := dst ++ e.epExtraData
    if e.epTransactions.length > 1048576 then
      .error (errListTooBigFn "ExecutionPayload.Transactions" e.epTransactions.length 1048576)
    else
      let dst := dst ++ writeOffsets (4 * e.epTransactions.length) e.epTransactions
      Capella.ExecutionPayload.appendTransactions e.epTransactions dst

end ExecutionPayload

abbrev BeaconBlockBody (B : BoostTypes) := Dreamboat.BeaconBlockBody B ExecutionPayload

namespace BeaconBlockBody

variable {B : BoostTypes}

/-- The payload, a new one where there is none. -/
def payload (b : BeaconBlockBody B) : ExecutionPayload := b.executionPayload.getD default

def marshalSSZTo (b : BeaconBlockBody B) (buf : List UInt8) : Except GoError (List UInt8) := do
  let (dst, _) ← b.marshalOffsets 384 (payload b).sizeSSZ buf
  b.marshalFields (payload b).marshalSSZTo dst

def sizeSSZ (b : BeaconBlockBody B) : ℕ := b.fieldsSize 384 + (payload b).sizeSSZ

end BeaconBlockBody

end Bellatrix

namespace Capella

/-! ### Changes of withdrawal credentials -/

structure BLSToExecutionChange where
  validatorIndex : UInt64
  fromBLSPubkey : PublicKey
  toExecutionAddress : Address
  deriving DecidableEq, Inhabited, Repr

def BLSToExecutionChange.marshalSSZTo (b : BLSToExecutionChange) (buf : List UInt8) :
    Except GoError (List UInt8) :=
  .ok (buf ++ uint64Bytes b.validatorIndex ++ b.fromBLSPubkey.toList ++ b.toExecutionAddress.toList)

structure SignedBLSToExecutionChange where
  message : Option BLSToExecutionChange
  signature : Signature
  deriving DecidableEq, Inhabited, Repr

def SignedBLSToExecutionChange.marshalSSZTo (s : SignedBLSToExecutionChange) (buf : List UInt8) :
    Except GoError (List UInt8) := do
  let dst ← (s.message.getD default).marshalSSZTo buf
  return dst ++ s.signature.toList

structure BeaconBlockBody (B : BoostTypes) extends
    Dreamboat.BeaconBlockBody B ExecutionPayload where
  blsToExecutionChanges : List SignedBLSToExecutionChange

namespace BeaconBlockBody

variable {B : BoostTypes}

/-- The payload, a new one where there is none. -/
def payload (b : BeaconBlockBody B) : ExecutionPayload := b.executionPayload.getD default

/-- The offset of the changes is the last one of the fixed part, the changes are the last field. -/
def marshalSSZTo (b : BeaconBlockBody B) (buf : List UInt8) : Except GoError (List UInt8) := do
  let (dst, offset) ← b.marshalOffsets 388 (payload b).sizeSSZ buf
  -- offset (10) `BLSToExecutionChanges`
  let dst := dst ++ writeOffset offset
  let dst ← b.marshalFields (payload b).marshalSSZTo dst
  appendList "BeaconBlockBody.BLSToExecutionChanges" 16 SignedBLSToExecutionChange.marshalSSZTo
    b.blsToExecutionChanges dst

def sizeSSZ (b : BeaconBlockBody B) : ℕ :=
  b.fieldsSize 388 + (payload b).sizeSSZ + b.blsToExecutionChanges.length * 172

end BeaconBlockBody

end Capella

/-! ### The block -/

/-- `BeaconBlock`, the same in both forks but for the type of the body. -/
structure BeaconBlock (Body : Type) where
  slot : UInt64
  proposerIndex : UInt64
  parentRoot : Root
  stateRoot : Root
  body : Option Body

/-- `SignedBeaconBlock` of one fork. -/
structure SignedBlock (Body : Type) where
  message : Option (BeaconBlock Body)
  signature : Signature

section

variable {Body : Type} [Inhabited Body]

instance : Inhabited (BeaconBlock Body) := ⟨⟨default, default, default, default, none⟩⟩

/-- The body, a new one where there is none. -/
def BeaconBlock.getBody (b : BeaconBlock Body) : Body := b.body.getD default

def BeaconBlock.marshalSSZTo (marshalBody : Body → List UInt8 → Except GoError (List UInt8))
    (b : BeaconBlock Body) (buf : List UInt8) : Except GoError (List UInt8) :=
  let dst := buf ++ uint64Bytes b.slot ++ uint64Bytes b.proposerIndex ++ b.parentRoot.toList ++
    b.stateRoot.toList
  let dst := dst ++ writeOffset 84
  marshalBody b.getBody dst

def BeaconBlock.sizeSSZ (sizeBody : Body → ℕ) (b : BeaconBlock Body) : ℕ := 84 + sizeBody b.getBody

/-- The block, a new one where there is none. -/
def SignedBlock.getMessage (s : SignedBlock Body) : BeaconBlock Body := s.message.getD default

def SignedBlock.marshalSSZTo (marshalBody : Body → List UInt8 → Except GoError (List UInt8))
    (s : SignedBlock Body) (buf : List UInt8) : Except GoError (List UInt8) :=
  let dst := buf ++ writeOffset 100
  let dst := dst ++ s.signature.toList
  s.getMessage.marshalSSZTo marshalBody dst

def SignedBlock.sizeSSZ (sizeBody : Body → ℕ) (s : SignedBlock Body) : ℕ :=
  100 + s.getMessage.sizeSSZ sizeBody

end

instance (B : BoostTypes) (P : Type) : Inhabited (BeaconBlockBody B P) :=
  ⟨⟨default, none, default, [], [], [], [], [], none, none⟩⟩

instance (B : BoostTypes) : Inhabited (Capella.BeaconBlockBody B) := ⟨⟨default, []⟩⟩

/-- The interface over the blocks of the forks. -/
inductive SignedBeaconBlock (B : BoostTypes) where
  | bellatrix (s : SignedBlock (Bellatrix.BeaconBlockBody B))
  | capella (s : SignedBlock (Capella.BeaconBlockBody B))

namespace SignedBeaconBlock

variable {B : BoostTypes}

/-- The fork whose type a block has. -/
def fork : SignedBeaconBlock B → ForkVersion
  | bellatrix _ => .bellatrix
  | capella _ => .capella

def marshalSSZTo : SignedBeaconBlock B → List UInt8 → Except GoError (List UInt8)
  | bellatrix s => s.marshalSSZTo Bellatrix.BeaconBlockBody.marshalSSZTo
  | capella s => s.marshalSSZTo Capella.BeaconBlockBody.marshalSSZTo

def sizeSSZ : SignedBeaconBlock B → ℕ
  | bellatrix s => s.sizeSSZ Bellatrix.BeaconBlockBody.sizeSSZ
  | capella s => s.sizeSSZ Capella.BeaconBlockBody.sizeSSZ

end SignedBeaconBlock

/-! ### Where the fields stand -/

namespace Capella.ExecutionPayload

/-- The fields of a payload, in the order of the fixed part. -/
def layout (e : ExecutionPayload) : List Field :=
  [.fixed e.epParentHash.toList, .fixed e.epFeeRecipient.toList, .fixed e.epStateRoot.toList,
    .fixed e.epReceiptsRoot.toList, .fixed e.epLogsBloom.toList, .fixed e.epRandom.toList,
    .fixed (uint64Bytes e.epBlockNumber), .fixed (uint64Bytes e.epGasLimit),
    .fixed (uint64Bytes e.epGasUsed), .fixed (uint64Bytes e.epTimestamp), .dynamic e.epExtraData,
    .fixed e.epBaseFeePerGas.bytes.toList, .fixed e.epBlockHash.toList,
    .dynamic (writeList e.epTransactions),
    .dynamic ((e.epWithdrawals.getD []).flatMap Withdrawal.encode)]

/-- The offsets of the payload and of its transactions point to their fields. -/
def OffsetsRight (e : ExecutionPayload) (out : List UInt8) : Prop :=
  OffsetsPoint e.layout out ∧
    OffsetsPoint (e.epTransactions.map .dynamic) (writeList e.epTransactions)

end Capella.ExecutionPayload

namespace Bellatrix.ExecutionPayload

/-- The fields of a payload, in the order of the fixed part. -/
def layout (e : ExecutionPayload) : List Field :=
  [.fixed e.epParentHash.toList, .fixed e.epFeeRecipient.toList, .fixed e.epStateRoot.toList,
    .fixed e.epReceiptsRoot.toList, .fixed e.epLogsBloom.toList, .fixed e.epRandom.toList,
    .fixed (uint64Bytes e.epBlockNumber), .fixed (uint64Bytes e.epGasLimit),
    .fixed (uint64Bytes e.epGasUsed), .fixed (uint64Bytes e.epTimestamp), .dynamic e.epExtraData,
    .fixed e.epBaseFeePerGas.bytes.toList, .fixed e.epBlockHash.toList,
    .dynamic (writeList e.epTransactions)]

/-- The offsets of the payload and of its transactions point to their fields. -/
def OffsetsRight (e : ExecutionPayload) (out : List UInt8) : Prop :=
  OffsetsPoint e.layout out ∧
    OffsetsPoint (e.epTransactions.map .dynamic) (writeList e.epTransactions)

end Bellatrix.ExecutionPayload

namespace BeaconBlockBody

variable {B : BoostTypes} {P : Type}

/-- The bytes of the fields of a body, and of the elements of the lists that have offsets. -/
structure Chunks where
  eth1Data : List UInt8
  syncAggregate : List UInt8
  proposerSlashings : List UInt8
  attesterSlashings : List UInt8
  attestations : List UInt8
  deposits : List UInt8
  voluntaryExits : List UInt8
  payload : List UInt8
  attesterSlashing : List (List UInt8)
  attestation : List (List UInt8)

/-- The bytes are those that the writers of the fields write. -/
structure Chunks.Of (marshalPayload : List UInt8 → Except GoError (List UInt8))
    (b : BeaconBlockBody B P) (c : Chunks) : Prop where
  eth1Data : B.eth1Data.encode (b.eth1Data.getD B.newEth1Data) = .ok c.eth1Data
  syncAggregate : B.syncAggregate.encode (b.syncAggregate.getD B.newSyncAggregate) =
    .ok c.syncAggregate
  proposerSlashings : appendList "BeaconBlockBody.ProposerSlashings" 16
    B.proposerSlashing.marshalSSZTo b.proposerSlashings [] = .ok c.proposerSlashings
  attesterSlashings : appendDynamicList "BeaconBlockBody.AttesterSlashings" 2 B.attesterSlashing
    b.attesterSlashings [] = .ok c.attesterSlashings
  attestations : appendDynamicList "BeaconBlockBody.Attestations" 128 B.attestation
    b.attestations [] = .ok c.attestations
  deposits : appendList "BeaconBlockBody.Deposits" 16 B.deposit.marshalSSZTo b.deposits [] =
    .ok c.deposits
  voluntaryExits : appendList "BeaconBlockBody.VoluntaryExits" 16 B.voluntaryExit.marshalSSZTo
    b.voluntaryExits [] = .ok c.voluntaryExits
  payload : marshalPayload [] = .ok c.payload
  attesterSlashing : List.Forall₂ (fun x bytes => B.attesterSlashing.encode x = .ok bytes)
    b.attesterSlashings c.attesterSlashing
  attestation : List.Forall₂ (fun x bytes => B.attestation.encode x = .ok bytes) b.attestations
    c.attestation

/-- The fields of a body, in the order of the fixed part; `more` are those of one fork only. -/
def Chunks.layout (b : BeaconBlockBody B P) (c : Chunks) (more : List Field) : List Field :=
  [.fixed b.randaoReveal.toList, .fixed c.eth1Data, .fixed b.graffiti.toList,
    .dynamic c.proposerSlashings, .dynamic c.attesterSlashings, .dynamic c.attestations,
    .dynamic c.deposits, .dynamic c.voluntaryExits, .fixed c.syncAggregate, .dynamic c.payload] ++
    more

/-- The offsets of a body, of its lists and of its payload point to their fields. -/
def OffsetsRight (marshalPayload : List UInt8 → Except GoError (List UInt8))
    (payloadRight : List UInt8 → Prop) (b : BeaconBlockBody B P) (more : List Field)
    (out : List UInt8) : Prop :=
  ∃ c : Chunks, c.Of marshalPayload b ∧ OffsetsPoint (c.layout b more) out ∧
    OffsetsPoint (c.attesterSlashing.map .dynamic) c.attesterSlashings ∧
    OffsetsPoint (c.attestation.map .dynamic) c.attestations ∧ payloadRight c.payload

end BeaconBlockBody

def Bellatrix.BeaconBlockBody.OffsetsRight {B : BoostTypes} (b : Bellatrix.BeaconBlockBody B)
    (out : List UInt8) : Prop :=
  Dreamboat.BeaconBlockBody.OffsetsRight (payload b).marshalSSZTo (payload b).OffsetsRight b [] out

def Capella.BeaconBlockBody.OffsetsRight {B : BoostTypes} (b : Capella.BeaconBlockBody B)
    (out : List UInt8) : Prop :=
  ∃ changes, appendList "BeaconBlockBody.BLSToExecutionChanges" 16
      SignedBLSToExecutionChange.marshalSSZTo b.blsToExecutionChanges [] = .ok changes ∧
    b.toBeaconBlockBody.OffsetsRight (payload b).marshalSSZTo (payload b).OffsetsRight
      [.dynamic changes] out

section

variable {Body : Type} [Inhabited Body]

/-- The offset of a block points to its body, and those of the body are right. -/
def BeaconBlock.OffsetsRight (marshalBody : Body → List UInt8 → Except GoError (List UInt8))
    (bodyRight : Body → List UInt8 → Prop) (b : BeaconBlock Body) (out : List UInt8) : Prop :=
  ∃ body, marshalBody b.getBody [] = .ok body ∧
    OffsetsPoint [.fixed (uint64Bytes b.slot), .fixed (uint64Bytes b.proposerIndex),
      .fixed b.parentRoot.toList, .fixed b.stateRoot.toList, .dynamic body] out ∧
    bodyRight b.getBody body

/-- The offset of a signed block points to the block, and those of the block are right. -/
def SignedBlock.OffsetsRight (marshalBody : Body → List UInt8 → Except GoError (List UInt8))
    (bodyRight : Body → List UInt8 → Prop) (s : SignedBlock Body) (out : List UInt8) : Prop :=
  ∃ message, s.getMessage.marshalSSZTo marshalBody [] = .ok message ∧
    OffsetsPoint [.dynamic message, .fixed s.signature.toList] out ∧
    s.getMessage.OffsetsRight marshalBody bodyRight message

end

/-- Every offset in the bytes of a block is the distance from the start of its container to the
first byte of its field. -/
def SignedBeaconBlock.OffsetsRight {B : BoostTypes} :
    SignedBeaconBlock B → List UInt8 → Prop
  | bellatrix s => s.OffsetsRight Bellatrix.BeaconBlockBody.marshalSSZTo
      Bellatrix.BeaconBlockBody.OffsetsRight
  | capella s => s.OffsetsRight Capella.BeaconBlockBody.marshalSSZTo
      Capella.BeaconBlockBody.OffsetsRight

/-! ### Writers append -/

/-- What a writer appends does not depend on what is there. -/
def Appends (f : List UInt8 → Except GoError (List UInt8)) : Prop :=
  ∀ dst, f dst = (f []).map (dst ++ ·)

section

variable {f g : List UInt8 → Except GoError (List UInt8)} {α : Type}

theorem Appends.exists_bytes (h : Appends f) {dst out : List UInt8} (ho : f dst = .ok out) :
    ∃ bytes, f [] = .ok bytes ∧ out = dst ++ bytes := by
  rw [h dst] at ho
  cases hf : f [] with
  | error err =>
      rw [hf] at ho
      cases ho
  | ok bytes =>
      rw [hf] at ho
      cases ho
      exact ⟨bytes, rfl, rfl⟩

theorem appends_ok (bytes : List UInt8) : Appends fun dst => .ok (dst ++ bytes) := fun _ => rfl

theorem appends_error (err : GoError) : Appends fun _ => .error err := fun _ => rfl

theorem Appends.ite {c : Prop} [Decidable c] (hf : Appends f) (hg : Appends g) :
    Appends fun dst => if c then f dst else g dst := by
  intro dst
  by_cases hc : c
  · simp only [if_pos hc]
    exact hf dst
  · simp only [if_neg hc]
    exact hg dst

theorem Appends.bind (hf : Appends f) (hg : Appends g) : Appends fun dst => f dst >>= g := by
  intro dst
  dsimp only
  rw [hf dst]
  cases f [] with
  | error err => rfl
  | ok bytes =>
      have hone : g bytes = (g []).map (bytes ++ ·) := hg bytes
      have htwo : g (dst ++ bytes) = (g []).map (dst ++ bytes ++ ·) := hg (dst ++ bytes)
      change g (dst ++ bytes) = (g bytes).map (dst ++ ·)
      rw [hone, htwo]
      cases g [] with
      | error err => rfl
      | ok more => exact congrArg Except.ok (List.append_assoc dst bytes more)

/-- A writer behind bytes that are appended first. -/
theorem Appends.comp (hf : Appends f) (bytes : List UInt8) : Appends fun dst => f (dst ++ bytes) :=
  (appends_ok bytes).bind hf

theorem appends_foldlM {step : List UInt8 → α → Except GoError (List UInt8)} {xs : List α}
    (h : ∀ x ∈ xs, Appends fun dst => step dst x) : Appends fun dst => xs.foldlM step dst := by
  induction xs with
  | nil => exact fun dst => congrArg Except.ok (List.append_nil dst).symm
  | cons x xs ih =>
      have hone : Appends fun dst => step dst x := h x List.mem_cons_self
      have hrest := ih fun y hy => h y (List.mem_cons_of_mem _ hy)
      simp only [List.foldlM_cons]
      exact hone.bind hrest

theorem Encoder.appends (E : Encoder α) (x : α) : Appends (E.marshalSSZTo x) := by
  intro dst
  simp only [Encoder.marshalSSZTo]
  cases E.encode x with
  | error err => rfl
  | ok bytes => rfl

theorem appends_appendList {marshalSSZTo : α → List UInt8 → Except GoError (List UInt8)}
    (h : ∀ x, Appends (marshalSSZTo x)) (name : String) (max : ℕ) (xs : List α) :
    Appends (appendList name max marshalSSZTo xs) :=
  (appends_error _).ite (appends_foldlM fun x _ => h x)

theorem appends_appendDynamicList (E : Encoder α) (name : String) (max : ℕ) (xs : List α) :
    Appends (appendDynamicList name max E xs) :=
  (appends_error _).ite ((appends_foldlM fun x _ => E.appends x).comp _)

end

/-! ### What the lists are written as -/

namespace Encoder

variable {α : Type} {E : Encoder α} {xs : List α} {items : List (List UInt8)}

theorem marshalSSZTo_eq_ok {x : α} {dst out : List UInt8} (h : E.marshalSSZTo x dst = .ok out) :
    ∃ bytes, E.encode x = .ok bytes ∧ out = dst ++ bytes := by
  rw [marshalSSZTo] at h
  cases hx : E.encode x with
  | error err =>
      rw [hx] at h
      cases h
  | ok bytes =>
      rw [hx] at h
      cases h
      exact ⟨bytes, rfl, rfl⟩

/-- The loop over the elements appends their bytes, one behind the other. -/
theorem foldlM_eq_ok {dst out : List UInt8}
    (h : xs.foldlM (fun dst x => E.marshalSSZTo x dst) dst = .ok out) :
    ∃ items, List.Forall₂ (fun x bytes => E.encode x = .ok bytes) xs items ∧
      out = dst ++ items.flatten := by
  induction xs generalizing dst with
  | nil =>
      cases h
      exact ⟨[], .nil, by simp⟩
  | cons x xs ih =>
      rw [List.foldlM_cons] at h
      obtain ⟨dst', hx, hxs⟩ := exists_of_bind_eq_ok h
      obtain ⟨bytes, hbytes, rfl⟩ := marshalSSZTo_eq_ok hx
      obtain ⟨items, hitems, rfl⟩ := ih hxs
      exact ⟨bytes :: items, .cons hbytes hitems, by simp⟩

theorem map_length_eq (h : List.Forall₂ (fun x bytes => E.encode x = .ok bytes) xs items) :
    items.map List.length = xs.map E.sizeSSZ := by
  induction h with
  | nil => rfl
  | cons hx _ ih => rw [List.map_cons, List.map_cons, E.length_encode hx, ih]

/-- The size of a list of elements of one size. -/
theorem length_appendList {size max : ℕ} {name : String} {out : List UInt8}
    (hsize : ∀ x, E.sizeSSZ x = size)
    (h : appendList name max E.marshalSSZTo xs [] = .ok out) : out.length = xs.length * size := by
  rw [appendList] at h
  split at h
  · cases h
  · obtain ⟨items, hitems, rfl⟩ := foldlM_eq_ok h
    have hconst : xs.map E.sizeSSZ = List.replicate xs.length size := by
      rw [List.eq_replicate_iff]
      refine ⟨List.length_map .., ?_⟩
      intro n hn
      obtain ⟨x, -, rfl⟩ := List.mem_map.1 hn
      exact hsize x
    rw [List.nil_append, List.length_flatten, map_length_eq hitems, hconst, List.sum_replicate_nat]

theorem writeSizeOffsets_map_length (items : List (List UInt8)) (n : ℕ) :
    writeSizeOffsets n (items.map List.length) = writeOffsets n items := by
  induction items generalizing n with
  | nil => rfl
  | cons item items ih => rw [List.map_cons, writeSizeOffsets, writeOffsets, ih]

/-- A list of variable elements is written with its offsets. -/
theorem appendDynamicList_eq_ok {max : ℕ} {name : String} {out : List UInt8}
    (h : appendDynamicList name max E xs [] = .ok out) :
    ∃ items, List.Forall₂ (fun x bytes => E.encode x = .ok bytes) xs items ∧
      out = writeList items := by
  rw [appendDynamicList] at h
  split at h
  · cases h
  · obtain ⟨items, hitems, rfl⟩ := foldlM_eq_ok h
    refine ⟨items, hitems, ?_⟩
    rw [← map_length_eq hitems, writeSizeOffsets_map_length, writeList, hitems.length_eq,
      List.nil_append]

theorem length_appendDynamicList {max : ℕ} {name : String} {out : List UInt8}
    (h : appendDynamicList name max E xs [] = .ok out) :
    out.length = (xs.map fun x => 4 + E.sizeSSZ x).sum := by
  obtain ⟨items, hitems, rfl⟩ := appendDynamicList_eq_ok h
  have hmap : (items.map List.length).map (4 + ·) = (xs.map E.sizeSSZ).map (4 + ·) :=
    congrArg _ (map_length_eq hitems)
  rw [List.map_map, List.map_map] at hmap
  rw [Capella.ExecutionPayload.length_writeList_eq]
  exact congrArg List.sum hmap

end Encoder

/-! ### What the payloads are written as -/

namespace Capella.ExecutionPayload

theorem appends_appendTransactions (txs : List (List UInt8)) :
    Appends (appendTransactions txs) := by
  refine appends_foldlM fun tx _ => ?_
  exact (appends_error _).ite (appends_ok tx)

theorem appends_appendWithdrawals (ws : List Withdrawal) : Appends (appendWithdrawals ws) := by
  intro dst
  rw [appendWithdrawals_eq, appendWithdrawals_eq]
  rfl

theorem appends_marshalSSZTo (e : ExecutionPayload) : Appends e.marshalSSZTo := by
  have hrest : Appends fun dst => appendTransactions e.epTransactions dst >>= fun dst =>
      if (e.epWithdrawals.getD []).length > 16 then
        .error (errListTooBigFn "ExecutionPayload.Withdrawals" (e.epWithdrawals.getD []).length 16)
      else appendWithdrawals (e.epWithdrawals.getD []) dst :=
    (appends_appendTransactions _).bind ((appends_error _).ite (appends_appendWithdrawals _))
  unfold marshalSSZTo
  simp only [List.append_assoc]
  exact (appends_error _).ite ((appends_error _).ite (hrest.comp _))

/-- The transactions that are appended are not too long. -/
theorem short_of_appendTransactions {txs : List (List UInt8)} {dst out : List UInt8}
    (h : appendTransactions txs dst = .ok out) : ∀ tx ∈ txs, tx.length ≤ 1073741824 := by
  intro tx htx
  by_contra hlong
  obtain ⟨err, herr⟩ := appendTransactions_of_long ⟨tx, htx, by omega⟩ dst
  rw [herr] at h
  cases h

/-- A payload that is written keeps the limits. -/
theorem eq_encode_of_marshalSSZTo {e : ExecutionPayload} {out : List UInt8}
    (h : e.marshalSSZTo [] = .ok out) : out = e.encode := by
  have hlimits : e.Writable ∧ ∀ tx ∈ e.epTransactions, tx.length ≤ 1073741824 := by
    simp only [marshalSSZTo] at h
    split at h
    · cases h
    · split at h
      · cases h
      · obtain ⟨dst, htxs, h⟩ := exists_of_bind_eq_ok h
        split at h
        · cases h
        · exact ⟨⟨by omega, by omega, by omega⟩, short_of_appendTransactions htxs⟩
  rw [marshalSSZTo_eq hlimits.1 hlimits.2, List.nil_append] at h
  exact (Except.ok.inj h).symm

theorem encode_eq_layOut (e : ExecutionPayload) : e.encode = layOut e.layout := by
  simp [encode, fixedPart, layOut, layout, Ssz.head, Ssz.behind, Ssz.fixedSize, Field.width,
    Field.tail]

/-- **The offsets of a payload point to its fields.** -/
theorem offsetsRight_of_marshalSSZTo {e : ExecutionPayload} {out : List UInt8}
    (h : e.marshalSSZTo [] = .ok out) (hsize : e.sizeSSZ < 2 ^ 32) : e.OffsetsRight out := by
  have hlen := e.length_encode
  have htxs : (writeList e.epTransactions).length < 2 ^ 32 := by
    rw [length_writeList_eq]
    rw [sizeSSZ] at hsize
    omega
  rw [eq_encode_of_marshalSSZTo h, encode_eq_layOut] at *
  rw [Ssz.writeList_eq_layOut] at htxs
  refine ⟨Ssz.offsetsPoint_layOut (by omega), ?_⟩
  rw [Ssz.writeList_eq_layOut]
  exact Ssz.offsetsPoint_layOut htxs

end Capella.ExecutionPayload

namespace Bellatrix.ExecutionPayload

open Capella.ExecutionPayload (appends_appendTransactions short_of_appendTransactions
  appendTransactions_eq length_writeList_eq)

theorem appends_marshalSSZTo (e : ExecutionPayload) : Appends e.marshalSSZTo := by
  unfold marshalSSZTo
  simp only [List.append_assoc]
  exact (appends_error _).ite ((appends_error _).ite ((appends_appendTransactions _).comp _))

/-- The first ten fields, which stand before the first offset. -/
def firstFields (e : ExecutionPayload) : List UInt8 :=
  e.epParentHash.toList ++ e.epFeeRecipient.toList ++ e.epStateRoot.toList ++
    e.epReceiptsRoot.toList ++ e.epLogsBloom.toList ++ e.epRandom.toList ++
    uint64Bytes e.epBlockNumber ++ uint64Bytes e.epGasLimit ++ uint64Bytes e.epGasUsed ++
    uint64Bytes e.epTimestamp

/-- The first offset of a payload that is written is `512`. -/
theorem eq_of_marshalSSZTo {e : ExecutionPayload} {out : List UInt8}
    (h : e.marshalSSZTo [] = .ok out) :
    out = e.firstFields ++ (writeOffset 512 ++ (e.epBaseFeePerGas.bytes.toList ++
      e.epBlockHash.toList ++ writeOffset (512 + e.epExtraData.length) ++ e.epExtraData ++
      writeList e.epTransactions)) := by
  simp only [marshalSSZTo] at h
  split at h
  · cases h
  · split at h
    · cases h
    · rw [appendTransactions_eq (short_of_appendTransactions h), Except.ok.injEq] at h
      rw [← h]
      simp only [firstFields, writeList, List.append_assoc, List.nil_append]

theorem length_firstFields (e : ExecutionPayload) : e.firstFields.length = 436 := by
  simp [firstFields]

theorem length_marshalSSZTo {e : ExecutionPayload} {out : List UInt8}
    (h : e.marshalSSZTo [] = .ok out) : out.length = e.sizeSSZ := by
  rw [eq_of_marshalSSZTo h, sizeSSZ, ← length_writeList_eq]
  simp only [List.length_append, length_firstFields, Ssz.length_writeOffset, Vector.length_toList]
  omega

/-- **The first offset is too high**: the fixed part has `508` bytes. -/
theorem not_offsetsRight_of_marshalSSZTo {e : ExecutionPayload} {out : List UInt8}
    (h : e.marshalSSZTo [] = .ok out) : ¬e.OffsetsRight out := by
  rintro ⟨hpoint, -⟩
  have hread : Ssz.offsetAt out 436 = 512 := by
    have hpart : Ssz.part out 436 440 = writeOffset 512 :=
      Ssz.part_of_eq (eq_of_marshalSSZTo h) e.length_firstFields (by simp)
    rw [Ssz.offsetAt, hpart]
    decide
  have hplace : Ssz.fixedSize (e.layout.take 10) = 436 := by
    simp [layout, Ssz.fixedSize, Field.width]
  have hstart : Ssz.start e.layout 10 = 508 := by
    simp [layout, Ssz.start, Ssz.fixedSize, Ssz.behind, Field.width, Field.tail]
  have hfirst := (hpoint 10 e.epExtraData rfl).1
  rw [hplace, hstart, hread] at hfirst
  omega

end Bellatrix.ExecutionPayload

/-! ### What the bodies are written as -/

namespace BeaconBlockBody

variable {B : BoostTypes} {P : Type} {b : BeaconBlockBody B P}
variable {marshalPayload : List UInt8 → Except GoError (List UInt8)}

/-- The fixed part, and the offset behind the payload. -/
theorem marshalOffsets_eq_ok {offset payloadSize : ℕ} {buf : List UInt8} {p : List UInt8 × ℕ}
    (h : b.marshalOffsets offset payloadSize buf = .ok p) :
    ∃ eth1Data syncAggregate,
      B.eth1Data.encode (b.eth1Data.getD B.newEth1Data) = .ok eth1Data ∧
      B.syncAggregate.encode (b.syncAggregate.getD B.newSyncAggregate) = .ok syncAggregate ∧
      p.2 = b.fieldsSize offset + payloadSize ∧
      p.1 = buf ++ (b.randaoReveal.toList ++ (eth1Data ++ (b.graffiti.toList ++
        (writeOffset offset ++ (writeOffset (offset + b.proposerSlashings.length * 416) ++
        (writeOffset (offset + b.proposerSlashings.length * 416 +
          (b.attesterSlashings.map fun x => 4 + B.attesterSlashing.sizeSSZ x).sum) ++
        (writeOffset (offset + b.proposerSlashings.length * 416 +
          (b.attesterSlashings.map fun x => 4 + B.attesterSlashing.sizeSSZ x).sum +
          (b.attestations.map fun x => 4 + B.attestation.sizeSSZ x).sum) ++
        (writeOffset (offset + b.proposerSlashings.length * 416 +
          (b.attesterSlashings.map fun x => 4 + B.attesterSlashing.sizeSSZ x).sum +
          (b.attestations.map fun x => 4 + B.attestation.sizeSSZ x).sum +
          b.deposits.length * 1240) ++
        (syncAggregate ++ writeOffset (b.fieldsSize offset)))))))))) := by
  obtain ⟨_, h₁, h⟩ := exists_of_bind_eq_ok h
  obtain ⟨eth1Data, heth, rfl⟩ := Encoder.marshalSSZTo_eq_ok h₁
  obtain ⟨_, h₂, h⟩ := exists_of_bind_eq_ok h
  obtain ⟨syncAggregate, hsync, rfl⟩ := Encoder.marshalSSZTo_eq_ok h₂
  cases h
  refine ⟨eth1Data, syncAggregate, heth, hsync, rfl, ?_⟩
  simp only [fieldsSize, List.append_assoc]

theorem marshalOffsets_append (offset payloadSize : ℕ) (b : BeaconBlockBody B P)
    (buf : List UInt8) :
    b.marshalOffsets offset payloadSize buf =
      (b.marshalOffsets offset payloadSize []).map fun p => (buf ++ p.1, p.2) := by
  simp only [marshalOffsets, Encoder.marshalSSZTo]
  cases B.eth1Data.encode (b.eth1Data.getD B.newEth1Data) with
  | error err => rfl
  | ok eth1Data =>
      cases B.syncAggregate.encode (b.syncAggregate.getD B.newSyncAggregate) with
      | error err => rfl
      | ok syncAggregate =>
          simp [Except.map, bind, Except.bind, pure, Except.pure]

theorem appends_marshalFields (hpayload : Appends marshalPayload) (b : BeaconBlockBody B P) :
    Appends (b.marshalFields marshalPayload) := by
  refine (appends_appendList B.proposerSlashing.appends _ _ _).bind ?_
  refine (appends_appendDynamicList B.attesterSlashing _ _ _).bind ?_
  refine (appends_appendDynamicList B.attestation _ _ _).bind ?_
  refine (appends_appendList B.deposit.appends _ _ _).bind ?_
  exact (appends_appendList B.voluntaryExit.appends _ _ _).bind hpayload

/-- The fields behind the fixed part, and the elements of the lists that have offsets. -/
theorem marshalFields_eq_ok (hpayload : Appends marshalPayload) {dst out : List UInt8}
    {eth1Data syncAggregate : List UInt8}
    (heth : B.eth1Data.encode (b.eth1Data.getD B.newEth1Data) = .ok eth1Data)
    (hsync : B.syncAggregate.encode (b.syncAggregate.getD B.newSyncAggregate) = .ok syncAggregate)
    (h : b.marshalFields marshalPayload dst = .ok out) :
    ∃ c : Chunks, c.Of marshalPayload b ∧ c.eth1Data = eth1Data ∧
      c.syncAggregate = syncAggregate ∧ c.attesterSlashings = writeList c.attesterSlashing ∧
      c.attestations = writeList c.attestation ∧
      out = dst ++ (c.proposerSlashings ++ (c.attesterSlashings ++ (c.attestations ++
        (c.deposits ++ (c.voluntaryExits ++ c.payload))))) := by
  obtain ⟨_, h₁, h⟩ := exists_of_bind_eq_ok h
  obtain ⟨proposerSlashings, hproposer, rfl⟩ :=
    (appends_appendList B.proposerSlashing.appends _ _ _).exists_bytes h₁
  obtain ⟨_, h₂, h⟩ := exists_of_bind_eq_ok h
  obtain ⟨attesterSlashings, hattester, rfl⟩ :=
    (appends_appendDynamicList B.attesterSlashing _ _ _).exists_bytes h₂
  obtain ⟨_, h₃, h⟩ := exists_of_bind_eq_ok h
  obtain ⟨attestations, hattestations, rfl⟩ :=
    (appends_appendDynamicList B.attestation _ _ _).exists_bytes h₃
  obtain ⟨_, h₄, h⟩ := exists_of_bind_eq_ok h
  obtain ⟨deposits, hdeposits, rfl⟩ :=
    (appends_appendList B.deposit.appends _ _ _).exists_bytes h₄
  obtain ⟨_, h₅, h⟩ := exists_of_bind_eq_ok h
  obtain ⟨voluntaryExits, hexits, rfl⟩ :=
    (appends_appendList B.voluntaryExit.appends _ _ _).exists_bytes h₅
  obtain ⟨payload, hbytes, rfl⟩ := hpayload.exists_bytes h
  obtain ⟨attesterSlashing, hslashing, hlist⟩ := Encoder.appendDynamicList_eq_ok hattester
  obtain ⟨attestation, hattestation, hlist'⟩ := Encoder.appendDynamicList_eq_ok hattestations
  refine ⟨⟨eth1Data, syncAggregate, proposerSlashings, attesterSlashings, attestations, deposits,
    voluntaryExits, payload, attesterSlashing, attestation⟩,
    ⟨heth, hsync, hproposer, hattester, hattestations, hdeposits, hexits, hbytes, hslashing,
      hattestation⟩, rfl, rfl, hlist, hlist', ?_⟩
  simp only [List.append_assoc]

/-- The sizes of the fields. -/
structure Chunks.Sizes (b : BeaconBlockBody B P) (c : Chunks) : Prop where
  eth1Data : c.eth1Data.length = 72
  syncAggregate : c.syncAggregate.length = 160
  proposerSlashings : c.proposerSlashings.length = b.proposerSlashings.length * 416
  attesterSlashings : c.attesterSlashings.length =
    (b.attesterSlashings.map fun x => 4 + B.attesterSlashing.sizeSSZ x).sum
  attestations : c.attestations.length =
    (b.attestations.map fun x => 4 + B.attestation.sizeSSZ x).sum
  deposits : c.deposits.length = b.deposits.length * 1240
  voluntaryExits : c.voluntaryExits.length = b.voluntaryExits.length * 112

theorem Chunks.Of.sizes {c : Chunks} (h : c.Of marshalPayload b) : c.Sizes b where
  eth1Data := (B.eth1Data.length_encode h.eth1Data).trans (B.size_eth1Data _)
  syncAggregate := (B.syncAggregate.length_encode h.syncAggregate).trans (B.size_syncAggregate _)
  proposerSlashings := Encoder.length_appendList B.size_proposerSlashing h.proposerSlashings
  attesterSlashings := Encoder.length_appendDynamicList h.attesterSlashings
  attestations := Encoder.length_appendDynamicList h.attestations
  deposits := Encoder.length_appendList B.size_deposit h.deposits
  voluntaryExits := Encoder.length_appendList B.size_voluntaryExit h.voluntaryExits

theorem Chunks.fixedSize_layout {c : Chunks} (h : c.Sizes b) (more : List Field) :
    Ssz.fixedSize (c.layout b more) = 384 + Ssz.fixedSize more := by
  simp only [Chunks.layout, Ssz.fixedSize, List.map_append, List.sum_append, List.map_cons,
    List.map_nil, List.sum_cons, List.sum_nil, Field.width, Vector.length_toList, h.eth1Data,
    h.syncAggregate, Nat.reduceAdd]

/-- The fields of a body make up its size. -/
theorem Chunks.length_behind {c : Chunks} (h : c.Sizes b) (size : ℕ) (more : List Field) :
    size + (Ssz.behind (c.layout b more)).length =
      b.fieldsSize size + c.payload.length + (Ssz.behind more).length := by
  have hbehind : Ssz.behind (c.layout b more) =
      c.proposerSlashings ++ (c.attesterSlashings ++ (c.attestations ++ (c.deposits ++
        (c.voluntaryExits ++ (c.payload ++ Ssz.behind more))))) := by
    simp [Chunks.layout, Ssz.behind, Field.tail]
  rw [hbehind, fieldsSize]
  simp only [List.length_append, h.proposerSlashings, h.attesterSlashings, h.attestations,
    h.deposits, h.voluntaryExits]
  omega

/-- The offsets of the lists are right if the lists are part of something that is not too long. -/
theorem offsetsPoint_writeList {items : List (List UInt8)} (h : (writeList items).length < 2 ^ 32) :
    OffsetsPoint (items.map .dynamic) (writeList items) := by
  rw [Ssz.writeList_eq_layOut] at h ⊢
  exact Ssz.offsetsPoint_layOut h

end BeaconBlockBody

namespace Bellatrix.BeaconBlockBody

variable {B : BoostTypes}

theorem appends_marshalSSZTo (b : BeaconBlockBody B) : Appends (marshalSSZTo b) := by
  intro dst
  have hfields := Dreamboat.BeaconBlockBody.appends_marshalFields
    (payload b).appends_marshalSSZTo b
  simp only [marshalSSZTo]
  rw [Dreamboat.BeaconBlockBody.marshalOffsets_append]
  cases b.marshalOffsets 384 (payload b).sizeSSZ [] with
  | error err => rfl
  | ok p => exact (hfields.comp p.1) dst

/-- The bytes of a body have its size. -/
theorem length_marshalSSZTo {b : BeaconBlockBody B} {out : List UInt8}
    (h : marshalSSZTo b [] = .ok out) : out.length = sizeSSZ b := by
  obtain ⟨p, h₁, h₂⟩ := exists_of_bind_eq_ok h
  obtain ⟨eth1Data, syncAggregate, heth, hsync, -, hfixed⟩ :=
    Dreamboat.BeaconBlockBody.marshalOffsets_eq_ok h₁
  obtain ⟨c, hc, rfl, rfl, -, -, rfl⟩ := Dreamboat.BeaconBlockBody.marshalFields_eq_ok
    (payload b).appends_marshalSSZTo heth hsync h₂
  have hsizes := hc.sizes
  rw [hfixed, sizeSSZ, Dreamboat.BeaconBlockBody.fieldsSize]
  simp only [List.length_append, List.nil_append, Vector.length_toList, Ssz.length_writeOffset,
    hsizes.eth1Data, hsizes.syncAggregate, hsizes.proposerSlashings, hsizes.attesterSlashings,
    hsizes.attestations, hsizes.deposits, hsizes.voluntaryExits,
    ExecutionPayload.length_marshalSSZTo hc.payload]
  omega

/-- The offsets of the payload in a body are not right. -/
theorem not_offsetsRight (b : BeaconBlockBody B) (out : List UInt8) : ¬OffsetsRight b out := by
  rintro ⟨c, hc, -, -, -, hpayload⟩
  exact ExecutionPayload.not_offsetsRight_of_marshalSSZTo hc.payload hpayload

end Bellatrix.BeaconBlockBody

namespace Capella

namespace SignedBLSToExecutionChange

/-- The bytes a change is written as. -/
def encode (s : SignedBLSToExecutionChange) : List UInt8 :=
  uint64Bytes (s.message.getD default).validatorIndex ++
    ((s.message.getD default).fromBLSPubkey.toList ++
      ((s.message.getD default).toExecutionAddress.toList ++ s.signature.toList))

/-- A change as one of the types that are written with their size. -/
def encoder : Encoder SignedBLSToExecutionChange where
  encode s := .ok s.encode
  sizeSSZ _ := 172
  length_encode := by
    intro s b h
    cases h
    simp [encode]

theorem marshalSSZTo_eq : marshalSSZTo = encoder.marshalSSZTo := by
  funext s buf
  simp [marshalSSZTo, BLSToExecutionChange.marshalSSZTo, Encoder.marshalSSZTo, encoder, encode,
    bind, Except.bind, Except.map, pure, Except.pure]

end SignedBLSToExecutionChange

namespace BeaconBlockBody

variable {B : BoostTypes}

theorem appends_changes (b : BeaconBlockBody B) :
    Appends (appendList "BeaconBlockBody.BLSToExecutionChanges" 16
      SignedBLSToExecutionChange.marshalSSZTo b.blsToExecutionChanges) := by
  rw [SignedBLSToExecutionChange.marshalSSZTo_eq]
  exact appends_appendList SignedBLSToExecutionChange.encoder.appends _ _ _

theorem appends_marshalSSZTo (b : BeaconBlockBody B) : Appends b.marshalSSZTo := by
  intro dst
  have hfields := (Dreamboat.BeaconBlockBody.appends_marshalFields
    (payload b).appends_marshalSSZTo b.toBeaconBlockBody).bind b.appends_changes
  simp only [marshalSSZTo]
  rw [Dreamboat.BeaconBlockBody.marshalOffsets_append]
  cases b.marshalOffsets 388 (payload b).sizeSSZ [] with
  | error err => rfl
  | ok p => exact ((hfields.comp (writeOffset p.2)).comp p.1) dst

/-- **A body is the container of its fields.** -/
theorem exists_layOut {b : BeaconBlockBody B} {out : List UInt8} (h : b.marshalSSZTo [] = .ok out) :
    ∃ (c : Dreamboat.BeaconBlockBody.Chunks) (changes : List UInt8),
      c.Of (payload b).marshalSSZTo b.toBeaconBlockBody ∧
      appendList "BeaconBlockBody.BLSToExecutionChanges" 16
        SignedBLSToExecutionChange.marshalSSZTo b.blsToExecutionChanges [] = .ok changes ∧
      c.attesterSlashings = writeList c.attesterSlashing ∧
      c.attestations = writeList c.attestation ∧
      out = layOut (c.layout b.toBeaconBlockBody [.dynamic changes]) := by
  obtain ⟨p, h₁, h⟩ := exists_of_bind_eq_ok h
  obtain ⟨eth1Data, syncAggregate, heth, hsync, hoffset, hfixed⟩ :=
    Dreamboat.BeaconBlockBody.marshalOffsets_eq_ok h₁
  obtain ⟨dst, h₂, h₃⟩ := exists_of_bind_eq_ok h
  obtain ⟨c, hc, rfl, rfl, hslashings, hattestations, rfl⟩ :=
    Dreamboat.BeaconBlockBody.marshalFields_eq_ok (payload b).appends_marshalSSZTo heth hsync h₂
  obtain ⟨changes, hchanges, rfl⟩ := b.appends_changes.exists_bytes h₃
  refine ⟨c, changes, hc, hchanges, hslashings, hattestations, ?_⟩
  have hsizes := hc.sizes
  have hpayload : c.payload.length = (payload b).sizeSSZ := by
    rw [ExecutionPayload.eq_encode_of_marshalSSZTo hc.payload, ExecutionPayload.length_encode]
  -- the constant is the size of the fixed part, and the running sums are the sizes of the fields
  rw [layOut, Dreamboat.BeaconBlockBody.Chunks.fixedSize_layout hsizes, hfixed, hoffset]
  simp only [Dreamboat.BeaconBlockBody.Chunks.layout, Dreamboat.BeaconBlockBody.fieldsSize,
    List.cons_append, List.nil_append, Ssz.head, Ssz.behind, Ssz.fixedSize, Field.width, Field.tail,
    List.flatMap_cons, List.flatMap_nil, List.map_cons, List.map_nil, List.sum_cons, List.sum_nil,
    hsizes.proposerSlashings, hsizes.attesterSlashings, hsizes.attestations, hsizes.deposits,
    hsizes.voluntaryExits, hpayload, List.append_assoc, List.append_nil, Nat.add_zero,
    Nat.reduceAdd]

theorem length_marshalSSZTo {b : BeaconBlockBody B} {out : List UInt8}
    (h : b.marshalSSZTo [] = .ok out) : out.length = b.sizeSSZ := by
  obtain ⟨c, changes, hc, hchanges, -, -, rfl⟩ := exists_layOut h
  have hpayload : c.payload.length = (payload b).sizeSSZ := by
    rw [ExecutionPayload.eq_encode_of_marshalSSZTo hc.payload, ExecutionPayload.length_encode]
  rw [SignedBLSToExecutionChange.marshalSSZTo_eq] at hchanges
  have hlen := Encoder.length_appendList (fun _ => rfl) hchanges
  have hmore : (Ssz.behind [.dynamic changes]).length = changes.length := by
    simp [Ssz.behind, Field.tail]
  rw [Ssz.length_layOut, Dreamboat.BeaconBlockBody.Chunks.fixedSize_layout hc.sizes,
    Dreamboat.BeaconBlockBody.Chunks.length_behind hc.sizes, hmore, hlen, hpayload]
  rfl

/-- **The offsets of a body point to its fields.** -/
theorem offsetsRight_of_marshalSSZTo {b : BeaconBlockBody B} {out : List UInt8}
    (h : b.marshalSSZTo [] = .ok out) (hsize : b.sizeSSZ < 2 ^ 32) : b.OffsetsRight out := by
  have hlen := length_marshalSSZTo h
  obtain ⟨c, changes, hc, hchanges, hslashings, hattestations, rfl⟩ := exists_layOut h
  have hsizes := hc.sizes
  rw [sizeSSZ, Dreamboat.BeaconBlockBody.fieldsSize, ← hsizes.attesterSlashings,
    ← hsizes.attestations] at hsize
  refine ⟨changes, hchanges, c, hc, Ssz.offsetsPoint_layOut ?_, ?_, ?_, ?_⟩
  · rw [hlen, sizeSSZ, Dreamboat.BeaconBlockBody.fieldsSize, ← hsizes.attesterSlashings,
      ← hsizes.attestations]
    exact hsize
  · rw [hslashings] at hsize ⊢
    exact Dreamboat.BeaconBlockBody.offsetsPoint_writeList (by omega)
  · rw [hattestations] at hsize ⊢
    exact Dreamboat.BeaconBlockBody.offsetsPoint_writeList (by omega)
  · exact ExecutionPayload.offsetsRight_of_marshalSSZTo hc.payload (by omega)

end BeaconBlockBody

end Capella

/-! ### What the blocks are written as -/

section

variable {Body : Type} [Inhabited Body]
variable {marshalBody : Body → List UInt8 → Except GoError (List UInt8)} {out : List UInt8}

theorem BeaconBlock.appends_marshalSSZTo (happends : ∀ body, Appends (marshalBody body))
    (b : BeaconBlock Body) : Appends (b.marshalSSZTo marshalBody) := by
  unfold BeaconBlock.marshalSSZTo
  simp only [List.append_assoc]
  exact (happends b.getBody).comp _

/-- A block is the container of its fields. -/
theorem BeaconBlock.exists_layOut (happends : ∀ body, Appends (marshalBody body))
    {b : BeaconBlock Body} (h : b.marshalSSZTo marshalBody [] = .ok out) :
    ∃ body, marshalBody b.getBody [] = .ok body ∧
      out = layOut [.fixed (uint64Bytes b.slot), .fixed (uint64Bytes b.proposerIndex),
        .fixed b.parentRoot.toList, .fixed b.stateRoot.toList, .dynamic body] := by
  obtain ⟨body, hbody, rfl⟩ := (happends b.getBody).exists_bytes h
  refine ⟨body, hbody, ?_⟩
  simp [layOut, Ssz.head, Ssz.behind, Ssz.fixedSize, Field.width, Field.tail]

/-- A signed block is the container of its fields. -/
theorem SignedBlock.exists_layOut (happends : ∀ body, Appends (marshalBody body))
    {s : SignedBlock Body} (h : s.marshalSSZTo marshalBody [] = .ok out) :
    ∃ message, s.getMessage.marshalSSZTo marshalBody [] = .ok message ∧
      out = layOut [.dynamic message, .fixed s.signature.toList] := by
  obtain ⟨message, hmessage, rfl⟩ :=
    (s.getMessage.appends_marshalSSZTo happends).exists_bytes h
  refine ⟨message, hmessage, ?_⟩
  simp [layOut, Ssz.head, Ssz.behind, Ssz.fixedSize, Field.width, Field.tail]

/-- The bytes of a signed block have its size if those of a body have the size of the body. -/
theorem SignedBlock.length_marshalSSZTo (happends : ∀ body, Appends (marshalBody body))
    {sizeBody : Body → ℕ}
    (hsize : ∀ body bytes, marshalBody body [] = .ok bytes → bytes.length = sizeBody body)
    {s : SignedBlock Body} (h : s.marshalSSZTo marshalBody [] = .ok out) :
    out.length = s.sizeSSZ sizeBody := by
  obtain ⟨message, hmessage, rfl⟩ := SignedBlock.exists_layOut happends h
  obtain ⟨body, hbody, rfl⟩ := BeaconBlock.exists_layOut happends hmessage
  rw [SignedBlock.sizeSSZ, BeaconBlock.sizeSSZ, ← hsize _ _ hbody, Ssz.length_layOut]
  simp only [Ssz.behind, Ssz.fixedSize, Field.width, Field.tail, List.flatMap_cons,
    List.flatMap_nil, List.map_cons, List.map_nil, List.sum_cons, List.sum_nil, List.append_nil,
    Vector.length_toList, Ssz.length_layOut, Ssz.length_uint64Bytes, List.nil_append]
  omega

/-- The offsets of a signed block are right if those of a body are. -/
theorem SignedBlock.offsetsRight_of_marshalSSZTo (happends : ∀ body, Appends (marshalBody body))
    {bodyRight : Body → List UInt8 → Prop}
    (hright : ∀ body bytes, marshalBody body [] = .ok bytes → bytes.length < 2 ^ 32 →
      bodyRight body bytes)
    {s : SignedBlock Body} (h : s.marshalSSZTo marshalBody [] = .ok out)
    (hlen : out.length < 2 ^ 32) : s.OffsetsRight marshalBody bodyRight out := by
  obtain ⟨message, hmessage, rfl⟩ := SignedBlock.exists_layOut happends h
  obtain ⟨body, hbody, rfl⟩ := BeaconBlock.exists_layOut happends hmessage
  refine ⟨_, hmessage, Ssz.offsetsPoint_layOut hlen, body, hbody, ?_⟩
  simp only [Ssz.length_layOut, Ssz.behind, Field.tail, List.flatMap_cons, List.flatMap_nil,
    List.append_nil, List.nil_append] at hlen
  refine ⟨Ssz.offsetsPoint_layOut ?_, hright _ _ hbody (by omega)⟩
  simp only [Ssz.length_layOut, Ssz.behind, Field.tail, List.flatMap_cons, List.flatMap_nil,
    List.append_nil, List.nil_append]
  omega

end

namespace SignedBeaconBlock

variable {B : BoostTypes} {block : SignedBeaconBlock B} {out : List UInt8}

/-- **`SizeSSZ` is the number of bytes**, in both forks. -/
theorem length_marshalSSZTo (h : block.marshalSSZTo [] = .ok out) :
    out.length = block.sizeSSZ := by
  cases block with
  | bellatrix s =>
      exact SignedBlock.length_marshalSSZTo Bellatrix.BeaconBlockBody.appends_marshalSSZTo
        (fun _ _ => Bellatrix.BeaconBlockBody.length_marshalSSZTo) h
  | capella s =>
      exact SignedBlock.length_marshalSSZTo Capella.BeaconBlockBody.appends_marshalSSZTo
        (fun _ _ => Capella.BeaconBlockBody.length_marshalSSZTo) h

/-- **Every offset points to its field exactly in the later fork**: in the earlier one the offsets
of every payload are too high. -/
theorem offsetsRight_iff (h : block.marshalSSZTo [] = .ok out) (hsize : block.sizeSSZ < 2 ^ 32) :
    (out.length = block.sizeSSZ ∧ block.OffsetsRight out) ↔ block.fork = .capella := by
  have hlen := length_marshalSSZTo h
  cases block with
  | bellatrix s =>
      refine iff_of_false ?_ (fun hfork => nomatch hfork)
      rintro ⟨-, message, -, -, body, -, -, hbody⟩
      exact Bellatrix.BeaconBlockBody.not_offsetsRight _ _ hbody
  | capella s =>
      refine iff_of_true ⟨hlen, ?_⟩ rfl
      refine SignedBlock.offsetsRight_of_marshalSSZTo
        Capella.BeaconBlockBody.appends_marshalSSZTo ?_ h (by omega)
      intro body bytes hbytes hfits
      rw [Capella.BeaconBlockBody.length_marshalSSZTo hbytes] at hfits
      exact Capella.BeaconBlockBody.offsetsRight_of_marshalSSZTo hbytes hfits

/-! ### Two blocks -/

/-- Values that are written as zeros. -/
def zeros (size : ℕ) : Encoder Unit where
  encode _ := .ok (List.replicate size 0)
  sizeSSZ _ := size
  length_encode := by
    intro x b h
    cases h
    exact List.length_replicate

/-- Types of the sizes they have to have, with attestations of ten bytes. -/
def zeroTypes : BoostTypes where
  Eth1Data := Unit
  SyncAggregate := Unit
  ProposerSlashing := Unit
  AttesterSlashing := Unit
  Attestation := Unit
  Deposit := Unit
  SignedVoluntaryExit := Unit
  eth1Data := zeros 72
  syncAggregate := zeros 160
  proposerSlashing := zeros 416
  attesterSlashing := zeros 10
  attestation := zeros 10
  deposit := zeros 1240
  voluntaryExit := zeros 112
  newEth1Data := ()
  newSyncAggregate := ()
  size_eth1Data _ := rfl
  size_syncAggregate _ := rfl
  size_proposerSlashing _ := rfl
  size_deposit _ := rfl
  size_voluntaryExit _ := rfl

theorem exists_eq_ok {α : Type} {x : Except GoError α} (h : x.isOk = true) : ∃ a, x = .ok a := by
  match x, h with
  | .ok a, _ => exact ⟨a, rfl⟩

/-- A block with two attestations, a transaction and a change of credentials. -/
def capellaSample : SignedBeaconBlock zeroTypes :=
  let payload : Capella.ExecutionPayload :=
    { (default : Capella.ExecutionPayload) with epTransactions := [[1, 2, 3]] }
  let body : BeaconBlockBody zeroTypes Capella.ExecutionPayload :=
    { (default : BeaconBlockBody zeroTypes Capella.ExecutionPayload) with
      attestations := [(), ()], executionPayload := some payload }
  .capella ⟨some { (default : BeaconBlock (Capella.BeaconBlockBody zeroTypes)) with
    body := some ⟨body, [default]⟩ }, default⟩

theorem offsetsRight_iff_sample :
    ∃ out, capellaSample.marshalSSZTo [] = .ok out ∧ capellaSample.sizeSSZ = 1291 ∧
      out.length = capellaSample.sizeSSZ ∧ capellaSample.OffsetsRight out := by
  have haccepted : (capellaSample.marshalSSZTo []).isOk = true := by decide +kernel
  have hsize : capellaSample.sizeSSZ = 1291 := by decide +kernel
  obtain ⟨out, hout⟩ := exists_eq_ok haccepted
  exact ⟨out, hout, hsize, (offsetsRight_iff hout (by omega)).2 rfl⟩

/-- A block of the earlier fork without any lists. -/
def bellatrixSample : SignedBeaconBlock zeroTypes := .bellatrix ⟨none, default⟩

/-- **A block with a payload whose offsets are too high.** -/
theorem payloadOffsets_too_high :
    ∃ out, bellatrixSample.marshalSSZTo [] = .ok out ∧ bellatrixSample.sizeSSZ < 2 ^ 32 ∧
      ¬(out.length = bellatrixSample.sizeSSZ ∧ bellatrixSample.OffsetsRight out) := by
  have haccepted : (bellatrixSample.marshalSSZTo []).isOk = true := by decide +kernel
  have hsize : bellatrixSample.sizeSSZ < 2 ^ 32 := by decide +kernel
  obtain ⟨out, hout⟩ := exists_eq_ok haccepted
  refine ⟨out, hout, hsize, ?_⟩
  rintro ⟨-, message, -, -, body, -, -, hbody⟩
  exact Bellatrix.BeaconBlockBody.not_offsetsRight _ _ hbody

end SignedBeaconBlock

end Dreamboat
