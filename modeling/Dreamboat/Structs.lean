/-
**The data of the relay.**

The records that builders, proposers and the parts of the relay exchange: bids, execution payloads
and their headers, block submissions, blinded blocks, and the keys and errors that go with them.
Byte arrays of fixed size are vectors of bytes.  Where the source has one type for each fork behind
an interface, the interface is a sum over the forks and its methods are functions on the sum; a
header, a trace or a message behind a pointer is present, since the paths that read one that is
missing are the subject of other modules.

Main definitions:

* `U256Str`, `U256Str.cmp` — 256-bit values and their comparison;
* `ExecutionPayload`, `ExecutionPayloadHeader` — payloads and headers;
* `SubmitBlockRequest` — what a builder submits;
* `BuilderBidExtended` — what the auction ranks;
* `BlockAndTraceExtended` — what the payload store keeps;
* `ForkState.version` — the fork of a slot;
* `GoError` — errors with their texts.
-/

import Mathlib.Algebra.Group.Nat.Defs
import Mathlib.Data.Nat.Basic
import Mathlib.Order.Lattice

set_option autoImplicit false

namespace Dreamboat

/-! ### Byte arrays -/

abbrev Hash := Vector UInt8 32
abbrev Root := Vector UInt8 32
abbrev PublicKey := Vector UInt8 48
abbrev Address := Vector UInt8 20
abbrev Bloom := Vector UInt8 256
abbrev Signature := Vector UInt8 96
abbrev Domain := Vector UInt8 32

/-- The text of a byte array: `0x` and two lower-case hexadecimal digits for each byte. -/
def hexString {n : ℕ} (v : Vector UInt8 n) : String :=
  "0x" ++ String.ofList
    (v.toList.flatMap fun b => [Nat.digitChar (b.toNat / 16), Nat.digitChar (b.toNat % 16)])

/-- A 256-bit value, its bytes in little-endian order. -/
structure U256Str where
  bytes : Vector UInt8 32
  deriving DecidableEq, Inhabited, Repr

namespace U256Str

/-- The number a value stands for. -/
def bigInt (n : U256Str) : ℕ := n.bytes.toList.foldr (fun b acc => b.toNat + 256 * acc) 0

/-- The value of a number below `2 ^ 256`. -/
def ofNat (n : ℕ) : U256Str := ⟨Vector.ofFn fun i => UInt8.ofNat (n / 256 ^ i.val)⟩

/-- The three-way comparison of two values. -/
def cmp (n b : U256Str) : ℤ :=
  if n.bigInt < b.bigInt then -1 else if n.bigInt = b.bigInt then 0 else 1

theorem cmp_le_zero_iff (n b : U256Str) : n.cmp b ≤ 0 ↔ n.bigInt ≤ b.bigInt := by
  unfold cmp
  split
  · next h => simp [h.le]
  · split
    · next h => simp [h]
    · next h₁ h₂ => simp; omega

end U256Str

/-! ### Slots and forks -/

/-- The number of slots the ring buffers of the relay hold. -/
def numberOfSlotsInState : ℕ := 2

/-- The place of a slot in a ring buffer. -/
def ringIndex (slot : UInt64) : Fin numberOfSlotsInState :=
  ⟨slot.toNat % numberOfSlotsInState, Nat.mod_lt _ (by decide)⟩

theorem ringIndex_eq_iff {s t : UInt64} :
    ringIndex s = ringIndex t ↔
      s.toNat % numberOfSlotsInState = t.toNat % numberOfSlotsInState := by
  simp [ringIndex]

inductive ForkVersion where
  | unknown
  | altair
  | bellatrix
  | capella
  deriving DecidableEq, Inhabited, Repr

/-- The epochs at which the forks begin, `0` for one that is not scheduled. -/
structure ForkState where
  altairEpoch : UInt64
  bellatrixEpoch : UInt64
  capellaEpoch : UInt64
  deriving DecidableEq, Inhabited, Repr

def slotsPerEpoch : UInt64 := 32

def epoch (slot : UInt64) : UInt64 := slot / slotsPerEpoch

namespace ForkState

def isCapella (fs : ForkState) (slot : UInt64) : Bool :=
  fs.capellaEpoch > 0 && epoch slot ≥ fs.capellaEpoch

def isBellatrix (fs : ForkState) (slot : UInt64) : Bool :=
  if fs.capellaEpoch = 0 then
    fs.bellatrixEpoch > 0 && epoch slot ≥ fs.bellatrixEpoch
  else
    fs.bellatrixEpoch > 0 && epoch slot ≥ fs.bellatrixEpoch && epoch slot < fs.capellaEpoch

def isAltair (fs : ForkState) (slot : UInt64) : Bool :=
  epoch slot ≥ fs.altairEpoch && epoch slot < fs.bellatrixEpoch

/-- The fork a slot belongs to. -/
def version (fs : ForkState) (slot : UInt64) : ForkVersion :=
  if fs.isCapella slot then .capella
  else if fs.isBellatrix slot then .bellatrix
  else if fs.isAltair slot then .altair
  else .unknown

variable {fork : ForkState} {slot : UInt64}

theorem toNat_epoch (slot : UInt64) : (epoch slot).toNat = slot.toNat / 32 := by
  rw [epoch, UInt64.toNat_div]
  rfl

theorem isCapella_iff : fork.isCapella slot = true ↔
    0 < fork.capellaEpoch.toNat ∧ fork.capellaEpoch.toNat ≤ slot.toNat / 32 := by
  simp only [isCapella, Bool.and_eq_true, decide_eq_true_eq, gt_iff_lt, ge_iff_le,
    UInt64.lt_iff_toNat_lt, UInt64.le_iff_toNat_le, toNat_epoch, UInt64.toNat_zero]

theorem isBellatrix_iff : fork.isBellatrix slot = true ↔
    0 < fork.bellatrixEpoch.toNat ∧ fork.bellatrixEpoch.toNat ≤ slot.toNat / 32 ∧
      (fork.capellaEpoch.toNat = 0 ∨ slot.toNat / 32 < fork.capellaEpoch.toNat) := by
  have hzero : fork.capellaEpoch = 0 ↔ fork.capellaEpoch.toNat = 0 := by
    rw [← UInt64.toNat_inj, UInt64.toNat_zero]
  unfold isBellatrix
  split
  · next hc =>
      simp only [Bool.and_eq_true, decide_eq_true_eq, gt_iff_lt, ge_iff_le,
        UInt64.lt_iff_toNat_lt, UInt64.le_iff_toNat_le, toNat_epoch, UInt64.toNat_zero]
      have := hzero.1 hc
      omega
  · next hc =>
      simp only [Bool.and_eq_true, decide_eq_true_eq, gt_iff_lt, ge_iff_le,
        UInt64.lt_iff_toNat_lt, UInt64.le_iff_toNat_le, toNat_epoch, UInt64.toNat_zero]
      have := mt hzero.2 hc
      omega

theorem version_eq_capella_iff : fork.version slot = .capella ↔
    0 < fork.capellaEpoch.toNat ∧ fork.capellaEpoch.toNat ≤ slot.toNat / 32 := by
  rw [← isCapella_iff]
  unfold version
  split_ifs with hc
  all_goals simp_all

theorem version_eq_bellatrix_iff : fork.version slot = .bellatrix ↔
    0 < fork.bellatrixEpoch.toNat ∧ fork.bellatrixEpoch.toNat ≤ slot.toNat / 32 ∧
      (fork.capellaEpoch.toNat = 0 ∨ slot.toNat / 32 < fork.capellaEpoch.toNat) := by
  rw [← isBellatrix_iff]
  unfold version
  split_ifs with hc hb ha
  · -- a slot of both forks is one of the later fork
    have h₁ := isCapella_iff.1 hc
    refine iff_of_false (fun h => by cases h) fun hb => ?_
    have h₂ := isBellatrix_iff.1 hb
    omega
  all_goals simp_all

theorem isAltair_iff : fork.isAltair slot = true ↔
    fork.altairEpoch.toNat ≤ slot.toNat / 32 ∧ slot.toNat / 32 < fork.bellatrixEpoch.toNat := by
  simp only [isAltair, Bool.and_eq_true, decide_eq_true_eq, ge_iff_le, UInt64.lt_iff_toNat_lt,
    UInt64.le_iff_toNat_le, toNat_epoch]

theorem version_eq_altair_iff : fork.version slot = .altair ↔
    fork.altairEpoch.toNat ≤ slot.toNat / 32 ∧ slot.toNat / 32 < fork.bellatrixEpoch.toNat ∧
      (fork.capellaEpoch.toNat = 0 ∨ slot.toNat / 32 < fork.capellaEpoch.toNat) := by
  unfold version
  split_ifs with hc hb ha
  · have h₁ := isCapella_iff.1 hc
    exact iff_of_false (fun h => by cases h) (by omega)
  · have h₂ := isBellatrix_iff.1 hb
    exact iff_of_false (fun h => by cases h) (by omega)
  · have h₁ := mt isCapella_iff.2 hc
    have h₃ := isAltair_iff.1 ha
    exact iff_of_true rfl (by omega)
  · have h₃ := mt isAltair_iff.2 ha
    exact iff_of_false (fun h => by cases h) (by omega)

end ForkState

/-! ### Errors -/

/-- The error variables of the source that the modelled functions return or wrap. -/
inductive Sentinel where
  | errPayloadDiffBlockHash
  | errHigherSlotDelivered
  | errNoPayloadFound
  | errMissingSecretKey
  | errNoBuilderBid
  | errTraceMismatch
  | errZeroBid
  | errOldSlot
  | errInvalidSignature
  | errStore
  | errInternal
  | errUnknownValidator
  | errVerification
  | errInvalidTimestamp
  | errInvalidSlot
  | errEmptyBlock
  | errWrongPayload
  | errFailedToPublish
  | errLateRequest
  | errInvalidExecutionPayload
  | errWrongFeeRecipient
  | errInvalidWithdrawalRoot
  | errInvalidRandao
  | verifyErrInvalidSignature
  | errNotFound
  | contextCanceled
  | contextDeadlineExceeded
  | errHTTPErrorResponse
  | errNodesUnavailable
  | simErrNotFound
  | errConnectionFailure
  | errBeaconNodeSyncing
  deriving DecidableEq, Inhabited, Repr

def Sentinel.text : Sentinel → String
  | errPayloadDiffBlockHash => "slot payload already delivered with different blockHash"
  | errHigherSlotDelivered => "slot already delivered with higher slot"
  | errNoPayloadFound => "no payload found"
  | errMissingSecretKey => "secret key is nil"
  | errNoBuilderBid => "no builder bid"
  | errTraceMismatch => "trace and payload mismatch"
  | errZeroBid => "zero valued builder bid"
  | errOldSlot => "requested slot is old"
  | errInvalidSignature => "invalid signature"
  | errStore => "failed to store"
  | errInternal => "internal server error"
  | errUnknownValidator => "unknown validator"
  | errVerification => "failed to verify"
  | errInvalidTimestamp => "invalid timestamp"
  | errInvalidSlot => "invalid slot"
  | errEmptyBlock => "block is empty"
  | errWrongPayload => "wrong publish payload"
  | errFailedToPublish => "failed to publish block"
  | errLateRequest => "request too late"
  | errInvalidExecutionPayload => "invalid execution payload"
  | errWrongFeeRecipient => "wrong fee recipient"
  | errInvalidWithdrawalRoot => "invalid withdrawal root"
  | errInvalidRandao => "randao is invalid"
  | verifyErrInvalidSignature => "invalid signature"
  | errNotFound => "not found"
  | contextCanceled => "context canceled"
  | contextDeadlineExceeded => "context deadline exceeded"
  | errHTTPErrorResponse => "got an HTTP error response"
  | errNodesUnavailable => "beacon nodes are unavailable"
  | simErrNotFound => "network not found"
  | errConnectionFailure => "connection failure"
  | errBeaconNodeSyncing => "beacon node is syncing"

/-- An `error`: an error variable, an error made from a text, or a text around another error. -/
inductive GoError where
  | sentinel (s : Sentinel)
  | new (msg : String)
  | wrap (msg : String) (inner : GoError)
  deriving DecidableEq, Inhabited, Repr

namespace GoError

/-- The text of an error. -/
def error : GoError → String
  | sentinel s => s.text
  | new msg => msg
  | wrap msg _ => msg

/-- `errors.Is`. -/
def is : GoError → Sentinel → Bool
  | sentinel s, t => s = t
  | new _, _ => false
  | wrap _ inner, t => inner.is t

/-- `fmt.Errorf("%w: %s", s, msg)`. -/
def wrapf (s : Sentinel) (msg : String) : GoError :=
  wrap (s.text ++ ": " ++ msg) (sentinel s)

end GoError

/-- Two fallible steps have a result exactly through a result of the first. -/
theorem exists_of_bind_eq_ok {α β : Type} {x : Except GoError α} {f : α → Except GoError β}
    {b : β} (h : (x >>= f) = .ok b) : ∃ a, x = .ok a ∧ f a = .ok b := by
  cases x with
  | error e => cases h
  | ok a => exact ⟨a, rfl, h⟩

/-- A computation that returns has passed its guards. -/
theorem ok_of_guard {α β : Type} {c : Prop} [Decidable c] {err : GoError}
    {f : α → Except GoError β} {y : Except GoError β} {b : β}
    (h : (if c then throw err >>= f else y) = .ok b) : ¬c ∧ y = .ok b := by
  split at h
  · cases h
  · next hc => exact ⟨hc, h⟩

/-! ### Payloads and headers -/

structure Withdrawal where
  index : UInt64
  validatorIndex : UInt64
  address : Address
  amount : UInt64
  deriving DecidableEq, Inhabited, Repr

namespace Bellatrix

structure ExecutionPayload where
  epParentHash : Hash
  epFeeRecipient : Address
  epStateRoot : Root
  epReceiptsRoot : Root
  epLogsBloom : Bloom
  epRandom : Hash
  epBlockNumber : UInt64
  epGasLimit : UInt64
  epGasUsed : UInt64
  epTimestamp : UInt64
  epExtraData : List UInt8
  epBaseFeePerGas : U256Str
  epBlockHash : Hash
  epTransactions : List (List UInt8)
  deriving DecidableEq, Inhabited, Repr

structure ExecutionPayloadHeader where
  parentHash : Hash
  feeRecipient : Address
  stateRoot : Root
  receiptsRoot : Root
  logsBloom : Bloom
  random : Hash
  blockNumber : UInt64
  gasLimit : UInt64
  gasUsed : UInt64
  timestamp : UInt64
  extraData : List UInt8
  baseFeePerGas : U256Str
  blockHash : Hash
  transactionsRoot : Root
  deriving DecidableEq, Inhabited, Repr

end Bellatrix

namespace Capella

/-- The payload of the later fork: `none` is a list of withdrawals that is `nil`. -/
structure ExecutionPayload extends Bellatrix.ExecutionPayload where
  epWithdrawals : Option (List Withdrawal)
  deriving DecidableEq, Inhabited, Repr

structure ExecutionPayloadHeader extends Bellatrix.ExecutionPayloadHeader where
  withdrawalsRoot : Root
  deriving DecidableEq, Inhabited, Repr

end Capella

/-- The interface over the payloads of the forks. -/
inductive ExecutionPayload where
  | bellatrix (p : Bellatrix.ExecutionPayload)
  | capella (p : Capella.ExecutionPayload)
  deriving DecidableEq, Repr

instance : Inhabited ExecutionPayload := ⟨.capella default⟩

namespace ExecutionPayload

/-- The fields that the payloads of both forks have. -/
def base : ExecutionPayload → Bellatrix.ExecutionPayload
  | bellatrix p => p
  | capella p => p.toExecutionPayload

/-- The fork whose type a payload has. -/
def fork : ExecutionPayload → ForkVersion
  | bellatrix _ => .bellatrix
  | capella _ => .capella

end ExecutionPayload

/-- The interface over the headers of the forks. -/
inductive ExecutionPayloadHeader where
  | bellatrix (h : Bellatrix.ExecutionPayloadHeader)
  | capella (h : Capella.ExecutionPayloadHeader)
  deriving DecidableEq, Repr

instance : Inhabited ExecutionPayloadHeader := ⟨.capella default⟩

namespace ExecutionPayloadHeader

def base : ExecutionPayloadHeader → Bellatrix.ExecutionPayloadHeader
  | bellatrix h => h
  | capella h => h.toExecutionPayloadHeader

def getParentHash (h : ExecutionPayloadHeader) : Hash := h.base.parentHash

def getBlockHash (h : ExecutionPayloadHeader) : Hash := h.base.blockHash

/-- The fork whose type a header has. -/
def fork : ExecutionPayloadHeader → ForkVersion
  | bellatrix _ => .bellatrix
  | capella _ => .capella

end ExecutionPayloadHeader

/-! ### Submissions -/

structure BidTrace where
  slot : UInt64
  parentHash : Hash
  blockHash : Hash
  builderPubkey : PublicKey
  proposerPubkey : PublicKey
  proposerFeeRecipient : Address
  gasLimit : UInt64
  gasUsed : UInt64
  value : U256Str
  deriving DecidableEq, Inhabited, Repr

/-- The key of the payload store. -/
structure PayloadKey where
  blockHash : Hash
  proposer : PublicKey
  slot : UInt64
  deriving DecidableEq, Inhabited, Repr

/-- A block submission.  The requests of the forks differ in the type of the payload only. -/
structure SubmitBlockRequest where
  signature : Signature
  message : BidTrace
  executionPayload : ExecutionPayload
  deriving DecidableEq, Inhabited, Repr

namespace SubmitBlockRequest

def slot (s : SubmitBlockRequest) : UInt64 := s.message.slot
def blockHash (s : SubmitBlockRequest) : Hash := s.executionPayload.base.epBlockHash
def parentHash (s : SubmitBlockRequest) : Hash := s.executionPayload.base.epParentHash
def traceBlockHash (s : SubmitBlockRequest) : Hash := s.message.blockHash
def traceParentHash (s : SubmitBlockRequest) : Hash := s.message.parentHash
def builderPubkey (s : SubmitBlockRequest) : PublicKey := s.message.builderPubkey
def proposerPubkey (s : SubmitBlockRequest) : PublicKey := s.message.proposerPubkey
def proposerFeeRecipient (s : SubmitBlockRequest) : Address := s.message.proposerFeeRecipient
def value (s : SubmitBlockRequest) : U256Str := s.message.value
def timestamp (s : SubmitBlockRequest) : UInt64 := s.executionPayload.base.epTimestamp
def random (s : SubmitBlockRequest) : Hash := s.executionPayload.base.epRandom

def numTx (s : SubmitBlockRequest) : UInt64 :=
  UInt64.ofNat s.executionPayload.base.epTransactions.length

/-- The withdrawals of a submission; the earlier fork has none. -/
def withdrawals (s : SubmitBlockRequest) : Option (List Withdrawal) :=
  match s.executionPayload with
  | .bellatrix _ => none
  | .capella p => p.epWithdrawals

/-- The key under which the payload of a submission is stored: all of it from the bid trace. -/
def toPayloadKey (s : SubmitBlockRequest) : PayloadKey where
  blockHash := s.message.blockHash
  proposer := s.message.proposerPubkey
  slot := s.message.slot

end SubmitBlockRequest

/-! ### Bids -/

structure BuilderBid where
  header : ExecutionPayloadHeader
  value : U256Str
  pubkey : PublicKey
  deriving DecidableEq, Inhabited, Repr

structure BuilderBidExtended where
  builderBid : BuilderBid
  proposer : PublicKey
  slot : UInt64
  deriving DecidableEq, Inhabited, Repr

namespace BuilderBidExtended

/-- The parent hash under which the auction files a bid. -/
def parentHash (b : BuilderBidExtended) : Hash := b.builderBid.header.getParentHash

/-- The number by which bids are ranked. -/
def worth (b : BuilderBidExtended) : ℕ := b.builderBid.value.bigInt

theorem cmp_value_le_zero_iff (b c : BuilderBidExtended) :
    b.builderBid.value.cmp c.builderBid.value ≤ 0 ↔ b.worth ≤ c.worth :=
  U256Str.cmp_le_zero_iff _ _

/-- The key that `GetHeader` derives from a bid. -/
def payloadKey (b : BuilderBidExtended) : PayloadKey where
  blockHash := b.builderBid.header.getBlockHash
  proposer := b.proposer
  slot := b.slot

end BuilderBidExtended

structure SignedBuilderBid where
  message : BuilderBid
  signature : Signature
  deriving DecidableEq, Inhabited, Repr

/-! ### Stored payloads -/

structure SignedBidTrace where
  message : BidTrace
  signature : Signature
  deriving DecidableEq, Inhabited, Repr

/-- What the payload store keeps for a submission.  The earlier fork keeps the signed bid, the
later one only the root of its header. -/
inductive BlockAndTraceExtended where
  | bellatrix (trace : SignedBidTrace) (bid : SignedBuilderBid)
      (payload : Bellatrix.ExecutionPayload)
  | capella (payload : Capella.ExecutionPayload) (trace : SignedBidTrace)
      (executionHeaderHash : Hash)
  deriving DecidableEq, Inhabited, Repr

namespace BlockAndTraceExtended

def trace : BlockAndTraceExtended → SignedBidTrace
  | bellatrix trace _ _ => trace
  | capella _ trace _ => trace

def slot (b : BlockAndTraceExtended) : UInt64 := b.trace.message.slot

def proposer (b : BlockAndTraceExtended) : PublicKey := b.trace.message.proposerPubkey

def executionPayload : BlockAndTraceExtended → ExecutionPayload
  | bellatrix _ _ payload => .bellatrix payload
  | capella payload _ _ => .capella payload

end BlockAndTraceExtended

end Dreamboat
