/-
**The fork a request is decoded for and the fork it is processed for.**

The handlers of `src/api/api.go` decode the body of a submission and of a blinded block into the
type of the fork of the *head slot*; `bidExtended`, `GetHeader` and `GetPayload` then go by the fork
of the slot *of the request*, which is the head slot or the one after it.  The two differ when the
request is for the first slot of the Capella fork and the head is still the slot before.

The decoders for texts come from outside the repository; they enter as parameters, about which
nothing is assumed.

Main definitions:

* `Decoders` — the decoders for the bodies of the two handlers;
* `decodeSubmitBlock`, `decodeGetPayload` — what the handlers make of a body;
* `Acceptable` — the slots that a request may be for;
* `CapellaStarts` — the request is for the first slot of the Capella fork.

Main results:

* `version_eq_iff` — **where the forks of the head slot and of a request agree**;
* `decoded_fork_iff` — the same for what the handlers decode.
-/

import Dreamboat.GetPayload

set_option autoImplicit false

namespace Dreamboat

/-! ### The handlers -/

/-- An answer with an error. -/
structure HttpError where
  code : ℕ
  message : String
  deriving DecidableEq, Repr

/-- A submission with payloads of the type `E`. -/
structure SubmitBody (E : Type) where
  signature : Signature
  message : BidTrace
  executionPayload : E

/-- A signed blinded block with headers of the type `H`. -/
structure BlindedBody (H : Type) where
  signature : Signature
  message : BlindedBeaconBlock H

/-- The decoders of the two handlers, for bytes and for texts. -/
structure Decoders where
  submitCapellaSSZ : List UInt8 → Except GoError (SubmitBody Capella.ExecutionPayload)
  submitCapella : List UInt8 → Except GoError (SubmitBody Capella.ExecutionPayload)
  submitBellatrix : List UInt8 → Except GoError (SubmitBody Bellatrix.ExecutionPayload)
  blindedCapella : List UInt8 → Except GoError (BlindedBody Capella.ExecutionPayloadHeader)
  blindedBellatrix : List UInt8 → Except GoError (BlindedBody Bellatrix.ExecutionPayloadHeader)

/-- `Validate` of a submission; the text of a value is never empty. -/
def validateSubmit (message : BidTrace) (payload : Bellatrix.ExecutionPayload) : Bool :=
  message.slot ≠ 0 && payload.epBlockNumber > 0 && payload.epTimestamp > 0

/-- `Validate` of a blinded block. -/
def validateBlinded {H : Type} (message : BlindedBeaconBlock H) : Bool :=
  message.body.any fun body => body.executionPayloadHeader.isSome

/-- The fork whose type a blinded block has. -/
def SignedBlindedBeaconBlock.fork : SignedBlindedBeaconBlock → ForkVersion
  | bellatrix _ _ => .bellatrix
  | capella _ _ => .capella

/-- What a handler makes of a decoded body: an answer with the given message if the decoding has
failed, and one with another message if the body is not valid. -/
def decodeWith {B R : Type} (decoded : Except GoError B) (message : String) (valid : B → Bool)
    (request : B → R) : Except HttpError R :=
  match decoded with
  | .error _ => .error ⟨400, message⟩
  | .ok body => if valid body then .ok (request body) else .error ⟨400, "invalid payload"⟩

variable (D : Decoders) (fork : ForkState) (headSlot : UInt64)

/-- What the handler of submissions makes of a body. -/
def decodeSubmitBlock (octetStream : Bool) (b : List UInt8) : Except HttpError SubmitBlockRequest :=
  match fork.version headSlot with
  | .capella =>
      decodeWith (if octetStream then D.submitCapellaSSZ b else D.submitCapella b)
        (if octetStream then "invalid submitblock request capella decode ssz"
          else "invalid submitblock request capella decode")
        (fun creq => validateSubmit creq.message creq.executionPayload.toExecutionPayload)
        fun creq => ⟨creq.signature, creq.message, .capella creq.executionPayload⟩
  | .bellatrix =>
      decodeWith (D.submitBellatrix b) "invalid submitblock request bellatrix decode"
        (fun breq => validateSubmit breq.message breq.executionPayload)
        fun breq => ⟨breq.signature, breq.message, .bellatrix breq.executionPayload⟩
  | _ => .error ⟨500, "not supported fork version"⟩

/-- What the handler of blinded blocks makes of a body. -/
def decodeGetPayload (b : List UInt8) : Except HttpError SignedBlindedBeaconBlock :=
  match fork.version headSlot with
  | .capella =>
      decodeWith (D.blindedCapella b) "invalid getPayload request cappella decode"
        (fun creq => validateBlinded creq.message)
        fun creq => .capella creq.signature creq.message
  | .bellatrix =>
      decodeWith (D.blindedBellatrix b) "invalid getPayload request bellatrix decode"
        (fun breq => validateBlinded breq.message)
        fun breq => .bellatrix breq.signature breq.message
  | _ => .error ⟨500, "not supported fork version"⟩

/-- The slots that a request may be for: the head slot and the one after it. -/
def Acceptable (slot : UInt64) : Prop :=
  headSlot.toNat ≤ slot.toNat ∧ slot.toNat ≤ headSlot.toNat + 1

/-- The request is for the first slot of the Capella fork, and the head is the slot before. -/
def CapellaStarts (slot : UInt64) : Prop :=
  slot.toNat = headSlot.toNat + 1 ∧ 0 < fork.capellaEpoch.toNat ∧
    slot.toNat = 32 * fork.capellaEpoch.toNat

/-! ### Where the forks agree -/

variable {D fork headSlot} {slot : UInt64}

/-- **The forks of the head slot and of an acceptable slot agree** where the handlers decode
anything, except when the request is for the first slot of the Capella fork. -/
theorem version_eq_iff (hacc : Acceptable headSlot slot)
    (hhead : fork.version headSlot = .capella ∨ fork.version headSlot = .bellatrix) :
    fork.version headSlot = fork.version slot ↔ ¬CapellaStarts fork headSlot slot := by
  obtain ⟨hle, hlt⟩ := hacc
  rcases hhead with hhead | hhead
  · -- a fork does not end
    have hnum := ForkState.version_eq_capella_iff.1 hhead
    rw [hhead, eq_comm, ForkState.version_eq_capella_iff]
    unfold CapellaStarts
    omega
  · have hnum := ForkState.version_eq_bellatrix_iff.1 hhead
    rw [hhead, eq_comm, ForkState.version_eq_bellatrix_iff]
    unfold CapellaStarts
    omega

/-- What is decoded is a request made of a body. -/
theorem decodeWith_eq_ok {B R : Type} {decoded : Except GoError B} {message : String}
    {valid : B → Bool} {request : B → R} {r : R}
    (h : decodeWith decoded message valid request = .ok r) : ∃ body, r = request body := by
  unfold decodeWith at h
  split at h
  · cases h
  · split at h
    · exact ⟨_, (Except.ok.inj h).symm⟩
    · cases h

/-- A submission is decoded into the type of the fork of the head slot. -/
theorem fork_of_decodeSubmitBlock {octetStream : Bool} {b : List UInt8} {sbr : SubmitBlockRequest}
    (h : decodeSubmitBlock D fork headSlot octetStream b = .ok sbr) :
    sbr.executionPayload.fork = fork.version headSlot ∧
      (fork.version headSlot = .capella ∨ fork.version headSlot = .bellatrix) := by
  unfold decodeSubmitBlock at h
  split at h
  · next hfork =>
      obtain ⟨creq, rfl⟩ := decodeWith_eq_ok h
      exact ⟨hfork.symm, Or.inl hfork⟩
  · next hfork =>
      obtain ⟨breq, rfl⟩ := decodeWith_eq_ok h
      exact ⟨hfork.symm, Or.inr hfork⟩
  · cases h

/-- A blinded block is decoded into the type of the fork of the head slot. -/
theorem fork_of_decodeGetPayload {b : List UInt8} {request : SignedBlindedBeaconBlock}
    (h : decodeGetPayload D fork headSlot b = .ok request) :
    request.fork = fork.version headSlot ∧
      (fork.version headSlot = .capella ∨ fork.version headSlot = .bellatrix) := by
  unfold decodeGetPayload at h
  split at h
  · next hfork =>
      obtain ⟨creq, rfl⟩ := decodeWith_eq_ok h
      exact ⟨hfork.symm, Or.inl hfork⟩
  · next hfork =>
      obtain ⟨breq, rfl⟩ := decodeWith_eq_ok h
      exact ⟨hfork.symm, Or.inr hfork⟩
  · cases h

/-- **What the handlers decode is of the fork of its slot exactly when the slot is not the first one
of the Capella fork**, decoded while the head is the slot before. -/
theorem decoded_fork_iff (D : Decoders) (fork : ForkState) (headSlot : UInt64) :
    (∀ octetStream b sbr, decodeSubmitBlock D fork headSlot octetStream b = .ok sbr →
      Acceptable headSlot sbr.slot →
      (sbr.executionPayload.fork = fork.version sbr.slot ↔
        ¬CapellaStarts fork headSlot sbr.slot)) ∧
    ∀ b request, decodeGetPayload D fork headSlot b = .ok request →
      Acceptable headSlot request.slot →
      (request.fork = fork.version request.slot ↔ ¬CapellaStarts fork headSlot request.slot) := by
  constructor
  · intro octetStream b sbr h hacc
    obtain ⟨hfork, hhead⟩ := fork_of_decodeSubmitBlock h
    rw [hfork]
    exact version_eq_iff hacc hhead
  · intro b request h hacc
    obtain ⟨hfork, hhead⟩ := fork_of_decodeGetPayload h
    rw [hfork]
    exact version_eq_iff hacc hhead

/-- Decoders that read the same request from every body. -/
def fixedDecoders (slot : UInt64) : Decoders where
  submitCapellaSSZ _ := .error (.new "incorrect size")
  submitCapella _ := .ok ⟨default, { (default : BidTrace) with slot := slot },
    { (default : Capella.ExecutionPayload) with epBlockNumber := 1, epTimestamp := 1 }⟩
  submitBellatrix _ := .ok ⟨default, { (default : BidTrace) with slot := slot },
    { (default : Bellatrix.ExecutionPayload) with epBlockNumber := 1, epTimestamp := 1 }⟩
  blindedCapella _ := .ok ⟨default,
    ⟨slot, 0, default, default, some ⟨true, true, some default, []⟩⟩⟩
  blindedBellatrix _ := .ok ⟨default,
    ⟨slot, 0, default, default, some ⟨true, true, some default, []⟩⟩⟩

/-- The forks begin with the slots `32` and `64`. -/
def oneEpochEach : ForkState := ⟨0, 1, 2⟩

/-- A submission for the slot `65`, decoded at the head slot `64`. -/
theorem decoded_fork_iff_second_slot :
    ∃ sbr, decodeSubmitBlock (fixedDecoders 65) oneEpochEach 64 false [] = .ok sbr ∧
      Acceptable 64 sbr.slot ∧ sbr.executionPayload.fork = oneEpochEach.version sbr.slot := by
  have hacc : Acceptable 64 65 := by unfold Acceptable; decide
  have hstarts : ¬CapellaStarts oneEpochEach 64 65 := by unfold CapellaStarts; decide
  refine ⟨_, rfl, hacc, ?_⟩
  exact ((decoded_fork_iff (fixedDecoders 65) oneEpochEach 64).1 false [] _ rfl hacc).2 hstarts

/-- A submission and a blinded block for the first slot of the Capella fork, decoded at the slot
before: their types are those of the Bellatrix fork. -/
theorem decoded_fork_ne_first_slot :
    (∃ sbr, decodeSubmitBlock (fixedDecoders 64) oneEpochEach 63 false [] = .ok sbr ∧
      Acceptable 63 sbr.slot ∧ sbr.executionPayload.fork = .bellatrix ∧
      oneEpochEach.version sbr.slot = .capella) ∧
    ∃ request, decodeGetPayload (fixedDecoders 64) oneEpochEach 63 [] = .ok request ∧
      Acceptable 63 request.slot ∧ request.fork = .bellatrix ∧
      oneEpochEach.version request.slot = .capella := by
  have hacc : Acceptable 63 64 := by unfold Acceptable; decide
  exact ⟨⟨_, rfl, hacc, rfl, rfl⟩, ⟨_, rfl, hacc, rfl, rfl⟩⟩

end Dreamboat
