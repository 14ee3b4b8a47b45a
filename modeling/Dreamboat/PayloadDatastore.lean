/-
**Storing payloads as JSON.**

`src/datastore/datastore.go` writes a payload as JSON under its key, and reads it back into a value
of the fork that the caller asks for.  The JSON of the two forks has no member names in common, and
the decoder passes over members that it does not know: a payload that is read as one of the other
fork is empty, and there is no error.

Main definitions:

* `BlockAndTraceExtended.toBlock` — a stored payload with the pointers and the versions that the
  code gives it;
* `Stream.Block.text` — its JSON;
* `PayloadStore.getPayload` — reading it.

Main results:

* `PayloadStore.getPayload_of_lookup` — what is read from the JSON of a payload;
* `PayloadStore.getPayload_stored` — **after any calls of `PutPayload`, the payload that was put
  last is read back, and an empty one under the other fork**.
-/

import Dreamboat.PayloadJson
import Dreamboat.RawPayload

set_option autoImplicit false

namespace Dreamboat

open PayloadJson (BoostCodecs boostJson bellatrixBlock capellaBlock)

/-! ### Payloads as they are stored -/

def ExecutionPayloadHeader.bellatrix? :
    ExecutionPayloadHeader → Option Bellatrix.ExecutionPayloadHeader
  | bellatrix header => some header
  | capella _ => none

/-- The versions in the answers of the forks. -/
def versionBytes (version : String) : List UInt8 := Utf8.bytes version.toList

theorem cleanText_bellatrix : PayloadJson.CleanText (versionBytes "bellatrix") := by decide

theorem cleanText_capella : PayloadJson.CleanText (versionBytes "capella") := by decide

/-- A payload with the pointers and the versions of `PreparePayloadContents`.  The bid of the
earlier fork has a header of that fork. -/
def BlockAndTraceExtended.toBlock : BlockAndTraceExtended → Stream.Block
  | bellatrix trace bid payload => .bellatrix {
      trace := some ⟨trace.signature, some trace.message⟩
      bid := {
        bellatrixVersion := versionBytes "bellatrix"
        bellatrixData := {
          bellatrixMessage := some {
            bellatrixHeader := bid.message.header.bellatrix?
            bellatrixValue := bid.message.value
            bellatrixPubkey := bid.message.pubkey }
          bellatrixSignature := bid.signature } }
      payload := ⟨versionBytes "bellatrix", payload⟩ }
  | capella payload trace executionHeaderHash => .capella {
      capellaPayload := ⟨versionBytes "capella", payload⟩
      capellaTrace := trace
      capellaExecutionHeaderHash := executionHeaderHash }

namespace Stream.Block

variable (B : BoostCodecs)

/-- `json.Marshal`. -/
def text : Block → List Char
  | bellatrix b => Go.Json.text ((bellatrixBlock B).write b)
  | capella b => Go.Json.text ((capellaBlock B).write b)

/-- What JSON can carry. -/
def Readable : Block → Prop
  | bellatrix b => PayloadJson.BellatrixReadable b
  | capella b => PayloadJson.CapellaReadable b

def unmarshalBellatrix (data : List UInt8) : Except GoError Block :=
  (unmarshal (boostJson B) (Bellatrix.BlockBidAndTrace.unmarshalJSON (boostJson B)) data).map
    .bellatrix

def unmarshalCapella (data : List UInt8) : Except GoError Block :=
  (unmarshal (boostJson B) (Capella.BlockAndTraceExtended.unmarshalJSON (boostJson B)) data).map
    .capella

/-- What is read back under a fork: a block of the other fork is empty. -/
def readAs (block : Block) : ForkVersion → Except GoError Block
  | .bellatrix =>
      match block with
      | bellatrix b => .ok (.bellatrix b)
      | capella _ => .ok (.bellatrix default)
  | .capella =>
      match block with
      | bellatrix _ => .ok (.capella default)
      | capella b => .ok (.capella b)
  | .altair => .error (.new "unknown fork")
  | .unknown => .error (.new "unknown fork")

/-- The names of the members of the two forks. -/
def bellatrixKeys : List String := ["Trace", "Bid", "Payload"]
def capellaKeys : List String := ["CapellaPayload", "CapellaTrace", "execution_header_hash"]

variable {B}

theorem unmarshalBellatrix_text {block : Block} (h : block.Readable) :
    unmarshalBellatrix B (Utf8.bytes (block.text B)) = block.readAs .bellatrix := by
  cases block with
  | bellatrix b =>
      have hread := PayloadJson.unmarshal_marshal (B := B) (bellatrixBlock B)
        (PayloadJson.BellatrixReadable.fit h) rfl PayloadJson.depth_bellatrixBlock
      rw [PayloadJson.read_bellatrixBlock] at hread
      exact congrArg (Except.map Block.bellatrix) hread
  | capella b =>
      have hread : unmarshal (boostJson B)
          (Bellatrix.BlockBidAndTrace.unmarshalJSON (boostJson B))
          (PayloadJson.marshal (capellaBlock B) b) = .ok default :=
        PayloadJson.unmarshal_foreign (capellaBlock B) capellaKeys bellatrixKeys
          (PayloadJson.CapellaReadable.fit h) rfl PayloadJson.depth_capellaBlock rfl rfl (by decide)
      exact congrArg (Except.map Block.bellatrix) hread

theorem unmarshalCapella_text {block : Block} (h : block.Readable) :
    unmarshalCapella B (Utf8.bytes (block.text B)) = block.readAs .capella := by
  cases block with
  | bellatrix b =>
      have hread : unmarshal (boostJson B)
          (Capella.BlockAndTraceExtended.unmarshalJSON (boostJson B))
          (PayloadJson.marshal (bellatrixBlock B) b) = .ok default :=
        PayloadJson.unmarshal_foreign (bellatrixBlock B) bellatrixKeys capellaKeys
          (PayloadJson.BellatrixReadable.fit h) rfl PayloadJson.depth_bellatrixBlock rfl rfl
          (by decide)
      exact congrArg (Except.map Block.capella) hread
  | capella b =>
      have hread := PayloadJson.unmarshal_marshal (B := B) (capellaBlock B)
        (PayloadJson.CapellaReadable.fit h) rfl PayloadJson.depth_capellaBlock
      rw [PayloadJson.read_capellaBlock] at hread
      exact congrArg (Except.map Block.capella) hread

end Stream.Block

namespace PayloadStore

/-! ### Reading -/

variable (B : BoostCodecs)

/-- `GetPayload`; `notFound` is the error of the storage for a key that it does not have. -/
def getPayload (notFound : GoError) (db : DB) (fork : ForkVersion) (key : PayloadKey) :
    Except GoError Stream.Block :=
  match db.lookup (payloadKeyKey key) with
  | none => .error notFound
  | some data =>
      match fork with
      | .bellatrix => Stream.Block.unmarshalBellatrix B (Utf8.bytes data)
      | .capella => Stream.Block.unmarshalCapella B (Utf8.bytes data)
      | .altair => .error (.new "unknown fork")
      | .unknown => .error (.new "unknown fork")

/-- `json.Marshal` on a payload. -/
def marshalPayload (payload : BlockAndTraceExtended) : Except GoError Text :=
  .ok (payload.toBlock.text B)

variable {B}

theorem getPayload_of_lookup {notFound : GoError} {db : DB} {key : PayloadKey}
    {block : Stream.Block} (h : db.lookup (payloadKeyKey key) = some (block.text B))
    (hread : block.Readable) (fork : ForkVersion) :
    getPayload B notFound db fork key = block.readAs fork := by
  rw [getPayload, h]
  cases fork with
  | bellatrix => exact Stream.Block.unmarshalBellatrix_text hread
  | capella => exact Stream.Block.unmarshalCapella_text hread
  | altair | unknown => rfl

variable {puts : List (PayloadKey × BlockAndTraceExtended)}

theorem storedAt_marshalPayload (key : PayloadKey) :
    storedAt (marshalPayload B) puts key =
      (KeyedLog.lastWrite Prod.fst key puts).map fun put => put.2.toBlock.text B := by
  have hwritten : written (marshalPayload B) puts =
      puts.map fun put => (put.1, put.2.toBlock.text B) := congrFun List.filterMap_eq_map puts
  rw [storedAt, hwritten, KeyedLog.lastWrite, KeyedLog.lastWrite, List.filter_map,
    List.getLast?_map, Option.map_map]
  rfl

/-- **After any calls of `PutPayload`, the payload that was put last is read back**, if the fork is
its own; under the other fork an empty one is read. -/
theorem getPayload_stored (h : ∀ put ∈ puts, put.2.toBlock.Readable) (notFound : GoError)
    (fork : ForkVersion) (key : PayloadKey) :
    getPayload B notFound (stored (marshalPayload B) puts) fork key =
      (KeyedLog.lastWrite Prod.fst key puts).elim (.error notFound)
        fun put => put.2.toBlock.readAs fork := by
  have hlookup : (stored (marshalPayload B) puts).lookup (payloadKeyKey key) =
      storedAt (marshalPayload B) puts key := by
    refine Option.ext fun data => ?_
    rw [lookup_stored]
    constructor
    · rintro ⟨key', hkey, hdata⟩
      rw [payloadKeyKey_injective hkey]
      exact hdata
    · exact fun hdata => ⟨key, rfl, hdata⟩
  rw [storedAt_marshalPayload] at hlookup
  cases hlast : KeyedLog.lastWrite Prod.fst key puts with
  | none =>
      rw [hlast] at hlookup
      rw [getPayload, hlookup]
      rfl
  | some put =>
      rw [hlast] at hlookup
      exact getPayload_of_lookup hlookup (h put (KeyedLog.mem_of_lastWrite _ hlast).1) fork

/-- A payload with a transaction, two withdrawals and as much extra data as there may be. -/
def samplePayload : Capella.ExecutionPayload :=
  { (default : Capella.ExecutionPayload) with
    epBlockNumber := 17
    epExtraData := List.replicate 32 7
    epBaseFeePerGas := .ofNat 1000
    epTransactions := [[2, 248]]
    epWithdrawals := some [⟨1, 2, Vector.replicate 20 3, 4⟩, default] }

/-- Two payloads under one key, with different roots. -/
def putTwice : List (PayloadKey × BlockAndTraceExtended) :=
  [(default, .capella default default default),
    (default, .capella samplePayload default (Vector.replicate 32 1))]

def keyNotFound : GoError := .new "datastore: key not found"

theorem getPayload_stored_putTwice :
    (∀ put ∈ putTwice, put.2.toBlock.Readable) ∧
      getPayload .plain keyNotFound (stored (marshalPayload .plain) putTwice) .capella default =
        .ok (BlockAndTraceExtended.capella samplePayload default (Vector.replicate 32 1)).toBlock ∧
      getPayload .plain keyNotFound (stored (marshalPayload .plain) putTwice) .bellatrix default =
        .ok (.bellatrix default) := by
  have hreadable : ∀ put ∈ putTwice, put.2.toBlock.Readable := by
    refine List.forall_iff_forall_mem.1 ⟨⟨?_, ?_⟩, ?_, ?_⟩
    all_goals decide
  have hlast : KeyedLog.lastWrite Prod.fst default putTwice =
      some (default, .capella samplePayload default (Vector.replicate 32 1)) := by
    simp [KeyedLog.lastWrite, putTwice]
  refine ⟨hreadable, ?_, ?_⟩
  · rw [getPayload_stored hreadable, hlast]
    rfl
  · rw [getPayload_stored hreadable, hlast]
    rfl

end PayloadStore

end Dreamboat
