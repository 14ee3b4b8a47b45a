/-
**Bids and blocks from other instances.**

`src/stream/stream.go` decodes the messages of the bid topic and of the cache topic; the
subscribers of `src/relay/relay.go` give the bids to the auctioneer and put the blocks into the
cache.  A bid has a pointer to its header and a block of the earlier fork a pointer to its trace,
which has a pointer to its message.  The decoders for bytes make what the pointers point at; JSON
that does not mention it leaves them `nil`, and the subscribers read through them without a look.

Main definitions:

* `JsonTypes` — the decoders for the values without pointers;
* `Stream.handleBid`, `Stream.handleCache` — the decoding of a message;
* `Stream.State`, `Stream.receive` — a message is decoded and consumed;
* `Stream.complete` — the JSON of a message sets the pointers.

Main results:

* `Bellatrix.tracks_builderBidExtended`, `Capella.tracks_builderBidExtended`,
  `Bellatrix.tracks_blockBidAndTrace` — when the JSON sets the pointers;
* `Stream.survives_iff` — **the relay survives exactly the messages that are complete**;
* `Stream.crashes_empty` — a message without any member is decoded, and crashes it.
-/

import Dreamboat.AcceptedSsz
import Dreamboat.Auctioneer
import Dreamboat.GoJson

set_option autoImplicit false

namespace Dreamboat

open Go.Json (Into Field Tracks struct pointer atMember pointsAfter afterPointer tracks_struct
  tracks_struct_head tracks_of keeps_of tracks_pointer tracks_isSome_pointer)
open Ssz (Decoder)

/-! ### The types of the earlier fork -/

namespace Bellatrix

structure BuilderBid where
  bellatrixHeader : Option ExecutionPayloadHeader
  bellatrixValue : U256Str
  bellatrixPubkey : PublicKey
  deriving DecidableEq, Inhabited, Repr

structure BuilderBidExtended where
  bellatrixBuilderBid : BuilderBid
  bellatrixProposer : PublicKey
  bellatrixSlot : UInt64
  deriving DecidableEq, Inhabited, Repr

/-- `types.SignedBidTrace`. -/
structure SignedBidTrace where
  signature : Signature
  message : Option BidTrace
  deriving DecidableEq, Inhabited, Repr

structure SignedBuilderBid where
  bellatrixMessage : Option BuilderBid
  bellatrixSignature : Signature
  deriving DecidableEq, Inhabited, Repr

structure GetHeaderResponse where
  bellatrixVersion : List UInt8
  bellatrixData : SignedBuilderBid
  deriving DecidableEq, Inhabited, Repr

structure GetPayloadResponse where
  bellatrixVersion : List UInt8
  bellatrixData : ExecutionPayload
  deriving DecidableEq, Inhabited, Repr

structure BlockBidAndTrace where
  trace : Option SignedBidTrace
  bid : GetHeaderResponse
  payload : GetPayloadResponse
  deriving DecidableEq, Inhabited, Repr

end Bellatrix

/-! ### Reading JSON -/

/-- The syntax of JSON, the error for a value of another kind, and how the values without pointers
are read. -/
structure JsonTypes where
  parse : List UInt8 → Except GoError Go.Json
  mismatch : GoError
  publicKey : Into GoError PublicKey
  signature : Into GoError Signature
  hash : Into GoError Hash
  u256Str : Into GoError U256Str
  uint64 : Into GoError UInt64
  versionString : Into GoError (List UInt8)
  bidTrace : Into GoError BidTrace
  bellatrixHeader : Into GoError Bellatrix.ExecutionPayloadHeader
  bellatrixPayload : Into GoError Bellatrix.ExecutionPayload
  capellaHeader : Into GoError Capella.ExecutionPayloadHeader
  capellaPayload : Into GoError Capella.ExecutionPayload

namespace Bellatrix

variable (J : JsonTypes)

def BuilderBid.unmarshalJSON : Into GoError BuilderBid := struct J.mismatch
  [.of "header" bellatrixHeader (fun b x => { b with bellatrixHeader := x })
      (pointer default J.bellatrixHeader),
    .of "value" bellatrixValue (fun b x => { b with bellatrixValue := x }) J.u256Str,
    .of "pubkey" bellatrixPubkey (fun b x => { b with bellatrixPubkey := x }) J.publicKey]

def BuilderBidExtended.unmarshalJSON : Into GoError BuilderBidExtended := struct J.mismatch
  [.of "bid" bellatrixBuilderBid (fun b x => { b with bellatrixBuilderBid := x })
      (BuilderBid.unmarshalJSON J),
    .of "proposer" bellatrixProposer (fun b x => { b with bellatrixProposer := x }) J.publicKey,
    .of "slot" bellatrixSlot (fun b x => { b with bellatrixSlot := x }) J.uint64]

def SignedBidTrace.unmarshalJSON : Into GoError SignedBidTrace := struct J.mismatch
  [.of "signature" signature (fun t x => { t with signature := x }) J.signature,
    .of "message" message (fun t x => { t with message := x }) (pointer default J.bidTrace)]

def SignedBuilderBid.unmarshalJSON : Into GoError SignedBuilderBid := struct J.mismatch
  [.of "message" bellatrixMessage (fun s x => { s with bellatrixMessage := x })
      (pointer default (BuilderBid.unmarshalJSON J)),
    .of "signature" bellatrixSignature (fun s x => { s with bellatrixSignature := x }) J.signature]

def GetHeaderResponse.unmarshalJSON : Into GoError GetHeaderResponse := struct J.mismatch
  [.of "version" bellatrixVersion (fun g x => { g with bellatrixVersion := x }) J.versionString,
    .of "data" bellatrixData (fun g x => { g with bellatrixData := x })
      (SignedBuilderBid.unmarshalJSON J)]

def GetPayloadResponse.unmarshalJSON : Into GoError GetPayloadResponse := struct J.mismatch
  [.of "version" bellatrixVersion (fun g x => { g with bellatrixVersion := x }) J.versionString,
    .of "data" bellatrixData (fun g x => { g with bellatrixData := x }) J.bellatrixPayload]

def BlockBidAndTrace.unmarshalJSON : Into GoError BlockBidAndTrace := struct J.mismatch
  [.of "Trace" trace (fun b x => { b with trace := x })
      (pointer default (SignedBidTrace.unmarshalJSON J)),
    .of "Bid" bid (fun b x => { b with bid := x }) (GetHeaderResponse.unmarshalJSON J),
    .of "Payload" payload (fun b x => { b with payload := x }) (GetPayloadResponse.unmarshalJSON J)]

end Bellatrix

namespace Capella

variable (J : JsonTypes)

def BuilderBid.unmarshalJSON : Into GoError BuilderBid := struct J.mismatch
  [.of "header" capellaHeader (fun b x => { b with capellaHeader := x })
      (pointer default J.capellaHeader),
    .of "value" capellaValue (fun b x => { b with capellaValue := x }) J.u256Str,
    .of "pubkey" capellaPubkey (fun b x => { b with capellaPubkey := x }) J.publicKey]

def BuilderBidExtended.unmarshalJSON : Into GoError BuilderBidExtended := struct J.mismatch
  [.of "bid" capellaBuilderBid (fun b x => { b with capellaBuilderBid := x })
      (BuilderBid.unmarshalJSON J),
    .of "proposer" capellaProposer (fun b x => { b with capellaProposer := x }) J.publicKey,
    .of "slot" capellaSlot (fun b x => { b with capellaSlot := x }) J.uint64]

def SignedBidTrace.unmarshalJSON : Into GoError SignedBidTrace := struct J.mismatch
  [.of "signature" SignedBidTrace.signature (fun t x => { t with signature := x }) J.signature,
    .of "message" SignedBidTrace.message (fun t x => { t with message := x }) J.bidTrace]

def GetPayloadResponse.unmarshalJSON : Into GoError GetPayloadResponse := struct J.mismatch
  [.of "version" capellaVersion (fun g x => { g with capellaVersion := x }) J.versionString,
    .of "data" capellaData (fun g x => { g with capellaData := x }) J.capellaPayload]

def BlockAndTraceExtended.unmarshalJSON : Into GoError BlockAndTraceExtended := struct J.mismatch
  [.of "CapellaPayload" capellaPayload (fun b x => { b with capellaPayload := x })
      (GetPayloadResponse.unmarshalJSON J),
    .of "CapellaTrace" capellaTrace (fun b x => { b with capellaTrace := x })
      (SignedBidTrace.unmarshalJSON J),
    .of "execution_header_hash" capellaExecutionHeaderHash
      (fun b x => { b with capellaExecutionHeaderHash := x }) J.hash]

end Capella

/-! ### When JSON sets the pointers -/

/-- The JSON of a bid has a header, after all members that occur. -/
def setsHeader (j : Go.Json) : Bool :=
  atMember ["bid", "proposer", "slot"] "bid"
    (atMember ["header", "value", "pubkey"] "header" pointsAfter) j false

/-- The JSON of a block of the earlier fork has a trace with a message. -/
def setsMessage (j : Go.Json) : Bool :=
  atMember ["Trace", "Bid", "Payload"] "Trace"
    (afterPointer (atMember ["signature", "message"] "message" pointsAfter)) j false

theorem Bellatrix.tracks_builderBidExtended (J : JsonTypes) :
    Tracks (Bellatrix.BuilderBidExtended.unmarshalJSON J)
      (fun b => b.bellatrixBuilderBid.bellatrixHeader.isSome)
      (atMember ["bid", "proposer", "slot"] "bid"
        (atMember ["header", "value", "pubkey"] "header" pointsAfter)) := by
  have hbid : Tracks (BuilderBid.unmarshalJSON J) (fun b => b.bellatrixHeader.isSome)
      (atMember ["header", "value", "pubkey"] "header" pointsAfter) := by
    refine tracks_struct_head (tracks_of (tracks_isSome_pointer _ _) (fun _ _ => rfl) fun _ => rfl)
      ⟨⟨by simp [Field.of], ?_⟩, by simp [Field.of], ?_⟩
    · exact keeps_of fun _ _ => rfl
    · exact keeps_of fun _ _ => rfl
  refine tracks_struct_head (tracks_of hbid (fun _ _ => rfl) fun _ => rfl)
    ⟨⟨by simp [Field.of], ?_⟩, by simp [Field.of], ?_⟩
  · exact keeps_of fun _ _ => rfl
  · exact keeps_of fun _ _ => rfl

theorem Capella.tracks_builderBidExtended (J : JsonTypes) :
    Tracks (Capella.BuilderBidExtended.unmarshalJSON J)
      (fun b => b.capellaBuilderBid.capellaHeader.isSome)
      (atMember ["bid", "proposer", "slot"] "bid"
        (atMember ["header", "value", "pubkey"] "header" pointsAfter)) := by
  have hbid : Tracks (BuilderBid.unmarshalJSON J) (fun b => b.capellaHeader.isSome)
      (atMember ["header", "value", "pubkey"] "header" pointsAfter) := by
    refine tracks_struct_head (tracks_of (tracks_isSome_pointer _ _) (fun _ _ => rfl) fun _ => rfl)
      ⟨⟨by simp [Field.of], ?_⟩, by simp [Field.of], ?_⟩
    · exact keeps_of fun _ _ => rfl
    · exact keeps_of fun _ _ => rfl
  refine tracks_struct_head (tracks_of hbid (fun _ _ => rfl) fun _ => rfl)
    ⟨⟨by simp [Field.of], ?_⟩, by simp [Field.of], ?_⟩
  · exact keeps_of fun _ _ => rfl
  · exact keeps_of fun _ _ => rfl

theorem Bellatrix.tracks_blockBidAndTrace (J : JsonTypes) :
    Tracks (Bellatrix.BlockBidAndTrace.unmarshalJSON J)
      (fun b => b.trace.any fun t => t.message.isSome)
      (atMember ["Trace", "Bid", "Payload"] "Trace"
        (afterPointer (atMember ["signature", "message"] "message" pointsAfter))) := by
  have htrace : Tracks (SignedBidTrace.unmarshalJSON J) (fun t => t.message.isSome)
      (atMember ["signature", "message"] "message" pointsAfter) := by
    refine tracks_struct fun field hfield => ?_
    simp only [List.mem_cons, List.not_mem_nil, or_false] at hfield
    rcases hfield with rfl | rfl
    · exact keeps_of fun _ _ => rfl
    · exact tracks_of (tracks_isSome_pointer _ _) (fun _ _ => rfl) fun _ => rfl
  refine tracks_struct_head (tracks_of (tracks_pointer htrace rfl) (fun _ _ => rfl) fun _ => rfl)
    ⟨⟨by simp [Field.of], ?_⟩, by simp [Field.of], ?_⟩
  · exact keeps_of fun _ _ => rfl
  · exact keeps_of fun _ _ => rfl

namespace Stream

/-! ### Messages -/

/-- `transport.ForkVersionFormat`. -/
def bellatrixJson : UInt64 := 2
def capellaJson : UInt64 := 3
def capellaSSZ : UInt64 := 4

structure Message where
  forkEncoding : UInt64
  payload : List UInt8
  deriving DecidableEq, Repr

/-- `structs.BuilderBidExtended`, behind a pointer. -/
inductive Bid where
  | bellatrix (b : Bellatrix.BuilderBidExtended)
  | capella (b : Capella.BuilderBidExtended)
  deriving DecidableEq, Repr

/-- `structs.BlockAndTraceExtended`, behind a pointer. -/
inductive Block where
  | bellatrix (b : Bellatrix.BlockBidAndTrace)
  | capella (b : Capella.BlockAndTraceExtended)
  deriving DecidableEq, Repr

/-- `json.Unmarshal`. -/
def unmarshal {α : Type} [Inhabited α] (J : JsonTypes) (into : Into GoError α)
    (payload : List UInt8) : Except GoError α := do
  let j ← J.parse payload
  into j default

variable (J : JsonTypes)

def unknownForkEncoding (forkEncoding : UInt64) : GoError :=
  .new s!"unknown fork encoding: {forkEncoding}"

/-- The decoding in `handleBid`. -/
def handleBid (msg : Message) : Decoder GoError Bid :=
  if msg.forkEncoding = bellatrixJson then
    ExceptT.mk (some
      ((unmarshal J (Bellatrix.BuilderBidExtended.unmarshalJSON J) msg.payload).map .bellatrix))
  else if msg.forkEncoding = capellaJson then
    ExceptT.mk (some
      ((unmarshal J (Capella.BuilderBidExtended.unmarshalJSON J) msg.payload).map .capella))
  else if msg.forkEncoding = capellaSSZ then do
    let cbb ← (default : Capella.BuilderBidExtended).unmarshalSSZ msg.payload
    return .capella cbb
  else throw (unknownForkEncoding msg.forkEncoding)

/-- The decoding in `handleCache`. -/
def handleCache (msg : Message) : Decoder GoError Block :=
  if msg.forkEncoding = bellatrixJson then
    ExceptT.mk (some
      ((unmarshal J (Bellatrix.BlockBidAndTrace.unmarshalJSON J) msg.payload).map .bellatrix))
  else if msg.forkEncoding = capellaJson then
    ExceptT.mk (some
      ((unmarshal J (Capella.BlockAndTraceExtended.unmarshalJSON J) msg.payload).map .capella))
  else if msg.forkEncoding = capellaSSZ then do
    let cbbt ← (default : Capella.BlockAndTraceExtended).unmarshalSSZ msg.payload
    return .capella cbbt
  else throw (unknownForkEncoding msg.forkEncoding)

/-! ### The subscribers -/

/-- `BuilderBid().Header()`: `none` is a pointer that is `nil`. -/
def Bid.header : Bid → Option ExecutionPayloadHeader
  | bellatrix b => b.bellatrixBuilderBid.bellatrixHeader.map .bellatrix
  | capella b => b.capellaBuilderBid.capellaHeader.map .capella

/-- The bid as the auctioneer has it, which begins with `Header().GetParentHash()`: `none` is a
panic. -/
def Bid.toAuction (bid : Bid) : Option BuilderBidExtended := do
  let header ← bid.header
  return match bid with
    | bellatrix b =>
        ⟨⟨header, b.bellatrixBuilderBid.bellatrixValue, b.bellatrixBuilderBid.bellatrixPubkey⟩,
          b.bellatrixProposer, b.bellatrixSlot⟩
    | capella b =>
        ⟨⟨header, b.capellaBuilderBid.capellaValue, b.capellaBuilderBid.capellaPubkey⟩,
          b.capellaProposer, b.capellaSlot⟩

/-- `Trace.Message`, through which `Slot` and `Proposer` read: `none` is a panic. -/
def Block.message : Block → Option BidTrace
  | bellatrix b => b.trace.bind fun t => t.message
  | capella b => some b.capellaTrace.message

/-- `ExecutionPayload().BlockHash()`. -/
def Block.blockHash : Block → Hash
  | bellatrix b => b.payload.bellatrixData.epBlockHash
  | capella b => b.capellaPayload.capellaData.epBlockHash

/-- The key of `runSubscriberBlockCache`. -/
def Block.key (block : Block) : Option PayloadKey := do
  let message ← block.message
  return { blockHash := block.blockHash, proposer := message.proposerPubkey, slot := message.slot }

structure State where
  auctioneer : Auctioneer
  pc : Go.Map PayloadKey Block

/-- A message of a topic.  `AddBlock` goes through a map in some order. -/
inductive Incoming where
  | bid (msg : Message) (order : LoopOrder)
  | cache (msg : Message)

/-- `subscribe` drops a message that cannot be decoded, and a subscriber consumes the others: `none`
is a panic. -/
def subscribe {α : Type} (s : State) (x : Decoder GoError α) (consume : α → Option State) :
    Option State := do
  match ← x.run with
  | .error _ => return s
  | .ok a => consume a

/-- What the loop of `runSubscriberBid` does with a bid. -/
def consumeBid (s : State) (order : LoopOrder) (bid : Bid) : Option State := do
  let bid ← bid.toAuction
  return { s with auctioneer := (s.auctioneer.addBlock ⟨order, bid⟩).1 }

/-- What the loop of `runSubscriberBlockCache` does with a block. -/
def consumeBlock (s : State) (cache : Block) : Option State := do
  let key ← cache.key
  return match s.pc.lookup key with
    | some _ => s
    | none => { s with pc := s.pc.insert key cache }

/-- A message is decoded and consumed: `none` is a panic, in a goroutine that nothing recovers.
Whether there is one does not depend on what else waits in the channels. -/
def receive (s : State) : Incoming → Option State
  | .bid msg order => subscribe s (handleBid J msg) (consumeBid s order)
  | .cache msg => subscribe s (handleCache J msg) (consumeBlock s)

/-! ### Messages that are complete -/

/-- JSON that the decoder accepts sets what the subscriber reads through. -/
def completeJson {α : Type} [Inhabited α] (into : Into GoError α) (sets : Go.Json → Bool)
    (payload : List UInt8) : Bool :=
  match J.parse payload with
  | .error _ => true
  | .ok j => sets j || !(into j default).isOk

/-- A bid in JSON has a header, and a block of the earlier fork a trace with a message. -/
def complete : Incoming → Bool
  | .bid msg _ =>
      if msg.forkEncoding = bellatrixJson then
        completeJson J (Bellatrix.BuilderBidExtended.unmarshalJSON J) setsHeader msg.payload
      else if msg.forkEncoding = capellaJson then
        completeJson J (Capella.BuilderBidExtended.unmarshalJSON J) setsHeader msg.payload
      else true
  | .cache msg =>
      if msg.forkEncoding = bellatrixJson then
        completeJson J (Bellatrix.BlockBidAndTrace.unmarshalJSON J) setsMessage msg.payload
      else true

/-- What is decoded from complete JSON has the property. -/
theorem completeJson_iff {α : Type} [Inhabited α] {into : Into GoError α} {P : α → Bool}
    {e : Go.Json → Bool → Bool} (h : Tracks into P e) (hdefault : P default = false)
    (payload : List UInt8) :
    completeJson J into (e · false) payload = true ↔
      ∀ a, unmarshal J into payload = .ok a → P a = true := by
  unfold completeJson unmarshal
  cases J.parse payload with
  | error err => exact iff_of_true rfl nofun
  | ok j =>
      show (e j false || !(into j default).isOk) = true ↔ ∀ a, into j default = .ok a → P a = true
      cases hinto : into j default with
      | error err => exact iff_of_true (by simp [Except.isOk, Except.toBool]) nofun
      | ok a =>
          have hP : P a = e j false := by
            rw [h j default a hinto, hdefault]
          constructor
          · rintro he a' ⟨⟩
            rw [hP]
            simpa [Except.isOk, Except.toBool] using he
          · intro ha
            rw [← hP, ha a rfl]
            rfl

/-- There is no panic if the decoder has none and what it hands on can be consumed. -/
theorem isSome_subscribe_iff {α : Type} {x : Decoder GoError α} {s : State}
    {consume : α → Option State} : (subscribe s x consume).isSome = true ↔
      Ssz.Returns x fun a => (consume a).isSome = true := by
  unfold subscribe
  cases hx : x.run with
  | none =>
      refine iff_of_false nofun ?_
      rintro ⟨r, hr, -⟩
      rw [hx] at hr
      cases hr
  | some r =>
      cases r with
      | error err => exact iff_of_true rfl ⟨.error err, hx, nofun⟩
      | ok a =>
          constructor
          · intro ha
            refine ⟨.ok a, hx, ?_⟩
            rintro a' ⟨⟩
            exact ha
          · intro h
            exact h.of_run hx

/-- A decoder that does not panic. -/
theorem returns_mk_map_iff {α β : Type} {x : Except GoError α} {f : α → β} {post : β → Prop} :
    Ssz.Returns (ExceptT.mk (some (x.map f)) : Decoder GoError β) post ↔
      ∀ a, x = .ok a → post (f a) := by
  cases x with
  | error err => exact iff_of_true ⟨_, rfl, nofun⟩ nofun
  | ok a =>
      constructor
      · rintro h a' ⟨⟩
        exact h.of_run rfl
      · intro h
        refine ⟨_, rfl, ?_⟩
        rintro b ⟨⟩
        exact h a rfl

theorem isSome_consumeBid (s : State) (order : LoopOrder) (bid : Bid) :
    (consumeBid s order bid).isSome = bid.header.isSome := by
  unfold consumeBid Bid.toAuction
  cases bid.header <;> rfl

theorem isSome_consumeBlock (s : State) (block : Block) :
    (consumeBlock s block).isSome = block.message.isSome := by
  unfold consumeBlock Block.key
  cases block.message <;> rfl

theorem returns_handleBid_iff (msg : Message) (order : LoopOrder) :
    Ssz.Returns (handleBid J msg) (fun bid => bid.header.isSome = true) ↔
      complete J (.bid msg order) = true := by
  simp only [handleBid, complete]
  split_ifs with hb hc hs
  · rw [returns_mk_map_iff]
    refine Iff.trans ?_ (completeJson_iff J (Bellatrix.tracks_builderBidExtended J) rfl _).symm
    simp only [Bid.header, Option.isSome_map]
  · rw [returns_mk_map_iff]
    refine Iff.trans ?_ (completeJson_iff J (Capella.tracks_builderBidExtended J) rfl _).symm
    simp only [Bid.header, Option.isSome_map]
  · -- the decoder for bytes makes a header
    refine iff_of_true ?_ rfl
    refine (Capella.BuilderBidExtended.returns_unmarshalSSZ _ _).bind fun cbb hcbb => ?_
    obtain ⟨header, hheader, _⟩ := hcbb.bid.header
    refine Ssz.returns_pure ?_
    rw [Bid.header, hheader]
    rfl
  · exact iff_of_true (Ssz.returns_throw _) rfl

theorem returns_handleCache_iff (msg : Message) :
    Ssz.Returns (handleCache J msg) (fun block => block.message.isSome = true) ↔
      complete J (.cache msg) = true := by
  simp only [handleCache, complete]
  split_ifs with hb hc hs
  · rw [returns_mk_map_iff]
    refine Iff.trans ?_ (completeJson_iff J (Bellatrix.tracks_blockBidAndTrace J) rfl _).symm
    simp only [Block.message, Option.isSome_bind]
  · exact iff_of_true (returns_mk_map_iff.2 fun _ _ => rfl) rfl
  · refine iff_of_true ?_ rfl
    exact (Capella.BlockAndTraceExtended.returns_unmarshalSSZ _ _).bind fun _ _ =>
      Ssz.returns_pure rfl
  · exact iff_of_true (Ssz.returns_throw _) rfl

/-- Whether a message is a panic does not depend on the bids and blocks that came before. -/
theorem isSome_receive_iff (s : State) (m : Incoming) :
    (receive J s m).isSome = true ↔ complete J m = true := by
  cases m with
  | bid msg order =>
      rw [receive, isSome_subscribe_iff, ← returns_handleBid_iff J msg order]
      simp only [isSome_consumeBid]
  | cache msg =>
      rw [receive, isSome_subscribe_iff, ← returns_handleCache_iff J msg]
      simp only [isSome_consumeBlock]

/-- **The relay survives exactly the messages that are complete**: no sequence of messages of the
two topics makes a subscriber read through a pointer that is `nil`, if the bids in JSON have a
header and the blocks of the earlier fork have a trace with a message. -/
theorem survives_iff (s : State) (msgs : List Incoming) :
    (msgs.foldlM (receive J) s).isSome = true ↔ ∀ m ∈ msgs, complete J m = true := by
  induction msgs generalizing s with
  | nil => exact iff_of_true rfl nofun
  | cons m msgs ih =>
      rw [List.foldlM_cons, List.forall_mem_cons, ← isSome_receive_iff J s m]
      cases receive J s m with
      | none => exact iff_of_false (by simp) (by simp)
      | some s' =>
          rw [← ih s']
          simp

/-- A reader of JSON that knows the empty object and takes no value. -/
def emptyObjects : JsonTypes where
  parse payload := if payload = [0x7b, 0x7d] then .ok (.obj []) else .error (.new "syntax")
  mismatch := .new "mismatch"
  publicKey _ _ := .error (.new "mismatch")
  signature _ _ := .error (.new "mismatch")
  hash _ _ := .error (.new "mismatch")
  u256Str _ _ := .error (.new "mismatch")
  uint64 _ _ := .error (.new "mismatch")
  versionString _ _ := .error (.new "mismatch")
  bidTrace _ _ := .error (.new "mismatch")
  bellatrixHeader _ _ := .error (.new "mismatch")
  bellatrixPayload _ _ := .error (.new "mismatch")
  capellaHeader _ _ := .error (.new "mismatch")
  capellaPayload _ _ := .error (.new "mismatch")

/-- A relay without bids and blocks. -/
def State.init : State := ⟨Auctioneer.new, ∅⟩

/-- **An empty object crashes the relay**: it is decoded as a bid of either fork, and as a block of
the earlier fork, and what the subscriber reads through is `nil`. -/
theorem crashes_empty :
    ((handleBid emptyObjects ⟨bellatrixJson, [0x7b, 0x7d]⟩).run = some (.ok (.bellatrix default)) ∧
      receive emptyObjects .init (.bid ⟨bellatrixJson, [0x7b, 0x7d]⟩ default) = none) ∧
    ((handleBid emptyObjects ⟨capellaJson, [0x7b, 0x7d]⟩).run = some (.ok (.capella default)) ∧
      receive emptyObjects .init (.bid ⟨capellaJson, [0x7b, 0x7d]⟩ default) = none) ∧
    (handleCache emptyObjects ⟨bellatrixJson, [0x7b, 0x7d]⟩).run = some (.ok (.bellatrix default)) ∧
      receive emptyObjects .init (.cache ⟨bellatrixJson, [0x7b, 0x7d]⟩) = none :=
  ⟨⟨rfl, rfl⟩, ⟨rfl, rfl⟩, rfl, rfl⟩

end Stream

end Dreamboat
