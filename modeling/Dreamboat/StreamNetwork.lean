/-
**Instances that exchange bids and blocks as bytes.**

An instance publishes a bid or a block with its client (`src/stream/stream.go`): the value is
written in the form that belongs to the fork of its slot, the topic puts the name of the instance on
it (`src/stream/transport/redis/redis.go`), and the bytes of the message go to every subscriber of
the topic.  A subscription takes the next message, skips what it cannot decode and what its own
instance has published, and a handler decodes the rest and puts it into a channel of bounded size.
The subscribers of the relay take it from there.

The module `Cluster` has bids in the place of bytes, and one pool of bids in the place of
inboxes, readers and channels.  Here the instances are followed with everything in between, and
shown to be a refinement of it: as long as the bids are for slots of their own forks and not too
long, they do nothing that the cluster does not do.  Bytes on the topic that no decoder accepts have
no effect.  A publication may fail and a message may get lost; in the cluster such a bid stays on
its way.

Main definitions:

* `Stream.Client`, `Stream.publishBuilderBid`, `Stream.publishBlockCache` — a value becomes bytes;
* `Stream.onMessage` — the bytes become a value at another instance, or are skipped;
* `StreamNetwork`, `StreamNetwork.step` — the instances with their auctions, and everything they can
  do;
* `StreamNetwork.Refines` — the instances as a cluster.

Main results:

* `Stream.carries_bidWire`, `Stream.carries_blockWire` — a bid or a block gets through all layers to
  the other instances;
* `Stream.blocks_perm_of_quiescent` — **no block is doubled**, and none is lost if nothing fails;
* `StreamNetwork.exists_cluster_run` — **the instances refine the cluster**;
* `StreamNetwork.bids_perm` — **no bid is lost or doubled** if nothing fails, with bytes, channels
  and workers in between.
-/

import Dreamboat.Broadcast
import Dreamboat.Cluster
import Dreamboat.PayloadJson

set_option autoImplicit false

namespace Dreamboat

namespace Stream

open Broadcast (Wire Net Internal)
open PayloadJson (BoostCodecs boostJson)
open Ssz (Decoder)

/-! ### Publishing -/

/-- What a client knows: the name of its instance, and the forks. -/
structure Client where
  localNode : Transport.UUID
  forkVersion : UInt64 → ForkVersion

/-- The form for a fork, which is the same for bids and for blocks. -/
def format : ForkVersion → UInt64
  | .altair => Transport.altairJson
  | .bellatrix => bellatrixJson
  | .capella => capellaSSZ
  | .unknown => Transport.unknown

def toBidFormat : ForkVersion → UInt64 := format

def toBlockCacheFormat : ForkVersion → UInt64 := format

def noSszEncoder : GoError := .new "unable to cast to SSZ encoder"

/-- `Client.encode`: `ssz` is `none` for a value that has no method `MarshalSSZ`.  The sender is set
later. -/
def encode (ssz : Option (Except GoError (List UInt8))) (json : List UInt8)
    (fvf : UInt64) : Except GoError Transport.Message := do
  let rawData ←
    if fvf = capellaSSZ then
      match ssz with
      | none => throw noSszEncoder
      | some rawData => rawData
    else pure json
  return { (default : Transport.Message) with payload := some rawData, forkEncoding := fvf }

def Bid.slot : Bid → UInt64
  | bellatrix b => b.bellatrixSlot
  | capella b => b.capellaSlot

def Bid.marshalSSZ : Bid → Option (Except GoError (List UInt8))
  | bellatrix _ => none
  | capella b => some b.marshalSSZ

def Block.marshalSSZ : Block → Option (Except GoError (List UInt8))
  | bellatrix _ => none
  | capella b => some b.marshalSSZ

variable (B : BoostCodecs)

def Bid.marshalJSON : Bid → List UInt8
  | bellatrix b => PayloadJson.marshal (PayloadJson.bellatrixBidExtended B) b
  | capella b => PayloadJson.marshal (PayloadJson.capellaBidExtended B) b

def Block.marshalJSON : Block → List UInt8
  | bellatrix b => PayloadJson.marshal (PayloadJson.bellatrixBlock B) b
  | capella b => PayloadJson.marshal (PayloadJson.capellaBlock B) b

/-- `Topic.Publish`: the bytes that are sent. -/
def topicPublish (c : Client) (m : Transport.Message) : List UInt8 :=
  Transport.encode { m with source := c.localNode }

def publishBuilderBid (c : Client) (bid : Bid) : Except GoError (List UInt8) :=
  match encode bid.marshalSSZ (bid.marshalJSON B) (toBidFormat (c.forkVersion bid.slot)) with
  | .error err => .error
      (.wrap ("fail to encode encode and stream block: " ++ err.error) err)
  | .ok msg => .ok (topicPublish c msg)

/-- `none` is a panic, for a block of the earlier fork without a trace. -/
def publishBlockCache (c : Client) (block : Block) : Option (Except GoError (List UInt8)) :=
  block.message.map fun trace =>
    match encode block.marshalSSZ (block.marshalJSON B)
        (toBlockCacheFormat (c.forkVersion trace.slot)) with
    | .error err => .error (.wrap ("fail to encode cache block: " ++ err.error) err)
    | .ok msg => .ok (topicPublish c msg)

/-! ### Receiving -/

variable (jsonError : List UInt8 → GoError)

/-- `Subscription.Next`: the message, or `none` if it is skipped. -/
def subscriptionNext (c : Client) (raw : List UInt8) : Option Transport.Message :=
  match Transport.decode jsonError raw with
  | .error _ => none
  | .ok msg => if msg.source ≠ c.localNode then some msg else none

/-- A message in the loop of `subscribe`: it is skipped, its handler logs an error, or it has a
value for the channel.  `none` is a panic of the decoder. -/
def onMessage {V : Type} (handle : Message → Decoder GoError V) (c : Client) (raw : List UInt8) :
    Option (Option V) :=
  match subscriptionNext jsonError c raw with
  | none => some none
  | some msg => (handle msg.toStream).run.map Except.toOption

/-- The topic for bids. -/
def bidWire {n : ℕ} (clients : Fin n → Client) (queueSize workers : ℕ) :
    Wire n (List UInt8) Bid where
  write i bid := (publishBuilderBid B (clients i) bid).toOption
  read j raw := onMessage jsonError (handleBid (boostJson B)) (clients j) raw
  queueSize := queueSize
  workers := workers

/-- The topic for blocks. -/
def blockWire {n : ℕ} (clients : Fin n → Client) (queueSize workers : ℕ) :
    Wire n (List UInt8) Block where
  write i block := (publishBlockCache B (clients i) block).bind Except.toOption
  read j raw := onMessage jsonError (handleCache (boostJson B)) (clients j) raw
  queueSize := queueSize
  workers := workers

/-! ### What gets through -/

/-- A bid for a slot of its fork, that has a header and is not too long. -/
def Bid.Sendable (c : Client) : Bid → Prop
  | bellatrix b => c.forkVersion b.bellatrixSlot = .bellatrix ∧
      ∃ header, b.bellatrixBuilderBid.bellatrixHeader = some header ∧ header.extraData.length ≤ 32
  | capella b => c.forkVersion b.capellaSlot = .capella ∧
      ∃ header, b.capellaBuilderBid.capellaHeader = some header ∧ header.extraData.length ≤ 32

/-- A block for a slot of its fork, that is not too long; one of the earlier fork has a trace. -/
def Block.Sendable (c : Client) : Block → Prop
  | bellatrix b => ∃ trace message, b.trace = some trace ∧ trace.message = some message ∧
      c.forkVersion message.slot = .bellatrix ∧ PayloadJson.BellatrixReadable b
  | capella b => c.forkVersion b.capellaTrace.message.slot = .capella ∧
      b.capellaPayload.capellaData.Writable ∧
      (∀ tx ∈ b.capellaPayload.capellaData.epTransactions, tx.length ≤ 1073741824) ∧
      b.sizeSSZ < 2 ^ 32

/-- A block at another instance has an empty list in the place of one that was `nil`. -/
def Block.arrives : Block → Block
  | bellatrix b => bellatrix b
  | capella b => capella b.filled

variable {B jsonError} {n : ℕ} {clients : Fin n → Client} {queueSize workers : ℕ}

/-- The message that is published comes out of the subscriptions of the other instances. -/
theorem subscriptionNext_topicPublish (hid : Function.Injective fun i => (clients i).localNode)
    (m : Transport.Message) (i j : Fin n) :
    subscriptionNext jsonError (clients j) (topicPublish (clients i) m) =
      if j = i then none else some { m with source := (clients i).localNode } := by
  rw [subscriptionNext, topicPublish, Transport.decode_encode]
  by_cases h : j = i
  · subst h
    simp
  · have hne : (clients i).localNode ≠ (clients j).localNode := fun heq => h (hid heq).symm
    simp [h, hne]

/-- A value that is written as bytes arrives if its handler reads them. -/
theorem onMessage_topicPublish (hid : Function.Injective fun i => (clients i).localNode) {V : Type}
    {handle : Message → Decoder GoError V} {forkEncoding : UInt64} {rawData : List UInt8} {v : V}
    (hread : handle ⟨forkEncoding, rawData⟩ = pure v) (i j : Fin n) :
    onMessage jsonError handle (clients j) (topicPublish (clients i)
        { (default : Transport.Message) with payload := some rawData, forkEncoding }) =
      some (if j = i then none else some v) := by
  rw [onMessage, subscriptionNext_topicPublish hid]
  by_cases h : j = i
  · simp only [if_pos h]
  · simp only [if_neg h]
    rw [Transport.Message.toStream]
    simp only [Option.getD_some]
    rw [hread]
    rfl

theorem handleBid_capellaSSZ {b : Capella.BuilderBidExtended}
    {header : Capella.ExecutionPayloadHeader}
    (hheader : b.capellaBuilderBid.capellaHeader = some header)
    (hextra : header.extraData.length ≤ 32) :
    handleBid (boostJson B) ⟨capellaSSZ, b.encode⟩ = pure (.capella b) := by
  have hget : b.capellaBuilderBid.header = header := by
    rw [Capella.BuilderBid.header, hheader, Option.getD_some]
  have hread := Capella.BuilderBidExtended.unmarshalSSZ_encode (b := b) (by rw [hget]; exact hextra)
  rw [hget, ← hheader] at hread
  rw [handleBid, if_neg (show capellaSSZ ≠ bellatrixJson by decide),
    if_neg (show capellaSSZ ≠ capellaJson by decide), if_pos rfl, hread, pure_bind]

theorem handleBid_bellatrixJson {b : Bellatrix.BuilderBidExtended}
    {header : Bellatrix.ExecutionPayloadHeader}
    (hheader : b.bellatrixBuilderBid.bellatrixHeader = some header)
    (hextra : header.extraData.length ≤ 32) :
    handleBid (boostJson B) ⟨bellatrixJson, (Bid.bellatrix b).marshalJSON B⟩ =
      pure (.bellatrix b) := by
  have hfit : (PayloadJson.bellatrixBidExtended B).Fit b :=
    PayloadJson.fit_bellatrixBidExtended fun h hh =>
      Option.some_inj.1 (hheader.symm.trans hh) ▸ hextra
  have hread := PayloadJson.unmarshal_marshal (B := B) (PayloadJson.bellatrixBidExtended B) hfit rfl
    PayloadJson.depth_bellatrixBidExtended
  rw [PayloadJson.read_bellatrixBidExtended] at hread
  rw [handleBid, if_pos rfl, Bid.marshalJSON, hread]
  rfl

theorem handleCache_bellatrixJson {b : Bellatrix.BlockBidAndTrace}
    (h : PayloadJson.BellatrixReadable b) :
    handleCache (boostJson B) ⟨bellatrixJson, (Block.bellatrix b).marshalJSON B⟩ =
      pure (.bellatrix b) := by
  have hread := PayloadJson.unmarshal_marshal (B := B) (PayloadJson.bellatrixBlock B) h.fit rfl
    PayloadJson.depth_bellatrixBlock
  rw [PayloadJson.read_bellatrixBlock] at hread
  rw [handleCache, if_pos rfl, Block.marshalJSON, hread]
  rfl

/-- **A bid gets through all layers**, and does not come back to its own instance. -/
theorem carries_bidWire (hid : Function.Injective fun i => (clients i).localNode) {i : Fin n}
    {bid : Bid} (h : bid.Sendable (clients i)) :
    (bidWire B jsonError clients queueSize workers).Carries id i bid := by
  cases bid with
  | bellatrix b =>
      obtain ⟨hfork, header, hheader, hextra⟩ := h
      have hwrite : publishBuilderBid B (clients i) (.bellatrix b) =
          .ok (topicPublish (clients i) { (default : Transport.Message) with
            payload := some ((Bid.bellatrix b).marshalJSON B)
            forkEncoding := bellatrixJson }) := by
        rw [publishBuilderBid, Bid.slot, hfork]
        rfl
      refine ⟨_, congrArg Except.toOption hwrite, fun j => ?_⟩
      exact onMessage_topicPublish hid (handleBid_bellatrixJson hheader hextra) i j
  | capella b =>
      obtain ⟨hfork, header, hheader, hextra⟩ := h
      have hget : b.capellaBuilderBid.header = header := by
        rw [Capella.BuilderBid.header, hheader, Option.getD_some]
      have hwrite : publishBuilderBid B (clients i) (.capella b) =
          .ok (topicPublish (clients i) { (default : Transport.Message) with
            payload := some b.encode, forkEncoding := capellaSSZ }) := by
        rw [publishBuilderBid, Bid.slot, hfork, Bid.marshalSSZ,
          Capella.BuilderBidExtended.marshalSSZ_eq (by rw [hget]; exact hextra)]
        rfl
      refine ⟨_, congrArg Except.toOption hwrite, fun j => ?_⟩
      exact onMessage_topicPublish hid (handleBid_capellaSSZ hheader hextra) i j

/-- **A block gets through all layers.** -/
theorem carries_blockWire (hid : Function.Injective fun i => (clients i).localNode) {i : Fin n}
    {block : Block} (h : block.Sendable (clients i)) :
    (blockWire B jsonError clients queueSize workers).Carries Block.arrives i block := by
  cases block with
  | bellatrix b =>
      obtain ⟨trace, message, htrace, hmessage, hfork, hreadable⟩ := h
      have hwrite : publishBlockCache B (clients i) (.bellatrix b) =
          some (.ok (topicPublish (clients i) { (default : Transport.Message) with
            payload := some ((Block.bellatrix b).marshalJSON B)
            forkEncoding := bellatrixJson })) := by
        rw [publishBlockCache, Block.message, htrace, Option.bind_some, hmessage, Option.map_some,
          hfork]
        rfl
      refine ⟨_, ?_, fun j => onMessage_topicPublish hid (handleCache_bellatrixJson hreadable) i j⟩
      show Option.bind (publishBlockCache B (clients i) (.bellatrix b)) Except.toOption = _
      rw [hwrite]
      rfl
  | capella b =>
      obtain ⟨hfork, hwritable, hlong, hsize⟩ := h
      have hwrite : publishBlockCache B (clients i) (.capella b) =
          some (.ok (topicPublish (clients i) { (default : Transport.Message) with
            payload := some b.encode, forkEncoding := capellaSSZ })) := by
        rw [publishBlockCache, Block.message, Option.map_some, hfork, Block.marshalSSZ,
          Capella.BlockAndTraceExtended.marshalSSZ_eq hwritable hlong]
        rfl
      have hread : handleCache (boostJson B) ⟨capellaSSZ, b.encode⟩ =
          pure (Block.capella b).arrives := by
        rw [handleCache, if_neg (show capellaSSZ ≠ bellatrixJson by decide),
          if_neg (show capellaSSZ ≠ capellaJson by decide), if_pos rfl,
          Capella.BlockAndTraceExtended.unmarshalSSZ_encode hwritable hlong hsize, pure_bind]
        rfl
      refine ⟨_, ?_, fun j => onMessage_topicPublish hid hread i j⟩
      show Option.bind (publishBlockCache B (clients i) (.capella b)) Except.toOption = _
      rw [hwrite]
      rfl

/-- Bytes that are no message, or a message that the decoder of the values has an error for. -/
def isNoise {V : Type} (jsonError : List UInt8 → GoError) (handle : Message → Decoder GoError V)
    (raw : List UInt8) : Bool :=
  match Transport.decode jsonError raw with
  | .error _ => true
  | .ok msg => (handle msg.toStream).run.any fun result => !result.isOk

theorem onMessage_of_isNoise {V : Type} {handle : Message → Decoder GoError V}
    {raw : List UInt8} (h : isNoise jsonError handle raw = true) (c : Client) :
    onMessage jsonError handle c raw = some none := by
  rw [onMessage, subscriptionNext]
  cases hdecode : Transport.decode jsonError raw with
  | error err => rfl
  | ok msg =>
      simp only [isNoise, hdecode] at h
      by_cases hsource : msg.source ≠ c.localNode
      · simp only [if_pos hsource]
        cases hrun : (handle msg.toStream).run with
        | none =>
            rw [hrun] at h
            cases h
        | some result =>
            cases result with
            | error err => rfl
            | ok v =>
                rw [hrun] at h
                cases h
      · simp only [if_neg hsource]

/-! ### Blocks -/

/-- What may happen on the topic for blocks: the blocks that are published can be sent, and what
others send on the topic is no block. -/
def BlockAllowed (B : BoostCodecs) (jsonError : List UInt8 → GoError) (clients : Fin n → Client) :
    Broadcast.Action n (List UInt8) Block → Prop
  | .give i block => block.Sendable (clients i)
  | .internal (.noise raw) => isNoise jsonError (handleCache (boostJson B)) raw = true
  | _ => True

/-- **No block is doubled, and none is missing if nothing went wrong**: an instance receives the
blocks that the others have published at most once; and if no publication has failed and no message
to it got lost, it has received all of them once nothing is under way. -/
theorem blocks_perm_of_quiescent (hid : Function.Injective fun i => (clients i).localNode)
    {s : Broadcast.Log n (List UInt8) Block} {as : List (Broadcast.Action n (List UInt8) Block)}
    (hallowed : ∀ a ∈ as, BlockAllowed B jsonError clients a)
    (hrun : Runs.run (Broadcast.Log.step (blockWire B jsonError clients queueSize workers))
      .empty as = some s) (j : Fin n) :
    (s.received j).Subperm ((s.given.filter fun m => m.1 ≠ j).map fun m => m.2.arrives) ∧
      (s.failed = [] → s.lost j = [] → s.net.Quiescent → (s.received j).Perm
        ((s.given.filter fun m => m.1 ≠ j).map fun m => m.2.arrives)) := by
  have hconserved : s.Conserved (blockWire B jsonError clients queueSize workers)
      Block.arrives := by
    refine Broadcast.Log.conserved_run (fun a ha => ?_) hrun
    have ha := hallowed a ha
    cases a with
    | give i block => exact carries_blockWire hid ha
    | internal a =>
        cases a with
        | noise raw => exact fun j => onMessage_of_isNoise ha (clients j)
        | next i | send i | handOff i | take i => trivial
    | publish k | done i k | fail k | lose i k => trivial
  exact ⟨hconserved.subperm j,
    fun hfailed hlost hq => hconserved.perm_of_quiescent hq hfailed hlost⟩

/-- Two instances with different names, in the later fork. -/
def two (i : Fin 2) : Client := ⟨Vector.replicate 16 (UInt8.ofNat i.val), fun _ => .capella⟩

theorem two_injective : Function.Injective fun i => (two i).localNode := by decide

def noMessage (_ : List UInt8) : GoError := .new "no message"

theorem sendable_sample : (Block.capella .sample).Sendable (two 0) :=
  ⟨rfl, ⟨by decide, by decide, by decide⟩, by decide, by decide⟩

/-- A block is published by one instance and received by the other. -/
theorem blocks_perm_of_quiescent_sample :
    ∃ s, Runs.run (Broadcast.Log.step (blockWire .plain noMessage two 0 1)) .empty
        [.give 0 (.capella .sample), .publish 0, .internal (.next 0), .internal (.next 1),
          .internal (.handOff 1), .done 1 0] = some s ∧
      s.net.Quiescent ∧ (s.received 1).Perm [Block.arrives (.capella .sample)] := by
  have hcarries : (blockWire .plain noMessage two 0 1).Carries Block.arrives 0
      (.capella .sample) := carries_blockWire two_injective sendable_sample
  obtain ⟨s, hrun, hq, hgiven, hfailed, hlost⟩ :=
    Broadcast.Log.exists_run_of_carries Nat.one_pos hcarries
  have hgive : BlockAllowed .plain noMessage two (.give 0 (.capella .sample)) := sendable_sample
  have hperm := (blocks_perm_of_quiescent two_injective
    (List.forall_mem_cons.2 ⟨hgive, by simp [BlockAllowed]⟩) hrun 1).2 hfailed (hlost 1) hq
  rw [hgiven] at hperm
  exact ⟨s, hrun, hq, hperm⟩

end Stream

/-! ### Bids -/

/-- The instances: the topic for bids, their auctions, the calls of `AddBlock` so far, and what went
wrong. -/
structure StreamNetwork (n : ℕ) where
  net : Broadcast.Net n (List UInt8) Stream.Bid
  auctioneer : Fin n → Auctioneer
  added : Fin n → List AddCall
  /-- The bids whose publication has failed; the error is dropped with the goroutine. -/
  failed : List (Fin n × Stream.Bid)
  /-- The messages that have got lost on the way to an instance. -/
  lost : Fin n → List (List UInt8)

namespace StreamNetwork

open Dreamboat.Stream (Bid Client bidWire isNoise carries_bidWire onMessage_of_isNoise)
open Broadcast (Wire Net Internal)
open PayloadJson (BoostCodecs boostJson)

variable {n : ℕ}

def init (n : ℕ) : StreamNetwork n := 
  ⟨.empty, fun _ => Auctioneer.new, fun _ => [], [], fun _ => []⟩

/-- `AddBlock` at the instance `i`: `none` is a panic. -/
def addBlock (s : StreamNetwork n) (i : Fin n) (bid : Bid) (order : LoopOrder) :
    Option (StreamNetwork n) :=
  bid.toAuction.map fun bid => { s with
    auctioneer := Function.update s.auctioneer i ((s.auctioneer i).addBlock ⟨order, bid⟩).1
    added := Function.update s.added i (s.added i ++ [⟨order, bid⟩]) }

/-- What the instances can do. -/
inductive Action (n : ℕ) where
  /-- The end of `storeSubmission`. -/
  | submit (i : Fin n) (bid : Bid) (order : LoopOrder)
  /-- One of the goroutines publishes its bid. -/
  | publish (k : ℕ)
  | internal (a : Internal n (List UInt8))
  /-- A subscriber adds the bid it has taken. -/
  | add (i : Fin n) (k : ℕ) (order : LoopOrder)
  /-- `Topic.Publish` has an error. -/
  | fail (k : ℕ)
  /-- A message does not get to an instance. -/
  | lose (i : Fin n) (k : ℕ)

def step (w : Wire n (List UInt8) Bid) (s : StreamNetwork n) : Action n → Option (StreamNetwork n)
  | .submit i bid order => addBlock { s with net := s.net.start i bid } i bid order
  | .publish k => (s.net.publish w k).map fun net => { s with net }
  | .internal a => (s.net.internal w a).map fun net => { s with net }
  | .add i k order => (s.net.done i k).bind fun (bid, net) => addBlock { s with net } i bid order
  | .fail k => (s.net.fail k).map fun (m, net) => { s with net, failed := m :: s.failed }
  | .lose i k => (s.net.lose i k).map fun (raw, net) =>
      { s with net, lost := Function.update s.lost i (raw :: s.lost i) }

/-- Every publication has been accepted, and every message has got to its instances. -/
def Reliable (s : StreamNetwork n) : Prop := s.failed = [] ∧ ∀ j, s.lost j = []

/-- The bids that are submitted can be sent, and what others send on the topic is no bid. -/
def Allowed (B : BoostCodecs) (jsonError : List UInt8 → GoError) (clients : Fin n → Client) :
    Action n → Prop
  | .submit i bid _ => bid.Sendable (clients i)
  | .internal (.noise raw) => isNoise jsonError (Stream.handleBid (boostJson B)) raw = true
  | _ => True

/-- The bids in flight to an instance. -/
def inFlightTo (c : Cluster n) (j : Fin n) : List (Option BuilderBidExtended) :=
  (c.inFlight.filter fun m => m.1 = j).map fun m => some m.2

/-- The instances as a cluster: the auctions are the same, and what waits for an instance is in
flight to it.  A bid whose publication has failed is published there at a later time that does not
come, and what got lost stays in flight. -/
structure Refines (w : Wire n (List UInt8) Bid) (s : StreamNetwork n) (c : Cluster n) : Prop where
  auctioneer : c.auctioneer = s.auctioneer
  added : c.added = s.added
  publishing : (c.publishing.map fun m => (m.1, some m.2)).Perm
    ((s.net.publishing ++ s.failed).map fun m => (m.1, m.2.toAuction))
  inFlight : ∀ j, (inFlightTo c j).Perm
    ((s.net.pending w j ++ w.values j (s.lost j)).map Bid.toAuction)
  carries : ∀ m ∈ s.net.publishing, w.Carries id m.1 m.2
  readable : s.net.Readable w

section

variable {w : Wire n (List UInt8) Bid} {s s' : StreamNetwork n} {c : Cluster n}

theorem refines_init (w : Wire n (List UInt8) Bid) : Refines w (init n) (Cluster.init n) where
  auctioneer := rfl
  added := rfl
  publishing := List.Perm.refl _
  inFlight _ := List.Perm.refl _
  carries _ h := nomatch h
  readable := Net.readable_empty w

theorem addBlock_eq_some {i : Fin n} {bid : Bid} {order : LoopOrder}
    (h : s.addBlock i bid order = some s') : ∃ b, bid.toAuction = some b ∧ s'.net = s.net ∧
      s'.failed = s.failed ∧ s'.lost = s.lost ∧
      s'.auctioneer = Function.update s.auctioneer i ((s.auctioneer i).addBlock ⟨order, b⟩).1 ∧
      s'.added = Function.update s.added i (s.added i ++ [⟨order, b⟩]) := by
  obtain ⟨b, hb, rfl⟩ := Option.map_eq_some_iff.1 h
  exact ⟨b, hb, rfl, rfl, rfl, rfl, rfl⟩

/-- A bid that is submitted. -/
theorem Refines.submit (h : Refines w s c) {i : Fin n} {bid : Bid} {order : LoopOrder}
    (hcarries : w.Carries id i bid)
    (hs : addBlock { s with net := s.net.start i bid } i bid order = some s') :
    ∃ b, Refines w s' (c.addLocal i ⟨order, b⟩) := by
  obtain ⟨b, hb, hnet, hfailed, hlost, hauctioneer, hadded⟩ := addBlock_eq_some hs
  refine ⟨b, ?_, ?_, ?_, ?_, ?_, ?_⟩
  · rw [hauctioneer, ← h.auctioneer]
    rfl
  · rw [hadded, ← h.added]
    rfl
  · rw [hnet, hfailed]
    refine (h.publishing.cons (i, some b)).trans ?_
    rw [← hb]
    exact List.Perm.refl _
  · intro j
    rw [hnet, hlost, Net.pending_start]
    exact h.inFlight j
  · intro m hm
    rw [hnet] at hm
    rcases List.mem_cons.1 hm with rfl | hm
    · exact hcarries
    · exact h.carries m hm
  · rw [hnet]
    exact h.readable

theorem inFlightTo_sentTo (i j : Fin n) (bid : BuilderBidExtended) (c : Cluster n)
    (publishing : List (Fin n × BuilderBidExtended)) :
    inFlightTo { c with publishing, inFlight := Cluster.sentTo i bid ++ c.inFlight } j =
      (if j = i then [] else [some bid]) ++ inFlightTo c j := by
  have hsent := congrArg (List.map some) (Cluster.filter_sentTo i j bid)
  rw [List.map_map] at hsent
  simp only [inFlightTo, List.filter_append, List.map_append]
  refine congrArg₂ _ (hsent.trans ?_) rfl
  by_cases h : i = j
  · rw [if_pos h, if_pos h.symm]
    rfl
  · rw [if_neg h, if_neg fun heq => h heq.symm]
    rfl

/-- A bid that is published. -/
theorem Refines.publish (h : Refines w s c) {k : ℕ} {net : Net n (List UInt8) Bid}
    (hs : s.net.publish w k = some net) :
    ∃ k' c', c.publish k' = some c' ∧ Refines w { s with net } c' := by
  obtain ⟨i, bid, rest, hpick, hrest, hpending⟩ := Net.pending_publish hs h.carries
  have hperm := h.publishing.trans
    (((Runs.perm_of_pick hpick).append_right s.failed).map fun m => (m.1, m.2.toAuction))
  -- some goroutine of the cluster has the same bid
  obtain ⟨⟨i', b⟩, hmem, heq⟩ := List.mem_map.1 (hperm.mem_iff.2 List.mem_cons_self)
  obtain ⟨rfl, hb⟩ := Prod.mk.inj heq
  obtain ⟨k', rest', hpick'⟩ := Runs.exists_pick_of_mem hmem
  refine ⟨k', { c with publishing := rest', inFlight := Cluster.sentTo i' b ++ c.inFlight },
    ?_, h.auctioneer, h.added, ?_, fun j => ?_, fun m hm => ?_, h.readable.publish h.carries hs⟩
  · rw [Cluster.publish, hpick']
    rfl
  · rw [hrest]
    have hrest' := ((Runs.perm_of_pick hpick').map fun m => (m.1, some m.2)).symm.trans hperm
    rw [List.map_cons, hb] at hrest'
    exact hrest'.cons_inv
  · rw [inFlightTo_sentTo, hpending, List.map_append, List.map_append, List.append_assoc]
    refine (List.Perm.append_left _ (h.inFlight j)).trans ?_
    rw [List.map_append]
    have hsent : (if j = i' then [] else [some b]) =
        (if j = i' then [] else [bid]).map Bid.toAuction := by
      by_cases hj : j = i'
      · rw [if_pos hj, if_pos hj]
        rfl
      · rw [if_neg hj, if_neg hj, hb]
        rfl
    rw [hsent]
    exact List.perm_append_comm_assoc _ _ _
  · rw [hrest] at hm
    exact h.carries m (Runs.mem_of_mem_rest hpick hm)

/-- What happens on its own is not seen in the cluster. -/
theorem Refines.internal (h : Refines w s c) {a : Internal n (List UInt8)} (ha : w.Harmless a)
    {net : Net n (List UInt8) Bid} (hs : s.net.internal w a = some net) :
    Refines w { s with net } c := by
  obtain ⟨hpublishing, hpending, -⟩ := Net.pending_internal hs ha
  refine ⟨h.auctioneer, h.added, ?_, fun j => ?_, fun m hm => ?_, h.readable.internal ha hs⟩
  · rw [hpublishing]
    exact h.publishing
  · rw [hpending]
    exact h.inFlight j
  · rw [hpublishing] at hm
    exact h.carries m hm

/-- A subscriber that adds a bid. -/
theorem Refines.add (h : Refines w s c) {i : Fin n} {k : ℕ} {order : LoopOrder} {bid : Bid}
    {net : Net n (List UInt8) Bid} (hdone : s.net.done i k = some (bid, net))
    (hs : addBlock { s with net } i bid order = some s') :
    ∃ k' c', c.consume k' order = some c' ∧ Refines w s' c' := by
  obtain ⟨b, hb, hnet, hfailed, hlost, hauctioneer, hadded⟩ := addBlock_eq_some hs
  obtain ⟨hpublishing, hown, hother⟩ := Net.pending_done (w := w) hdone
  have hown := (h.inFlight i).trans ((hown.append_right _).map Bid.toAuction)
  rw [List.cons_append, List.map_cons, hb] at hown
  -- the bid is in flight to the instance, at some place
  obtain ⟨⟨i', b'⟩, hfound, hsome⟩ := List.mem_map.1 (hown.mem_iff.2 List.mem_cons_self)
  obtain ⟨hmem, hi⟩ := List.mem_filter.1 hfound
  obtain rfl : i' = i := of_decide_eq_true hi
  obtain rfl : b' = b := Option.some_inj.1 hsome
  obtain ⟨k', rest, hpick⟩ := Runs.exists_pick_of_mem hmem
  have hperm := Runs.perm_of_pick hpick
  have hconsume : c.consume k' order =
      some { c.addBlock i' ⟨order, b'⟩ with inFlight := rest } := by
    rw [Cluster.consume, hpick]
    rfl
  refine ⟨k', _, hconsume, ?_, ?_, ?_, ?_, ?_, ?_⟩
  · rw [hauctioneer, ← h.auctioneer]
    rfl
  · rw [hadded, ← h.added]
    rfl
  · rw [hnet, hfailed, hpublishing]
    exact h.publishing
  · intro j
    rw [hnet, hlost]
    have hfilter := (hperm.filter fun m => decide (m.1 = j)).map fun m => some m.2
    by_cases hj : j = i'
    · subst hj
      rw [List.filter_cons_of_pos (by simp), List.map_cons] at hfilter
      exact List.Perm.cons_inv (hfilter.symm.trans hown)
    · rw [List.filter_cons_of_neg (by simpa using fun heq => hj heq.symm)] at hfilter
      rw [hother j hj]
      exact hfilter.symm.trans (h.inFlight j)
  · intro m hm
    rw [hnet, hpublishing] at hm
    exact h.carries m hm
  · rw [hnet]
    exact h.readable.done hdone

/-- A bid that a subscriber has taken can be added. -/
theorem Refines.exists_toAuction (h : Refines w s c) {i : Fin n} {k : ℕ} {bid : Bid}
    {net : Net n (List UInt8) Bid} (hdone : s.net.done i k = some (bid, net)) :
    ∃ b, bid.toAuction = some b := by
  have hmem : bid ∈ s.net.pending w i ++ w.values i (s.lost i) :=
    List.mem_append_left _ ((Net.pending_done hdone).2.1.mem_iff.2 List.mem_cons_self)
  obtain ⟨m, -, hm⟩ := List.mem_map.1
    ((h.inFlight i).mem_iff.2 (List.mem_map_of_mem (f := Bid.toAuction) hmem))
  exact ⟨m.2, hm.symm⟩

/-- What goes wrong is not seen in the cluster. -/
theorem Refines.fail (h : Refines w s c) {k : ℕ} {m : Fin n × Bid} {net : Net n (List UInt8) Bid}
    (hs : s.net.fail k = some (m, net)) :
    Refines w { s with net, failed := m :: s.failed } c := by
  obtain ⟨hperm, hpending⟩ := Net.pending_fail (w := w) hs
  refine ⟨h.auctioneer, h.added, h.publishing.trans (List.Perm.map _ ?_), fun j => ?_,
    fun m' hm' => h.carries m' (hperm.mem_iff.2 (List.mem_cons_of_mem _ hm')), h.readable.fail hs⟩
  · exact (hperm.append_right _).trans List.perm_middle.symm
  · rw [hpending]
    exact h.inFlight j

theorem Refines.lose (h : Refines w s c) {i : Fin n} {k : ℕ} {raw : List UInt8}
    {net : Net n (List UInt8) Bid} (hs : s.net.lose i k = some (raw, net)) :
    Refines w { s with net, lost := Function.update s.lost i (raw :: s.lost i) } c := by
  obtain ⟨hpublishing, hown, hother, -⟩ := Net.pending_lose (w := w) hs
  refine ⟨h.auctioneer, h.added, ?_, fun j => (h.inFlight j).trans (List.Perm.map _ ?_),
    fun m hm => h.carries m (hpublishing ▸ hm), h.readable.lose hs⟩
  · rw [hpublishing]
    exact h.publishing
  · by_cases hj : j = i
    · subst hj
      have hlost : w.values j (raw :: s.lost j) = w.values j [raw] ++ w.values j (s.lost j) :=
        List.filterMap_append (l := [raw])
      simp only [Function.update_self, hlost]
      refine (hown.append_right _).trans ?_
      rw [List.append_assoc]
      exact List.perm_append_comm_assoc _ _ _
    · simp only [Function.update_of_ne hj, hother j hj]
      exact List.Perm.refl _

theorem Refines.quiescent (h : Refines w s c) (hr : s.Reliable) (hq : s.net.Quiescent) :
    c.Quiescent := by
  constructor
  · have hpublishing := h.publishing
    rw [hq.1, hr.1] at hpublishing
    exact List.map_eq_nil_iff.1 hpublishing.eq_nil
  · refine List.eq_nil_iff_forall_not_mem.2 fun m hm => ?_
    have hinFlight := h.inFlight m.1
    rw [Net.pending_of_quiescent hq, hr.2] at hinFlight
    have hmem : some m.2 ∈ inFlightTo c m.1 :=
      List.mem_map.2 ⟨m, List.mem_filter.2 ⟨hm, decide_eq_true rfl⟩, rfl⟩
    exact absurd (hinFlight.mem_iff.1 hmem) List.not_mem_nil

end

section

variable {B : BoostCodecs} {jsonError : List UInt8 → GoError}
  {clients : Fin n → Client} {queueSize workers : ℕ} {s s' : StreamNetwork n} {c : Cluster n}

theorem harmless_of_allowed {a : Internal n (List UInt8)}
    (ha : Allowed B jsonError clients (.internal a)) :
    (bidWire B jsonError clients queueSize workers).Harmless a := by
  cases a with
  | noise raw => exact fun j => onMessage_of_isNoise ha (clients j)
  | next i | send i | handOff i | take i => trivial

/-- One step of the instances is one step of the cluster, or none. -/
theorem Refines.step (hid : Function.Injective fun i => (clients i).localNode)
    (h : Refines (bidWire B jsonError clients queueSize workers) s c) {a : Action n}
    (ha : Allowed B jsonError clients a)
    (hs : s.step (bidWire B jsonError clients queueSize workers) a = some s') :
    ∃ as c', Runs.run Cluster.step c as = some c' ∧
      Refines (bidWire B jsonError clients queueSize workers) s' c' := by
  cases a with
  | submit i bid order =>
      obtain ⟨b, hb⟩ := h.submit (carries_bidWire hid ha) hs
      exact ⟨[.submit i ⟨order, b⟩], _, rfl, hb⟩
  | publish k =>
      obtain ⟨net, hnet, rfl⟩ := Option.map_eq_some_iff.1 hs
      obtain ⟨k', c', hc', hrefines⟩ := h.publish hnet
      exact ⟨[.publish k'], c', (Runs.run_cons_eq_some _).2 ⟨c', hc', rfl⟩, hrefines⟩
  | internal a =>
      obtain ⟨net, hnet, rfl⟩ := Option.map_eq_some_iff.1 hs
      exact ⟨[], c, rfl, h.internal (harmless_of_allowed ha) hnet⟩
  | add i k order =>
      obtain ⟨⟨bid, net⟩, hdone, hs⟩ := Option.bind_eq_some_iff.1 hs
      obtain ⟨k', c', hc', hrefines⟩ := h.add hdone hs
      exact ⟨[.consume k' order], c', (Runs.run_cons_eq_some _).2 ⟨c', hc', rfl⟩, hrefines⟩
  | fail k =>
      obtain ⟨⟨m, net⟩, hnet, rfl⟩ := Option.map_eq_some_iff.1 hs
      exact ⟨[], c, rfl, h.fail hnet⟩
  | lose i k =>
      obtain ⟨⟨raw, net⟩, hnet, rfl⟩ := Option.map_eq_some_iff.1 hs
      exact ⟨[], c, rfl, h.lose hnet⟩

/-- A run of the instances is a run of the cluster. -/
theorem Refines.run (hid : Function.Injective fun i => (clients i).localNode)
    (h : Refines (bidWire B jsonError clients queueSize workers) s c) {as : List (Action n)}
    (hallowed : ∀ a ∈ as, Allowed B jsonError clients a)
    (hrun : Runs.run (StreamNetwork.step (bidWire B jsonError clients queueSize workers)) s as =
      some s') :
    ∃ bs c', Runs.run Cluster.step c bs = some c' ∧
      Refines (bidWire B jsonError clients queueSize workers) s' c' := by
  obtain ⟨bs, c', hbs, -, hrefines⟩ :=
    Runs.exists_run_of_simulation _ Cluster.step (E := fun _ _ => True)
      (R := Refines (bidWire B jsonError clients queueSize workers))
      (fun s c a s' h ha hs => by
        obtain ⟨bs, c', hbs, hrefines⟩ := h.step hid ha hs
        exact ⟨bs, c', hbs, Runs.meets_true _ _ _, hrefines⟩)
      h (Runs.meets_of_forall _ hallowed s) hrun
  exact ⟨bs, c', hbs, hrefines⟩

/-- The actions in which no bid is submitted, nothing comes from outside and nothing goes wrong. -/
def Action.isOwn : Action n → Bool
  | .submit _ _ _ => false
  | .internal (.noise _) => false
  | .fail _ => false
  | .lose _ _ => false
  | _ => true

/-- The instances can do what there is to do. -/
theorem Refines.exists_quiescent (hworkers : 0 < workers)
    (hid : Function.Injective fun i => (clients i).localNode)
    (h : Refines (bidWire B jsonError clients queueSize workers) s c) :
    ∃ (as : List (Action n)) (s' : StreamNetwork n), (∀ a ∈ as, a.isOwn = true) ∧
      Runs.run (StreamNetwork.step (bidWire B jsonError clients queueSize workers)) s as =
        some s' ∧ s'.net.Quiescent := by
  induction hwork : s.net.work using Nat.strongRecOn generalizing s c with
  | ind work ih =>
      by_cases hq : s.net.Quiescent
      · exact ⟨[], s, nofun, rfl, hq⟩
      -- one action that makes less work, and then the others
      obtain ⟨a, s₁, hown, ha, hs₁, hlt⟩ : ∃ a s₁, Action.isOwn a = true ∧
          Allowed B jsonError clients a ∧
          s.step (bidWire B jsonError clients queueSize workers) a = some s₁ ∧
          s₁.net.work < s.net.work := by
        cases Net.todo_of_not_quiescent hworkers h.readable hq with
        | @publish k net hnet =>
            exact ⟨.publish k, _, rfl, trivial, Option.map_eq_some_iff.2 ⟨net, hnet, rfl⟩,
              Net.work_publish hnet⟩
        | @internal a net hown hnet hlt =>
            have hs : s.step (bidWire B jsonError clients queueSize workers) (.internal a) =
                some { s with net } := Option.map_eq_some_iff.2 ⟨net, hnet, rfl⟩
            have hself : Action.isOwn (.internal a : Action n) = true ∧
                Allowed B jsonError clients (.internal a) := by
              cases a with
              | noise m => exact hown.elim
              | next i | send i | handOff i | take i => exact ⟨rfl, trivial⟩
            exact ⟨.internal a, _, hself.1, hself.2, hs, hlt⟩
        | @done i k bid net hdone =>
            obtain ⟨b, hb⟩ := h.exists_toAuction hdone
            have hadd : addBlock { s with net } i bid Go.RangeOrder.stored =
                some { s with net, auctioneer := _, added := _ } :=
              Option.map_eq_some_iff.2 ⟨b, hb, rfl⟩
            exact ⟨.add i k Go.RangeOrder.stored, _, rfl, trivial,
              Option.bind_eq_some_iff.2 ⟨(bid, net), hdone, hadd⟩, Net.work_done hdone⟩
      obtain ⟨bs, c₁, -, hrefines⟩ := h.step hid ha hs₁
      obtain ⟨as, s', hall, hrun, hq'⟩ := ih _ (hwork ▸ hlt) hrefines rfl
      exact ⟨a :: as, s', List.forall_mem_cons.2 ⟨hown, hall⟩,
        (Runs.run_cons_eq_some _).2 ⟨s₁, hs₁, hrun⟩, hq'⟩

theorem Reliable.step {w : Wire n (List UInt8) Bid} (h : s.Reliable) {a : Action n}
    (ha : a.isOwn = true) (hs : s.step w a = some s') : s'.Reliable := by
  cases a with
  | submit i bid order => cases ha
  | fail k => cases ha
  | lose i k => cases ha
  | publish k =>
      obtain ⟨net, -, rfl⟩ := Option.map_eq_some_iff.1 hs
      exact h
  | internal a =>
      obtain ⟨net, -, rfl⟩ := Option.map_eq_some_iff.1 hs
      exact h
  | add i k order =>
      obtain ⟨⟨bid, net⟩, -, hs⟩ := Option.bind_eq_some_iff.1 hs
      obtain ⟨-, -, -, hfailed, hlost, -, -⟩ := addBlock_eq_some hs
      exact ⟨hfailed.trans h.1, fun j => (congrFun hlost j).trans (h.2 j)⟩

/-- Nothing goes wrong in what the instances do on their own. -/
theorem Reliable.run {w : Wire n (List UInt8) Bid} (h : s.Reliable) {as : List (Action n)}
    (hown : ∀ a ∈ as, a.isOwn = true) (hrun : Runs.run (StreamNetwork.step w) s as = some s') :
    s'.Reliable :=
  Runs.run_invariant_of_meets _ (fun _ _ _ h ha hs => h.step ha hs) h
    (Runs.meets_of_forall _ hown s) hrun

/-- A bid of the later fork. -/
def sampleBid : Bid := .capella .sample

theorem sendable_sampleBid : sampleBid.Sendable (Stream.two 0) := ⟨rfl, _, rfl, by decide⟩

theorem allowed_of_isOwn {a : Action n} (h : a.isOwn = true) : Allowed B jsonError clients a := by
  cases a with
  | submit i bid order => cases h
  | internal a =>
      cases a with
      | noise raw => cases h
      | next i | send i | handOff i | take i => trivial
  | publish k | add i k order | fail k | lose i k => trivial

/-- The topic of two instances, with a channel of size zero and one subscriber each. -/
def twoWire : Wire 2 (List UInt8) Bid :=
  bidWire .plain Stream.noMessage Stream.two 0 1

/-- A bid is submitted at one of two instances, and the instances do what there is to do. -/
theorem exists_run_sampleBid : ∃ (as : List (Action 2)) (s : StreamNetwork 2),
    .submit 0 sampleBid Go.RangeOrder.stored ∈ as ∧
      (∀ a ∈ as, Allowed .plain Stream.noMessage Stream.two a) ∧
      Runs.run (StreamNetwork.step twoWire) (init 2) as = some s ∧ s.Reliable ∧
      s.net.Quiescent := by
  obtain ⟨s, hs, hreliable⟩ : ∃ s, (init 2).step twoWire
      (.submit 0 sampleBid Go.RangeOrder.stored) = some s ∧ s.Reliable :=
    ⟨_, rfl, rfl, fun _ => rfl⟩
  have hsubmit : Allowed .plain Stream.noMessage Stream.two
      (.submit 0 sampleBid Go.RangeOrder.stored) := sendable_sampleBid
  obtain ⟨-, c, -, hrefines⟩ := (refines_init _).step Stream.two_injective hsubmit hs
  obtain ⟨as, s', hall, hrun, hq⟩ := hrefines.exists_quiescent Nat.one_pos Stream.two_injective
  exact ⟨.submit 0 sampleBid Go.RangeOrder.stored :: as, s', List.mem_cons_self,
    List.forall_mem_cons.2 ⟨hsubmit, fun a ha => allowed_of_isOwn (hall a ha)⟩,
    (Runs.run_cons_eq_some _).2 ⟨s, hs, hrun⟩, hreliable.run hall hrun, hq⟩

/-- **No bid is lost or doubled**: if every publication has been accepted and every message has got
to its instances, all instances have added the same bids once nothing is under way. -/
theorem bids_perm (hid : Function.Injective fun i => (clients i).localNode)
    (as : List (Action n)) (hallowed : ∀ a ∈ as, Allowed B jsonError clients a)
    (hrun : Runs.run (StreamNetwork.step (bidWire B jsonError clients queueSize workers))
      (init n) as = some s)
    (hr : s.Reliable) (hq : s.net.Quiescent) (i j : Fin n) :
    (Auctioneer.bids (s.added i)).Perm (Auctioneer.bids (s.added j)) := by
  obtain ⟨bs, c, hbs, hrefines⟩ := (refines_init _).run hid hallowed hrun
  have hperm := (Cluster.inv_run hbs).bids_perm_of_quiescent (hrefines.quiescent hr hq) i j
  rwa [hrefines.added] at hperm

theorem bids_perm_sampleBid : ∃ (as : List (Action 2)) (s : StreamNetwork 2),
    .submit 0 sampleBid Go.RangeOrder.stored ∈ as ∧
      Runs.run (StreamNetwork.step twoWire) (init 2) as = some s ∧ s.net.Quiescent ∧
      (Auctioneer.bids (s.added 0)).Perm (Auctioneer.bids (s.added 1)) := by
  obtain ⟨as, s, hmem, hallowed, hrun, hr, hq⟩ := exists_run_sampleBid
  exact ⟨as, s, hmem, hrun, hq, bids_perm Stream.two_injective as hallowed hrun hr hq 0 1⟩

/-- **Nothing gets stuck**: after any run the instances can do on their own what is still to be
done, however small the channels are. -/
theorem exists_run_quiescent (hworkers : 0 < workers)
    (hid : Function.Injective fun i => (clients i).localNode)
    (as : List (Action n)) (hallowed : ∀ a ∈ as, Allowed B jsonError clients a)
    (hrun : Runs.run (StreamNetwork.step (bidWire B jsonError clients queueSize workers))
      (init n) as = some s) :
    ∃ (bs : List (Action n)) (s' : StreamNetwork n), (∀ b ∈ bs, b.isOwn = true) ∧
      Runs.run (StreamNetwork.step (bidWire B jsonError clients queueSize workers)) s bs =
        some s' ∧ s'.net.Quiescent := by
  obtain ⟨-, c, -, hrefines⟩ := (refines_init _).run hid hallowed hrun
  exact hrefines.exists_quiescent hworkers hid

theorem exists_run_quiescent_sampleBid : ∃ s s' : StreamNetwork 2,
    Runs.run (StreamNetwork.step twoWire) (init 2)
      [.submit 0 sampleBid Go.RangeOrder.stored] = some s ∧
      ∃ bs : List (Action 2), (∀ b ∈ bs, b.isOwn = true) ∧
        Runs.run (StreamNetwork.step twoWire) s bs = some s' ∧ s'.net.Quiescent := by
  obtain ⟨s, hs⟩ : ∃ s, Runs.run (StreamNetwork.step twoWire) (init 2)
      [.submit 0 sampleBid Go.RangeOrder.stored] = some s := ⟨_, rfl⟩
  obtain ⟨bs, s', hbs⟩ := exists_run_quiescent (B := .plain) Nat.one_pos Stream.two_injective
    [.submit 0 sampleBid Go.RangeOrder.stored] (List.forall_mem_singleton.2 sendable_sampleBid) hs
  exact ⟨s, s', hs, bs, hbs⟩

end

end StreamNetwork

end Dreamboat
