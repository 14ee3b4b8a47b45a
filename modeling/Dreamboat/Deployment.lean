/-
**Instances with the stores that they really have.**

`Dreamboat/PayloadConsistency.lean` shows that every bid that can be served has its payload, for
instances that share a map of payloads, keep other maps as caches, and hand payloads to each other.
In the code, the store keeps JSON under the text of a key and reads it back for a fork, a cache is a
ring of caches of bounded size, which drop entries on their own, and what instances hand to each
other are messages on a topic, in the form of the fork of the slot, of which each may fail to be
published or get lost.

Here the instances have these parts.  Each of their steps is matched by steps of the other model: a
payload that is added to a cache and the entry that is dropped for it are two steps there, looking
into a cache is none.  So what holds there holds here: a proposer that signs the header of a bid
that is served finds its payload, whatever the caches have dropped, at every instance.

Main definitions:

* `Deployment`, `Deployment.step` — the instances;
* `Deployment.Compared` — the condition on submissions;
* `Deployment.findPayload` — where `GetPayload` looks for a payload;
* `Deployment.Refines` — the states of the two models that belong together.

Main results:

* `Deployment.Refines.step` — **each step is matched**;
* `Deployment.exists_relays_run` — so is each run;
* `Deployment.served_bid_found` — **the payload of each bid that can be served is found**.
-/

import Dreamboat.PayloadCache
import Dreamboat.PayloadConsistency
import Dreamboat.PayloadDatastore
import Dreamboat.ServedHeader
import Dreamboat.StreamNetwork

set_option autoImplicit false

namespace Dreamboat

open PayloadStore (DB payloadKeyKey marshalPayload putPayload getPayload)
open PayloadJson (BoostCodecs)

/-! ### Blocks and payloads -/

namespace Stream.Block

/-- `ExecutionHeaderHash`, which is zero behind a pointer that is `nil`. -/
def executionHeaderHash (P : Primitives) : Block → Except GoError Hash
  | bellatrix b =>
      match b.bid.bellatrixData.bellatrixMessage.bind fun m => m.bellatrixHeader with
      | none => .ok (Vector.replicate 32 0)
      | some header => P.headerRoot (.bellatrix header)
  | capella b => .ok b.capellaExecutionHeaderHash

def executionPayload : Block → ExecutionPayload
  | bellatrix b => .bellatrix b.payload.bellatrixData
  | capella b => .capella b.capellaPayload.capellaData

theorem key_arrives (block : Block) : block.arrives.key = block.key := by
  cases block with
  | bellatrix b | capella b => rfl

end Stream.Block

/-- The limits that the decoders of submissions have, and the fork of the slot. -/
def SubmitBlockRequest.Within (F : UInt64 → ForkVersion) (sbr : SubmitBlockRequest) : Prop :=
  match sbr.executionPayload with
  | .bellatrix p => F sbr.slot = .bellatrix ∧ p.epExtraData.length ≤ 32
  | .capella p => F sbr.slot = .capella ∧ p.Writable ∧
      (∀ tx ∈ p.epTransactions, tx.length ≤ 1073741824) ∧ p.sizeSSZ + 383 < 2 ^ 32

namespace BlockAndTraceExtended

/-- A payload of the fork of its slot, that all forms have room for; the bid of the earlier fork has
a header of that fork. -/
structure Proper (F : UInt64 → ForkVersion) (payload : BlockAndTraceExtended) : Prop where
  sendable : payload.toBlock.Sendable ⟨default, F⟩
  typed : ∀ trace bid p, payload = .bellatrix trace bid p →
    ∃ header, bid.message.header = .bellatrix header

variable {F : UInt64 → ForkVersion} {payload : BlockAndTraceExtended}

theorem proper_of_prepare {P : Primitives} {cfg : RelayConfig} {sbr : SubmitBlockRequest}
    {header : ExecutionPayloadHeader} (h : preparePayloadContents P cfg sbr = .ok (payload, header))
    (hwithin : sbr.Within F) : payload.Proper F := by
  obtain ⟨signed, hsigned, h⟩ := exists_of_bind_eq_ok h
  obtain ⟨header', hheader, hsigned⟩ := exists_of_bind_eq_ok hsigned
  obtain ⟨signature, -, hsigned⟩ := exists_of_bind_eq_ok hsigned
  cases hsigned
  unfold SubmitBlockRequest.Within at hwithin
  cases hp : sbr.executionPayload with
  | bellatrix p =>
      rw [hp] at h hheader hwithin
      obtain ⟨txroot, -, hheader⟩ := exists_of_bind_eq_ok hheader
      cases hheader
      cases h
      obtain ⟨hfork, hextra⟩ := hwithin
      refine ⟨⟨_, _, rfl, rfl, hfork, cleanText_bellatrix, cleanText_bellatrix, ?_, hextra⟩, ?_⟩
      · rintro _ _ ⟨⟩ ⟨⟩
        exact hextra
      · rintro _ _ _ ⟨⟩
        exact ⟨_, rfl⟩
  | capella p =>
      rw [hp] at h hwithin
      simp only at h
      split at h
      · cases h
      · cases h
        obtain ⟨hfork, hwritable, htx, hsize⟩ := hwithin
        refine ⟨⟨hfork, hwritable, htx, ?_⟩, nofun⟩
        have hversion : (versionBytes "capella").length = 7 := by decide
        simp only [Capella.BlockAndTraceExtended.sizeSSZ, Capella.GetPayloadResponse.sizeSSZ]
        omega

namespace Proper

theorem readable (h : payload.Proper F) : payload.toBlock.Readable := by
  have hsendable := h.sendable
  cases payload with
  | bellatrix trace bid p =>
      obtain ⟨_, _, -, -, -, hreadable⟩ := hsendable
      exact hreadable
  | capella p trace root =>
      obtain ⟨-, hwritable, -, -⟩ := hsendable
      exact ⟨cleanText_capella, hwritable.1⟩

/-- A payload is read back under the fork of its slot. -/
theorem readAs_eq (h : payload.Proper F) :
    payload.toBlock.readAs (F payload.slot) = .ok payload.toBlock := by
  have hsendable := h.sendable
  cases payload with
  | bellatrix trace bid p =>
      obtain ⟨_, _, ⟨⟩, ⟨⟩, hfork, -⟩ := hsendable
      rw [show F (BlockAndTraceExtended.bellatrix trace bid p).slot = .bellatrix from hfork]
      rfl
  | capella p trace root =>
      obtain ⟨hfork, -, -, -⟩ := hsendable
      rw [show F (BlockAndTraceExtended.capella p trace root).slot = .capella from hfork]
      rfl

end Proper

theorem executionHeaderHash_toBlock (h : payload.Proper F) (P : Primitives) :
    payload.toBlock.executionHeaderHash P = payload.executionHeaderHash P := by
  cases payload with
  | bellatrix trace bid p =>
      obtain ⟨header, hheader⟩ := h.typed trace bid p rfl
      simp only [toBlock, Stream.Block.executionHeaderHash, executionHeaderHash, hheader]
      rfl
  | capella p trace root => rfl

/-- What an instance has of a payload: the block itself, or what another instance has made of
it. -/
def Shown (F : UInt64 → ForkVersion) (key : PayloadKey) (block : Stream.Block)
    (payload : BlockAndTraceExtended) : Prop :=
  (block = payload.toBlock ∨ block = payload.toBlock.arrives) ∧ payload.Proper F ∧
    payload.cacheKey = key

theorem key_toBlock (payload : BlockAndTraceExtended) :
    payload.toBlock.key = some payload.cacheKey := by
  cases payload with
  | bellatrix trace bid p | capella p trace root => rfl

theorem key_arrives_toBlock (payload : BlockAndTraceExtended) :
    payload.toBlock.arrives.key = some payload.cacheKey := by
  rw [Stream.Block.key_arrives, key_toBlock]

variable {key : PayloadKey} {block : Stream.Block}

theorem Shown.executionHeaderHash_eq (h : Shown F key block payload) (P : Primitives) :
    block.executionHeaderHash P = payload.executionHeaderHash P := by
  obtain ⟨hblock, hproper, -⟩ := h
  rw [← executionHeaderHash_toBlock hproper]
  rcases hblock with rfl | rfl
  · rfl
  · cases payload.toBlock with
    | bellatrix b | capella b => rfl

/-- A payload of the fork of its slot can be answered with. -/
theorem Shown.exists_payloadResponse (h : Shown F key block payload) :
    ∃ response, payloadResponse (F key.slot) block.executionPayload = some (.ok response) := by
  obtain ⟨hblock, hproper, rfl⟩ := h
  have hsendable := hproper.sendable
  cases payload with
  | bellatrix trace bid p =>
      obtain ⟨_, _, ⟨⟩, ⟨⟩, hfork, -⟩ := hsendable
      refine ⟨⟨"bellatrix", .bellatrix p⟩, ?_⟩
      rw [show F (BlockAndTraceExtended.bellatrix trace bid p).cacheKey.slot = .bellatrix
        from hfork]
      rcases hblock with rfl | rfl
      · rfl
      · rfl
  | capella p trace root =>
      obtain ⟨hfork, -, -, -⟩ := hsendable
      rw [show F (BlockAndTraceExtended.capella p trace root).cacheKey.slot = .capella from hfork]
      rcases hblock with rfl | rfl
      · exact ⟨_, rfl⟩
      · exact ⟨_, rfl⟩

end BlockAndTraceExtended

open BlockAndTraceExtended (Shown)

/-! ### The instances -/

/-- Instances with the store that they share and what each of them has. -/
structure Deployment (L : Lru PayloadKey Stream.Block) (n : ℕ) where
  cluster : Cluster n
  db : DB
  pc : Fin n → MultiSlotPayloadCache L
  /-- Submissions that have passed the checks. -/
  admitted : List (Submission n)
  /-- Submissions whose payload has been put into the store. -/
  stored : List (Submission n)
  /-- Background tasks of `GetHeader`, with the fork and the key. -/
  tasks : List (Fin n × ForkVersion × PayloadKey)
  /-- Payloads that such a task has loaded for the cache. -/
  fetched : List (Fin n × PayloadKey × Stream.Block)
  /-- Messages that wait at an instance for a subscriber of the cache stream; one that got lost is
  never taken. -/
  streamed : List (Fin n × List UInt8)

namespace Deployment

/-- What the instances are set up with. -/
structure Config (n : ℕ) where
  setup : Setup n
  localNode : Fin n → Transport.UUID
  /-- `Distributed && StreamServedBids`. -/
  streams : Fin n → Bool
  /-- The errors of the JSON package and of the storage. -/
  jsonError : List UInt8 → GoError
  notFound : GoError
  /-- The JSON of the values of other packages. -/
  boost : BoostCodecs

variable {n : ℕ} {L : Lru PayloadKey Stream.Block} (D : Config n)

def Config.client (i : Fin n) : Stream.Client := ⟨D.localNode i, (D.setup.fork i).version⟩

/-- A message on the topic for blocks, at an instance: `none` is a panic. -/
def Config.read (i : Fin n) (raw : List UInt8) : Option (Option Stream.Block) :=
  Stream.onMessage D.jsonError (Stream.handleCache (PayloadJson.boostJson D.boost)) (D.client i)
    raw

def init (pc : Fin n → MultiSlotPayloadCache L) : Deployment L n :=
  ⟨Cluster.init n, ∅, pc, [], [], [], [], []⟩

inductive Action (n : ℕ) where
  /-- A submission passes the checks, with what the call is answered. -/
  | check (i : Fin n) (sbr : SubmitBlockRequest) (v : SubmitView)
  /-- `PutPayload`. -/
  | put (k : ℕ)
  /-- `bidExtended` and `AddBlock`. -/
  | add (k : ℕ) (order : LoopOrder)
  /-- `PublishBuilderBid`. -/
  | publish (k : ℕ)
  /-- `runSubscriberBid`. -/
  | consume (k : ℕ) (order : LoopOrder)
  /-- A bid is served, and its payload is looked up in the cache. -/
  | getHeader (i : Fin n) (v : BeaconView) (request : HeaderRequest)
  /-- A background task loads a payload from the store. -/
  | fetch (k : ℕ)
  /-- It adds the payload to the cache, and may stream it; the publication may fail. -/
  | cacheAdd (k : ℕ) (accepted : Bool)
  /-- `runSubscriberBlockCache`. -/
  | cacheConsume (k : ℕ)
  /-- `GetPayload` looks into the cache. -/
  | getPayload (i : Fin n) (key : PayloadKey)

/-- What a message that is published is for the others. -/
def sentTo (i : Fin n) (raw : List UInt8) : List (Fin n × List UInt8) :=
  ((List.finRange n).filter (· ≠ i)).map fun j => (j, raw)

/-- A step; a step that panics has no result. -/
def step (s : Deployment L n) : Action n → Option (Deployment L n)
  | .check i sbr v =>
      match submitChecks D.setup.primitives (D.setup.cfg i) v sbr,
          storeContents D.setup.primitives (D.setup.cfg i) sbr with
      | .ok (), .ok (payload, header) =>
          some { s with admitted := ⟨i, sbr, payload, header⟩ :: s.admitted }
      | _, _ => none
  | .put k => do
      let (sub, admitted) ← Runs.pick s.admitted k
      match putPayload (marshalPayload D.boost) s.db sub.sbr.toPayloadKey sub.payload with
      | .error _ => return { s with admitted }
      | .ok db => return { s with db, admitted, stored := sub :: s.stored }
  | .add k order => do
      let (sub, stored) ← Runs.pick s.stored k
      match bidExtended (D.setup.fork sub.host) sub.sbr sub.header with
      | .error _ => return { s with stored }
      | .ok bid => return { s with cluster := s.cluster.addLocal sub.host ⟨order, bid⟩, stored }
  | .publish k => do
      let cluster ← s.cluster.publish k
      return { s with cluster }
  | .consume k order => do
      let cluster ← s.cluster.consume k order
      return { s with cluster }
  | .getHeader i v request =>
      match headerBid (D.setup.cfg i) { v with fork := D.setup.fork i } (s.cluster.auctioneer i)
          request with
      | .error _ => some s
      | .ok (slot, bid) =>
          let (cached, pc) := (s.pc i).get bid.payloadKey
          let task := (i, (D.setup.fork i).version slot, bid.payloadKey)
          some { s with
            pc := Function.update s.pc i pc
            tasks := if cached.isSome then s.tasks else task :: s.tasks }
  | .fetch k => do
      let ((i, fork, key), tasks) ← Runs.pick s.tasks k
      match PayloadStore.getPayload D.boost D.notFound s.db fork key with
      | .error _ => return { s with tasks }
      | .ok block => return { s with tasks, fetched := (i, key, block) :: s.fetched }
  | .cacheAdd k accepted => do
      let ((i, key, block), fetched) ← Runs.pick s.fetched k
      let s := { s with pc := Function.update s.pc i ((s.pc i).add key block).1, fetched }
      if D.streams i then
        match ← Stream.publishBlockCache D.boost (D.client i) block with
        | .error _ => return s
        | .ok raw =>
            return if accepted then { s with streamed := sentTo i raw ++ s.streamed } else s
      else return s
  | .cacheConsume k => do
      let ((i, raw), streamed) ← Runs.pick s.streamed k
      match ← D.read i raw with
      | none => return { s with streamed }
      | some block =>
          let key ← block.key
          return { s with
            pc := Function.update s.pc i ((s.pc i).containsOrAdd key block).1
            streamed }
  | .getPayload i key => some { s with pc := Function.update s.pc i ((s.pc i).get key).2 }

/-- Where `GetPayload` looks for a payload: in the cache, or else in the store. -/
def findPayload (s : Deployment L n) (i : Fin n) (slot : UInt64) (key : PayloadKey) :
    Except GoError Stream.Block :=
  match ((s.pc i).get key).1 with
  | some block => .ok block
  | none =>
      match PayloadStore.getPayload D.boost D.notFound s.db ((D.setup.fork i).version slot) key with
      | .error _ => .error (.sentinel .errNoPayloadFound)
      | .ok block => .ok block

/-- The condition: a submission that is admitted is within the limits and of the fork of its slot,
and after the second question for the randomness it has the block hash of its trace in its payload;
a payload is put over one with the same header root only. -/
def Compared (s : Deployment L n) : Action n → Prop
  | .check i sbr v => ((verifyBlock v sbr).1 = true → sbr.blockHash = sbr.traceBlockHash) ∧
      sbr.Within (D.setup.fork i).version
  | .put k => ∀ sub admitted, Runs.pick s.admitted k = some (sub, admitted) →
      ∀ old, PayloadStore.getPayload D.boost D.notFound s.db
          ((D.setup.fork sub.host).version sub.sbr.slot) sub.sbr.toPayloadKey = .ok old →
        old.executionHeaderHash D.setup.primitives =
          sub.payload.toBlock.executionHeaderHash D.setup.primitives
  | _ => True

/-! ### Caches -/

section Caches

variable {F : UInt64 → ForkVersion} {c : MultiSlotPayloadCache L}
  {m : Go.Map PayloadKey BlockAndTraceExtended} {key : PayloadKey} {block : Stream.Block}
  {payload : BlockAndTraceExtended}

/-- A cache has the payloads of a map. -/
def CacheShows (F : UInt64 → ForkVersion) (c : MultiSlotPayloadCache L)
    (m : Go.Map PayloadKey BlockAndTraceExtended) : Prop :=
  ∀ key, Option.Rel (Shown F key) (c.lookup key) (m.lookup key)

/-- A map after an entry may have been dropped. -/
def without (m : Go.Map PayloadKey BlockAndTraceExtended) (dropped : Option PayloadKey) :
    Go.Map PayloadKey BlockAndTraceExtended :=
  dropped.elim m m.erase

theorem lookup_without (m : Go.Map PayloadKey BlockAndTraceExtended)
    (dropped : Option PayloadKey) (key : PayloadKey) :
    (without m dropped).lookup key = if dropped = some key then none else m.lookup key := by
  cases dropped with
  | none => rfl
  | some k =>
      rw [without, Option.elim_some, Go.lookup_erase_eq]
      simp only [Option.some_inj, eq_comm]

theorem CacheShows.get (h : CacheShows F c m) (key : PayloadKey) :
    CacheShows F (c.get key).2 m := by
  intro key'
  rw [MultiSlotPayloadCache.lookup_get]
  exact h key'

theorem CacheShows.add (h : CacheShows F c m) (hshown : Shown F key block payload) :
    ∃ dropped, CacheShows F (c.add key block).1 (without (m.insert key payload) dropped) := by
  obtain ⟨dropped, hdropped⟩ := c.exists_lookup_add key block
  refine ⟨dropped, fun key' => ?_⟩
  rw [hdropped, lookup_without, Go.lookup_insert_eq]
  split
  · exact .none
  · split
    · next heq =>
        rw [heq]
        exact .some hshown
    · exact h key'

/-- A payload is in both or in neither of them. -/
theorem CacheShows.cases (h : CacheShows F c m) (key : PayloadKey) :
    (c.lookup key = none ∧ m.lookup key = none) ∨
      ∃ block payload, c.lookup key = some block ∧ m.lookup key = some payload ∧
        Shown F key block payload := by
  have hrel := h key
  generalize c.lookup key = found at hrel ⊢
  generalize m.lookup key = kept at hrel ⊢
  cases hrel with
  | none => exact .inl ⟨rfl, rfl⟩
  | some hshown => exact .inr ⟨_, _, rfl, rfl, hshown⟩

theorem CacheShows.containsOrAdd (h : CacheShows F c m) (hshown : Shown F key block payload) :
    ∃ dropped, CacheShows F (c.containsOrAdd key block).1
      (without (Relays.containsOrAdd m payload) dropped) := by
  unfold Relays.containsOrAdd
  rw [hshown.2.2]
  rcases h.cases key with ⟨hc, hm⟩ | ⟨old, kept, hc, hm, -⟩
  · rw [hm, MultiSlotPayloadCache.containsOrAdd_of_none hc]
    exact h.add hshown
  · rw [hm, MultiSlotPayloadCache.containsOrAdd_of_some hc]
    exact ⟨none, h⟩

end Caches

/-! ### Steps that belong together -/

variable {D} {F : UInt64 → ForkVersion}

/-- The states of the two models that belong together. -/
structure Refines (D : Config n) (F : UInt64 → ForkVersion) (c : Deployment L n)
    (s : Relays n) : Prop where
  cluster : c.cluster = s.cluster
  admitted : c.admitted = s.admitted
  stored : c.stored = s.stored
  db : ∀ key, c.db.lookup (payloadKeyKey key) =
    (s.store.lookup key).map fun payload => payload.toBlock.text D.boost
  pc : ∀ i, CacheShows F (c.pc i) (s.cache i)
  tasks : ∀ t ∈ c.tasks, t.2.1 = F t.2.2.slot
  fetched : c.fetched = s.fetched.map fun m => (m.1, m.2.1, m.2.2.toBlock)
  streamed : c.streamed.map (fun m => (m.1, D.read m.1 m.2)) =
    s.streamed.map fun m => (m.1, some (some m.2.toBlock.arrives))
  properAdmitted : ∀ sub ∈ s.admitted, sub.payload.Proper F
  properStore : ∀ key payload, s.store.lookup key = some payload → payload.Proper F
  properFetched : ∀ m ∈ s.fetched, m.2.2.Proper F
  properStreamed : ∀ m ∈ s.streamed, m.2.Proper F

/-- A state is reached by steps of the other model that meet its condition. -/
def Matched (D : Config n) (F : UInt64 → ForkVersion) (s : Relays n) (c : Deployment L n) :
    Prop :=
  ∃ as s', Runs.run (Relays.step D.setup) s as = some s' ∧
    Runs.Meets (Relays.step D.setup) (Relays.Compared D.setup) s as ∧ Refines D F c s'

variable {c c' : Deployment L n} {s s' : Relays n}
  (hfork : ∀ i slot, (D.setup.fork i).version slot = F slot)
  (hid : Function.Injective D.localNode)

theorem Matched.refl (h : Refines D F c s) : Matched D F s c := ⟨[], s, rfl, trivial, h⟩

theorem Matched.step {a : Relays.Action n} (hs : Relays.step D.setup s a = some s')
    (hC : Relays.Compared D.setup s a) (h : Refines D F c s') : Matched D F s c :=
  ⟨[a], s', Runs.run_cons_of_step _ hs [], ⟨hC, fun _ _ => trivial⟩, h⟩

/-- A step, after which an entry of a cache may be dropped. -/
theorem Matched.dropped {a : Relays.Action n} (i : Fin n) (dropped : Option PayloadKey)
    (hs : Relays.step D.setup s a = some s') (hC : Relays.Compared D.setup s a)
    (h : Refines D F c
      { s' with cache := Function.update s'.cache i (without (s'.cache i) dropped) }) :
    Matched D F s c := by
  cases dropped with
  | none =>
      rw [without, Option.elim_none, Function.update_eq_self] at h
      exact .step hs hC h
  | some key =>
      refine ⟨[a, .evict i key], _, ?_, ⟨hC, fun _ _ => ⟨trivial, fun _ _ => trivial⟩⟩, h⟩
      rw [Runs.run_cons_of_step _ hs]
      rfl

/-- What is stored is read back under the fork of the slot. -/
theorem Refines.getPayload_eq (h : Refines D F c s) (hinv : Relays.Inv D.setup s)
    {key : PayloadKey} {payload : BlockAndTraceExtended} (hp : s.store.lookup key = some payload) :
    PayloadStore.getPayload D.boost D.notFound c.db (F key.slot) key = .ok payload.toBlock := by
  have hproper := h.properStore key payload hp
  have hlookup : c.db.lookup (payloadKeyKey key) = some (payload.toBlock.text D.boost) := by
    rw [h.db, hp]
    rfl
  have hkey := hinv.filed key payload hp
  rw [PayloadStore.getPayload_of_lookup hlookup hproper.readable, ← hkey]
  exact hproper.readAs_eq

include hfork in
theorem Refines.check (h : Refines D F c s) {i : Fin n} {sbr : SubmitBlockRequest}
    {v : SubmitView} (hC : Compared D c (.check i sbr v))
    (hs : step D c (.check i sbr v) = some c') : Matched D F s c' := by
  obtain ⟨hhash, hwithin⟩ := hC
  simp only [step] at hs
  split at hs
  · next payload header hchecks hcontents =>
      obtain rfl := Option.some_inj.1 hs
      have hproper : payload.Proper F :=
        BlockAndTraceExtended.proper_of_prepare (preparePayloadContents_of_storeContents hcontents)
          (by rwa [show (D.setup.fork i).version = F from funext (hfork i)] at hwithin)
      have hstep : Relays.step D.setup s (.check i sbr v) =
          some { s with admitted := ⟨i, sbr, payload, header⟩ :: s.admitted } := by
        simp only [Relays.step, hchecks, hcontents]
      refine .step hstep hhash { h with
        admitted := congrArg _ h.admitted, properAdmitted := fun sub hsub => ?_ }
      rcases List.mem_cons.1 hsub with rfl | hsub
      · exact hproper
      · exact h.properAdmitted sub hsub
  · cases hs

include hfork in
theorem Refines.put (h : Refines D F c s) (hinv : Relays.Inv D.setup s) {k : ℕ}
    (hC : Compared D c (.put k)) (hs : step D c (.put k) = some c') : Matched D F s c' := by
  obtain ⟨⟨sub, admitted⟩, hpick, hs⟩ := Option.bind_eq_some_iff.1 hs
  obtain rfl := Option.some_inj.1 hs
  have hpick' : Runs.pick s.admitted k = some (sub, admitted) := h.admitted ▸ hpick
  have hsub := h.properAdmitted sub (Runs.mem_of_pick hpick')
  have hstep : Relays.step D.setup s (.put k) = some { s with
      store := s.store.insert sub.sbr.toPayloadKey sub.payload
      admitted
      stored := sub :: s.stored } := by
    simp only [Relays.step, hpick']
    rfl
  refine .step hstep ?_ { h with
    admitted := rfl
    stored := congrArg _ h.stored
    db := fun key => ?_
    properAdmitted := fun t ht => h.properAdmitted t (Runs.mem_of_mem_rest hpick' ht)
    properStore := fun key payload hkey => ?_ }
  · -- what is replaced is what would be read
    rintro sub' admitted' hpick'' old hold
    obtain ⟨rfl, rfl⟩ := Prod.mk.inj (Option.some_inj.1 (hpick'.symm.trans hpick''))
    have hread := h.getPayload_eq hinv hold
    have hsame := hC sub admitted hpick old.toBlock (by rw [hfork]; exact hread)
    rwa [BlockAndTraceExtended.executionHeaderHash_toBlock (h.properStore _ old hold),
      BlockAndTraceExtended.executionHeaderHash_toBlock hsub] at hsame
  · simp only [Go.lookup_insert_eq, PayloadStore.payloadKeyKey_injective.eq_iff]
    split
    · rfl
    · exact h.db key
  · rw [Go.lookup_insert_eq] at hkey
    split at hkey
    · exact Option.some_inj.1 hkey ▸ hsub
    · exact h.properStore key payload hkey

theorem Refines.add (h : Refines D F c s) {k : ℕ} {order : LoopOrder}
    (hs : step D c (.add k order) = some c') : Matched D F s c' := by
  obtain ⟨⟨sub, stored⟩, hpick, hs⟩ := Option.bind_eq_some_iff.1 hs
  have hpick' : Runs.pick s.stored k = some (sub, stored) := h.stored ▸ hpick
  simp only at hs
  split at hs
  · next err hbid =>
      obtain rfl := Option.some_inj.1 hs
      have hstep : Relays.step D.setup s (.add k order) = some { s with stored } := by
        simp only [Relays.step, hpick', hbid, Option.bind_eq_bind, Option.bind_some]
        rfl
      exact .step hstep trivial { h with stored := rfl }
  · next bid hbid =>
      obtain rfl := Option.some_inj.1 hs
      have hstep : Relays.step D.setup s (.add k order) =
          some { s with cluster := s.cluster.addLocal sub.host ⟨order, bid⟩, stored } := by
        simp only [Relays.step, hpick', hbid, Option.bind_eq_bind, Option.bind_some]
        rfl
      exact .step hstep trivial { h with
        cluster := congrArg (fun cluster => cluster.addLocal sub.host ⟨order, bid⟩) h.cluster
        stored := rfl }

/-- A bid that is served is one of the slot. -/
theorem slot_of_maxProfitBlock {a : Auctioneer} {slot : UInt64} {parent : Hash}
    {b : BuilderBidExtended} (h : a.maxProfitBlock slot parent = some b) : b.slot = slot := by
  unfold Auctioneer.maxProfitBlock Auction.maxProfitBlock at h
  split at h
  · split at h
    · next hslot => exact Option.some_inj.1 h ▸ hslot
    · cases h
  · cases h

/-- One cache changes, in both models. -/
theorem Refines.pc_update (h : Refines D F c s) (i : Fin n) {cache : MultiSlotPayloadCache L}
    {m : Go.Map PayloadKey BlockAndTraceExtended} (hcache : CacheShows F cache m) (j : Fin n) :
    CacheShows F (Function.update c.pc i cache j) (Function.update s.cache i m j) := by
  by_cases hj : j = i
  · subst hj
    rw [Function.update_self, Function.update_self]
    exact hcache
  · rw [Function.update_of_ne hj, Function.update_of_ne hj]
    exact h.pc j

/-- A change of one cache that keeps its entries. -/
theorem Refines.pc_get (h : Refines D F c s) (i : Fin n) (key : PayloadKey) (j : Fin n) :
    CacheShows F (Function.update c.pc i ((c.pc i).get key).2 j) (s.cache j) := by
  have hboth := h.pc_update i ((h.pc i).get key) j
  rwa [Function.update_eq_self] at hboth

include hfork in
theorem Refines.getHeader (h : Refines D F c s) {i : Fin n} {v : BeaconView}
    {request : HeaderRequest} (hs : step D c (.getHeader i v request) = some c') :
    Matched D F s c' := by
  simp only [step] at hs
  split at hs
  · exact .refl (Option.some_inj.1 hs ▸ h)
  · next slot bid hbid =>
      obtain rfl := Option.some_inj.1 hs
      obtain ⟨parentHash, pk, -, -, hmax, -, -, -⟩ := headerBid_eq_ok hbid
      refine .refl { h with pc := h.pc_get i bid.payloadKey, tasks := fun t ht => ?_ }
      simp only at ht
      split at ht
      · exact h.tasks t ht
      · rcases List.mem_cons.1 ht with rfl | ht
        · rw [hfork, ← slot_of_maxProfitBlock hmax]
          rfl
        · exact h.tasks t ht

theorem Refines.fetch (h : Refines D F c s) (hinv : Relays.Inv D.setup s) {k : ℕ}
    (hs : step D c (.fetch k) = some c') : Matched D F s c' := by
  obtain ⟨⟨⟨i, fork, key⟩, tasks⟩, hpick, hs⟩ := Option.bind_eq_some_iff.1 hs
  have hrest : ∀ t ∈ tasks, t.2.1 = F t.2.2.slot := fun t ht =>
    h.tasks t (Runs.mem_of_mem_rest hpick ht)
  have hF : fork = F key.slot := h.tasks (i, fork, key) (Runs.mem_of_pick hpick)
  simp only [hF] at hs
  cases hlookup : s.store.lookup key with
  | none =>
      have hnone : PayloadStore.getPayload D.boost D.notFound c.db (F key.slot) key =
          .error D.notFound := by
        rw [PayloadStore.getPayload, h.db, hlookup]
        rfl
      rw [hnone] at hs
      obtain rfl := Option.some_inj.1 hs
      exact .refl { h with tasks := hrest }
  | some payload =>
      rw [h.getPayload_eq hinv hlookup] at hs
      obtain rfl := Option.some_inj.1 hs
      have hstep : Relays.step D.setup s (.fetch i key) =
          some { s with fetched := (i, key, payload) :: s.fetched } := by
        simp only [Relays.step, hlookup]
        rfl
      refine .step hstep trivial { h with
        tasks := hrest
        fetched := congrArg _ h.fetched
        properFetched := fun m hm => ?_ }
      rcases List.mem_cons.1 hm with rfl | hm
      · exact h.properStore key payload hlookup
      · exact h.properFetched m hm

include hfork hid in
/-- A block of the fork of its slot is published, and the others can read it. -/
theorem exists_publishBlockCache (i : Fin n) {payload : BlockAndTraceExtended}
    (h : payload.Proper F) :
    ∃ raw, Stream.publishBlockCache D.boost (D.client i) payload.toBlock = some (.ok raw) ∧
      ∀ j, j ≠ i → D.read j raw = some (some payload.toBlock.arrives) := by
  have hsendable : payload.toBlock.Sendable (D.client i) := by
    rw [Config.client, show (D.setup.fork i).version = F from funext (hfork i)]
    exact h.sendable
  have hcarries : (Stream.blockWire D.boost D.jsonError D.client 0 0).Carries Stream.Block.arrives i
      payload.toBlock := Stream.carries_blockWire hid hsendable
  obtain ⟨raw, hwrite, hread⟩ := hcarries
  refine ⟨raw, ?_, fun j hj => ?_⟩
  · obtain ⟨result, hresult, hok⟩ := Option.bind_eq_some_iff.1 hwrite
    rw [hresult]
    cases result with
    | error err => cases hok
    | ok raw' =>
        obtain rfl := Option.some_inj.1 hok
        rfl
  · exact (hread j).trans (by rw [if_neg hj])

/-- What the others are handed in the other model. -/
def handed (stream : Bool) (i : Fin n) (payload : BlockAndTraceExtended) :
    List (Fin n × BlockAndTraceExtended) :=
  if stream then ((List.finRange n).filter (· ≠ i)).map fun j => (j, payload) else []

theorem map_read_sentTo {i : Fin n} {raw : List UInt8} {payload : BlockAndTraceExtended}
    (hread : ∀ j, j ≠ i → D.read j raw = some (some payload.toBlock.arrives)) :
    (sentTo i raw).map (fun m => (m.1, D.read m.1 m.2)) =
      (handed true i payload).map fun m => (m.1, some (some m.2.toBlock.arrives)) := by
  rw [sentTo, handed, if_pos rfl, List.map_map, List.map_map]
  refine List.map_congr_left fun j hj => ?_
  have hne : j ≠ i := of_decide_eq_true (List.mem_filter.1 hj).2
  exact congrArg (Prod.mk j) (hread j hne)

/-- The same place of the pools has a payload and its block. -/
theorem Refines.pick_fetched (h : Refines D F c s) {k : ℕ} {i : Fin n} {key : PayloadKey}
    {block : Stream.Block} {fetched : List (Fin n × PayloadKey × Stream.Block)}
    (hpick : Runs.pick c.fetched k = some ((i, key, block), fetched)) :
    ∃ payload rest, Runs.pick s.fetched k = some ((i, key, payload), rest) ∧
      block = payload.toBlock ∧ fetched = rest.map fun m => (m.1, m.2.1, m.2.2.toBlock) := by
  rw [h.fetched, Runs.pick_map] at hpick
  obtain ⟨⟨⟨i', key', payload⟩, rest⟩, hpick', heq⟩ := Option.map_eq_some_iff.1 hpick
  cases heq
  exact ⟨payload, rest, hpick', rfl, rfl⟩

/-- The same place of the pools has a message and the payload that is read from it. -/
theorem Refines.pick_streamed (h : Refines D F c s) {k : ℕ} {i : Fin n} {raw : List UInt8}
    {streamed : List (Fin n × List UInt8)}
    (hpick : Runs.pick c.streamed k = some ((i, raw), streamed)) :
    ∃ payload rest, Runs.pick s.streamed k = some ((i, payload), rest) ∧
      D.read i raw = some (some payload.toBlock.arrives) ∧
      streamed.map (fun m => (m.1, D.read m.1 m.2)) =
        rest.map fun m => (m.1, some (some m.2.toBlock.arrives)) := by
  have hmap := congrArg (fun pool => Runs.pick pool k) h.streamed
  simp only [Runs.pick_map, hpick, Option.map_some] at hmap
  obtain ⟨⟨⟨i', payload⟩, rest⟩, hpick', heq⟩ := Option.map_eq_some_iff.1 hmap.symm
  simp only [Prod.mk.injEq] at heq
  obtain ⟨⟨rfl, hread⟩, hrest⟩ := heq
  exact ⟨payload, rest, hpick', hread.symm, hrest.symm⟩

include hfork hid in
theorem Refines.cacheAdd (h : Refines D F c s) (hinv : Relays.Inv D.setup s) {k : ℕ}
    {accepted : Bool} (hs : step D c (.cacheAdd k accepted) = some c') : Matched D F s c' := by
  obtain ⟨⟨⟨i, key, block⟩, fetched⟩, hpicked, hs⟩ := Option.bind_eq_some_iff.1 hs
  obtain ⟨payload, rest, hpick, rfl, rfl⟩ := h.pick_fetched hpicked
  have hproper : payload.Proper F := h.properFetched _ (Runs.mem_of_pick hpick)
  have hkey : payload.cacheKey = key := (hinv.fetched _ (Runs.mem_of_pick hpick)).1
  obtain ⟨stream, sent, rfl, hsent⟩ : ∃ stream sent, c' = { c with
        pc := Function.update c.pc i ((c.pc i).add key payload.toBlock).1
        fetched := rest.map fun m => (m.1, m.2.1, m.2.2.toBlock)
        streamed := sent ++ c.streamed } ∧
      sent.map (fun m => (m.1, D.read m.1 m.2)) = (handed stream i payload).map
        fun m => (m.1, some (some m.2.toBlock.arrives)) := by
    simp only at hs
    split at hs
    · obtain ⟨raw, hpublish, hread⟩ := exists_publishBlockCache hfork hid i hproper
      rw [hpublish] at hs
      cases accepted with
      | true => exact ⟨true, sentTo i raw, (Option.some_inj.1 hs).symm, map_read_sentTo hread⟩
      | false => exact ⟨false, [], (Option.some_inj.1 hs).symm, rfl⟩
    · exact ⟨false, [], (Option.some_inj.1 hs).symm, rfl⟩
  have hshown : Shown F key payload.toBlock payload := ⟨.inl rfl, hproper, hkey⟩
  obtain ⟨dropped, hcache⟩ := (h.pc i).add hshown
  have hstep : Relays.step D.setup s (.cacheAdd k stream) = some { s with
      cache := Function.update s.cache i ((s.cache i).insert key payload)
      fetched := rest
      streamed := handed stream i payload ++ s.streamed } := by
    simp only [Relays.step, hpick]
    rfl
  refine .dropped i dropped hstep trivial { h with
    pc := ?_
    fetched := rfl
    streamed := ?_
    properFetched := fun m hm => h.properFetched m (Runs.mem_of_mem_rest hpick hm)
    properStreamed := fun m hm => ?_ }
  · simp only [Function.update_self, Function.update_idem]
    exact h.pc_update i hcache
  · rw [List.map_append, List.map_append, h.streamed, hsent]
  · rcases List.mem_append.1 hm with hm | hm
    · unfold handed at hm
      split at hm
      · obtain ⟨j, -, rfl⟩ := List.mem_map.1 hm
        exact hproper
      · cases hm
    · exact h.properStreamed m hm

theorem Refines.cacheConsume (h : Refines D F c s) {k : ℕ}
    (hs : step D c (.cacheConsume k) = some c') : Matched D F s c' := by
  obtain ⟨⟨⟨i, raw⟩, streamed⟩, hpicked, hs⟩ := Option.bind_eq_some_iff.1 hs
  obtain ⟨payload, rest, hpick, hread, hrest⟩ := h.pick_streamed hpicked
  have hproper : payload.Proper F := h.properStreamed _ (Runs.mem_of_pick hpick)
  obtain ⟨result, hresult, hs⟩ := Option.bind_eq_some_iff.1 hs
  obtain rfl := Option.some_inj.1 (hread.symm.trans hresult)
  obtain ⟨key, hblock, hs⟩ := Option.bind_eq_some_iff.1 hs
  obtain rfl := Option.some_inj.1 (payload.key_arrives_toBlock.symm.trans hblock)
  obtain rfl := Option.some_inj.1 hs
  have hshown : Shown F payload.cacheKey payload.toBlock.arrives payload :=
    ⟨.inr rfl, hproper, rfl⟩
  obtain ⟨dropped, hcache⟩ := (h.pc i).containsOrAdd hshown
  have hstep : Relays.step D.setup s (.cacheConsume k) = some { s with
      cache := Function.update s.cache i (Relays.containsOrAdd (s.cache i) payload)
      streamed := rest } := by
    simp only [Relays.step, hpick]
    rfl
  refine .dropped i dropped hstep trivial { h with
    pc := ?_
    streamed := hrest
    properStreamed := fun m hm => h.properStreamed m (Runs.mem_of_mem_rest hpick hm) }
  simp only [Function.update_self, Function.update_idem]
  exact h.pc_update i hcache

include hfork hid in
/-- **Each step is matched.** -/
theorem Refines.step (h : Refines D F c s) (hinv : Relays.Inv D.setup s) {a : Action n}
    (hC : Compared D c a) (hs : step D c a = some c') : Matched D F s c' := by
  cases a with
  | check i sbr v => exact h.check hfork hC hs
  | put k => exact h.put hfork hinv hC hs
  | add k order => exact h.add hs
  | publish k =>
      obtain ⟨cluster, hcluster, hs⟩ := Option.bind_eq_some_iff.1 hs
      obtain rfl := Option.some_inj.1 hs
      rw [h.cluster] at hcluster
      have hstep : Relays.step D.setup s (.publish k) = some { s with cluster } := by
        simp only [Relays.step, hcluster]
        rfl
      exact .step hstep trivial { h with cluster := rfl }
  | consume k order =>
      obtain ⟨cluster, hcluster, hs⟩ := Option.bind_eq_some_iff.1 hs
      obtain rfl := Option.some_inj.1 hs
      rw [h.cluster] at hcluster
      have hstep : Relays.step D.setup s (.consume k order) = some { s with cluster } := by
        simp only [Relays.step, hcluster]
        rfl
      exact .step hstep trivial { h with cluster := rfl }
  | getHeader i v request => exact h.getHeader hfork hs
  | fetch k => exact h.fetch hinv hs
  | cacheAdd k accepted => exact h.cacheAdd hfork hid hinv hs
  | cacheConsume k => exact h.cacheConsume hs
  | getPayload i key =>
      obtain rfl := Option.some_inj.1 hs
      exact .refl { h with pc := h.pc_get i key }

/-! ### Runs -/

theorem refines_init {sizes : Fin n → ℤ} {pc : Fin n → MultiSlotPayloadCache L}
    (hnew : ∀ i, newMultiSlotPayloadCache L (sizes i) = .ok (pc i)) :
    Refines D F (init pc) (Relays.init n) where
  cluster := rfl
  admitted := rfl
  stored := rfl
  db key := rfl
  pc i key := by
    rw [init, MultiSlotPayloadCache.lookup_of_new (hnew i)]
    exact .none
  tasks t ht := nomatch ht
  fetched := rfl
  streamed := rfl
  properAdmitted sub hsub := nomatch hsub
  properStore key payload h := by simp [Relays.init] at h
  properFetched m hm := nomatch hm
  properStreamed m hm := nomatch hm

variable {sizes : Fin n → ℤ} {pc : Fin n → MultiSlotPayloadCache L} {as : List (Action n)}

include hfork hid in
/-- The condition of the other model gives its invariant along the way. -/
theorem exists_refines (hnew : ∀ i, newMultiSlotPayloadCache L (sizes i) = .ok (pc i))
    (hrun : Runs.run (Deployment.step D) (init pc) as = some c)
    (hC : Runs.Meets (Deployment.step D) (Compared D) (init pc) as) :
    ∃ bs s, Runs.run (Relays.step D.setup) (Relays.init n) bs = some s ∧
      Runs.Meets (Relays.step D.setup) (Relays.Compared D.setup) (Relays.init n) bs ∧
      Refines D F c s ∧ Relays.Inv D.setup s := by
  refine Runs.exists_run_of_simulation (Deployment.step D) (Relays.step D.setup)
    (R := fun c s => Refines D F c s ∧ Relays.Inv D.setup s) (fun c s a c' h hC hs => ?_)
    ⟨refines_init hnew, Relays.inv_init⟩ hC hrun
  obtain ⟨bs, s', hbs, hmeets, hrefines⟩ := h.1.step hfork hid h.2 hC hs
  exact ⟨bs, s', hbs, hmeets, hrefines, Runs.run_invariant_of_meets _
    (fun _ _ _ h hC hs => h.step hC hs) h.2 hmeets hbs⟩

include hfork in
/-- What is in the cache or in the store is found, with its header root. -/
theorem Refines.exists_findPayload (h : Refines D F c s) (hinv : Relays.Inv D.setup s)
    {key : PayloadKey} {root : Except GoError Hash}
    (hholds : Relays.Holds D.setup s.store key root) (j : Fin n) :
    ∃ block payload, findPayload D c j key.slot key = .ok block ∧ Shown F key block payload ∧
      payload.executionHeaderHash D.setup.primitives = root := by
  obtain ⟨stored, hstored, hroot⟩ := hholds
  unfold findPayload
  rw [MultiSlotPayloadCache.get_fst, hfork]
  rcases (h.pc j).cases key with ⟨hlookup, -⟩ | ⟨block, payload, hlookup, hcache, hshown⟩
  · refine ⟨stored.toBlock, stored, ?_,
      ⟨.inl rfl, h.properStore key stored hstored, hinv.filed key stored hstored⟩, hroot⟩
    rw [hlookup, h.getPayload_eq hinv hstored]
  · -- a cached payload has the header root of the stored one
    obtain ⟨stored', hstored', hroot'⟩ := hinv.cached j key payload hcache
    obtain rfl := Option.some_inj.1 (hstored.symm.trans hstored')
    exact ⟨block, payload, by rw [hlookup], hshown, hroot'.symm.trans hroot⟩

/-- **The payload of every bid that can be served is found**: in every run whose steps meet the
condition, with caches of any size, a proposer that signs the header of a bid that an instance
serves asks for the key of its payload; every instance finds a block under it, which passes
`validatePayload` and can be answered with. -/
theorem served_bid_found (hfork : ∀ i slot, (D.setup.fork i).version slot = F slot)
    (hid : Function.Injective D.localNode)
    (hnew : ∀ i, newMultiSlotPayloadCache L (sizes i) = .ok (pc i))
    (hrun : Runs.run (Deployment.step D) (init pc) as = some c)
    (hC : Runs.Meets (Deployment.step D) (Compared D) (init pc) as) {i : Fin n} {slot : UInt64}
    {parent : Hash} {b : BuilderBidExtended}
    (hb : (c.cluster.auctioneer i).maxProfitBlock slot parent = some b) (j : Fin n)
    {request : SignedBlindedBeaconBlock} {root : Hash}
    (hheader : request.header = some b.builderBid.header) (hslot : request.slot = b.slot)
    (hroot : D.setup.primitives.headerRoot b.builderBid.header = .ok root) :
    request.toPayloadKey b.proposer = .ok b.payloadKey ∧
      ∃ block, findPayload D c j request.slot b.payloadKey = .ok block ∧
        block.executionHeaderHash D.setup.primitives = .ok root ∧
        request.executionHeaderHash D.setup.primitives = .ok root ∧
        ∃ response, payloadResponse ((D.setup.fork j).version request.slot)
          block.executionPayload = some (.ok response) := by
  obtain ⟨-, s, -, -, hrefines, hinv⟩ := exists_refines hfork hid hnew hrun hC
  rw [hrefines.cluster] at hb
  obtain ⟨call, hcall, rfl⟩ := hinv.cluster.mem_added_of_maxProfitBlock hb
  obtain ⟨block, payload, hfind, hshown, hpayload⟩ :=
    hrefines.exists_findPayload hfork hinv (hinv.bids.added i call hcall) j
  refine ⟨?_, block, ?_, ?_, ?_, ?_⟩
  · simp only [SignedBlindedBeaconBlock.toPayloadKey, hheader, hslot]
    rfl
  · rw [hslot]
    exact hfind
  · rw [hshown.executionHeaderHash_eq, hpayload, hroot]
  · simp only [SignedBlindedBeaconBlock.executionHeaderHash, hheader, hroot]
  · rw [hfork, hslot]
    exact hshown.exists_payloadResponse

/-- **No instance panics over a payload**: neither a task of `GetHeader` that streams what it has
loaded, nor a subscriber over what it reads. -/
theorem isSome_step (hfork : ∀ i slot, (D.setup.fork i).version slot = F slot)
    (hid : Function.Injective D.localNode)
    (hnew : ∀ i, newMultiSlotPayloadCache L (sizes i) = .ok (pc i))
    (hrun : Runs.run (Deployment.step D) (init pc) as = some c)
    (hC : Runs.Meets (Deployment.step D) (Compared D) (init pc) as) :
    (∀ k accepted, k < c.fetched.length →
        (Deployment.step D c (.cacheAdd k accepted)).isSome = true) ∧
      ∀ k, k < c.streamed.length → (Deployment.step D c (.cacheConsume k)).isSome = true := by
  obtain ⟨-, s, -, -, hrefines, -⟩ := exists_refines hfork hid hnew hrun hC
  constructor
  · intro k accepted hk
    obtain ⟨⟨i, key, block⟩, fetched, hpicked⟩ := Runs.exists_pick hk
    obtain ⟨payload, rest, hpick, rfl, rfl⟩ := hrefines.pick_fetched hpicked
    obtain ⟨raw, hpublish, -⟩ := exists_publishBlockCache hfork hid i
      (hrefines.properFetched _ (Runs.mem_of_pick hpick))
    cases hstreams : D.streams i with
    | false => simp [Deployment.step, hpicked, hstreams]
    | true => simp [Deployment.step, hpicked, hstreams, hpublish]
  · intro k hk
    obtain ⟨⟨i, raw⟩, streamed, hpicked⟩ := Runs.exists_pick hk
    obtain ⟨payload, rest, -, hread, -⟩ := hrefines.pick_streamed hpicked
    simp [Deployment.step, hpicked, hread, payload.key_arrives_toBlock]

/-! ### One instance -/

open Relays (oneRelay askedAgain zeroHashSubmission zeroHashBid zeroHashPayload
  submitChecks_askedAgain storeContents_zeroHash bidExtended_zeroHash maxProfitBlock_zeroHashBid)

def oneInstance : Config 1 where
  setup := oneRelay
  localNode _ := default
  streams _ := true
  jsonError := Stream.noMessage
  notFound := PayloadStore.keyNotFound
  boost := .plain

/-- Caches with room for one payload. -/
abbrev oneEach : Lru PayloadKey Stream.Block := Lru.oneEntry _ _

/-- The only instance. -/
def only : Fin 1 := ⟨0, Nat.one_pos⟩

theorem only_eq : only = 0 := rfl

/-- A submission without other steps in between. -/
def submitOnce : List (Action 1) :=
  [.check only (zeroHashSubmission default) askedAgain, .put 0, .add 0 Go.RangeOrder.stored]

/-- The block hash, the proposer and the slot of the submission. -/
def zeroHashKey : PayloadKey := ⟨default, default, 32⟩

/-- Its payload is stored and its bid is added. -/
def submitted (s : Deployment L 1) : Deployment L 1 :=
  { s with
    db := s.db.insert (payloadKeyKey zeroHashKey) ((zeroHashPayload default).toBlock.text .plain)
    cluster := s.cluster.addLocal only ⟨Go.RangeOrder.stored, zeroHashBid⟩ }

theorem run_submitOnce (s : Deployment L 1) :
    Runs.run (Deployment.step oneInstance) s submitOnce = some (submitted s) := by
  have hchecks := submitChecks_askedAgain default
  have hcontents := storeContents_zeroHash default
  have hbid := bidExtended_zeroHash default
  simp [submitOnce, Runs.run_cons, Deployment.step, oneInstance, only_eq, hchecks, hcontents,
    Runs.pick, putPayload, marshalPayload, hbid]
  rfl

theorem within_zeroHash :
    (zeroHashSubmission default).Within (oneInstance.setup.fork 0).version := by
  refine ⟨by decide, ⟨by decide, by decide, by decide⟩, ?_, by decide⟩
  intro tx htx
  cases htx

theorem proper_zeroHash : (zeroHashPayload default).Proper (oneInstance.setup.fork 0).version :=
  BlockAndTraceExtended.proper_of_prepare
    (preparePayloadContents_of_storeContents (storeContents_zeroHash default)) within_zeroHash

/-- The submission meets the condition if nothing else is under its key. -/
theorem meets_submitOnce {s : Deployment L 1}
    (hsame : ∀ old, PayloadStore.getPayload .plain PayloadStore.keyNotFound s.db .capella
      zeroHashKey = .ok old → old = (zeroHashPayload default).toBlock) :
    Runs.Meets (Deployment.step oneInstance) (Compared oneInstance) s submitOnce := by
  have hchecks := submitChecks_askedAgain default
  have hcontents := storeContents_zeroHash default
  refine ⟨⟨fun _ => rfl, within_zeroHash⟩,
    fun s' hs' => ⟨?_, fun _ _ => ⟨trivial, fun _ _ => trivial⟩⟩⟩
  simp only [Deployment.step, oneInstance, only_eq, hchecks, hcontents, Option.some_inj] at hs'
  subst hs'
  intro sub admitted hpick old hold
  obtain ⟨rfl, -⟩ : Submission.mk 0 (zeroHashSubmission default) (zeroHashPayload default)
      zeroHashBid.builderBid.header = sub ∧ s.admitted = admitted := by
    simpa [Runs.pick] using hpick
  rw [hsame old hold]

/-- The submission is made twice, its bid is served, and its payload is loaded. -/
def serveOnce : List (Action 1) :=
  submitOnce ++ (submitOnce ++
    [.getHeader only { (default : BeaconView) with headSlot := 32 } (.of 32 default default),
      .fetch 0])

theorem getPayload_zeroHash {db : DB}
    (h : db.lookup (payloadKeyKey zeroHashKey) =
      some ((zeroHashPayload default).toBlock.text .plain)) :
    PayloadStore.getPayload .plain PayloadStore.keyNotFound db .capella zeroHashKey =
      .ok (zeroHashPayload default).toBlock :=
  PayloadStore.getPayload_of_lookup h proper_zeroHash.readable _

theorem headerBid_zeroHash {a : Auctioneer} (h : a.maxProfitBlock 32 default = some zeroHashBid) :
    headerBid (oneRelay.cfg 0)
      { (default : BeaconView) with headSlot := 32, fork := oneRelay.fork 0 } a
      (.of 32 default default) = .ok (32, zeroHashBid) := by
  simp only [headerBid, HeaderRequest.of, bind, Except.bind, h]
  rfl

/-- A ring of empty caches. -/
def smallRing : MultiSlotPayloadCache oneEach := fun _ => none

/-- After two submissions the bid is served, and its payload is not in the cache. -/
theorem run_getHeader_zeroHash {s : Deployment oneEach 1}
    (hserved : (s.cluster.auctioneer 0).maxProfitBlock 32 default = some zeroHashBid)
    (hpc : s.pc 0 = smallRing) (htasks : s.tasks = []) (hfetched : s.fetched = [])
    (hdb : s.db.lookup (payloadKeyKey zeroHashKey) =
      some ((zeroHashPayload default).toBlock.text .plain)) :
    ∃ c, Runs.run (Deployment.step oneInstance) s
        [.getHeader 0 { (default : BeaconView) with headSlot := 32 } (.of 32 default default),
          .fetch 0] = some c ∧
      c.cluster = s.cluster ∧
      c.fetched = [(0, zeroHashKey, (zeroHashPayload default).toBlock)] := by
  have hget : smallRing.get zeroHashBid.payloadKey = (none, smallRing) :=
    congrArg (Prod.mk none) (Function.update_eq_self _ smallRing)
  have hstep : Deployment.step oneInstance s
      (.getHeader 0 { (default : BeaconView) with headSlot := 32 } (.of 32 default default)) =
        some { s with tasks := [(0, .capella, zeroHashKey)] } := by
    have hsame : Function.update s.pc 0 smallRing = s.pc := hpc ▸ Function.update_eq_self 0 s.pc
    simp only [Deployment.step, oneInstance, headerBid_zeroHash hserved, hpc, hget, htasks, hsame]
    rfl
  refine ⟨{ s with tasks := [], fetched := [(0, zeroHashKey, (zeroHashPayload default).toBlock)] },
    ?_, rfl, rfl⟩
  rw [Runs.run_cons_of_step _ hstep]
  simp [Runs.run_cons, Deployment.step, Runs.pick, oneInstance, getPayload_zeroHash hdb, hfetched]

theorem lookup_db_submitted (s : Deployment L 1) :
    (submitted s).db.lookup (payloadKeyKey zeroHashKey) =
      some ((zeroHashPayload default).toBlock.text .plain) := AList.lookup_insert _

theorem run_serveOnce : ∃ c,
    Runs.run (Deployment.step oneInstance) (init fun _ => smallRing) serveOnce = some c ∧
      Runs.Meets (Deployment.step oneInstance) (Compared oneInstance) (init fun _ => smallRing)
        serveOnce ∧
      (c.cluster.auctioneer 0).maxProfitBlock 32 default = some zeroHashBid ∧
      c.fetched = [(0, zeroHashKey, (zeroHashPayload default).toBlock)] := by
  have hfirst := run_submitOnce (init fun _ => smallRing)
  have hsecond := run_submitOnce (submitted (init fun _ => smallRing))
  have hserved : ((submitted (submitted (init fun _ => smallRing))).cluster.auctioneer
      0).maxProfitBlock 32 default = some zeroHashBid := maxProfitBlock_zeroHashBid
  obtain ⟨c, hthird, hcluster, hfetched⟩ :=
    run_getHeader_zeroHash hserved rfl rfl rfl (lookup_db_submitted _)
  refine ⟨c, ?_, ?_, hcluster ▸ hserved, hfetched⟩
  · rw [serveOnce, Runs.run_append_eq_some]
    exact ⟨_, hfirst, (Runs.run_append_eq_some _).2 ⟨_, hsecond, hthird⟩⟩
  · rw [serveOnce]
    refine (Runs.Meets.append_iff _ hfirst).2 ⟨meets_submitOnce (fun old hold => nomatch hold),
      (Runs.Meets.append_iff _ hsecond).2 ⟨meets_submitOnce fun old hold => ?_,
        trivial, fun _ _ => ⟨trivial, fun _ _ => trivial⟩⟩⟩
    rw [getPayload_zeroHash (lookup_db_submitted _)] at hold
    exact (Except.ok.inj hold).symm

/-- The blinded block that a proposer signs for the bid. -/
def zeroHashRequest : SignedBlindedBeaconBlock :=
  .capella default ⟨32, 0, default, default, some ⟨true, true,
    some { (default : Capella.ExecutionPayloadHeader) with timestamp := 384 }, []⟩⟩

theorem fork_oneInstance (i : Fin 1) (slot : UInt64) :
    (oneInstance.setup.fork i).version slot = (oneRelay.fork 0).version slot := by
  rw [Subsingleton.elim i 0]
  rfl

theorem localNode_oneInstance : Function.Injective oneInstance.localNode :=
  Function.injective_of_subsingleton _

theorem new_smallRing (_ : Fin 1) : 
    newMultiSlotPayloadCache oneEach 1 = .ok smallRing := rfl

theorem served_bid_found_serveOnce :
    ∃ c, Runs.run (Deployment.step oneInstance) (init fun _ => smallRing) serveOnce = some c ∧
      (c.cluster.auctioneer 0).maxProfitBlock 32 default = some zeroHashBid ∧
      ∃ block, findPayload oneInstance c 0 32 zeroHashBid.payloadKey = .ok block ∧
        block.executionHeaderHash oneRelay.primitives = .ok default := by
  obtain ⟨c, hrun, hC, hserved, -⟩ := run_serveOnce
  obtain ⟨-, block, hfind, hroot, -, -⟩ := served_bid_found fork_oneInstance localNode_oneInstance
    new_smallRing hrun hC hserved 0 (show zeroHashRequest.header = some _ from rfl) rfl rfl
  exact ⟨c, hrun, hserved, block, hfind, hroot⟩

theorem isSome_step_serveOnce :
    ∃ c, Runs.run (Deployment.step oneInstance) (init fun _ => smallRing) serveOnce = some c ∧
      c.fetched.length = 1 ∧
      (Deployment.step oneInstance c (.cacheAdd 0 true)).isSome = true := by
  obtain ⟨c, hrun, hC, -, hfetched⟩ := run_serveOnce
  have hlength : c.fetched.length = 1 := congrArg List.length hfetched
  exact ⟨c, hrun, hlength, (isSome_step fork_oneInstance localNode_oneInstance new_smallRing hrun
    hC).1 0 true (by omega)⟩

end Deployment

end Dreamboat
