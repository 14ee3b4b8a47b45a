/-
**Every bid that can be served has its payload in the store.**

Several relay instances share one payload store.  A submission that passes the checks of an instance
is put into the store under a key from its bid trace, its bid goes into the auction of the instance
and from there to the others, and `GetHeader` derives a key from the header of a bid, loads the
payload into a cache and may stream it to the caches of the others.  A proposer that has signed the
header of a bid finds its payload if all these keys agree and if what is stored under a key is never
replaced by a payload with another header.

Two steps decide: a submission is admitted although the block hash of its trace is not that of its
payload (the branch of `verifyBlock` that asks for the randomness again does not compare them), or a
payload is put over one with another header root.  In every run without such steps, whatever the
instances, the streams and the caches do in between, every bid that an instance serves has its
payload in the store, and a proposer that signs its header gets past the key lookup and
`validatePayload` at every instance.

Main definitions:

* `Relays`, `Relays.step` — the instances with the shared store and their caches;
* `Relays.Compared` — the condition on the two steps;
* `Relays.Holds` — the store has a payload with a given header root under a key;
* `Relays.Inv` — the invariant.

Main results:

* `Relays.Inv.step` — steps that meet the condition keep the invariant;
* `Relays.served_bid_has_payload` — **every bid that can be served has its payload**.
-/

import Dreamboat.Cluster
import Dreamboat.GetPayload

set_option autoImplicit false

namespace Dreamboat

/-- What the instances are set up with. -/
structure Setup (n : ℕ) where
  primitives : Primitives
  cfg : Fin n → RelayConfig
  fork : Fin n → ForkState

/-- A submission between its checks and its end, with what is stored for it. -/
structure Submission (n : ℕ) where
  /-- The instance that was called. -/
  host : Fin n
  sbr : SubmitBlockRequest
  payload : BlockAndTraceExtended
  header : ExecutionPayloadHeader

/-- The instances, the store they share, and what is under way between them. -/
structure Relays (n : ℕ) where
  cluster : Cluster n
  store : Go.Map PayloadKey BlockAndTraceExtended
  cache : Fin n → Go.Map PayloadKey BlockAndTraceExtended
  /-- Submissions that have passed the checks. -/
  admitted : List (Submission n)
  /-- Submissions whose payload has been put into the store. -/
  stored : List (Submission n)
  /-- Payloads that a background task of `GetHeader` has loaded for its cache. -/
  fetched : List (Fin n × PayloadKey × BlockAndTraceExtended)
  /-- Payloads that wait at an instance for a subscriber of the cache stream. -/
  streamed : List (Fin n × BlockAndTraceExtended)

/-- The key that the subscribers of the cache stream derive from a payload. -/
def BlockAndTraceExtended.cacheKey (b : BlockAndTraceExtended) : PayloadKey where
  blockHash := b.executionPayload.base.epBlockHash
  proposer := b.proposer
  slot := b.slot

namespace Relays

variable {n : ℕ}

def init (n : ℕ) : Relays n := ⟨Cluster.init n, ∅, fun _ => ∅, [], [], [], []⟩

inductive Action (n : ℕ) where
  /-- A submission passes the checks, with what the call is answered. -/
  | check (i : Fin n) (sbr : SubmitBlockRequest) (v : SubmitView)
  /-- `PutPayload`. -/
  | put (k : ℕ)
  /-- `bidExtended` and `AddBlock`. -/
  | add (k : ℕ) (order : LoopOrder)
  /-- `PublishBuilderBid`. -/
  | publish (k : ℕ)
  /-- `runSubscriberBid`. -/
  | consume (k : ℕ) (order : LoopOrder)
  /-- A background task of `GetHeader` loads a payload from the store. -/
  | fetch (i : Fin n) (key : PayloadKey)
  /-- It adds the payload to the cache, and may stream it. -/
  | cacheAdd (k : ℕ) (stream : Bool)
  /-- `runSubscriberBlockCache`. -/
  | cacheConsume (k : ℕ)
  /-- The cache drops an entry. -/
  | evict (i : Fin n) (key : PayloadKey)

/-- `ContainsOrAdd`. -/
def containsOrAdd (cache : Go.Map PayloadKey BlockAndTraceExtended) (b : BlockAndTraceExtended) :
    Go.Map PayloadKey BlockAndTraceExtended :=
  match cache.lookup b.cacheKey with
  | some _ => cache
  | none => cache.insert b.cacheKey b

variable (S : Setup n)

def step (s : Relays n) : Action n → Option (Relays n)
  | .check i sbr v =>
      match submitChecks S.primitives (S.cfg i) v sbr, storeContents S.primitives (S.cfg i) sbr with
      | .ok (), .ok (payload, header) =>
          some { s with admitted := ⟨i, sbr, payload, header⟩ :: s.admitted }
      | _, _ => none
  | .put k => do
      let (sub, admitted) ← Runs.pick s.admitted k
      return { s with
        store := s.store.insert sub.sbr.toPayloadKey sub.payload
        admitted
        stored := sub :: s.stored }
  | .add k order => do
      let (sub, stored) ← Runs.pick s.stored k
      match bidExtended (S.fork sub.host) sub.sbr sub.header with
      | .error _ => return { s with stored }
      | .ok bid => return { s with cluster := s.cluster.addLocal sub.host ⟨order, bid⟩, stored }
  | .publish k => do
      let cluster ← s.cluster.publish k
      return { s with cluster }
  | .consume k order => do
      let cluster ← s.cluster.consume k order
      return { s with cluster }
  | .fetch i key => do
      let payload ← s.store.lookup key
      return { s with fetched := (i, key, payload) :: s.fetched }
  | .cacheAdd k stream => do
      let ((i, key, payload), fetched) ← Runs.pick s.fetched k
      let sent :=
        if stream then ((List.finRange n).filter (· ≠ i)).map fun j => (j, payload) else []
      return { s with
        cache := Function.update s.cache i ((s.cache i).insert key payload)
        fetched
        streamed := sent ++ s.streamed }
  | .cacheConsume k => do
      let ((i, payload), streamed) ← Runs.pick s.streamed k
      return { s with
        cache := Function.update s.cache i (containsOrAdd (s.cache i) payload)
        streamed }
  | .evict i key => some { s with cache := Function.update s.cache i ((s.cache i).erase key) }

/-- The condition: a submission that is admitted after the second question for the randomness has
the block hash of its trace in its payload, and a payload is put over one with the same header root
only. -/
def Compared (s : Relays n) : Action n → Prop
  | .check _ sbr v => (verifyBlock v sbr).1 = true → sbr.blockHash = sbr.traceBlockHash
  | .put k => ∀ sub admitted, Runs.pick s.admitted k = some (sub, admitted) →
      ∀ old, s.store.lookup sub.sbr.toPayloadKey = some old →
        old.executionHeaderHash S.primitives = sub.payload.executionHeaderHash S.primitives
  | _ => True

/-! ### The invariant -/

/-- The store has a payload with the header root `root` under a key. -/
def Holds (store : Go.Map PayloadKey BlockAndTraceExtended) (key : PayloadKey)
    (root : Except GoError Hash) : Prop :=
  ∃ payload, store.lookup key = some payload ∧ payload.executionHeaderHash S.primitives = root

/-- What is stored for a submission fits its bid. -/
structure Submission.Fits (sub : Submission n) : Prop where
  cacheKey_eq : sub.payload.cacheKey = sub.sbr.toPayloadKey
  root_eq : sub.payload.executionHeaderHash S.primitives = S.primitives.headerRoot sub.header
  blockHash_eq : sub.header.getBlockHash = sub.sbr.traceBlockHash

/-- The store has the payload of a bid, under the key that `GetHeader` derives. -/
def Backed (store : Go.Map PayloadKey BlockAndTraceExtended) (b : BuilderBidExtended) : Prop :=
  Holds S store b.payloadKey (S.primitives.headerRoot b.builderBid.header)

structure Inv (s : Relays n) : Prop where
  cluster : s.cluster.Inv
  filed : ∀ key payload, s.store.lookup key = some payload → payload.cacheKey = key
  admitted : ∀ sub ∈ s.admitted, Submission.Fits S sub
  stored : ∀ sub ∈ s.stored, Submission.Fits S sub ∧
    Holds S s.store sub.sbr.toPayloadKey (S.primitives.headerRoot sub.header)
  bids : s.cluster.All (Backed S s.store)
  cached : ∀ i key payload, (s.cache i).lookup key = some payload →
    Holds S s.store key (payload.executionHeaderHash S.primitives)
  fetched : ∀ m ∈ s.fetched, m.2.2.cacheKey = m.2.1 ∧
    Holds S s.store m.2.1 (m.2.2.executionHeaderHash S.primitives)
  streamed : ∀ m ∈ s.streamed,
    Holds S s.store m.2.cacheKey (m.2.executionHeaderHash S.primitives)

variable {S}

theorem inv_init : Inv S (init n) where
  cluster := Cluster.inv_init
  filed key payload h := by simp [init] at h
  admitted sub h := by cases h
  stored sub h := by cases h
  bids := Cluster.All.init n
  cached i key payload h := by simp [init] at h
  fetched m h := by cases h
  streamed m h := by cases h

/-- A payload that is put over one with the same header root takes nothing away. -/
theorem Holds.insert {store : Go.Map PayloadKey BlockAndTraceExtended} {key k : PayloadKey}
    {root : Except GoError Hash} {payload : BlockAndTraceExtended} (h : Holds S store key root)
    (hsame : ∀ old, store.lookup k = some old →
      old.executionHeaderHash S.primitives = payload.executionHeaderHash S.primitives) :
    Holds S (store.insert k payload) key root := by
  obtain ⟨old, hold, rfl⟩ := h
  unfold Holds
  rw [Go.lookup_insert_eq]
  split
  · next heq => exact ⟨payload, rfl, (hsame old (heq ▸ hold)).symm⟩
  · exact ⟨old, hold, rfl⟩

/-- What is admitted under the condition fits. -/
theorem fits_of_check {i : Fin n} {sbr : SubmitBlockRequest} {v : SubmitView}
    {payload : BlockAndTraceExtended} {header : ExecutionPayloadHeader}
    (hchecks : submitChecks S.primitives (S.cfg i) v sbr = .ok ())
    (hcontents : storeContents S.primitives (S.cfg i) sbr = .ok (payload, header))
    (hcompared : (verifyBlock v sbr).1 = true → sbr.blockHash = sbr.traceBlockHash) :
    Submission.Fits S ⟨i, sbr, payload, header⟩ := by
  -- with or without the second question, the two block hashes agree
  have hhash : sbr.blockHash = sbr.traceBlockHash := by
    cases hagain : (verifyBlock v sbr).1 with
    | true => exact hcompared hagain
    | false =>
        exact traceBlockHash_eq_of_verifyBlock
          (Prod.ext hagain (verifyBlock_of_submitChecks hchecks))
  obtain ⟨hroot, hblock, hmessage, hpayload⟩ :=
    executionHeaderHash_of_prepare (preparePayloadContents_of_storeContents hcontents)
  refine ⟨?_, hroot, hblock.trans hhash⟩
  simp only [BlockAndTraceExtended.cacheKey, BlockAndTraceExtended.proposer,
    BlockAndTraceExtended.slot, hmessage, hpayload, SubmitBlockRequest.toPayloadKey,
    PayloadKey.mk.injEq, and_true]
  exact hhash

/-- The bid of a submission that fits has the key of the stored payload. -/
theorem payloadKey_eq_of_fits {sub : Submission n} (h : Submission.Fits S sub)
    {fork : ForkState} {bid : BuilderBidExtended}
    (hbid : bidExtended fork sub.sbr sub.header = .ok bid) :
    bid.builderBid.header = sub.header ∧ bid.payloadKey = sub.sbr.toPayloadKey := by
  obtain ⟨hheader, hkey⟩ := payloadKey_of_bidExtended hbid
  refine ⟨hheader, ?_⟩
  rw [hkey, h.blockHash_eq]
  rfl

/-! ### One step keeps the invariant -/

variable {s s' : Relays n}

theorem Inv.check (h : Inv S s) {i : Fin n} {sbr : SubmitBlockRequest} {v : SubmitView}
    (hs : step S s (.check i sbr v) = some s') (hC : Compared S s (.check i sbr v)) :
    Inv S s' := by
  simp only [step] at hs
  split at hs
  · next payload header hchecks hcontents =>
      obtain rfl := Option.some_inj.1 hs
      refine { h with admitted := fun sub hsub => ?_ }
      rcases List.mem_cons.1 hsub with rfl | hsub
      · exact fits_of_check hchecks hcontents hC
      · exact h.admitted sub hsub
  · cases hs

theorem Inv.put (h : Inv S s) {k : ℕ} (hs : step S s (.put k) = some s')
    (hC : Compared S s (.put k)) : Inv S s' := by
  obtain ⟨⟨sub, admitted⟩, hpick, hs⟩ := Option.bind_eq_some_iff.1 hs
  obtain rfl := Option.some_inj.1 hs
  have hperm := Runs.perm_of_pick hpick
  have hsub := h.admitted sub (Runs.mem_of_pick hpick)
  have hkeep : ∀ {key root}, Holds S s.store key root →
      Holds S (s.store.insert sub.sbr.toPayloadKey sub.payload) key root :=
    fun hold => hold.insert (hC sub admitted hpick)
  refine ⟨h.cluster, ?_, ?_, ?_, h.bids.mono fun b hb => hkeep hb, ?_, ?_, ?_⟩
  · intro key payload hkey
    rw [Go.lookup_insert_eq] at hkey
    split at hkey
    · next heq =>
        obtain rfl := Option.some_inj.1 hkey
        rw [heq]
        exact hsub.cacheKey_eq
    · exact h.filed key payload hkey
  · exact fun t ht => h.admitted t (hperm.mem_iff.2 (List.mem_cons_of_mem _ ht))
  · intro t ht
    rcases List.mem_cons.1 ht with rfl | ht
    · exact ⟨hsub, _, AList.lookup_insert _, hsub.root_eq⟩
    · exact ⟨(h.stored t ht).1, hkeep (h.stored t ht).2⟩
  · exact fun i key payload hkey => hkeep (h.cached i key payload hkey)
  · exact fun m hm => ⟨(h.fetched m hm).1, hkeep (h.fetched m hm).2⟩
  · exact fun m hm => hkeep (h.streamed m hm)

theorem Inv.add (h : Inv S s) {k : ℕ} {order : LoopOrder}
    (hs : step S s (.add k order) = some s') : Inv S s' := by
  obtain ⟨⟨sub, stored⟩, hpick, hs⟩ := Option.bind_eq_some_iff.1 hs
  have hperm := Runs.perm_of_pick hpick
  have hrest : ∀ t ∈ stored, Submission.Fits S t ∧
      Holds S s.store t.sbr.toPayloadKey (S.primitives.headerRoot t.header) :=
    fun t ht => h.stored t (hperm.mem_iff.2 (List.mem_cons_of_mem _ ht))
  simp only at hs
  split at hs
  · obtain rfl := Option.some_inj.1 hs
    exact { h with stored := hrest }
  · next bid hbid =>
      obtain rfl := Option.some_inj.1 hs
      obtain ⟨hfits, hholds⟩ := h.stored sub (Runs.mem_of_pick hpick)
      obtain ⟨hheader, hkey⟩ := payloadKey_eq_of_fits hfits hbid
      have hbacked : Backed S s.store bid := by
        rw [Backed, hheader, hkey]
        exact hholds
      exact { h with
        cluster := Cluster.Inv.step (a := .submit sub.host ⟨order, bid⟩) h.cluster rfl
        stored := hrest
        bids := h.bids.addLocal sub.host hbacked }

theorem Inv.cacheAdd (h : Inv S s) {k : ℕ} {stream : Bool}
    (hs : step S s (.cacheAdd k stream) = some s') : Inv S s' := by
  obtain ⟨⟨⟨i, key, payload⟩, fetched⟩, hpick, hs⟩ := Option.bind_eq_some_iff.1 hs
  obtain rfl := Option.some_inj.1 hs
  have hperm := Runs.perm_of_pick hpick
  obtain ⟨hkey, hholds⟩ := h.fetched (i, key, payload) (Runs.mem_of_pick hpick)
  simp only at hkey hholds
  refine { h with cached := ?_, fetched := ?_, streamed := ?_ }
  · intro j key' payload' hlookup
    by_cases hj : j = i
    · subst hj
      simp only [Function.update_self, Go.lookup_insert_eq] at hlookup
      split at hlookup
      · next heq =>
          obtain rfl := Option.some_inj.1 hlookup
          rw [heq]
          exact hholds
      · exact h.cached j key' payload' hlookup
    · simp only [Function.update_of_ne hj] at hlookup
      exact h.cached j key' payload' hlookup
  · exact fun m hm => h.fetched m (hperm.mem_iff.2 (List.mem_cons_of_mem _ hm))
  · intro m hm
    rcases List.mem_append.1 hm with hm | hm
    · -- a streamed payload keeps its key, because its cache key is the key it was stored under
      split at hm
      · obtain ⟨j, -, rfl⟩ := List.mem_map.1 hm
        simp only [hkey]
        exact hholds
      · cases hm
    · exact h.streamed m hm

theorem Inv.cacheConsume (h : Inv S s) {k : ℕ} (hs : step S s (.cacheConsume k) = some s') :
    Inv S s' := by
  obtain ⟨⟨⟨i, payload⟩, streamed⟩, hpick, hs⟩ := Option.bind_eq_some_iff.1 hs
  obtain rfl := Option.some_inj.1 hs
  have hperm := Runs.perm_of_pick hpick
  have hholds := h.streamed (i, payload) (Runs.mem_of_pick hpick)
  refine { h with cached := ?_, streamed := ?_ }
  · intro j key payload' hlookup
    by_cases hj : j = i
    · subst hj
      simp only [Function.update_self, containsOrAdd] at hlookup
      split at hlookup
      · exact h.cached j key payload' hlookup
      · rw [Go.lookup_insert_eq] at hlookup
        split at hlookup
        · next heq =>
            obtain rfl := Option.some_inj.1 hlookup
            rw [heq]
            exact hholds
        · exact h.cached j key payload' hlookup
    · simp only [Function.update_of_ne hj] at hlookup
      exact h.cached j key payload' hlookup
  · exact fun m hm => h.streamed m (hperm.mem_iff.2 (List.mem_cons_of_mem _ hm))

theorem Inv.evict (h : Inv S s) {i : Fin n} {key : PayloadKey}
    (hs : step S s (.evict i key) = some s') : Inv S s' := by
  obtain rfl := Option.some_inj.1 hs
  refine { h with cached := fun j key' payload hlookup => ?_ }
  by_cases hj : j = i
  · subst hj
    simp only [Function.update_self, Go.lookup_erase_eq] at hlookup
    split at hlookup
    · cases hlookup
    · exact h.cached j key' payload hlookup
  · simp only [Function.update_of_ne hj] at hlookup
    exact h.cached j key' payload hlookup

/-- **Steps that meet the condition keep the invariant.** -/
theorem Inv.step (h : Inv S s) {a : Action n} (hC : Compared S s a)
    (hs : Relays.step S s a = some s') : Inv S s' := by
  cases a with
  | check i sbr v => exact h.check hs hC
  | put k => exact h.put hs hC
  | add k order => exact h.add hs
  | publish k =>
      obtain ⟨cluster, hcluster, hs⟩ := Option.bind_eq_some_iff.1 hs
      obtain rfl := Option.some_inj.1 hs
      exact { h with
        cluster := Cluster.Inv.step (a := .publish k) h.cluster hcluster
        bids := h.bids.publish hcluster }
  | consume k order =>
      obtain ⟨cluster, hcluster, hs⟩ := Option.bind_eq_some_iff.1 hs
      obtain rfl := Option.some_inj.1 hs
      exact { h with
        cluster := Cluster.Inv.step (a := .consume k order) h.cluster hcluster
        bids := h.bids.consume hcluster }
  | fetch i key =>
      obtain ⟨payload, hpayload, hs⟩ := Option.bind_eq_some_iff.1 hs
      obtain rfl := Option.some_inj.1 hs
      refine { h with fetched := fun m hm => ?_ }
      rcases List.mem_cons.1 hm with rfl | hm
      · exact ⟨h.filed key payload hpayload, payload, hpayload, rfl⟩
      · exact h.fetched m hm
  | cacheAdd k stream => exact h.cacheAdd hs
  | cacheConsume k => exact h.cacheConsume hs
  | evict i key => exact h.evict hs

/-! ### A proposer finds its payload -/

/-- An instance finds a payload with the right header root under a key that the store has. -/
theorem Inv.findPayload_of_holds (h : Inv S s) {key : PayloadKey} {root : Except GoError Hash}
    (hholds : Holds S s.store key root) (j : Fin n) :
    ∃ payload, findPayload (s.cache j).lookup s.store.lookup key = .ok payload ∧
      payload.executionHeaderHash S.primitives = root := by
  obtain ⟨payload, hpayload, hroot⟩ := hholds
  cases hcache : (s.cache j).lookup key with
  | none => exact ⟨payload, by simp [findPayload, hcache, hpayload], hroot⟩
  | some cached =>
      -- a cached payload has the header root of the stored one
      obtain ⟨payload', hpayload', hroot'⟩ := h.cached j key cached hcache
      rw [hpayload, Option.some_inj] at hpayload'
      subst hpayload'
      exact ⟨cached, by simp [findPayload, hcache], hroot'.symm.trans hroot⟩

/-- A payload with the header root that was signed is valid. -/
theorem validatePayload_eq_none {P : Primitives} {payload : BlockAndTraceExtended}
    {request : SignedBlindedBeaconBlock} {root : Hash}
    (hpayload : payload.executionHeaderHash P = .ok root)
    (hrequest : request.executionHeaderHash P = .ok root) :
    validatePayload P payload request = none := by
  simp [validatePayload, hpayload, hrequest]

/-- **Every bid that can be served has its payload**: in every run of any number of instances whose
steps all meet the condition, for every bid that an instance serves, the store has a payload with
the root of the header of the bid under the key that `GetHeader` derives; and a proposer that signs
the header gets past the key lookup and `validatePayload` at every instance. -/
theorem served_bid_has_payload (S : Setup n) (as : List (Action n)) (s : Relays n)
    (hrun : Runs.run (Relays.step S) (init n) as = some s)
    (hC : Runs.Meets (Relays.step S) (Compared S) (init n) as)
    (i : Fin n) (slot : UInt64) (parent : Hash) (b : BuilderBidExtended)
    (hb : (s.cluster.auctioneer i).maxProfitBlock slot parent = some b) :
    (∃ payload, s.store.lookup b.payloadKey = some payload ∧
      payload.executionHeaderHash S.primitives = S.primitives.headerRoot b.builderBid.header) ∧
    ∀ (j : Fin n) (request : SignedBlindedBeaconBlock) (root : Hash),
      request.header = some b.builderBid.header → request.slot = b.slot →
      S.primitives.headerRoot b.builderBid.header = .ok root →
      request.toPayloadKey b.proposer = .ok b.payloadKey ∧
      ∃ payload, findPayload (s.cache j).lookup s.store.lookup b.payloadKey = .ok payload ∧
        validatePayload S.primitives payload request = none := by
  have hinv : Inv S s :=
    Runs.run_invariant_of_meets (Relays.step S) (fun _ _ _ h hC hs => h.step hC hs) inv_init hC
      hrun
  obtain ⟨call, hcall, rfl⟩ := hinv.cluster.mem_added_of_maxProfitBlock hb
  have hbacked := hinv.bids.added i call hcall
  refine ⟨hbacked, fun j request root hheader hslot hroot => ⟨?_, ?_⟩⟩
  · simp only [SignedBlindedBeaconBlock.toPayloadKey, hheader, hslot]
    rfl
  · obtain ⟨payload, hfind, hpayload⟩ := hinv.findPayload_of_holds hbacked j
    refine ⟨payload, hfind, validatePayload_eq_none (hpayload.trans hroot) ?_⟩
    simp only [SignedBlindedBeaconBlock.executionHeaderHash, hheader, hroot]

/-! ### A submission after the second question -/

/-- One instance, at the fork of `capellaEpoch` one. -/
def oneRelay : Setup 1 where
  primitives := default
  cfg _ := { (default : RelayConfig) with secretKey := some default }
  fork _ := ⟨0, 0, 1⟩

/-- The randomness is not known at first, and then it is that of the submissions below. -/
def askedAgain : SubmitView where
  genesisTime := 0
  headSlot := 32
  randao := ""
  randaoAgain := hexString (default : Hash)
  withdrawalsRoot := default
  withdrawalsRootAgain := default
  registration := .ok 0
  validation := none
  enqueue := none

/-- A submission for the slot `32` with a block hash of zero in its payload. -/
def zeroHashSubmission (traceBlockHash : Hash) : SubmitBlockRequest where
  signature := default
  message :=
    { (default : BidTrace) with
      slot := 32, blockHash := traceBlockHash, value := U256Str.ofNat 1 }
  executionPayload := .capella { (default : Capella.ExecutionPayload) with epTimestamp := 384 }

theorem verifyBlock_askedAgain (h : Hash) :
    verifyBlock askedAgain (zeroHashSubmission h) = (true, none) := by
  have hslot : (zeroHashSubmission h).slot = 32 := rfl
  have htime : (zeroHashSubmission h).timestamp = 384 := rfl
  have hrandom : (zeroHashSubmission h).random = default := rfl
  have hempty : hexString (default : Hash) ≠ "" := by simp [hexString]
  unfold verifyBlock
  simp [askedAgain, hslot, htime, hrandom, hempty, numberOfSlotsInState]

theorem submitChecks_askedAgain (h : Hash) :
    submitChecks oneRelay.primitives (oneRelay.cfg 0) askedAgain (zeroHashSubmission h) =
      .ok () := by
  unfold submitChecks
  rw [verifyBlock_askedAgain]
  rfl

/-- A submission without other steps in between: its payload is stored and its bid is added. -/
theorem run_submit {s : Relays n} {i : Fin n} {sbr : SubmitBlockRequest} {v : SubmitView}
    {payload : BlockAndTraceExtended} {header : ExecutionPayloadHeader}
    {bid : BuilderBidExtended} {order : LoopOrder}
    (hchecks : submitChecks S.primitives (S.cfg i) v sbr = .ok ())
    (hcontents : storeContents S.primitives (S.cfg i) sbr = .ok (payload, header))
    (hbid : bidExtended (S.fork i) sbr header = .ok bid) :
    Runs.run (Relays.step S) s [.check i sbr v, .put 0, .add 0 order] =
      some { s with
        store := s.store.insert sbr.toPayloadKey payload
        cluster := s.cluster.addLocal i ⟨order, bid⟩ } := by
  simp [Runs.run_cons, Relays.step, hchecks, hcontents, Runs.pick, hbid]

/-- The condition on such a submission. -/
theorem meets_submit {s : Relays n} {i : Fin n} {sbr : SubmitBlockRequest} {v : SubmitView}
    {payload : BlockAndTraceExtended} {header : ExecutionPayloadHeader} {order : LoopOrder}
    (hchecks : submitChecks S.primitives (S.cfg i) v sbr = .ok ())
    (hcontents : storeContents S.primitives (S.cfg i) sbr = .ok (payload, header))
    (hhash : sbr.blockHash = sbr.traceBlockHash)
    (hsame : ∀ old, s.store.lookup sbr.toPayloadKey = some old →
      old.executionHeaderHash S.primitives = payload.executionHeaderHash S.primitives) :
    Runs.Meets (Relays.step S) (Compared S) s [.check i sbr v, .put 0, .add 0 order] := by
  refine ⟨fun _ => hhash, fun s' hs' => ⟨?_, fun _ _ => ⟨trivial, fun _ _ => trivial⟩⟩⟩
  simp only [Relays.step, hchecks, hcontents, Option.some_inj] at hs'
  subst hs'
  intro sub admitted hpick
  obtain ⟨rfl, -⟩ : Submission.mk i sbr payload header = sub ∧ s.admitted = admitted := by
    simpa [Runs.pick] using hpick
  exact hsame

/-- The bid of the submission. -/
def zeroHashBid : BuilderBidExtended where
  builderBid :=
    { header := .capella { (default : Capella.ExecutionPayloadHeader) with timestamp := 384 }
      value := U256Str.ofNat 1
      pubkey := default }
  proposer := default
  slot := 32

/-- The stored payload of the submission. -/
def zeroHashPayload (traceBlockHash : Hash) : BlockAndTraceExtended :=
  .capella { (default : Capella.ExecutionPayload) with epTimestamp := 384 }
    ⟨(zeroHashSubmission traceBlockHash).message, default⟩ default

/-- The submission is made twice: its first bid makes the ring roll over, its second one is
served. -/
def submitTwice (h : Hash) : List (Action 1) :=
  [.check 0 (zeroHashSubmission h) askedAgain, .put 0, .add 0 Go.RangeOrder.stored] ++
    [.check 0 (zeroHashSubmission h) askedAgain, .put 0, .add 0 Go.RangeOrder.stored]

theorem storeContents_zeroHash (h : Hash) :
    storeContents oneRelay.primitives (oneRelay.cfg 0) (zeroHashSubmission h) =
      .ok (zeroHashPayload h, zeroHashBid.builderBid.header) := rfl

theorem bidExtended_zeroHash (h : Hash) :
    bidExtended (oneRelay.fork 0) (zeroHashSubmission h) zeroHashBid.builderBid.header =
      .ok zeroHashBid := by
  have hfork : (oneRelay.fork 0).version 32 = .capella := by decide
  have hslot : (zeroHashSubmission h).slot = 32 := rfl
  simp only [bidExtended, hslot, hfork]
  rfl

theorem run_submitTwice (h : Hash) :
    ∃ s, Runs.run (Relays.step oneRelay) (init 1) (submitTwice h) = some s ∧
      s.store = ((∅ : Go.Map PayloadKey BlockAndTraceExtended).insert ⟨h, default, 32⟩
        (zeroHashPayload h)).insert ⟨h, default, 32⟩ (zeroHashPayload h) ∧
      s.cluster.auctioneer 0 = Auctioneer.new.addBlocks
        [⟨Go.RangeOrder.stored, zeroHashBid⟩, ⟨Go.RangeOrder.stored, zeroHashBid⟩] :=
  ⟨_, (Runs.run_append_eq_some _).2
    ⟨_, run_submit (submitChecks_askedAgain h) (storeContents_zeroHash h) (bidExtended_zeroHash h),
      run_submit (submitChecks_askedAgain h) (storeContents_zeroHash h) (bidExtended_zeroHash h)⟩,
    rfl, rfl⟩

/-- The bid is served. -/
theorem maxProfitBlock_zeroHashBid :
    (Auctioneer.new.addBlocks [⟨Go.RangeOrder.stored, zeroHashBid⟩,
      ⟨Go.RangeOrder.stored, zeroHashBid⟩]).maxProfitBlock 32 default = some zeroHashBid := by
  have hsome : ((Auctioneer.new.addBlocks [⟨Go.RangeOrder.stored, zeroHashBid⟩,
      ⟨Go.RangeOrder.stored, zeroHashBid⟩]).maxProfitBlock 32 default).isSome = true := by
    decide +kernel
  obtain ⟨b, hb⟩ := Option.isSome_iff_exists.1 hsome
  -- whatever is served was added, and there is only one bid
  have hmem := Auctioneer.mem_bids_of_maxProfitBlock hb
  obtain rfl : b = zeroHashBid := by simpa [Auctioneer.bids] using hmem
  exact hb

/-- The condition holds when the trace has the block hash of the payload. -/
theorem meets_submitTwice :
    Runs.Meets (Relays.step oneRelay) (Compared oneRelay) (init 1) (submitTwice default) := by
  have hchecks := submitChecks_askedAgain default
  have hcontents := storeContents_zeroHash default
  refine (Runs.Meets.append_iff _ (run_submit hchecks hcontents (bidExtended_zeroHash default))).2
    ⟨meets_submit hchecks hcontents rfl fun old hold => ?_,
      meets_submit hchecks hcontents rfl fun old hold => ?_⟩
  · simp [init] at hold
  · simp only [Go.lookup_insert_eq, if_true, Option.some_inj] at hold
    rw [← hold]

/-- The submission with the right block hash in its trace: the bid that is served has its
payload. -/
theorem served_bid_has_payload_submitTwice :
    ∃ s, Runs.run (Relays.step oneRelay) (init 1) (submitTwice default) = some s ∧
      (s.cluster.auctioneer 0).maxProfitBlock 32 default = some zeroHashBid ∧
      ∃ payload, s.store.lookup zeroHashBid.payloadKey = some payload ∧
        payload.executionHeaderHash oneRelay.primitives =
          oneRelay.primitives.headerRoot zeroHashBid.builderBid.header := by
  obtain ⟨s, hrun, -, hauction⟩ := run_submitTwice default
  have hserved : (s.cluster.auctioneer 0).maxProfitBlock 32 default = some zeroHashBid := by
    rw [hauction]
    exact maxProfitBlock_zeroHashBid
  exact ⟨s, hrun, hserved,
    (served_bid_has_payload oneRelay _ s hrun meets_submitTwice 0 32 default _ hserved).1⟩

/-- The submission with another block hash in its trace, admitted after the second question: the bid
that is served has no payload under its key. -/
theorem served_bid_without_payload :
    ∃ s, Runs.run (Relays.step oneRelay) (init 1) (submitTwice (Vector.replicate 32 1)) = some s ∧
      (s.cluster.auctioneer 0).maxProfitBlock 32 default = some zeroHashBid ∧
      s.store.lookup zeroHashBid.payloadKey = none := by
  obtain ⟨s, hrun, hstore, hauction⟩ := run_submitTwice (Vector.replicate 32 1)
  refine ⟨s, hrun, ?_, ?_⟩
  · rw [hauction]
    exact maxProfitBlock_zeroHashBid
  · rw [hstore]
    decide +kernel

end Relays

end Dreamboat
