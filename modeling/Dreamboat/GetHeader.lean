/-
**`GetHeader`: what a proposer is offered.**

A proposer asks for the header of the most profitable block for its slot, on a parent hash and under
its own key.  `GetHeader` rejects requests that are too old or too late, takes the best bid from the
auction, and only then compares the proposer of that bid with the one that asks.

The cryptography and the hashing come from packages outside the repository; they enter as the
functions of `Primitives`, about which nothing is assumed.

Main definitions:

* `Primitives` — signing, signature checks and hash tree roots;
* `RelayConfig`, `BeaconView` — what the relay reads during a request;
* `headerBid`, `headerAnswer` — the choice of the bid and the signed answer;
* `getHeader` — the answer, and the payload that is fetched into the cache.

Main results:

* `getHeader_congr` — the auction enters an answer through `MaxProfitBlock` only.
-/

import Dreamboat.Auctioneer

set_option autoImplicit false

namespace Dreamboat

abbrev SecretKey := Vector UInt8 32

/-- The operations of the packages for signatures and for hash tree roots. -/
structure Primitives where
  /-- `types.SignMessage` on a bid; the key is behind a pointer. -/
  signMessage : BuilderBid → Domain → Option SecretKey → Except GoError Signature
  /-- `types.ComputeSigningRoot` on a bid trace. -/
  traceSigningRoot : BidTrace → Domain → Except GoError Hash
  /-- The root of a list of transactions. -/
  transactionsRoot : List (List UInt8) → Except GoError Root
  /-- The root of a list of withdrawals. -/
  withdrawalsRoot : List Withdrawal → Except GoError Root
  /-- The root of a header. -/
  headerRoot : ExecutionPayloadHeader → Except GoError Hash

/-- Headers are told apart by their block hashes. -/
instance : Inhabited Primitives where
  default := ⟨fun _ _ _ => .ok default, fun _ _ => .ok default, fun _ => .ok default,
    fun _ => .ok default, fun header => .ok header.getBlockHash⟩

/-- The configuration of a relay, as far as the modelled requests read it.  The list of allowed
builders is `none` where the map is `nil`. -/
structure RelayConfig where
  builderSigningDomain : Domain
  pubKey : PublicKey
  secretKey : Option SecretKey
  /-- In milliseconds. -/
  getPayloadRequestTimeLimit : Int64
  publishBlock : Bool
  allowedListedBuilders : Option (List PublicKey)
  deriving Inhabited

/-- The clock and the beacon state at the time of a request. -/
structure BeaconView where
  headSlot : UInt64
  genesisTime : UInt64
  fork : ForkState
  /-- The wall clock in milliseconds. -/
  now : Int64
  deriving Inhabited

namespace BeaconView

/-- How far the clock is into a slot, in milliseconds and in machine arithmetic. -/
def msIntoSlot (v : BeaconView) (slot : UInt64) : Int64 :=
  v.now - (v.genesisTime + slot * 12).toInt64 * 1000

/-- The oldest slot that is still answered. -/
def minSlot (v : BeaconView) : UInt64 :=
  v.headSlot + 1 - (UInt64.ofNat numberOfSlotsInState - 1)

end BeaconView

/-- A request, as its three accessors read it from the path of the URL. -/
structure HeaderRequest where
  slot : Except GoError UInt64
  parentHash : Except GoError Hash
  pubkey : Except GoError PublicKey

/-- A well-formed request. -/
def HeaderRequest.of (slot : UInt64) (parentHash : Hash) (pk : PublicKey) : HeaderRequest where
  slot := .ok slot
  parentHash := .ok parentHash
  pubkey := .ok pk

structure GetHeaderResponse where
  version : String
  data : SignedBuilderBid
  deriving DecidableEq, Inhabited, Repr

variable (P : Primitives) (cfg : RelayConfig) (v : BeaconView)

/-- The bid that answers a request, with the slot asked for. -/
def headerBid (a : Auctioneer) (request : HeaderRequest) :
    Except GoError (UInt64 × BuilderBidExtended) := do
  let slot ← request.slot
  if slot < v.minSlot then throw (.sentinel .errOldSlot)
  let parentHash ← request.parentHash
  let pk ← request.pubkey
  if v.msIntoSlot slot > cfg.getPayloadRequestTimeLimit then throw (.sentinel .errLateRequest)
  match a.maxProfitBlock slot parentHash with
  | none => throw (.sentinel .errNoBuilderBid)
  | some maxProfit =>
      if maxProfit.parentHash ≠ parentHash then throw (.sentinel .errNoBuilderBid)
      if maxProfit.proposer ≠ pk then throw (.sentinel .errNoBuilderBid)
      if maxProfit.builderBid.value.cmp (U256Str.ofNat 0) = 0 then throw (.sentinel .errZeroBid)
      return (slot, maxProfit)

/-- The relay puts its own key into the bid and signs it. -/
def signHeader (version : String) (bid : BuilderBid) : Except GoError GetHeaderResponse :=
  let bid := { bid with pubkey := cfg.pubKey }
  match P.signMessage bid cfg.builderSigningDomain cfg.secretKey with
  | .error _ => .error (.sentinel .errInternal)
  | .ok signature => .ok ⟨version, bid, signature⟩

/-- The answer that carries a bid: its header must be of the fork of the slot. -/
def headerAnswer (slot : UInt64) (bid : BuilderBidExtended) : Except GoError GetHeaderResponse :=
  match v.fork.version slot, bid.builderBid.header with
  | .bellatrix, .bellatrix _ => signHeader P cfg "bellatrix" bid.builderBid
  | .capella, .capella _ => signHeader P cfg "capella" bid.builderBid
  | _, _ => .error (.new "incompatible fork state")

/-- `GetHeader`: the answer, and the key of the payload that a background task loads from the store
into the payload cache, if the cache does not have it. -/
def getHeader (cached : PayloadKey → Bool) (a : Auctioneer) (request : HeaderRequest) :
    Except GoError GetHeaderResponse × Option PayloadKey :=
  match headerBid cfg v a request with
  | .error err => (.error err, none)
  | .ok (slot, bid) =>
      (headerAnswer P cfg v slot bid, if cached bid.payloadKey then none else some bid.payloadKey)

/-- The auction enters an answer through `MaxProfitBlock` only. -/
theorem getHeader_congr {a a' : Auctioneer} {slot : UInt64} {parentHash : Hash}
    (h : a.maxProfitBlock slot parentHash = a'.maxProfitBlock slot parentHash)
    (cached : PayloadKey → Bool) (pk : PublicKey) :
    getHeader P cfg v cached a (.of slot parentHash pk) =
      getHeader P cfg v cached a' (.of slot parentHash pk) := by
  have hbid : headerBid cfg v a (.of slot parentHash pk) =
      headerBid cfg v a' (.of slot parentHash pk) := by
    simp only [headerBid, HeaderRequest.of, bind, Except.bind, h]
  simp only [getHeader, hbid]

end Dreamboat
