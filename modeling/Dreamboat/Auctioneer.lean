/-
**The auction: a ring of per-slot auctions.**

`src/auction/auctioneer.go` keeps, for each of the `numberOfSlotsInState` places of a ring, one
auction: the slot it is for, the latest bid of every builder on every parent hash, and the most
profitable bid on every parent hash.  A bid for an older slot is discarded, a bid for a newer slot
replaces the auction, and a bid for the current slot is entered; when the builder of the best bid
lowers its own bid, a loop over the map of latest bids finds the new best one.

The body that runs under the lock of one auction is a function on that auction alone.  It says what
the locked object becomes, which fresh auction it puts into the ring, and what the call returns;
the sequential auctioneer below reads a place of the ring, runs the body and writes the place back.

Main definitions:

* `Auction`, `LatestKey` — one auction and the keys of its latest bids;
* `Auction.addBlock` — the locked body of `AddBlock`;
* `Auctioneer.addBlock`, `Auctioneer.maxProfitBlock` — the two operations;
* `Auctioneer.addBlocks` — a sequence of calls, each with the order its loop takes.

Main results:

* `Auction.lookup_reassign_self` — the loop is a running maximum over the bids it visits;
* `Auction.inRing_of_lt`, `Auction.inRing_of_gt`, `Auction.inRing_of_eq` — **everything one call can
  do** to its place of the ring.
-/

import Dreamboat.GoMap
import Dreamboat.Structs

set_option autoImplicit false

namespace Dreamboat

/-- The key of a builder's latest bid on a parent hash. -/
structure LatestKey where
  pk : PublicKey
  parentHash : Hash
  deriving DecidableEq, Inhabited, Repr

/-- The key a bid is entered under. -/
def BuilderBidExtended.latestKey (b : BuilderBidExtended) : LatestKey where
  pk := b.builderBid.pubkey
  parentHash := b.parentHash

structure Auction where
  slot : UInt64
  maxProfit : Go.Map Hash BuilderBidExtended
  latestBlockByBuilder : Go.Map LatestKey BuilderBidExtended

/-- The order of the loop over the latest bids. -/
abbrev LoopOrder := Go.RangeOrder LatestKey BuilderBidExtended

namespace Auction

/-- An auction without bids. -/
def empty (slot : UInt64) : Auction := ⟨slot, ∅, ∅⟩

/-- One round of the loop that looks for the best of the latest bids on `parent`. -/
def reassignRound (parent : Hash) (slot : UInt64)
    (maxProfit : Go.Map Hash BuilderBidExtended)
    (e : Sigma fun _ : LatestKey => BuilderBidExtended) : Go.Map Hash BuilderBidExtended :=
  -- only the bids of the current slot are looked at
  if e.2.parentHash = parent ∧ slot = e.2.slot then
    match maxProfit.lookup parent with
    | none => maxProfit
    | some mp =>
        if mp.builderBid.value.cmp e.2.builderBid.value ≤ 0 then maxProfit.insert parent e.2
        else maxProfit
  else maxProfit

/-- The loop that looks for the best of the latest bids on `parent`. -/
def reassign (order : LoopOrder) (parent : Hash) (slot : UInt64)
    (latest : Go.Map LatestKey BuilderBidExtended)
    (maxProfit : Go.Map Hash BuilderBidExtended) : Go.Map Hash BuilderBidExtended :=
  (order.visit latest).foldl (reassignRound parent slot) maxProfit

/-- What a call of `AddBlock` does to the auction it has locked: what the locked object becomes,
the fresh auction it puts into the ring in its place, and the returned flag. -/
structure AddResult where
  locked : Auction
  installed : Option Auction
  newMax : Bool

/-- The body of `AddBlock` under the lock of the auction. -/
def addBlock (order : LoopOrder) (a : Auction) (bid : BuilderBidExtended) : AddResult :=
  let parent := bid.parentHash
  if bid.slot < a.slot then
    ⟨a, none, false⟩
  else if a.slot < bid.slot then
    -- the bid is entered into the auction that has just been taken out of the ring
    ⟨{ a with
        maxProfit := a.maxProfit.insert parent bid
        latestBlockByBuilder := a.latestBlockByBuilder.insert bid.latestKey bid },
      some (empty bid.slot), true⟩
  else
    let latest := a.latestBlockByBuilder.insert bid.latestKey bid
    match a.maxProfit.lookup parent with
    | none => ⟨⟨a.slot, a.maxProfit.insert parent bid, latest⟩, none, true⟩
    | some mp =>
        if mp.builderBid.value.cmp bid.builderBid.value ≤ 0 then
          ⟨⟨a.slot, a.maxProfit.insert parent bid, latest⟩, none, true⟩
        -- `bid == mp` compares interface values that hold pointers; the two bids differ in value
        -- here, so comparing what they point to gives the same answer
        else if mp.builderBid.pubkey = bid.builderBid.pubkey ∧
            0 < mp.builderBid.value.cmp bid.builderBid.value then
          ⟨⟨a.slot, reassign order parent mp.slot latest (a.maxProfit.insert parent bid), latest⟩,
            none, decide (bid = mp)⟩
        else ⟨⟨a.slot, a.maxProfit, latest⟩, none, decide (bid = mp)⟩

/-- What the place of the ring holds after the call. -/
def AddResult.inRing (r : AddResult) : Auction := r.installed.getD r.locked

/-- The best bid on a parent hash, if it is a bid of the slot asked for. -/
def maxProfitBlock (a : Auction) (slot : UInt64) (parentHash : Hash) :
    Option BuilderBidExtended :=
  match a.maxProfit.lookup parentHash with
  | some mp => if mp.slot = slot then some mp else none
  | none => none

/-! ### What the loop computes -/

/-- The entries that the loop looks at. -/
def isConsidered (parent : Hash) (slot : UInt64)
    (e : Sigma fun _ : LatestKey => BuilderBidExtended) : Bool :=
  decide (e.2.parentHash = parent ∧ slot = e.2.slot)

/-- The bids the loop compares, in the order it visits them. -/
def considered (order : LoopOrder) (parent : Hash) (slot : UInt64)
    (latest : Go.Map LatestKey BuilderBidExtended) : List BuilderBidExtended :=
  ((order.visit latest).filter (isConsidered parent slot)).map Sigma.snd

theorem lookup_reassignRound_of_ne {parent p : Hash} (hp : p ≠ parent) (slot : UInt64)
    (m : Go.Map Hash BuilderBidExtended) (e : Sigma fun _ : LatestKey => BuilderBidExtended) :
    (reassignRound parent slot m e).lookup p = m.lookup p := by
  unfold reassignRound
  split
  · split
    · rfl
    · split
      · exact AList.lookup_insert_ne hp
      · rfl
  · rfl

/-- The loop changes the entry of its own parent hash only. -/
theorem lookup_reassign_of_ne {parent p : Hash} (hp : p ≠ parent) (order : LoopOrder)
    (slot : UInt64) (latest : Go.Map LatestKey BuilderBidExtended)
    (m : Go.Map Hash BuilderBidExtended) :
    (reassign order parent slot latest m).lookup p = m.lookup p := by
  unfold reassign
  induction order.visit latest generalizing m with
  | nil => rfl
  | cons e l ih => rw [List.foldl_cons, ih, lookup_reassignRound_of_ne hp]

theorem lookup_reassignRound_self {parent : Hash} {m : Go.Map Hash BuilderBidExtended}
    {mp : BuilderBidExtended} (hm : m.lookup parent = some mp) (slot : UInt64)
    (e : Sigma fun _ : LatestKey => BuilderBidExtended) :
    (reassignRound parent slot m e).lookup parent =
      some (if isConsidered parent slot e = true then
        Go.keepMax BuilderBidExtended.worth mp e.2 else mp) := by
  unfold reassignRound isConsidered
  by_cases hc : e.2.parentHash = parent ∧ slot = e.2.slot
  · rw [if_pos hc, if_pos (by simpa using hc), hm]
    simp only [BuilderBidExtended.cmp_value_le_zero_iff, Go.keepMax]
    by_cases hle : mp.worth ≤ e.2.worth
    · rw [if_pos hle, if_pos hle, AList.lookup_insert]
    · rw [if_neg hle, if_neg hle, hm]
  · rw [if_neg hc, if_neg (by simpa using hc)]
    exact hm

/-- **The loop is a running maximum** over the bids it considers. -/
theorem lookup_reassign_self {parent : Hash} {m : Go.Map Hash BuilderBidExtended}
    {mp : BuilderBidExtended} (hm : m.lookup parent = some mp) (order : LoopOrder)
    (slot : UInt64) (latest : Go.Map LatestKey BuilderBidExtended) :
    (reassign order parent slot latest m).lookup parent =
      some ((considered order parent slot latest).foldl
        (Go.keepMax BuilderBidExtended.worth) mp) := by
  unfold reassign considered
  induction order.visit latest generalizing m mp with
  | nil => exact hm
  | cons e l ih =>
      rw [List.foldl_cons, ih (lookup_reassignRound_self hm slot e), List.filter_cons]
      split <;> simp

theorem mem_considered_iff {order : LoopOrder} {parent : Hash} {slot : UInt64}
    {latest : Go.Map LatestKey BuilderBidExtended} {b : BuilderBidExtended} :
    b ∈ considered order parent slot latest ↔
      ∃ k, latest.lookup k = some b ∧ b.parentHash = parent ∧ slot = b.slot := by
  unfold considered
  simp only [List.mem_map, List.mem_filter, isConsidered, decide_eq_true_iff]
  constructor
  · rintro ⟨⟨k, b'⟩, ⟨hmem, hc⟩, rfl⟩
    exact ⟨k, (order.mem_visit_iff latest k b').1 hmem, hc⟩
  · rintro ⟨k, hk, hc⟩
    exact ⟨⟨k, b⟩, ⟨(order.mem_visit_iff latest k b).2 hk, hc⟩, rfl⟩

/-! ### What a call does to its place of the ring -/

/-- The best bid on the parent hash of `bid`, after `bid` has been entered into an auction of its
own slot. -/
def bestAfter (order : LoopOrder) (a : Auction) (bid : BuilderBidExtended) : BuilderBidExtended :=
  match a.maxProfit.lookup bid.parentHash with
  | none => bid
  | some mp =>
      if mp.worth ≤ bid.worth then bid
      else if mp.builderBid.pubkey = bid.builderBid.pubkey then
        (considered order bid.parentHash mp.slot
          (a.latestBlockByBuilder.insert bid.latestKey bid)).foldl
          (Go.keepMax BuilderBidExtended.worth) bid
      else mp

variable (order : LoopOrder) {a : Auction} {bid : BuilderBidExtended}

/-- A bid for an older slot changes nothing. -/
theorem inRing_of_lt (h : bid.slot < a.slot) : (a.addBlock order bid).inRing = a := by
  simp [addBlock, h, AddResult.inRing]

/-- A bid for a newer slot leaves an auction without bids in the ring. -/
theorem inRing_of_gt (h : a.slot < bid.slot) :
    (a.addBlock order bid).inRing = empty bid.slot := by
  have h' : ¬bid.slot < a.slot := UInt64.lt_asymm h
  simp [addBlock, h, h', AddResult.inRing]

/-- A bid for the slot of the auction is entered. -/
theorem inRing_of_eq (h : bid.slot = a.slot) :
    (a.addBlock order bid).inRing.slot = a.slot ∧
    (a.addBlock order bid).inRing.latestBlockByBuilder =
      a.latestBlockByBuilder.insert bid.latestKey bid ∧
    ∀ p, (a.addBlock order bid).inRing.maxProfit.lookup p =
      if p = bid.parentHash then some (bestAfter order a bid) else a.maxProfit.lookup p := by
  have h₁ : ¬bid.slot < a.slot := by rw [h]; exact UInt64.lt_irrefl _
  have h₂ : ¬a.slot < bid.slot := by rw [h]; exact UInt64.lt_irrefl _
  cases hmp : a.maxProfit.lookup bid.parentHash with
  | none =>
      refine ⟨?_, ?_, fun p => ?_⟩ <;>
        simp [addBlock, h₁, h₂, hmp, AddResult.inRing, bestAfter, Go.lookup_insert_eq]
  | some mp =>
      by_cases hle : mp.worth ≤ bid.worth
      · have hcmp : mp.builderBid.value.cmp bid.builderBid.value ≤ 0 :=
          (BuilderBidExtended.cmp_value_le_zero_iff _ _).2 hle
        refine ⟨?_, ?_, fun p => ?_⟩ <;>
          simp [addBlock, h₁, h₂, hmp, hcmp, hle, AddResult.inRing, bestAfter,
            Go.lookup_insert_eq]
      · have hcmp : ¬mp.builderBid.value.cmp bid.builderBid.value ≤ 0 :=
          mt (BuilderBidExtended.cmp_value_le_zero_iff _ _).1 hle
        have hpos : 0 < mp.builderBid.value.cmp bid.builderBid.value := by omega
        by_cases hpk : mp.builderBid.pubkey = bid.builderBid.pubkey
        · refine ⟨?_, ?_, fun p => ?_⟩
          · simp [addBlock, h₁, h₂, hmp, hcmp, hpos, hpk, AddResult.inRing]
          · simp [addBlock, h₁, h₂, hmp, hcmp, hpos, hpk, AddResult.inRing]
          · simp only [addBlock, h₁, h₂, hmp, hcmp, hpos, hpk, AddResult.inRing, bestAfter, hle,
              if_false, if_true, and_true, Option.getD_none]
            split
            · next hp =>
                rw [hp]
                exact lookup_reassign_self (AList.lookup_insert _) _ _ _
            · next hp =>
                rw [lookup_reassign_of_ne hp]
                exact AList.lookup_insert_ne hp
        · refine ⟨?_, ?_, fun p => ?_⟩
          · simp [addBlock, h₁, h₂, hmp, hcmp, hpk, AddResult.inRing]
          · simp [addBlock, h₁, h₂, hmp, hcmp, hpk, AddResult.inRing]
          · simp only [addBlock, h₁, h₂, hmp, hcmp, hpk, AddResult.inRing, bestAfter, hle,
              if_false, false_and, Option.getD_none]
            split
            · next hp => rw [hp, hmp]
            · rfl

/-- The slot of a place of the ring never goes back. -/
theorem slot_le_inRing (order : LoopOrder) (a : Auction) (bid : BuilderBidExtended) :
    a.slot ≤ (a.addBlock order bid).inRing.slot := by
  by_cases hlt : bid.slot < a.slot
  · rw [inRing_of_lt order hlt]
    exact UInt64.le_refl _
  · by_cases hgt : a.slot < bid.slot
    · rw [inRing_of_gt order hgt]
      exact UInt64.le_of_lt hgt
    · have heq : bid.slot = a.slot :=
        UInt64.le_antisymm (UInt64.not_lt.1 hgt) (UInt64.not_lt.1 hlt)
      rw [(inRing_of_eq order heq).1]
      exact UInt64.le_refl _

end Auction

/-- The ring of auctions. -/
structure Auctioneer where
  auctions : Fin numberOfSlotsInState → Auction

/-- One call of `AddBlock`: the bid, and the order its loop over the map takes. -/
structure AddCall where
  order : LoopOrder
  bid : BuilderBidExtended

namespace Auctioneer

/-- The auctioneer at the start: the places of the ring are for the first slots. -/
def new : Auctioneer := ⟨fun i => Auction.empty (UInt64.ofNat i.val)⟩

/-- `AddBlock`, without other calls in between. -/
def addBlock (a : Auctioneer) (c : AddCall) : Auctioneer × Bool :=
  let i := ringIndex c.bid.slot
  let r := (a.auctions i).addBlock c.order c.bid
  (⟨Function.update a.auctions i r.inRing⟩, r.newMax)

/-- `MaxProfitBlock`. -/
def maxProfitBlock (a : Auctioneer) (slot : UInt64) (parentHash : Hash) :
    Option BuilderBidExtended :=
  (a.auctions (ringIndex slot)).maxProfitBlock slot parentHash

/-- A sequence of calls of `AddBlock`. -/
def addBlocks (a : Auctioneer) (calls : List AddCall) : Auctioneer :=
  calls.foldl (fun a c => (a.addBlock c).1) a

@[simp] theorem addBlocks_nil (a : Auctioneer) : a.addBlocks [] = a := rfl

theorem addBlocks_concat (a : Auctioneer) (calls : List AddCall) (c : AddCall) :
    a.addBlocks (calls ++ [c]) = ((a.addBlocks calls).addBlock c).1 := by
  simp [addBlocks]

theorem addBlocks_append (a : Auctioneer) (calls calls' : List AddCall) :
    a.addBlocks (calls ++ calls') = (a.addBlocks calls).addBlocks calls' := by
  simp [addBlocks]

/-- A call changes the place of its own slot. -/
theorem addBlock_auctions_self (a : Auctioneer) (c : AddCall) :
    (a.addBlock c).1.auctions (ringIndex c.bid.slot) =
      ((a.auctions (ringIndex c.bid.slot)).addBlock c.order c.bid).inRing := by
  simp [addBlock]

/-- A call leaves the other places of the ring alone. -/
theorem addBlock_auctions_of_ne (a : Auctioneer) (c : AddCall) {i : Fin numberOfSlotsInState}
    (h : i ≠ ringIndex c.bid.slot) : (a.addBlock c).1.auctions i = a.auctions i := by
  simp [addBlock, h]

end Auctioneer

end Dreamboat
