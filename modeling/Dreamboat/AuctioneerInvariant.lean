/-
**The invariant of the auction.**

The two maps of an auction are updated by four different branches, one of which recomputes a maximum
by a loop over the map it has just changed.  This module states what ties them together and proves
that every call keeps it, whatever order the loops take.

Main definitions:

* `Auction.Wf` — a well-formed auction for one place of the ring;
* `SoundAuctioneer` — a ring whose auctions carry their well-formedness.

Main results:

* `Auction.bestAfter_spec` — the best bid after a call is one of the latest bids, and no latest bid
  is worth more;
* `Auction.Wf.inRing` — one call keeps well-formedness;
* `Auctioneer.ring_invariant` — **every reachable ring is well formed, and the slot of a place never
  goes back**.
-/

import Dreamboat.Auctioneer
import Mathlib.Data.List.Induction

set_option autoImplicit false

namespace Dreamboat

namespace Auction

/-- A well-formed auction for the place `i` of the ring. -/
structure Wf (i : Fin numberOfSlotsInState) (a : Auction) : Prop where
  /-- The auction is for a slot that belongs to its place. -/
  ringIndex_slot : ringIndex a.slot = i
  /-- The best bids are bids of this slot, each under its own parent hash. -/
  maxProfit_filed : ∀ p b, a.maxProfit.lookup p = some b → b.slot = a.slot ∧ b.parentHash = p
  /-- The latest bids are bids of this slot, each under its own key. -/
  latest_filed : ∀ k b, a.latestBlockByBuilder.lookup k = some b →
    b.slot = a.slot ∧ b.latestKey = k
  /-- The two maps mention the same parent hashes. -/
  parents : ∀ p, (∃ b, a.maxProfit.lookup p = some b) ↔
    ∃ pk b, a.latestBlockByBuilder.lookup ⟨pk, p⟩ = some b
  /-- A best bid is the latest bid of its builder. -/
  best_latest : ∀ p b, a.maxProfit.lookup p = some b →
    a.latestBlockByBuilder.lookup ⟨b.builderBid.pubkey, p⟩ = some b
  /-- No latest bid is worth more than the best one on its parent hash. -/
  best_max : ∀ p b, a.maxProfit.lookup p = some b →
    ∀ pk c, a.latestBlockByBuilder.lookup ⟨pk, p⟩ = some c → c.worth ≤ b.worth

variable {i : Fin numberOfSlotsInState} (order : LoopOrder) {a : Auction}
  {bid : BuilderBidExtended}

/-- An auction without bids is well formed. -/
theorem wf_empty {slot : UInt64} (h : ringIndex slot = i) : (empty slot).Wf i where
  ringIndex_slot := h
  maxProfit_filed p b hb := by simp [empty] at hb
  latest_filed k b hb := by simp [empty] at hb
  parents p := by simp [empty]
  best_latest p b hb := by simp [empty] at hb
  best_max p b hb := by simp [empty] at hb

/-! ### Entering a bid -/

/-- What is the latest bid of a builder after `bid` has been entered. -/
theorem lookup_insert_latest (pk : PublicKey) (p : Hash) :
    (a.latestBlockByBuilder.insert bid.latestKey bid).lookup ⟨pk, p⟩ =
      if pk = bid.builderBid.pubkey ∧ p = bid.parentHash then some bid
      else a.latestBlockByBuilder.lookup ⟨pk, p⟩ := by
  rw [Go.lookup_insert_eq]
  simp only [BuilderBidExtended.latestKey, LatestKey.mk.injEq]

/-- The latest bids stay bids of the slot, each under its own key. -/
theorem Wf.insert_latest_filed (hwf : a.Wf i) (hslot : bid.slot = a.slot) (k : LatestKey)
    (b : BuilderBidExtended)
    (hb : (a.latestBlockByBuilder.insert bid.latestKey bid).lookup k = some b) :
    b.slot = a.slot ∧ b.latestKey = k := by
  rw [Go.lookup_insert_eq] at hb
  split at hb
  · next hk =>
      rw [Option.some_inj] at hb
      exact hb ▸ ⟨hslot, hk.symm⟩
  · exact hwf.latest_filed k b hb

/-- A bid that is worth at least as much as all the latest ones is the best one when it has been
entered. -/
theorem latest_of_worth_le (h : ∀ pk c, a.latestBlockByBuilder.lookup ⟨pk, bid.parentHash⟩ =
      some c → c.worth ≤ bid.worth) :
    (a.latestBlockByBuilder.insert bid.latestKey bid).lookup
        ⟨bid.builderBid.pubkey, bid.parentHash⟩ = some bid ∧
    ∀ pk c, (a.latestBlockByBuilder.insert bid.latestKey bid).lookup ⟨pk, bid.parentHash⟩ =
      some c → c.worth ≤ bid.worth := by
  refine ⟨AList.lookup_insert _, fun pk c hc => ?_⟩
  rw [lookup_insert_latest] at hc
  split at hc
  · rw [Option.some_inj] at hc
    exact hc ▸ le_rfl
  · exact h pk c hc

/-- The loop over the latest bids ends in one of them that none is worth more than. -/
theorem foldl_considered_spec (hwf : a.Wf i) (hslot : bid.slot = a.slot) :
    let latest := a.latestBlockByBuilder.insert bid.latestKey bid
    let best := (considered order bid.parentHash a.slot latest).foldl
      (Go.keepMax BuilderBidExtended.worth) bid
    latest.lookup ⟨best.builderBid.pubkey, bid.parentHash⟩ = some best ∧
      ∀ pk c, latest.lookup ⟨pk, bid.parentHash⟩ = some c → c.worth ≤ best.worth := by
  intro latest best
  have hfiled := hwf.insert_latest_filed hslot
  constructor
  · rcases List.mem_cons.1 (Go.foldl_keepMax_mem BuilderBidExtended.worth
      (considered order bid.parentHash a.slot latest) bid) with hr | hr
    · have hbest : best = bid := hr
      rw [hbest]
      exact AList.lookup_insert _
    · obtain ⟨k, hk, hparent, -⟩ := mem_considered_iff.1 hr
      have hkey : k = ⟨best.builderBid.pubkey, bid.parentHash⟩ := by
        rw [← (hfiled k _ hk).2, BuilderBidExtended.latestKey, hparent]
      exact hkey ▸ hk
  · intro pk c hc
    refine Go.le_foldl_keepMax BuilderBidExtended.worth _ _ c (List.mem_cons_of_mem _ ?_)
    obtain ⟨hcs, hck⟩ := hfiled _ _ hc
    refine mem_considered_iff.2 ⟨_, hc, ?_, hcs.symm⟩
    exact congrArg LatestKey.parentHash hck

/-- After a bid has been entered into a well-formed auction of its slot, the best bid on its parent
hash is the latest bid of its builder, and none of the latest bids is worth more. -/
theorem bestAfter_spec (hwf : a.Wf i) (hslot : bid.slot = a.slot) :
    (a.latestBlockByBuilder.insert bid.latestKey bid).lookup
        ⟨(bestAfter order a bid).builderBid.pubkey, bid.parentHash⟩ =
      some (bestAfter order a bid) ∧
    ∀ pk c, (a.latestBlockByBuilder.insert bid.latestKey bid).lookup ⟨pk, bid.parentHash⟩ =
      some c → c.worth ≤ (bestAfter order a bid).worth := by
  cases hmp : a.maxProfit.lookup bid.parentHash with
  | none =>
      have hbest : bestAfter order a bid = bid := by simp only [bestAfter, hmp]
      rw [hbest]
      refine latest_of_worth_le fun pk c hc => ?_
      -- no builder had a bid on this parent hash before
      obtain ⟨b, hb⟩ := (hwf.parents bid.parentHash).2 ⟨pk, c, hc⟩
      rw [hmp] at hb
      cases hb
  | some mp =>
      have hmax := hwf.best_max _ _ hmp
      by_cases hle : mp.worth ≤ bid.worth
      · have hbest : bestAfter order a bid = bid := by simp only [bestAfter, hmp, if_pos hle]
        rw [hbest]
        exact latest_of_worth_le fun pk c hc => (hmax pk c hc).trans hle
      · by_cases hpk : mp.builderBid.pubkey = bid.builderBid.pubkey
        · -- the builder of the best bid lowers it: the loop decides
          have hbest : bestAfter order a bid =
              (considered order bid.parentHash mp.slot
                (a.latestBlockByBuilder.insert bid.latestKey bid)).foldl
                (Go.keepMax BuilderBidExtended.worth) bid := by
            simp only [bestAfter, hmp, if_neg hle, if_pos hpk]
          rw [hbest, (hwf.maxProfit_filed _ _ hmp).1]
          exact foldl_considered_spec order hwf hslot
        · have hbest : bestAfter order a bid = mp := by
            simp only [bestAfter, hmp, if_neg hle, if_neg hpk]
          rw [hbest]
          constructor
          · rw [lookup_insert_latest, if_neg fun h => hpk h.1]
            exact hwf.best_latest _ _ hmp
          · intro pk c hc
            rw [lookup_insert_latest] at hc
            split at hc
            · rw [Option.some_inj] at hc
              exact hc ▸ le_of_lt (not_le.1 hle)
            · exact hmax pk c hc

/-- Entering a bid keeps an auction of its slot well formed. -/
theorem Wf.inRing_of_eq (hwf : a.Wf i) (hslot : bid.slot = a.slot) :
    (a.addBlock order bid).inRing.Wf i := by
  obtain ⟨hs, hl, hm⟩ := Auction.inRing_of_eq order hslot
  obtain ⟨hbest, hmax⟩ := bestAfter_spec order hwf hslot
  have hfiled := hwf.insert_latest_filed hslot
  -- away from the parent hash of the bid nothing has changed
  have hother : ∀ {p}, p ≠ bid.parentHash → ∀ pk,
      (a.latestBlockByBuilder.insert bid.latestKey bid).lookup ⟨pk, p⟩ =
        a.latestBlockByBuilder.lookup ⟨pk, p⟩ := by
    intro p hp pk
    rw [lookup_insert_latest, if_neg fun h => hp h.2]
  refine ⟨?_, ?_, ?_, ?_, ?_, ?_⟩
  · rw [hs]
    exact hwf.ringIndex_slot
  · intro p b hb
    rw [hm] at hb
    rw [hs]
    split at hb
    · next hp =>
        rw [Option.some_inj] at hb
        obtain ⟨hbs, hbk⟩ := hfiled _ _ hbest
        rw [← hb, hp]
        exact ⟨hbs, congrArg LatestKey.parentHash hbk⟩
    · exact hwf.maxProfit_filed p b hb
  · intro k b hb
    rw [hl] at hb
    rw [hs]
    exact hfiled k b hb
  · intro p
    rw [hl, hm]
    by_cases hp : p = bid.parentHash
    · subst hp
      refine ⟨fun _ => ⟨_, _, hbest⟩, fun _ => ⟨bestAfter order a bid, if_pos rfl⟩⟩
    · simp only [if_neg hp, hother hp]
      exact hwf.parents p
  · intro p b hb
    rw [hm] at hb
    rw [hl]
    split at hb
    · next hp =>
        rw [Option.some_inj] at hb
        rw [← hb, hp]
        exact hbest
    · next hp =>
        rw [hother hp]
        exact hwf.best_latest p b hb
  · intro p b hb pk c hc
    rw [hm] at hb
    rw [hl] at hc
    split at hb
    · next hp =>
        rw [Option.some_inj] at hb
        rw [hp] at hc
        exact hb ▸ hmax pk c hc
    · next hp =>
        rw [hother hp] at hc
        exact hwf.best_max p b hb pk c hc

/-- **One call keeps its place of the ring well formed.** -/
theorem Wf.inRing (hwf : a.Wf i) (hi : ringIndex bid.slot = i) :
    (a.addBlock order bid).inRing.Wf i := by
  by_cases hlt : bid.slot < a.slot
  · rw [inRing_of_lt order hlt]
    exact hwf
  · by_cases hgt : a.slot < bid.slot
    · rw [inRing_of_gt order hgt]
      exact wf_empty hi
    · exact hwf.inRing_of_eq order (UInt64.le_antisymm (UInt64.not_lt.1 hgt) (UInt64.not_lt.1 hlt))

/-- What `MaxProfitBlock` serves from a well-formed auction is the best bid of its slot. -/
theorem Wf.maxProfitBlock_eq (hwf : a.Wf i) (slot : UInt64) (p : Hash) :
    a.maxProfitBlock slot p = if a.slot = slot then a.maxProfit.lookup p else none := by
  unfold Auction.maxProfitBlock
  cases h : a.maxProfit.lookup p with
  | none => simp
  | some b => simp only [(hwf.maxProfit_filed p b h).1]

end Auction

/-! ### Reachable rings -/

/-- A ring of well-formed auctions. -/
structure SoundAuctioneer extends Auctioneer where
  wf : ∀ i, (auctions i).Wf i

namespace SoundAuctioneer

/-- The ring at the start. -/
def new : SoundAuctioneer where
  toAuctioneer := Auctioneer.new
  wf i := Auction.wf_empty (by revert i; decide)

/-- A call takes a well-formed ring to a well-formed ring. -/
def addBlock (a : SoundAuctioneer) (c : AddCall) : SoundAuctioneer where
  toAuctioneer := (a.toAuctioneer.addBlock c).1
  wf i := by
    by_cases hi : i = ringIndex c.bid.slot
    · subst hi
      rw [Auctioneer.addBlock_auctions_self]
      exact (a.wf _).inRing c.order rfl
    · rw [Auctioneer.addBlock_auctions_of_ne _ _ hi]
      exact a.wf i

/-- Every ring that calls can reach is well formed. -/
theorem exists_toAuctioneer_eq (calls : List AddCall) :
    ∃ a : SoundAuctioneer, a.toAuctioneer = Auctioneer.new.addBlocks calls := by
  induction calls using List.reverseRecOn with
  | nil => exact ⟨new, rfl⟩
  | append_singleton calls c ih =>
      obtain ⟨a, ha⟩ := ih
      exact ⟨a.addBlock c, by rw [Auctioneer.addBlocks_concat, ← ha]; rfl⟩

end SoundAuctioneer

namespace Auctioneer

/-- The places of a reachable ring are well formed. -/
theorem wf_addBlocks (calls : List AddCall) (i : Fin numberOfSlotsInState) :
    ((new.addBlocks calls).auctions i).Wf i := by
  obtain ⟨a, ha⟩ := SoundAuctioneer.exists_toAuctioneer_eq calls
  exact ha ▸ a.wf i

/-- Further calls never take the slot of a place back. -/
theorem slot_le_addBlocks (a : Auctioneer) (calls : List AddCall)
    (i : Fin numberOfSlotsInState) :
    (a.auctions i).slot ≤ ((a.addBlocks calls).auctions i).slot := by
  induction calls using List.reverseRecOn with
  | nil => exact UInt64.le_refl _
  | append_singleton calls c ih =>
      rw [addBlocks_concat]
      refine UInt64.le_trans ih ?_
      by_cases hi : i = ringIndex c.bid.slot
      · subst hi
        rw [addBlock_auctions_self]
        exact Auction.slot_le_inRing _ _ _
      · rw [addBlock_auctions_of_ne _ _ hi]
        exact UInt64.le_refl _

/-- **The invariant of the auction**: after any sequence of calls, whatever order their loops take,
every place of the ring is well formed, and no further call takes the slot of a place back. -/
theorem ring_invariant (calls : List AddCall) (i : Fin numberOfSlotsInState) :
    ((new.addBlocks calls).auctions i).Wf i ∧
      ∀ later, ((new.addBlocks calls).auctions i).slot ≤
        ((new.addBlocks (calls ++ later)).auctions i).slot := by
  refine ⟨wf_addBlocks calls i, fun later => ?_⟩
  rw [addBlocks_append]
  exact slot_le_addBlocks _ later i

end Auctioneer

end Dreamboat
