/-
**What `AddBlock` returns.**

The flag that `AddBlock` returns goes into the public data API: was the bid the most profitable one
when it came?  This module compares it with what `MaxProfitBlock` serves right after the call.  They
differ in two cases.  A bid that makes the ring roll over is entered into the auction that is taken
out, so the flag is up and nothing is served.  And when the builder of the best bid lowers it and
still leads, the flag compares the new bid with the old one (the variable of that name inside the
loop is another one), so the flag is down and the bid is served.

Main definitions:

* `Auctioneer.FlagRight` — the flag is up exactly if the bid is served;
* `Auction.LowersLead`, `Auction.KeepsLead` — the builder of the best bid lowers it; the loop over
  the latest bids ends in the new bid.

Main results:

* `Auction.newMax_iff`, `Auction.bestAfter_eq_self_iff` — when the flag is up, and when the bid is
  the best one, in an auction of its slot;
* `Auctioneer.flagRight_iff` — **when the flag is right**.
-/

import Dreamboat.AuctioneerHistory

set_option autoImplicit false

namespace Dreamboat

namespace Auction

/-- The builder of the best bid on the parent hash lowers its bid. -/
def LowersLead (a : Auction) (bid : BuilderBidExtended) : Prop :=
  ∃ mp, a.maxProfit.lookup bid.parentHash = some mp ∧
    mp.builderBid.pubkey = bid.builderBid.pubkey ∧ bid.worth < mp.worth

/-- Of the latest bids on the parent hash, those that the loop visits before `bid` are not worth
more, and those that it visits after it are worth less. -/
def KeepsLead (order : LoopOrder) (a : Auction) (bid : BuilderBidExtended) : Prop :=
  ∃ pre post, considered order bid.parentHash bid.slot
      (a.latestBlockByBuilder.insert bid.latestKey bid) = pre ++ bid :: post ∧
    (∀ c ∈ pre, c.worth ≤ bid.worth) ∧ ∀ c ∈ post, c.worth < bid.worth

variable (order : LoopOrder) {i : Fin numberOfSlotsInState} {a : Auction}
  {bid : BuilderBidExtended}

/-! ### A bid for the slot of the auction -/

/-- **When the flag is up**: if there is no better bid. -/
theorem newMax_iff (hslot : bid.slot = a.slot) : (a.addBlock order bid).newMax = true ↔
    ∀ mp, a.maxProfit.lookup bid.parentHash = some mp → mp.worth ≤ bid.worth := by
  have h₁ : ¬bid.slot < a.slot := by rw [hslot]; exact UInt64.lt_irrefl _
  have h₂ : ¬a.slot < bid.slot := by rw [hslot]; exact UInt64.lt_irrefl _
  unfold addBlock
  cases hmp : a.maxProfit.lookup bid.parentHash with
  | none => simp [h₁, h₂, hmp]
  | some mp =>
      simp only [h₁, h₂, hmp, if_false, BuilderBidExtended.cmp_value_le_zero_iff,
        Option.some.injEq, forall_eq']
      by_cases hle : mp.worth ≤ bid.worth
      · simp [hle]
      · -- the bids differ in value, so the comparison at the end is false
        have hne : bid ≠ mp := by
          rintro rfl
          exact hle le_rfl
        rw [if_neg hle]
        split
        · simp [hne, hle]
        · simp [hne, hle]

/-- The loop visits the bid that has just been entered. -/
theorem mem_considered_self :
    bid ∈ considered order bid.parentHash bid.slot
      (a.latestBlockByBuilder.insert bid.latestKey bid) :=
  mem_considered_iff.2 ⟨bid.latestKey, AList.lookup_insert _, rfl, rfl⟩

/-- **When the bid is the best one**: if there was no better one, or if its builder has lowered its
own best bid and the loop still ends in it. -/
theorem bestAfter_eq_self_iff (hwf : a.Wf i) (hslot : bid.slot = a.slot) :
    bestAfter order a bid = bid ↔
      (∀ mp, a.maxProfit.lookup bid.parentHash = some mp → mp.worth ≤ bid.worth) ∨
        (a.LowersLead bid ∧ KeepsLead order a bid) := by
  unfold bestAfter LowersLead
  cases hmp : a.maxProfit.lookup bid.parentHash with
  | none => simp
  | some mp =>
      have hmpslot : mp.slot = bid.slot := by rw [hslot, (hwf.maxProfit_filed _ _ hmp).1]
      simp only [Option.some.injEq, forall_eq', exists_eq_left']
      by_cases hle : mp.worth ≤ bid.worth
      · simp [hle]
      · rw [if_neg hle, or_iff_right hle]
        by_cases hpk : mp.builderBid.pubkey = bid.builderBid.pubkey
        · rw [if_pos hpk, and_iff_right ⟨hpk, not_le.1 hle⟩, hmpslot]
          exact Go.foldl_keepMax_eq_iff _ (mem_considered_self order) le_rfl
        · rw [if_neg hpk]
          refine iff_of_false ?_ fun h => hpk h.1.1
          rintro rfl
          exact hle le_rfl

/-- What is served for the slot and the parent hash of the bid after the call. -/
theorem maxProfitBlock_inRing (hwf : a.Wf i) (hi : ringIndex bid.slot = i) :
    (a.addBlock order bid).inRing.maxProfitBlock bid.slot bid.parentHash =
      if bid.slot = a.slot then some (bestAfter order a bid) else none := by
  rw [(hwf.inRing order hi).maxProfitBlock_eq]
  by_cases hlt : bid.slot < a.slot
  · have hne : bid.slot ≠ a.slot := UInt64.ne_of_lt hlt
    rw [inRing_of_lt order hlt, if_neg hne.symm, if_neg hne]
  · by_cases hgt : a.slot < bid.slot
    · rw [inRing_of_gt order hgt, if_neg (UInt64.ne_of_lt hgt).symm]
      simp [empty]
    · have heq : bid.slot = a.slot :=
        UInt64.le_antisymm (UInt64.not_lt.1 hgt) (UInt64.not_lt.1 hlt)
      obtain ⟨hs, -, hm⟩ := inRing_of_eq order heq
      rw [hs, if_pos heq.symm, if_pos heq, hm, if_pos rfl]

/-- One call on a well-formed auction. -/
theorem flag_iff (hwf : a.Wf i) (hi : ringIndex bid.slot = i) :
    ((a.addBlock order bid).newMax = true ↔
      (a.addBlock order bid).inRing.maxProfitBlock bid.slot bid.parentHash = some bid) ↔
      ¬a.slot < bid.slot ∧
        (a.slot = bid.slot → a.LowersLead bid → ¬KeepsLead order a bid) := by
  rw [maxProfitBlock_inRing order hwf hi]
  by_cases hlt : bid.slot < a.slot
  · -- the bid is discarded
    have hne : bid.slot ≠ a.slot := UInt64.ne_of_lt hlt
    have hflag : (a.addBlock order bid).newMax = false := by simp [addBlock, hlt]
    rw [hflag, if_neg hne]
    simp [UInt64.lt_asymm hlt, hne.symm]
  · by_cases hgt : a.slot < bid.slot
    · -- the flag is up, and the place is empty
      have hne : bid.slot ≠ a.slot := (UInt64.ne_of_lt hgt).symm
      have hflag : (a.addBlock order bid).newMax = true := by simp [addBlock, hlt, hgt]
      rw [hflag, if_neg hne]
      simp [hgt]
    · have heq : bid.slot = a.slot :=
        UInt64.le_antisymm (UInt64.not_lt.1 hgt) (UInt64.not_lt.1 hlt)
      rw [newMax_iff order heq, if_pos heq, Option.some_inj, bestAfter_eq_self_iff order hwf heq,
        and_iff_right hgt]
      -- a builder that lowers its lead had a better bid
      have hlower : a.LowersLead bid → ¬∀ mp, a.maxProfit.lookup bid.parentHash = some mp →
          mp.worth ≤ bid.worth := by
        rintro ⟨mp, hmp, -, hworth⟩ h
        exact absurd (h mp hmp) (not_le.2 hworth)
      constructor
      · intro h _ hlow hkeep
        exact hlower hlow (h.2 (Or.inr ⟨hlow, hkeep⟩))
      · intro h
        refine ⟨Or.inl, fun hbest => hbest.resolve_right ?_⟩
        rintro ⟨hlow, hkeep⟩
        exact h heq.symm hlow hkeep

end Auction

namespace Auctioneer

open Auction

/-- The flag that `AddBlock` returns is up exactly if `MaxProfitBlock`, called right after it,
returns the bid. -/
def FlagRight (a : Auctioneer) (c : AddCall) : Prop :=
  (a.addBlock c).2 = true ↔
    (a.addBlock c).1.maxProfitBlock c.bid.slot c.bid.parentHash = some c.bid

/-- The auction in the place of a bid. -/
def auctionOf (a : Auctioneer) (bid : BuilderBidExtended) : Auction :=
  a.auctions (ringIndex bid.slot)

/-- The flag is that of the auction in the place. -/
theorem addBlock_flag (a : Auctioneer) (c : AddCall) :
    (a.addBlock c).2 = ((a.auctionOf c.bid).addBlock c.order c.bid).newMax := rfl

/-- **When the flag is right.**  In every reachable ring, the flag that `AddBlock` returns says
whether the bid is served if and only if the auction in its place is not for an older slot, and the
bid, in case it lowers the best bid of its own builder, does not stay the best one. -/
theorem flagRight_iff (calls : List AddCall) (c : AddCall) :
    FlagRight (new.addBlocks calls) c ↔
      ¬((new.addBlocks calls).auctionOf c.bid).slot < c.bid.slot ∧
        (((new.addBlocks calls).auctionOf c.bid).slot = c.bid.slot →
          ((new.addBlocks calls).auctionOf c.bid).LowersLead c.bid →
          ¬KeepsLead c.order ((new.addBlocks calls).auctionOf c.bid) c.bid) := by
  unfold FlagRight
  rw [maxProfitBlock, addBlock_auctions_self]
  exact flag_iff c.order (wf_addBlocks calls (ringIndex c.bid.slot)) rfl

/-- A bid of one builder for the slot 1. -/
def valued (value : ℕ) : BuilderBidExtended :=
  { builderBid := { header := default, value := U256Str.ofNat value, pubkey := default }
    proposer := default
    slot := 1 }

/-- The first bid of the slot 2 is announced as the best one, and nothing is served.  The builder of
the only bid lowers it from 10 to 5; the new bid is served, but not announced. -/
theorem flag_wrong_twice :
    ((new.addBlock ⟨.stored, firstBid⟩).2 = true ∧
      (new.addBlock ⟨.stored, firstBid⟩).1.maxProfitBlock 2 firstBid.parentHash = none) ∧
    (((new.addBlocks [⟨.stored, valued 10⟩]).addBlock ⟨.stored, valued 5⟩).2 = false ∧
      ((new.addBlocks [⟨.stored, valued 10⟩]).addBlock ⟨.stored, valued 5⟩).1.maxProfitBlock 1
        (valued 5).parentHash = some (valued 5)) := by
  have hslot : (valued 5).slot =
      ((new.addBlocks [⟨.stored, valued 10⟩]).auctionOf (valued 5)).slot := rfl
  have hbest : ((new.addBlocks [⟨.stored, valued 10⟩]).auctionOf (valued 5)).maxProfit.lookup
      (valued 5).parentHash = some (valued 10) := rfl
  refine ⟨by decide +kernel, ?_, rfl⟩
  rw [addBlock_flag, ← Bool.not_eq_true, newMax_iff _ hslot]
  intro h
  exact absurd (h (valued 10) hbest) (by decide +kernel)

end Auctioneer

end Dreamboat
