/-
**The auction as a log of bids.**

What the auction is for can be said without its maps: for a slot and a parent hash, a builder's
current bid is the last one it has added, and the bid to serve is one that is worth at least as much
as the current bid of every other builder.  `Dreamboat/KeyedLog.lean` develops that reading.  This
module shows which log the ring answers for: not the log of all bids of the slot, but the log
without the bid that made the ring roll over to the slot, because `AddBlock` enters that bid into
the auction it takes out of the ring.

Main definitions:

* `ofSlot`, `retained` — the bids of a slot, and those of them the ring keeps;
* `Auction.Tracks` — an auction answers for the retained bids of its slot;
* `Auctioneer.ServesBest` — what `MaxProfitBlock` should serve;
* `Auctioneer.LeadLost` — the bid that rolled the ring over was the one to serve.

Main results:

* `Auctioneer.tracks_addBlocks` — **the ring refines the log of the retained bids**;
* `Auctioneer.isBest_retained` — what is served is best among the retained bids;
* `Auctioneer.servesBest_iff` — **the right bid is served exactly when the lead was not lost in a
  roll-over**.
-/

import Dreamboat.AuctioneerInvariant
import Dreamboat.KeyedLog

set_option autoImplicit false

namespace Dreamboat

open KeyedLog

/-! ### Slots of one place of the ring -/

/-- A slot that is newer than another slot of its place was not in the ring at the start. -/
theorem le_toNat_of_lt_of_ringIndex_eq {s t : UInt64} (hlt : s < t)
    (hi : ringIndex s = ringIndex t) : numberOfSlotsInState ≤ t.toNat := by
  rw [ringIndex_eq_iff] at hi
  rw [UInt64.lt_iff_toNat_lt] at hlt
  unfold numberOfSlotsInState at hi ⊢
  omega

/-! ### The bids of a slot -/

/-- The bids of a slot, in the order they were added. -/
def ofSlot (s : UInt64) (bids : List BuilderBidExtended) : List BuilderBidExtended :=
  bids.filter fun b => b.slot = s

/-- The bids of a slot that the ring keeps: all of them for a slot that is in the ring at the
start, and all but the first, which makes the ring roll over, for a later slot. -/
def retained (s : UInt64) (bids : List BuilderBidExtended) : List BuilderBidExtended :=
  if s.toNat < numberOfSlotsInState then ofSlot s bids else (ofSlot s bids).tail

theorem mem_ofSlot_iff {s : UInt64} {bids : List BuilderBidExtended} {b : BuilderBidExtended} :
    b ∈ ofSlot s bids ↔ b ∈ bids ∧ b.slot = s := by
  simp [ofSlot]

theorem ofSlot_concat_self (bids : List BuilderBidExtended) (b : BuilderBidExtended) :
    ofSlot b.slot (bids ++ [b]) = ofSlot b.slot bids ++ [b] := by
  simp [ofSlot]

theorem ofSlot_concat_of_ne {s : UInt64} (bids : List BuilderBidExtended)
    {b : BuilderBidExtended} (h : b.slot ≠ s) : ofSlot s (bids ++ [b]) = ofSlot s bids := by
  simp [ofSlot, h]

theorem retained_concat_of_ne {s : UInt64} (bids : List BuilderBidExtended)
    {b : BuilderBidExtended} (h : b.slot ≠ s) : retained s (bids ++ [b]) = retained s bids := by
  simp only [retained, ofSlot_concat_of_ne bids h]

/-- Once a slot has a bid, or is in the ring from the start, a further bid is retained. -/
theorem retained_concat_self {bids : List BuilderBidExtended} {b : BuilderBidExtended}
    (h : numberOfSlotsInState ≤ b.slot.toNat → ofSlot b.slot bids ≠ []) :
    retained b.slot (bids ++ [b]) = retained b.slot bids ++ [b] := by
  simp only [retained, ofSlot_concat_self]
  split
  · rfl
  · next hs => exact List.tail_append_of_ne_nil (h (not_lt.1 hs))

/-! ### The refinement -/

/-- The auction at the place `i` answers for the retained bids of its slot, and no bid of its place
is newer. -/
structure Auction.Tracks (i : Fin numberOfSlotsInState) (bids : List BuilderBidExtended)
    (a : Auction) : Prop where
  newest : ∀ b ∈ bids, ringIndex b.slot = i → b.slot ≤ a.slot
  opened : numberOfSlotsInState ≤ a.slot.toNat → ofSlot a.slot bids ≠ []
  latest : ∀ k, a.latestBlockByBuilder.lookup k =
    lastWrite BuilderBidExtended.latestKey k (retained a.slot bids)

namespace Auction.Tracks

variable {i : Fin numberOfSlotsInState} {bids : List BuilderBidExtended} {a : Auction}
  {b : BuilderBidExtended} {order : LoopOrder}

/-- A bid that is neither for the slot of the auction nor newer does not concern it. -/
theorem concat_of_ne (h : a.Tracks i bids) (hne : b.slot ≠ a.slot)
    (hnew : ringIndex b.slot = i → b.slot ≤ a.slot) : a.Tracks i (bids ++ [b]) where
  newest c hc hci := by
    rcases List.mem_append.1 hc with hc | hc
    · exact h.newest c hc hci
    · rw [List.mem_singleton.1 hc] at hci ⊢
      exact hnew hci
  opened hs := by
    rw [ofSlot_concat_of_ne bids hne]
    exact h.opened hs
  latest k := by
    rw [retained_concat_of_ne bids hne]
    exact h.latest k

/-- **One call refines one entry of the log.** -/
theorem inRing (h : a.Tracks i bids) (hwf : a.Wf i) (hi : ringIndex b.slot = i) :
    (a.addBlock order b).inRing.Tracks i (bids ++ [b]) := by
  by_cases hlt : b.slot < a.slot
  · rw [Auction.inRing_of_lt order hlt]
    exact h.concat_of_ne (UInt64.ne_of_lt hlt) fun _ => UInt64.le_of_lt hlt
  · by_cases hgt : a.slot < b.slot
    · rw [Auction.inRing_of_gt order hgt]
      -- every earlier bid of this place is older than the new slot
      have hnone : ofSlot b.slot bids = [] := by
        rw [List.eq_nil_iff_forall_not_mem]
        intro c hc
        obtain ⟨hc, hcs⟩ := mem_ofSlot_iff.1 hc
        have := h.newest c hc (by rw [hcs, hi])
        rw [hcs] at this
        exact UInt64.not_lt.2 this hgt
      have hbig : numberOfSlotsInState ≤ b.slot.toNat :=
        le_toNat_of_lt_of_ringIndex_eq hgt (hwf.ringIndex_slot.trans hi.symm)
      refine ⟨?_, ?_, ?_⟩
      · intro c hc hci
        rcases List.mem_append.1 hc with hc | hc
        · exact UInt64.le_trans (h.newest c hc hci) (UInt64.le_of_lt hgt)
        · rw [List.mem_singleton.1 hc]
          exact UInt64.le_refl _
      · intro _
        simp [Auction.empty, ofSlot_concat_self]
      · intro k
        simp [Auction.empty, retained, not_lt.2 hbig, ofSlot_concat_self, hnone]
    · have heq : b.slot = a.slot :=
        UInt64.le_antisymm (UInt64.not_lt.1 hgt) (UInt64.not_lt.1 hlt)
      obtain ⟨hs, hl, -⟩ := Auction.inRing_of_eq order heq
      refine ⟨?_, ?_, ?_⟩
      · intro c hc hci
        rw [hs]
        rcases List.mem_append.1 hc with hc | hc
        · exact h.newest c hc hci
        · rw [List.mem_singleton.1 hc, heq]
          exact UInt64.le_refl _
      · intro _
        rw [hs, ← heq, ofSlot_concat_self]
        simp
      · intro k
        have hopen : numberOfSlotsInState ≤ b.slot.toNat → ofSlot b.slot bids ≠ [] := by
          rw [heq]
          exact h.opened
        rw [hl, hs, ← heq, retained_concat_self hopen, lastWrite_concat, Go.lookup_insert_eq,
          h.latest, heq]
        simp only [eq_comm]

end Auction.Tracks

namespace Auctioneer

/-- The bids of a sequence of calls. -/
def bids (calls : List AddCall) : List BuilderBidExtended := calls.map AddCall.bid

/-- **The ring refines the log of the retained bids**, after any sequence of calls and whatever
order their loops take. -/
theorem tracks_addBlocks (calls : List AddCall) (i : Fin numberOfSlotsInState) :
    ((new.addBlocks calls).auctions i).Tracks i (bids calls) := by
  induction calls using List.reverseRecOn with
  | nil =>
      refine ⟨by simp [bids], fun hs => ?_, fun k => ?_⟩
      · -- the slots of the ring at the start are below its size
        have hlt : ((new.addBlocks []).auctions i).slot.toNat < numberOfSlotsInState := by
          revert i; decide
        omega
      · simp [new, Auction.empty, bids, retained, ofSlot]
  | append_singleton calls c ih =>
      have hbids : bids (calls ++ [c]) = bids calls ++ [c.bid] := by simp [bids]
      rw [addBlocks_concat, hbids]
      by_cases hi : i = ringIndex c.bid.slot
      · subst hi
        rw [addBlock_auctions_self]
        exact ih.inRing (wf_addBlocks calls _) rfl
      · rw [addBlock_auctions_of_ne _ _ hi]
        have hidx := (wf_addBlocks calls i).ringIndex_slot
        refine ih.concat_of_ne (fun hs => hi ?_) fun hc => absurd hc.symm hi
        rw [hs, hidx]

/-! ### What is served -/

/-- The keys of the bids on a parent hash. -/
def onParent (p : Hash) : Set LatestKey := {k | k.parentHash = p}

theorem latestKey_mem_onParent {b : BuilderBidExtended} {p : Hash} :
    b.latestKey ∈ onParent p ↔ b.parentHash = p := Iff.rfl

/-- A bid for a newer slot of the same place of the ring was added. -/
def Superseded (bids : List BuilderBidExtended) (s : UInt64) : Prop :=
  ∃ b ∈ bids, s < b.slot ∧ ringIndex b.slot = ringIndex s

variable {calls : List AddCall} {s : UInt64} {p : Hash}

/-- A superseded slot is no longer in the ring. -/
theorem maxProfitBlock_of_superseded (h : Superseded (bids calls) s) :
    (new.addBlocks calls).maxProfitBlock s p = none := by
  obtain ⟨b, hb, hlt, hi⟩ := h
  have hnew := (tracks_addBlocks calls (ringIndex s)).newest b hb hi
  rw [maxProfitBlock, (wf_addBlocks calls _).maxProfitBlock_eq, if_neg]
  intro heq
  rw [heq] at hnew
  exact UInt64.not_lt.2 hnew hlt

/-- The place of a slot that is not superseded, and that has a bid or is in the ring from the start,
is for that slot. -/
theorem slot_eq_of_opened (h : ¬Superseded (bids calls) s)
    (hopen : numberOfSlotsInState ≤ s.toNat → ofSlot s (bids calls) ≠ []) :
    ((new.addBlocks calls).auctions (ringIndex s)).slot = s := by
  have htr := tracks_addBlocks calls (ringIndex s)
  have hwf := wf_addBlocks calls (ringIndex s)
  generalize (new.addBlocks calls).auctions (ringIndex s) = a at htr hwf ⊢
  -- a newer slot of the place would have come with a bid
  have hle : a.slot ≤ s := by
    by_contra hlt
    rw [UInt64.not_le] at hlt
    have hbig := le_toNat_of_lt_of_ringIndex_eq hlt hwf.ringIndex_slot.symm
    obtain ⟨c, hc⟩ := List.exists_mem_of_ne_nil _ (htr.opened hbig)
    obtain ⟨hc, hcs⟩ := mem_ofSlot_iff.1 hc
    exact h ⟨c, hc, hcs ▸ hlt, hcs ▸ hwf.ringIndex_slot⟩
  have hge : s ≤ a.slot := by
    by_contra hlt
    rw [UInt64.not_le] at hlt
    obtain ⟨c, hc⟩ := List.exists_mem_of_ne_nil _
      (hopen (le_toNat_of_lt_of_ringIndex_eq hlt hwf.ringIndex_slot))
    obtain ⟨hc, hcs⟩ := mem_ofSlot_iff.1 hc
    have := htr.newest c hc (by rw [hcs])
    rw [hcs] at this
    exact UInt64.not_le.2 hlt this
  exact UInt64.le_antisymm hle hge

/-- From a place that is for the slot asked for, the best of the retained bids is served. -/
theorem isBest_retained
    (hslot : ((new.addBlocks calls).auctions (ringIndex s)).slot = s) :
    IsBest BuilderBidExtended.latestKey BuilderBidExtended.worth (onParent p)
      (retained s (bids calls)) ((new.addBlocks calls).maxProfitBlock s p) := by
  have htr := tracks_addBlocks calls (ringIndex s)
  have hwf := wf_addBlocks calls (ringIndex s)
  have hlatest := htr.latest
  rw [hslot] at hlatest
  rw [maxProfitBlock, hwf.maxProfitBlock_eq, if_pos hslot]
  cases hmp : ((new.addBlocks calls).auctions (ringIndex s)).maxProfit.lookup p with
  | none =>
      intro b hb hbp
      obtain ⟨c, hc⟩ := exists_lastWrite BuilderBidExtended.latestKey hb rfl
      rw [← hlatest] at hc
      have hkey : b.latestKey = ⟨b.builderBid.pubkey, p⟩ := by
        rw [BuilderBidExtended.latestKey, latestKey_mem_onParent.1 hbp]
      obtain ⟨d, hd⟩ := (hwf.parents p).2 ⟨_, c, hkey ▸ hc⟩
      rw [hmp] at hd
      cases hd
  | some b =>
      have hbp := (hwf.maxProfit_filed p b hmp).2
      have hkey : b.latestKey = ⟨b.builderBid.pubkey, p⟩ := by
        rw [BuilderBidExtended.latestKey, hbp]
      refine ⟨hbp, ?_, ?_⟩
      · rw [hkey, ← hlatest]
        exact hwf.best_latest p b hmp
      · rintro ⟨pk, q⟩ hq c hc
        obtain rfl : q = p := hq
        rw [← hlatest] at hc
        exact hwf.best_max q b hmp pk c hc

/-- What is served is a bid that was added. -/
theorem mem_bids_of_maxProfitBlock {b : BuilderBidExtended}
    (hb : (new.addBlocks calls).maxProfitBlock s p = some b) : b ∈ bids calls := by
  by_cases hslot : ((new.addBlocks calls).auctions (ringIndex s)).slot = s
  · have hbest := isBest_retained (p := p) hslot
    rw [hb] at hbest
    obtain ⟨hmem, -⟩ := mem_of_lastWrite BuilderBidExtended.latestKey hbest.2.1
    unfold retained at hmem
    split at hmem
    · exact (mem_ofSlot_iff.1 hmem).1
    · exact (mem_ofSlot_iff.1 (List.mem_of_mem_tail hmem)).1
  · rw [maxProfitBlock, (wf_addBlocks calls _).maxProfitBlock_eq, if_neg hslot] at hb
    cases hb

/-- The last bid that a builder has added for a slot and a parent hash. -/
def lastBid (bids : List BuilderBidExtended) (s : UInt64) (p : Hash) (pk : PublicKey) :
    Option BuilderBidExtended :=
  lastWrite BuilderBidExtended.latestKey ⟨pk, p⟩ (ofSlot s bids)

/-- **What `MaxProfitBlock` should serve** for a slot and a parent hash: if a bid for them was added
and the slot is not superseded, a bid that is the last one of its builder and is worth at least as
much as the last bid of every builder, and otherwise nothing. -/
def ServesBest (calls : List AddCall) (s : UInt64) (p : Hash) : Prop :=
  ((∃ b ∈ bids calls, b.slot = s ∧ b.parentHash = p) ∧ ¬Superseded (bids calls) s →
    ∃ b, (new.addBlocks calls).maxProfitBlock s p = some b ∧
      lastBid (bids calls) s p b.builderBid.pubkey = some b ∧
      ∀ pk c, lastBid (bids calls) s p pk = some c → c.worth ≤ b.worth) ∧
  (¬((∃ b ∈ bids calls, b.slot = s ∧ b.parentHash = p) ∧ ¬Superseded (bids calls) s) →
    (new.addBlocks calls).maxProfitBlock s p = none)

/-- For a slot that has a bid and is not superseded, serving the right bid is serving the best one
of the log of all its bids. -/
theorem servesBest_iff_isBest (h : ¬Superseded (bids calls) s) :
    ServesBest calls s p ↔
      IsBest BuilderBidExtended.latestKey BuilderBidExtended.worth (onParent p)
        (ofSlot s (bids calls)) ((new.addBlocks calls).maxProfitBlock s p) := by
  constructor
  · rintro ⟨hsome, hnone⟩
    by_cases hbid : ∃ b ∈ bids calls, b.slot = s ∧ b.parentHash = p
    · obtain ⟨b, hb, hlast, hmax⟩ := hsome ⟨hbid, h⟩
      obtain ⟨-, hkey⟩ := mem_of_lastWrite BuilderBidExtended.latestKey hlast
      rw [hb]
      refine ⟨by rw [hkey]; rfl, by rw [hkey]; exact hlast, ?_⟩
      rintro ⟨pk, q⟩ hq c hc
      obtain rfl : q = p := hq
      exact hmax pk c hc
    · rw [hnone fun hcond => hbid hcond.1]
      intro b hb hbp
      obtain ⟨hb, hbs⟩ := mem_ofSlot_iff.1 hb
      exact hbid ⟨b, hb, hbs, hbp⟩
  · intro hbest
    constructor
    · rintro ⟨⟨b, hb, hbs, hbp⟩, -⟩
      obtain ⟨c, hc⟩ := hbest.exists_eq_some (mem_ofSlot_iff.2 ⟨hb, hbs⟩) hbp
      rw [hc] at hbest
      obtain ⟨hcp, hlast, hmax⟩ := hbest
      have hkey : c.latestKey = ⟨c.builderBid.pubkey, p⟩ := by
        rw [BuilderBidExtended.latestKey, latestKey_mem_onParent.1 hcp]
      rw [hkey] at hlast
      exact ⟨c, hc, hlast, fun pk d hd => hmax _ rfl d hd⟩
    · intro hcond
      cases hmp : (new.addBlocks calls).maxProfitBlock s p with
      | none => rfl
      | some b =>
          rw [hmp] at hbest
          obtain ⟨hmem, -⟩ := mem_of_lastWrite BuilderBidExtended.latestKey hbest.2.1
          obtain ⟨hb, hbs⟩ := mem_ofSlot_iff.1 hmem
          exact absurd ⟨⟨b, hb, hbs, hbest.1⟩, h⟩ hcond

/-- The bid that made the ring roll over to the slot was the one to serve: it is for the parent
hash, its builder has not bid on it again, and the last bids of all others are worth less. -/
def LeadLost (bids : List BuilderBidExtended) (s : UInt64) (p : Hash) : Prop :=
  numberOfSlotsInState ≤ s.toNat ∧ ¬Superseded bids s ∧
    ∃ first rest, ofSlot s bids = first :: rest ∧ first.parentHash = p ∧
      (∀ b ∈ rest, b.latestKey ≠ first.latestKey) ∧
      ∀ pk c, lastWrite BuilderBidExtended.latestKey ⟨pk, p⟩ rest = some c → c.worth < first.worth

/-- A slot without bids serves nothing. -/
theorem maxProfitBlock_of_ofSlot_nil (h : ofSlot s (bids calls) = []) :
    (new.addBlocks calls).maxProfitBlock s p = none := by
  by_cases hslot : ((new.addBlocks calls).auctions (ringIndex s)).slot = s
  · have hbest := isBest_retained (p := p) hslot
    have hnil : retained s (bids calls) = [] := by simp [retained, h]
    rw [hnil] at hbest
    cases hmp : (new.addBlocks calls).maxProfitBlock s p with
    | none => rfl
    | some b =>
        rw [hmp] at hbest
        simp [IsBest] at hbest
  · rw [maxProfitBlock, (wf_addBlocks calls _).maxProfitBlock_eq, if_neg hslot]

/-- For a slot that is not superseded, what is served is best among all its bids exactly when the
lead was not lost in a roll-over. -/
theorem isBest_ofSlot_iff (hsup : ¬Superseded (bids calls) s) :
    IsBest BuilderBidExtended.latestKey BuilderBidExtended.worth (onParent p)
        (ofSlot s (bids calls)) ((new.addBlocks calls).maxProfitBlock s p) ↔
      ¬LeadLost (bids calls) s p := by
  cases hlog : ofSlot s (bids calls) with
  | nil =>
      rw [maxProfitBlock_of_ofSlot_nil hlog]
      refine iff_of_true (by simp [IsBest]) ?_
      rintro ⟨-, -, first, rest, hfirst, -⟩
      rw [hlog] at hfirst
      cases hfirst
  | cons first rest =>
      have hbest := isBest_retained (p := p) (slot_eq_of_opened hsup fun _ => by simp [hlog])
      rw [retained, hlog] at hbest
      by_cases hsmall : s.toNat < numberOfSlotsInState
      · rw [if_pos hsmall] at hbest
        exact iff_of_true hbest fun h => absurd h.1 (not_le.2 hsmall)
      · -- the first bid of the slot is the one that the roll-over has lost
        rw [if_neg hsmall, List.tail_cons] at hbest
        rw [hbest.cons_iff]
        constructor
        · rintro hcond ⟨-, -, first', rest', hfirst, hparent, hagain, hworth⟩
          rw [hlog, List.cons.injEq] at hfirst
          obtain ⟨rfl, rfl⟩ := hfirst
          rcases hcond with hS | ⟨b, hb, hkey⟩ | ⟨⟨pk, q⟩, hq, c, hc, hle⟩
          · exact hS hparent
          · exact hagain b hb hkey
          · obtain rfl : q = p := hq
            exact absurd (hworth pk c hc) (not_lt.2 hle)
        · intro hlead
          by_contra hcond
          push Not at hcond
          obtain ⟨hS, hagain, hworth⟩ := hcond
          exact hlead ⟨not_lt.1 hsmall, hsup, first, rest, hlog, hS, hagain,
            fun pk c hc => hworth ⟨pk, p⟩ rfl c hc⟩

/-- **The right bid is served exactly when the lead was not lost in a roll-over.** -/
theorem servesBest_iff (calls : List AddCall) (s : UInt64) (p : Hash) :
    ServesBest calls s p ↔ ¬LeadLost (bids calls) s p := by
  by_cases hsup : Superseded (bids calls) s
  · refine iff_of_true ⟨fun h => absurd hsup h.2, fun _ => maxProfitBlock_of_superseded hsup⟩ ?_
    exact fun h => h.2.1 hsup
  · rw [servesBest_iff_isBest hsup, isBest_ofSlot_iff hsup]

/-- A first bid for a slot that was not in the ring at the start. -/
def firstBid : BuilderBidExtended :=
  { builderBid := { header := default, value := U256Str.ofNat 10, pubkey := default }
    proposer := default
    slot := 2 }

/-- The only bid of the slot `2` is added, and nothing is served for it. -/
theorem not_servesBest_firstBid :
    ¬ServesBest [⟨Go.RangeOrder.stored, firstBid⟩] 2 firstBid.parentHash := by
  intro h
  have hnone : (new.addBlocks [⟨Go.RangeOrder.stored, firstBid⟩]).maxProfitBlock 2
      firstBid.parentHash = none := by rfl
  obtain ⟨b, hb, -⟩ := h.1 ⟨⟨firstBid, by simp [bids], rfl, rfl⟩, by
    rintro ⟨b, hb, hlt, -⟩
    rw [List.mem_singleton.1 hb] at hlt
    exact absurd hlt (by decide)⟩
  rw [hnone] at hb
  cases hb

end Auctioneer

end Dreamboat
