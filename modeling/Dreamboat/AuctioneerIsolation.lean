/-
**Which bids can change what a proposer is offered.**

The auction is kept per slot and parent hash; the proposer of the best bid is compared with the one
that asks only when the best bid has been chosen.  So a bid for another proposer competes with the
bids for the one that asks, if it is for the same slot and parent hash, and it takes their auction
out of the ring, if it is for a newer slot of the same place.  This module shows that nothing else
matters: two sequences of bids that agree on the bids of these kinds, and on the bid that rolls the
ring over to the slot, offer a proposer the same.

The loop over the map of latest bids makes the answer depend on the order of its visits when several
bids are worth the same, so *the same* is said of the sets of possible answers.

Main definitions:

* `Servable` — the bids that can be served after a log, over all orders of the loops;
* `headerOutcomes` — the possible answers of `GetHeader` after a sequence of bids.

Main results:

* `Auctioneer.servable_maxProfitBlock`, `Auctioneer.exists_maxProfitBlock_eq` — what is served is
  servable, and every servable bid is served in some order;
* `headerOutcomes_eq` — **only bids on the same slot and parent hash, and bids for newer slots, can
  change what a proposer is offered**.
-/

import Dreamboat.AuctioneerHistory
import Dreamboat.GetHeader

set_option autoImplicit false

namespace Dreamboat

open KeyedLog

/-! ### The bids that can be served -/

/-- What can be served after a log of bids on one parent hash, the newest bid first.  The last rule
is the loop: it ends in any of the bids that are worth most. -/
inductive Servable : List BuilderBidExtended → Option BuilderBidExtended → Prop
  | nil : Servable [] none
  | first {b : BuilderBidExtended} {log : List BuilderBidExtended} : Servable log none →
      Servable (b :: log) (some b)
  | raise {b mp : BuilderBidExtended} {log : List BuilderBidExtended} : Servable log (some mp) →
      mp.worth ≤ b.worth → Servable (b :: log) (some b)
  | keep {b mp : BuilderBidExtended} {log : List BuilderBidExtended} : Servable log (some mp) →
      ¬mp.worth ≤ b.worth → mp.builderBid.pubkey ≠ b.builderBid.pubkey →
      Servable (b :: log) (some mp)
  | lower {b mp c : BuilderBidExtended} {log : List BuilderBidExtended} :
      Servable log (some mp) → ¬mp.worth ≤ b.worth →
      mp.builderBid.pubkey = b.builderBid.pubkey →
      IsBest BuilderBidExtended.latestKey BuilderBidExtended.worth Set.univ (log.reverse ++ [b])
        (some c) →
      Servable (b :: log) (some c)

/-- The bids of a log on a parent hash. -/
def restrict (p : Hash) (log : List BuilderBidExtended) : List BuilderBidExtended :=
  log.filter fun b => b.parentHash = p

/-- The map of latest bids answers for the bids on a parent hash alone. -/
theorem lastWrite_restrict (p : Hash) (pk : PublicKey) (log : List BuilderBidExtended) :
    lastWrite BuilderBidExtended.latestKey ⟨pk, p⟩ (restrict p log) =
      lastWrite BuilderBidExtended.latestKey ⟨pk, p⟩ log := by
  refine lastWrite_filter _ (fun b hb => ?_) log
  exact decide_eq_true (congrArg LatestKey.parentHash hb)

theorem latestKey_of_mem_restrict {p : Hash} {log : List BuilderBidExtended}
    {b : BuilderBidExtended} (h : b ∈ restrict p log) :
    b.latestKey = ⟨b.builderBid.pubkey, p⟩ := by
  have hp : b.parentHash = p := by simpa using (List.mem_filter.1 h).2
  rw [BuilderBidExtended.latestKey, hp]

namespace Auction

variable {i : Fin numberOfSlotsInState} {a : Auction} {b : BuilderBidExtended}
  {log : List BuilderBidExtended}

/-- The latest bids on the parent hash of `b`, once `b` has been entered, are the last writes of the
log with `b` at its end. -/
theorem lookup_insert_eq_lastWrite
    (hlog : ∀ k, a.latestBlockByBuilder.lookup k = lastWrite BuilderBidExtended.latestKey k log)
    (pk : PublicKey) :
    (a.latestBlockByBuilder.insert b.latestKey b).lookup ⟨pk, b.parentHash⟩ =
      lastWrite BuilderBidExtended.latestKey ⟨pk, b.parentHash⟩
        (restrict b.parentHash log ++ [b]) := by
  rw [Go.lookup_insert_eq, lastWrite_concat, lastWrite_restrict, hlog]
  simp only [eq_comm]

theorem latestKey_of_mem_concat {c : BuilderBidExtended}
    (hc : c ∈ restrict b.parentHash log ++ [b]) :
    c.latestKey = ⟨c.builderBid.pubkey, b.parentHash⟩ := by
  rcases List.mem_append.1 hc with hc | hc
  · exact latestKey_of_mem_restrict hc
  · rw [List.mem_singleton.1 hc]
    rfl

/-- Entering a bid serves a bid that can be served. -/
theorem servable_bestAfter {order : LoopOrder} (hwf : a.Wf i) (hslot : b.slot = a.slot)
    (hlog : ∀ k, a.latestBlockByBuilder.lookup k = lastWrite BuilderBidExtended.latestKey k log)
    (h : Servable (restrict b.parentHash log).reverse (a.maxProfit.lookup b.parentHash)) :
    Servable (b :: (restrict b.parentHash log).reverse) (some (bestAfter order a b)) := by
  obtain ⟨hbest, hmax⟩ := bestAfter_spec order hwf hslot
  cases hmp : a.maxProfit.lookup b.parentHash with
  | none =>
      rw [hmp] at h
      simp only [bestAfter, hmp]
      exact Servable.first h
  | some mp =>
      rw [hmp] at h
      by_cases hle : mp.worth ≤ b.worth
      · simp only [bestAfter, hmp, if_pos hle]
        exact Servable.raise h hle
      · by_cases hpk : mp.builderBid.pubkey = b.builderBid.pubkey
        · refine Servable.lower h hle hpk ⟨Set.mem_univ _, ?_, ?_⟩
          · rw [List.reverse_reverse]
            rw [lookup_insert_eq_lastWrite hlog] at hbest
            have hkey := (mem_of_lastWrite _ hbest).2
            rw [hkey]
            exact hbest
          · intro k _ c hc
            rw [List.reverse_reverse] at hc
            obtain ⟨hmem, rfl⟩ := mem_of_lastWrite _ hc
            rw [latestKey_of_mem_concat hmem, ← lookup_insert_eq_lastWrite hlog] at hc
            exact hmax _ c hc
        · simp only [bestAfter, hmp, if_neg hle, if_neg hpk]
          exact Servable.keep h hle hpk

/-- Every bid that can be served is served in some order of the loop, by an auction that served the
right bid before. -/
theorem exists_bestAfter_eq {r : Option BuilderBidExtended}
    (h : Servable (b :: (restrict b.parentHash log).reverse) r) :
    ∃ r₀, Servable (restrict b.parentHash log).reverse r₀ ∧
      ∀ a : Auction, a.Wf i → b.slot = a.slot →
        (∀ k, a.latestBlockByBuilder.lookup k = lastWrite BuilderBidExtended.latestKey k log) →
        a.maxProfit.lookup b.parentHash = r₀ → ∃ order, some (bestAfter order a b) = r := by
  cases h with
  | first h =>
      refine ⟨none, h, fun a _ _ _ hmp => ⟨Go.RangeOrder.stored, ?_⟩⟩
      simp only [bestAfter, hmp]
  | raise h hle =>
      refine ⟨_, h, fun a _ _ _ hmp => ⟨Go.RangeOrder.stored, ?_⟩⟩
      simp only [bestAfter, hmp, if_pos hle]
  | keep h hle hpk =>
      refine ⟨_, h, fun a _ _ _ hmp => ⟨Go.RangeOrder.stored, ?_⟩⟩
      simp only [bestAfter, hmp, if_neg hle, if_neg hpk]
  | @lower _ mp c _ h hle hpk hbest =>
      -- the loop ends in `c` when it visits `c` last
      refine ⟨_, h, fun a hwf hslot hlog hmp => ⟨Go.RangeOrder.putLast c.latestKey, ?_⟩⟩
      obtain ⟨-, hlast, hmax⟩ := hbest
      rw [List.reverse_reverse] at hlast hmax
      obtain ⟨hmem, -⟩ := mem_of_lastWrite _ hlast
      have hkey := latestKey_of_mem_concat hmem
      have hlookup : (a.latestBlockByBuilder.insert b.latestKey b).lookup c.latestKey =
          some c := by
        rw [hkey, lookup_insert_eq_lastWrite hlog, ← hkey]
        exact hlast
      obtain ⟨l, hl⟩ := Go.RangeOrder.putLast_visit_of_lookup hlookup
      have hms : mp.slot = a.slot := (hwf.maxProfit_filed _ _ hmp).1
      have hcs : c.slot = a.slot := (hwf.insert_latest_filed hslot _ _ hlookup).1
      have hcp : c.parentHash = b.parentHash := congrArg LatestKey.parentHash hkey
      have hcons : considered (Go.RangeOrder.putLast c.latestKey) b.parentHash mp.slot
          (a.latestBlockByBuilder.insert b.latestKey b) =
          (l.filter (isConsidered b.parentHash mp.slot)).map Sigma.snd ++ [c] := by
        simp [considered, hl, isConsidered, hms, hcs, hcp]
      simp only [bestAfter, hmp, if_neg hle, if_pos hpk]
      rw [hcons, Go.foldl_keepMax_append_singleton]
      intro d hd
      rcases List.mem_cons.1 hd with rfl | hd
      · refine hmax d.latestKey (Set.mem_univ _) d ?_
        rw [lastWrite_concat, if_pos rfl]
      · have hd' : d ∈ considered (Go.RangeOrder.putLast c.latestKey) b.parentHash mp.slot
            (a.latestBlockByBuilder.insert b.latestKey b) := by
          rw [hcons]
          exact List.mem_append_left _ hd
        obtain ⟨k, hk, hdp, -⟩ := mem_considered_iff.1 hd'
        obtain ⟨-, rfl⟩ := hwf.insert_latest_filed hslot _ _ hk
        have hdk : d.latestKey = ⟨d.builderBid.pubkey, b.parentHash⟩ := by
          rw [BuilderBidExtended.latestKey, hdp]
        refine hmax d.latestKey (Set.mem_univ _) d ?_
        rw [hdk, ← lookup_insert_eq_lastWrite hlog, ← hdk]
        exact hk

end Auction

/-! ### Bids that do not matter -/

/-- The next bid is entered into the auction of the slot `s`, on the parent hash `p`. -/
def Enters (s : UInt64) (p : Hash) (bids : List BuilderBidExtended) (b : BuilderBidExtended) :
    Prop :=
  b.slot = s ∧ b.parentHash = p ∧ (numberOfSlotsInState ≤ s.toNat → ofSlot s bids ≠ [])

theorem Enters.restrict_retained {s : UInt64} {p : Hash} {bids : List BuilderBidExtended}
    {b : BuilderBidExtended} (h : Enters s p bids b) :
    restrict p (retained s (bids ++ [b])) = restrict p (retained s bids) ++ [b] := by
  obtain ⟨rfl, rfl, hopen⟩ := h
  rw [retained_concat_self hopen]
  simp [restrict]

theorem restrict_retained_of_not_enters {s : UInt64} {p : Hash}
    {bids : List BuilderBidExtended} {b : BuilderBidExtended} (h : ¬Enters s p bids b) :
    restrict p (retained s (bids ++ [b])) = restrict p (retained s bids) := by
  by_cases hs : b.slot = s
  · subst hs
    by_cases hopen : numberOfSlotsInState ≤ b.slot.toNat → ofSlot b.slot bids ≠ []
    · have hp : b.parentHash ≠ p := fun hp => h ⟨rfl, hp, hopen⟩
      rw [retained_concat_self hopen]
      simp [restrict, hp]
    · -- the bid that makes the ring roll over
      push Not at hopen
      simp [retained, ofSlot_concat_self, hopen.2, not_lt.2 hopen.1]
  · rw [retained_concat_of_ne _ hs]

namespace Auctioneer

variable {calls : List AddCall} {c : AddCall} {s : UInt64} {p : Hash}

theorem bids_concat (calls : List AddCall) (c : AddCall) :
    bids (calls ++ [c]) = bids calls ++ [c.bid] := by
  simp [bids]

theorem not_superseded_of_concat {bids : List BuilderBidExtended} {b : BuilderBidExtended}
    (h : ¬Superseded (bids ++ [b]) s) : ¬Superseded bids s :=
  fun ⟨d, hd, hlt, hi⟩ => h ⟨d, List.mem_append_left _ hd, hlt, hi⟩

/-- A bid that is not entered for `s` and `p`, and does not supersede `s`, does not change what is
served for them. -/
theorem maxProfitBlock_concat_of_not_enters
    (hsup : ¬Superseded (bids (calls ++ [c])) s) (h : ¬Enters s p (bids calls) c.bid) :
    (new.addBlocks (calls ++ [c])).maxProfitBlock s p =
      (new.addBlocks calls).maxProfitBlock s p := by
  have hwf := wf_addBlocks calls (ringIndex s)
  have htr := tracks_addBlocks calls (ringIndex s)
  rw [addBlocks_concat]
  by_cases hi : ringIndex s = ringIndex c.bid.slot
  · have hle : c.bid.slot ≤ s := by
      rw [← UInt64.not_lt]
      intro hlt
      exact hsup ⟨c.bid, by simp [bids], hlt, hi.symm⟩
    have hwf' := hwf.inRing c.order hi.symm
    rw [maxProfitBlock, maxProfitBlock, hi, addBlock_auctions_self, ← hi, hwf'.maxProfitBlock_eq,
      hwf.maxProfitBlock_eq]
    generalize (new.addBlocks calls).auctions (ringIndex s) = a at htr ⊢
    by_cases hlt : c.bid.slot < a.slot
    · rw [Auction.inRing_of_lt c.order hlt]
    · by_cases hgt : a.slot < c.bid.slot
      · -- the ring rolls over, to `s` itself or to an older slot: nothing is served yet
        rw [Auction.inRing_of_gt c.order hgt,
          if_neg (UInt64.ne_of_lt (UInt64.lt_of_lt_of_le hgt hle))]
        exact ite_eq_right_iff.2 fun _ => AList.lookup_empty p
      · have heq : c.bid.slot = a.slot :=
          UInt64.le_antisymm (UInt64.not_lt.1 hgt) (UInt64.not_lt.1 hlt)
        obtain ⟨hs, -, hm⟩ := Auction.inRing_of_eq c.order heq
        rw [hs, hm]
        split
        · next has =>
            rw [if_neg]
            rintro rfl
            exact h ⟨heq.trans has, rfl, fun hbig => has ▸ htr.opened (has ▸ hbig)⟩
        · rfl
  · rw [maxProfitBlock, maxProfitBlock, addBlock_auctions_of_ne _ _ hi]

/-- What is served once a bid has been entered. -/
theorem maxProfitBlock_concat_of_enters
    (hsup : ¬Superseded (bids calls) s) (h : Enters s p (bids calls) c.bid) :
    (new.addBlocks (calls ++ [c])).maxProfitBlock s p =
      some (Auction.bestAfter c.order ((new.addBlocks calls).auctions (ringIndex s)) c.bid) := by
  obtain ⟨rfl, rfl, hopen⟩ := h
  have hslot := slot_eq_of_opened hsup hopen
  have hwf := (wf_addBlocks calls (ringIndex c.bid.slot)).inRing c.order rfl
  obtain ⟨hs, -, hm⟩ := Auction.inRing_of_eq c.order hslot.symm
  rw [addBlocks_concat, maxProfitBlock, addBlock_auctions_self, hwf.maxProfitBlock_eq, hs,
    if_pos hslot, hm, if_pos rfl]

/-- The auction that a bid is entered into. -/
theorem opened_auction (hsup : ¬Superseded (bids calls) s)
    (hopen : numberOfSlotsInState ≤ s.toNat → ofSlot s (bids calls) ≠ []) :
    ((new.addBlocks calls).auctions (ringIndex s)).slot = s ∧
      (∀ k, ((new.addBlocks calls).auctions (ringIndex s)).latestBlockByBuilder.lookup k =
        lastWrite BuilderBidExtended.latestKey k (retained s (bids calls))) ∧
      ((new.addBlocks calls).auctions (ringIndex s)).maxProfit.lookup p =
        (new.addBlocks calls).maxProfitBlock s p := by
  have hslot := slot_eq_of_opened hsup hopen
  have hlatest := (tracks_addBlocks calls (ringIndex s)).latest
  rw [hslot] at hlatest
  refine ⟨hslot, hlatest, ?_⟩
  rw [maxProfitBlock, (wf_addBlocks calls _).maxProfitBlock_eq, if_pos hslot]

/-- **What is served can be served**: the answer is one that the retained bids on the parent hash
allow. -/
theorem servable_maxProfitBlock (calls : List AddCall) (hsup : ¬Superseded (bids calls) s) :
    Servable (restrict p (retained s (bids calls))).reverse
      ((new.addBlocks calls).maxProfitBlock s p) := by
  induction calls using List.reverseRecOn with
  | nil =>
      have hnone : (new.addBlocks []).maxProfitBlock s p = none := rfl
      rw [hnone]
      simpa [bids, retained, ofSlot, restrict] using Servable.nil
  | append_singleton calls c ih =>
      have hsup' : ¬Superseded (bids calls) s := by
        rw [bids_concat] at hsup
        exact not_superseded_of_concat hsup
      by_cases henters : Enters s p (bids calls) c.bid
      · obtain ⟨hslot, hlatest, hserved⟩ := opened_auction (p := p) hsup' henters.2.2
        rw [bids_concat, henters.restrict_retained, List.reverse_append,
          maxProfitBlock_concat_of_enters hsup' henters]
        have ih := ih hsup'
        obtain ⟨hcs, rfl, -⟩ := henters
        rw [← hserved] at ih
        exact Auction.servable_bestAfter (wf_addBlocks calls _) (hcs.trans hslot.symm) hlatest ih
      · rw [maxProfitBlock_concat_of_not_enters hsup henters, bids_concat,
          restrict_retained_of_not_enters henters]
        exact ih hsup'

/-- **What can be served is served**, if the loops take the right order. -/
theorem exists_maxProfitBlock_eq (log : List BuilderBidExtended) (hsup : ¬Superseded log s)
    {r : Option BuilderBidExtended} (hr : Servable (restrict p (retained s log)).reverse r) :
    ∃ calls, bids calls = log ∧ (new.addBlocks calls).maxProfitBlock s p = r := by
  induction log using List.reverseRecOn generalizing r with
  | nil =>
      refine ⟨[], rfl, ?_⟩
      have hnil : restrict p (retained s []) = [] := by simp [retained, ofSlot, restrict]
      rw [hnil] at hr
      cases hr
      rfl
  | append_singleton log b ih =>
      have ih := @ih (not_superseded_of_concat hsup)
      by_cases henters : Enters s p log b
      · rw [henters.restrict_retained, List.reverse_append] at hr
        have hopen := henters.2.2
        obtain ⟨hbs, rfl, -⟩ := id henters
        obtain ⟨r₀, hr₀, hlast⟩ := Auction.exists_bestAfter_eq (i := ringIndex s) hr
        obtain ⟨calls, rfl, hserved⟩ := ih hr₀
        have hsup' := not_superseded_of_concat hsup
        obtain ⟨hslot, hlatest, hmp⟩ := opened_auction (p := b.parentHash) hsup' hopen
        obtain ⟨order, horder⟩ :=
          hlast _ (wf_addBlocks calls _) (hbs.trans hslot.symm) hlatest (hmp.trans hserved)
        refine ⟨calls ++ [⟨order, b⟩], bids_concat calls ⟨order, b⟩, ?_⟩
        rw [← horder]
        exact maxProfitBlock_concat_of_enters (c := ⟨order, b⟩) hsup' henters
      · rw [restrict_retained_of_not_enters henters] at hr
        obtain ⟨calls, rfl, hserved⟩ := ih hr
        have hbids := bids_concat calls ⟨Go.RangeOrder.stored, b⟩
        refine ⟨calls ++ [⟨Go.RangeOrder.stored, b⟩], hbids, ?_⟩
        rw [← hserved]
        exact maxProfitBlock_concat_of_not_enters (hbids ▸ hsup) henters

/-- The bids that are for the slot and the parent hash asked for, for the proposer that asks, or for
a newer slot of the same place of the ring. -/
def isRelevant (s : UInt64) (p : Hash) (pk : PublicKey) (b : BuilderBidExtended) : Bool :=
  decide (b.proposer = pk ∨ (b.slot = s ∧ b.parentHash = p) ∨
    (s < b.slot ∧ ringIndex b.slot = ringIndex s))

variable {pk : PublicKey} {log log' : List BuilderBidExtended}

theorem superseded_iff_of_relevant
    (hrel : log.filter (isRelevant s p pk) = log'.filter (isRelevant s p pk)) :
    Superseded log s ↔ Superseded log' s := by
  have hmem : ∀ l : List BuilderBidExtended, Superseded l s ↔
      Superseded (l.filter (isRelevant s p pk)) s := by
    intro l
    constructor
    · rintro ⟨b, hb, hlt, hi⟩
      exact ⟨b, List.mem_filter.2 ⟨hb, by simp [isRelevant, hlt, hi]⟩, hlt, hi⟩
    · rintro ⟨b, hb, hlt, hi⟩
      exact ⟨b, (List.mem_filter.1 hb).1, hlt, hi⟩
  rw [hmem, hrel, ← hmem]

theorem restrict_ofSlot_of_relevant
    (hrel : log.filter (isRelevant s p pk) = log'.filter (isRelevant s p pk)) :
    restrict p (ofSlot s log) = restrict p (ofSlot s log') := by
  have hfilter : ∀ l : List BuilderBidExtended, restrict p (ofSlot s l) =
      restrict p (ofSlot s (l.filter (isRelevant s p pk))) := by
    intro l
    simp only [restrict, ofSlot, List.filter_filter]
    congr 1
    funext b
    simp only [isRelevant]
    by_cases hs : b.slot = s <;> by_cases hp : b.parentHash = p <;> simp [hs, hp]
  rw [hfilter, hrel, ← hfilter]

/-- Two logs with the same relevant bids, which open the slot with the same bid, retain the same
bids on the parent hash. -/
theorem restrict_retained_of_relevant
    (hrel : log.filter (isRelevant s p pk) = log'.filter (isRelevant s p pk))
    (hfirst : numberOfSlotsInState ≤ s.toNat → (ofSlot s log).head? = (ofSlot s log').head?) :
    restrict p (retained s log) = restrict p (retained s log') := by
  have hall := restrict_ofSlot_of_relevant hrel
  unfold retained
  split
  · exact hall
  · next hbig =>
      have hfirst := hfirst (not_lt.1 hbig)
      cases hl : ofSlot s log with
      | nil =>
          rw [hl, List.head?_nil, eq_comm, List.head?_eq_none_iff] at hfirst
          rw [hfirst]
      | cons b l =>
          cases hl' : ofSlot s log' with
          | nil => simp [hl, hl'] at hfirst
          | cons b' l' =>
              obtain rfl : b = b' := by simpa [hl, hl'] using hfirst
              rw [hl, hl'] at hall
              simp only [restrict, List.filter_cons] at hall
              simp only [restrict, List.tail_cons]
              split at hall
              · exact List.tail_eq_of_cons_eq hall
              · exact hall

/-- Two logs with the same relevant bids, which open the slot with the same bid, can serve the same
for it. -/
theorem exists_maxProfitBlock_eq_of_relevant
    (hrel : log.filter (isRelevant s p pk) = log'.filter (isRelevant s p pk))
    (hfirst : numberOfSlotsInState ≤ s.toNat → (ofSlot s log).head? = (ofSlot s log').head?)
    (hbids : bids calls = log) :
    ∃ calls', bids calls' = log' ∧
      (new.addBlocks calls').maxProfitBlock s p = (new.addBlocks calls).maxProfitBlock s p := by
  subst hbids
  by_cases hsup : Superseded (bids calls) s
  · have hbids : bids (log'.map (AddCall.mk Go.RangeOrder.stored)) = log' := by
      simp [bids, Function.comp_def]
    refine ⟨_, hbids, ?_⟩
    rw [maxProfitBlock_of_superseded hsup, maxProfitBlock_of_superseded]
    rw [hbids]
    exact (superseded_iff_of_relevant hrel).1 hsup
  · have hserv := servable_maxProfitBlock (p := p) calls hsup
    rw [restrict_retained_of_relevant hrel hfirst] at hserv
    exact exists_maxProfitBlock_eq log' (mt (superseded_iff_of_relevant hrel).2 hsup) hserv

end Auctioneer

/-! ### What a proposer is offered -/

section Outcomes

variable (P : Primitives) (cfg : RelayConfig) (v : BeaconView) (s : UInt64) (p : Hash)
  (pk : PublicKey)

/-- The answers that a request for a slot, a parent hash and a proposer can get after a sequence of
bids, over all orders of the loops of `AddBlock`.  The payload cache does not enter an answer. -/
def headerOutcomes (log : List BuilderBidExtended) : Set (Except GoError GetHeaderResponse) :=
  {r | ∃ calls, Auctioneer.bids calls = log ∧
    r = (getHeader P cfg v (fun _ => false) (Auctioneer.new.addBlocks calls) (.of s p pk)).1}

/-- **Only bids on the same slot and parent hash, and bids for newer slots, can change what a
proposer is offered**: two sequences of bids that agree on these and on the bids for the proposer,
and that open the slot with the same bid, can be answered the same. -/
theorem headerOutcomes_eq (log log' : List BuilderBidExtended)
    (hrel : log.filter (Auctioneer.isRelevant s p pk) =
      log'.filter (Auctioneer.isRelevant s p pk))
    (hfirst : numberOfSlotsInState ≤ s.toNat → (ofSlot s log).head? = (ofSlot s log').head?) :
    headerOutcomes P cfg v s p pk log = headerOutcomes P cfg v s p pk log' := by
  ext r
  constructor
  · rintro ⟨calls, hbids, rfl⟩
    obtain ⟨calls', hbids', hserved⟩ :=
      Auctioneer.exists_maxProfitBlock_eq_of_relevant hrel hfirst hbids
    exact ⟨calls', hbids', by rw [getHeader_congr P cfg v hserved]⟩
  · rintro ⟨calls, hbids, rfl⟩
    obtain ⟨calls', hbids', hserved⟩ :=
      Auctioneer.exists_maxProfitBlock_eq_of_relevant hrel.symm (fun h => (hfirst h).symm) hbids
    exact ⟨calls', hbids', by rw [getHeader_congr P cfg v hserved]⟩

end Outcomes

/-! ### A bid for another proposer -/

/-- A key that is not the one that asks. -/
def otherKey : PublicKey := Vector.replicate 48 1

theorem otherKey_ne_default : otherKey ≠ default := by
  intro h
  have h₀ := congrArg (fun pk : PublicKey => pk[0]) h
  cases h₀

/-- A bid for the slot `32`, the first slot of the Capella fork of `capellaView`. -/
def capellaBid (proposer : PublicKey) (value : Nat) : BuilderBidExtended where
  builderBid := { header := .capella default, value := U256Str.ofNat value, pubkey := proposer }
  proposer := proposer
  slot := 32

/-- The slot `32` is the current one. -/
def capellaView : BeaconView :=
  { (default : BeaconView) with headSlot := 32, fork := ⟨0, 0, 1⟩ }

/-- The bid of another builder for another slot does not matter. -/
theorem headerOutcomes_eq_other_slot :
    headerOutcomes default default capellaView 32 default default
        [capellaBid default 1, capellaBid default 5] =
      headerOutcomes default default capellaView 32 default default
        [capellaBid default 1, { capellaBid otherKey 10 with slot := 31 },
          capellaBid default 5] :=
  headerOutcomes_eq _ _ _ _ _ _ _ _
    (by simp [Auctioneer.isRelevant, capellaBid, otherKey_ne_default])
    (fun _ => by simp [ofSlot, capellaBid])

/-- The bid on the same slot and parent hash for another proposer, worth more, hides the bid for the
proposer that asks. -/
theorem headerOutcomes_ne_other_proposer :
    ([capellaBid default 1, capellaBid default 5].filter fun b => b.proposer = default) =
      ([capellaBid default 1, capellaBid default 5, capellaBid otherKey 10].filter fun b =>
        b.proposer = default) ∧
    headerOutcomes default default capellaView 32 default default
        [capellaBid default 1, capellaBid default 5] ≠
      headerOutcomes default default capellaView 32 default default
        [capellaBid default 1, capellaBid default 5, capellaBid otherKey 10] := by
  refine ⟨by simp [capellaBid, otherKey_ne_default], fun h => ?_⟩
  -- without the other bid, the bid for the proposer is served in every order of the loops
  have hserved : ∀ calls, Auctioneer.bids calls = [capellaBid default 1, capellaBid default 5] →
      (Auctioneer.new.addBlocks calls).maxProfitBlock 32 default =
        some (capellaBid default 5) := by
    intro calls hcalls
    have hserv := Auctioneer.servable_maxProfitBlock (s := 32) (p := default) calls (by
      rw [hcalls]
      rintro ⟨b, hb, hlt, -⟩
      simp only [List.mem_cons, List.not_mem_nil, or_false] at hb
      rcases hb with rfl | rfl <;> exact absurd hlt (by decide))
    have hlog : restrict default (retained 32 (Auctioneer.bids calls)) =
        [capellaBid default 5] := by
      rw [hcalls]
      rfl
    rw [hlog] at hserv
    generalize (Auctioneer.new.addBlocks calls).maxProfitBlock 32 default = r at hserv ⊢
    cases hserv with
    | first h => rfl
    | raise h => cases h
    | keep h => cases h
    | lower h => cases h
  have herr : (getHeader default default capellaView (fun _ => false)
      (Auctioneer.new.addBlocks [⟨Go.RangeOrder.stored, capellaBid default 1⟩,
        ⟨Go.RangeOrder.stored, capellaBid default 5⟩,
        ⟨Go.RangeOrder.stored, capellaBid otherKey 10⟩]) (.of 32 default default)).1 ∈
      headerOutcomes default default capellaView 32 default default
        [capellaBid default 1, capellaBid default 5, capellaBid otherKey 10] := ⟨_, rfl, rfl⟩
  rw [← h] at herr
  obtain ⟨calls, hcalls, herr⟩ := herr
  rw [getHeader_congr _ _ _ ((hserved calls hcalls).trans (hserved
    [⟨Go.RangeOrder.stored, capellaBid default 1⟩, ⟨Go.RangeOrder.stored, capellaBid default 5⟩]
    rfl).symm)] at herr
  exact absurd (congrArg Except.isOk herr) (by decide +kernel)

end Dreamboat
