/-
**Where the header that `GetHeader` serves comes from.**

Bids reach the auction from `SubmitBlock` and from the subscribers that add the bids of other
instances; the latter never went through the checks of this instance.  An auction that a bid for a
newer slot has taken out of the ring keeps that bid besides its own, and a request that has read
the ring before still reads it.  So what a proposer is served rests on what every auction object
holds, in the ring or not, and on the filters of `GetHeader`.

Main definitions:

* `Auction.FromBids` — the bids in an auction satisfy a property, and the best ones stand under
  their own parent hashes;
* `SharedRing.passed` — the bids that have been passed to `AddBlock`;
* `Serves` — what a proposer may rely on in an answer.

Main results:

* `Auction.FromBids.locked` — the body of `AddBlock` keeps `FromBids`;
* `SharedRing.fromBids_run` — every object holds bids passed to `AddBlock` only;
* `getHeader_serves` — **an answer carries a bid that was passed to `AddBlock` for the slot, the
  parent hash and the proposer of the request**.
-/

import Dreamboat.AuctioneerIsolation
import Dreamboat.SharedRing

set_option autoImplicit false

namespace Dreamboat

namespace Auction

/-! ### The bids in one auction -/

/-- The bids in the auction satisfy `B`, and the best ones stand under their own parent hashes. -/
structure FromBids (B : BuilderBidExtended → Prop) (a : Auction) : Prop where
  maxProfit : ∀ p b, a.maxProfit.lookup p = some b → b.parentHash = p ∧ B b
  latest : ∀ k b, a.latestBlockByBuilder.lookup k = some b → B b

variable {B : BuilderBidExtended → Prop} {a : Auction} {bid : BuilderBidExtended}

theorem fromBids_empty (slot : UInt64) : (empty slot).FromBids B where
  maxProfit p b hb := by simp [empty] at hb
  latest k b hb := by simp [empty] at hb

theorem FromBids.mono (h : a.FromBids B) {B' : BuilderBidExtended → Prop} (hB : ∀ b, B b → B' b) :
    a.FromBids B' where
  maxProfit p b hb := ⟨(h.maxProfit p b hb).1, hB b (h.maxProfit p b hb).2⟩
  latest k b hb := hB b (h.latest k b hb)

/-- The latest bids after one has been entered. -/
theorem FromBids.insert_latest (h : a.FromBids B) (hbid : B bid) (k : LatestKey)
    (b : BuilderBidExtended)
    (hb : (a.latestBlockByBuilder.insert bid.latestKey bid).lookup k = some b) : B b := by
  rw [Go.lookup_insert_eq] at hb
  split at hb
  · rw [Option.some_inj] at hb
    exact hb ▸ hbid
  · exact h.latest k b hb

/-- The best bid after a call is one of the bids known to the auction, on the same parent hash. -/
theorem FromBids.bestAfter (h : a.FromBids B) (hbid : B bid) (order : LoopOrder) :
    (bestAfter order a bid).parentHash = bid.parentHash ∧ B (bestAfter order a bid) := by
  unfold Auction.bestAfter
  cases hmp : a.maxProfit.lookup bid.parentHash with
  | none => exact ⟨rfl, hbid⟩
  | some mp =>
      simp only
      split_ifs
      · exact ⟨rfl, hbid⟩
      · -- the loop ends in the bid or in one of the latest bids it has considered
        rcases List.mem_cons.1 (Go.foldl_keepMax_mem BuilderBidExtended.worth
          (considered order bid.parentHash mp.slot
            (a.latestBlockByBuilder.insert bid.latestKey bid)) bid) with hbest | hbest
        · rw [hbest]
          exact ⟨rfl, hbid⟩
        · obtain ⟨k, hk, hparent, -⟩ := mem_considered_iff.1 hbest
          exact ⟨hparent, h.insert_latest hbid k _ hk⟩
      · exact h.maxProfit _ _ hmp

/-- The body of `AddBlock` leaves bids known to the auction in the object it has locked. -/
theorem FromBids.locked (h : a.FromBids B) (hbid : B bid) (order : LoopOrder) :
    (a.addBlock order bid).locked.FromBids B := by
  by_cases hlt : bid.slot < a.slot
  · have hlocked : (a.addBlock order bid).locked = a := by simp [addBlock, hlt]
    rw [hlocked]
    exact h
  · by_cases hgt : a.slot < bid.slot
    · have hlocked : (a.addBlock order bid).locked = { a with
          maxProfit := a.maxProfit.insert bid.parentHash bid
          latestBlockByBuilder := a.latestBlockByBuilder.insert bid.latestKey bid } := by
        simp [addBlock, hlt, hgt]
      rw [hlocked]
      refine ⟨fun p b hb => ?_, h.insert_latest hbid⟩
      rw [Go.lookup_insert_eq] at hb
      split at hb
      · next hp =>
          rw [Option.some_inj] at hb
          exact hb ▸ ⟨hp.symm, hbid⟩
      · exact h.maxProfit p b hb
    · have hslot : bid.slot = a.slot :=
        UInt64.le_antisymm (UInt64.not_lt.1 hgt) (UInt64.not_lt.1 hlt)
      obtain ⟨-, hlatest, hmax⟩ := inRing_of_eq order hslot
      rw [← inRing_of_not_gt order hgt]
      refine ⟨fun p b hb => ?_, fun k b hb => ?_⟩
      · rw [hmax] at hb
        split at hb
        · next hp =>
            rw [Option.some_inj] at hb
            obtain ⟨hparent, hB⟩ := h.bestAfter hbid order
            rw [← hb, hp]
            exact ⟨hparent, hB⟩
        · exact h.maxProfit p b hb
      · rw [hlatest] at hb
        exact h.insert_latest hbid k b hb

end Auction

namespace SharedRing

/-! ### The bids in every object -/

/-- The bids that have been passed to `AddBlock`. -/
def passed (s : SharedRing) : List BuilderBidExtended := s.adds.map fun t => t.call.bid

variable {s v : SharedRing}

/-- A step passes on what has been passed before. -/
theorem passed_subset_of_step {act : Action} (h : s.step act = some v) : s.passed ⊆ v.passed := by
  rcases step_cases h with ⟨k, call, addr, a, hk, -, -, rfl⟩ | ⟨-, -, -, hsub, -⟩
  · have hmap : (s.runBody k ⟨call, .fetched addr⟩ addr a).passed = s.passed := by
      obtain ⟨hlt, hget⟩ := List.getElem?_eq_some_iff.1 hk
      unfold passed
      rw [adds_runBody]
      refine List.ext_getElem (by simp) fun i h₁ h₂ => ?_
      by_cases hi : k = i
      · subst hi
        simp [hget]
      · simp [List.getElem_set_ne hi]
    exact fun b hb => by rwa [hmap]
  · exact (hsub.map _).subset

/-- Every object holds bids passed to `AddBlock` only. -/
def FromPassed (s : SharedRing) : Prop := ∀ a ∈ s.objects, a.FromBids (· ∈ s.passed)

theorem fromPassed_init : FromPassed init := by
  intro a ha
  obtain ⟨i, rfl⟩ := List.mem_ofFn.1 ha
  exact Auction.fromBids_empty _

theorem fromPassed_step (s : SharedRing) (act : Action) (v : SharedRing) (h : FromPassed s)
    (hs : s.step act = some v) : FromPassed v := by
  have hsub := passed_subset_of_step hs
  have hold : ∀ a ∈ s.objects, a.FromBids (· ∈ v.passed) := fun a ha =>
    (h a ha).mono fun b hb => hsub hb
  rcases step_cases hs with ⟨k, call, addr, a, hk, ha, -, rfl⟩ | ⟨-, hobj, -⟩
  · have hbid : call.bid ∈ (s.runBody k ⟨call, .fetched addr⟩ addr a).passed :=
      hsub (List.mem_map.2 ⟨_, List.mem_of_getElem? hk, rfl⟩)
    have hlocked := (hold a (List.mem_of_getElem? ha)).locked hbid call.order
    have hset : ∀ c ∈ s.objects.set addr (a.addBlock call.order call.bid).locked,
        c.FromBids (· ∈ (s.runBody k ⟨call, .fetched addr⟩ addr a).passed) := by
      intro c hc
      rcases List.mem_or_eq_of_mem_set hc with hc | rfl
      · exact hold c hc
      · exact hlocked
    intro c hc
    by_cases hgt : a.slot < call.bid.slot
    · rw [runBody_of_gt hgt] at hc
      rcases List.mem_append.1 hc with hc | hc
      · exact hset c hc
      · rw [List.mem_singleton.1 hc]
        exact Auction.fromBids_empty _
    · rw [runBody_of_not_gt hgt] at hc
      exact hset c hc
  · intro a ha
    rw [hobj] at ha
    exact hold a ha

/-- In every run, every object holds bids passed to `AddBlock` only. -/
theorem fromBids_run {as : List Action} {t : SharedRing}
    (hrun : Runs.run step init as = some t) : FromPassed t :=
  Runs.run_invariant step fromPassed_step fromPassed_init hrun

end SharedRing

/-! ### The answer -/

/-- The ring as a call sees it that has read the address of the auction `a`. -/
def Auction.seen (a : Auction) : Auctioneer := ⟨fun _ => a⟩

/-- What a proposer may rely on in an answer that carries `bid`. -/
structure Serves (cfg : RelayConfig) (v : BeaconView) (slot : UInt64) (parentHash : Hash)
    (pk : PublicKey) (bid : BuilderBidExtended) (resp : GetHeaderResponse) : Prop where
  slot_eq : bid.slot = slot
  parentHash_eq : bid.parentHash = parentHash
  proposer_eq : bid.proposer = pk
  header_eq : resp.data.message.header = bid.builderBid.header
  value_eq : resp.data.message.value = bid.builderBid.value
  value_ne_zero : resp.data.message.value.bigInt ≠ 0
  headSlot_le : v.headSlot ≤ slot
  fork_eq : resp.data.message.header.fork = v.fork.version slot
  pubkey_eq : resp.data.message.pubkey = cfg.pubKey

section Answer

variable {P : Primitives} {cfg : RelayConfig} {v : BeaconView}

/-- The oldest slot that is still answered is the head slot. -/
theorem minSlot_eq (v : BeaconView) : v.minSlot = v.headSlot := by
  have hone : UInt64.ofNat numberOfSlotsInState - 1 = 1 := by decide
  rw [BeaconView.minSlot, hone, UInt64.add_sub_cancel]

theorem bigInt_ofNat_zero : (U256Str.ofNat 0).bigInt = 0 := by decide

/-- The bid that answers a request has passed the filters. -/
theorem headerBid_eq_ok {a : Auctioneer} {request : HeaderRequest} {slot : UInt64}
    {bid : BuilderBidExtended} (h : headerBid cfg v a request = .ok (slot, bid)) :
    ∃ parentHash pk, request = .of slot parentHash pk ∧ v.headSlot ≤ slot ∧
      a.maxProfitBlock slot parentHash = some bid ∧ bid.parentHash = parentHash ∧
      bid.proposer = pk ∧ bid.builderBid.value.bigInt ≠ 0 := by
  obtain ⟨reqSlot, reqParentHash, reqPubkey⟩ := request
  unfold headerBid at h
  obtain ⟨reqSlot', rfl, h⟩ := exists_of_bind_eq_ok h
  obtain ⟨hhead, h⟩ := ok_of_guard h
  obtain ⟨parentHash, rfl, h⟩ := exists_of_bind_eq_ok h
  obtain ⟨pk, rfl, h⟩ := exists_of_bind_eq_ok h
  obtain ⟨-, h⟩ := ok_of_guard h
  split at h
  · cases h
  · next maxProfit hmax =>
      obtain ⟨hparent, h⟩ := ok_of_guard h
      obtain ⟨hpk, h⟩ := ok_of_guard h
      obtain ⟨hzero, h⟩ := ok_of_guard h
      obtain ⟨rfl, rfl⟩ := Prod.mk.inj (Except.ok.inj h)
      rw [minSlot_eq] at hhead
      refine ⟨parentHash, pk, rfl, UInt64.not_lt.1 hhead, hmax, not_not.1 hparent, not_not.1 hpk,
        ?_⟩
      intro hval
      exact hzero (by simp [U256Str.cmp, hval, bigInt_ofNat_zero])

/-- The relay signs the bid under its own key. -/
theorem signHeader_eq_ok {version : String} {bid : BuilderBid} {resp : GetHeaderResponse}
    (h : signHeader P cfg version bid = .ok resp) :
    resp.data.message = { bid with pubkey := cfg.pubKey } := by
  unfold signHeader at h
  dsimp only at h
  split at h
  · cases h
  · rw [← Except.ok.inj h]

/-- An answer carries the header and the value of the bid, and the header is of the fork of the
slot. -/
theorem headerAnswer_eq_ok {slot : UInt64} {bid : BuilderBidExtended} {resp : GetHeaderResponse}
    (h : headerAnswer P cfg v slot bid = .ok resp) :
    resp.data.message = { bid.builderBid with pubkey := cfg.pubKey } ∧
      bid.builderBid.header.fork = v.fork.version slot := by
  unfold headerAnswer at h
  split at h
  · next hfork hheader =>
      exact ⟨signHeader_eq_ok h, by rw [hfork, hheader, ExecutionPayloadHeader.fork]⟩
  · next hfork hheader =>
      exact ⟨signHeader_eq_ok h, by rw [hfork, hheader, ExecutionPayloadHeader.fork]⟩
  · cases h

end Answer

/-- **An answer carries a bid that was passed to `AddBlock`** for the slot, the parent hash and the
proposer of the request, whichever auction the request has read from the ring, and whenever. -/
theorem getHeader_serves (P : Primitives) (cfg : RelayConfig) (v : BeaconView)
    (cached : PayloadKey → Bool) {as : List SharedRing.Action} {s : SharedRing}
    (hrun : Runs.run SharedRing.step SharedRing.init as = some s) {a : Auction}
    (ha : a ∈ s.objects) {request : HeaderRequest} {resp : GetHeaderResponse}
    (h : (getHeader P cfg v cached a.seen request).1 = .ok resp) :
    ∃ slot parentHash pk, request = .of slot parentHash pk ∧
      ∃ bid ∈ s.passed, Serves cfg v slot parentHash pk bid resp := by
  unfold getHeader at h
  split at h
  · cases h
  · next slot bid hbid =>
      obtain ⟨parentHash, pk, hreq, hhead, hmax, hparent, hpk, hvalue⟩ := headerBid_eq_ok hbid
      obtain ⟨hmessage, hfork⟩ := headerAnswer_eq_ok h
      refine ⟨slot, parentHash, pk, hreq, bid, ?_⟩
      change Auction.maxProfitBlock a slot parentHash = some bid at hmax
      unfold Auction.maxProfitBlock at hmax
      split at hmax
      · next mp hmp =>
          split at hmax
          · next hslot =>
              rw [Option.some_inj] at hmax
              subst hmax
              exact ⟨((SharedRing.fromBids_run hrun a ha).maxProfit _ _ hmp).2, hslot, hparent, hpk,
                by rw [hmessage], by rw [hmessage], by rw [hmessage]; exact hvalue, hhead,
                by rw [hmessage]; exact hfork, by rw [hmessage]⟩
          · cases hmax
      · cases hmax

/-- Two bids for the slot `32`: the first one only opens the auction. -/
def openedThenBid : List SharedRing.Action :=
  [.addBlock ⟨Go.RangeOrder.stored, capellaBid default 5⟩, .runAdd 0,
    .addBlock ⟨Go.RangeOrder.stored, capellaBid default 7⟩, .runAdd 1]

/-- The second bid is served. -/
theorem getHeader_serves_second :
    ∃ s, Runs.run SharedRing.step SharedRing.init openedThenBid = some s ∧
      ∃ resp, (getHeader default default capellaView (fun _ => false)
          (s.entry (ringIndex 32)).seen (.of 32 default default)).1 = .ok resp ∧
        ∃ bid ∈ s.passed, Serves default capellaView 32 default default bid resp := by
  obtain ⟨s, hs, hentry, hok⟩ : ∃ s,
      Runs.run SharedRing.step SharedRing.init openedThenBid = some s ∧
      s.ring (ringIndex 32) < s.objects.length ∧
      (getHeader default default capellaView (fun _ => false)
        (s.entry (ringIndex 32)).seen (.of 32 default default)).1.isOk = true :=
    Runs.exists_run_of_any _ (by decide +kernel)
  cases hresp : (getHeader default default capellaView (fun _ => false)
      (s.entry (ringIndex 32)).seen (.of 32 default default)).1 with
  | error err =>
      rw [hresp] at hok
      cases hok
  | ok resp =>
      have hmem : s.entry (ringIndex 32) ∈ s.objects := by
        rw [SharedRing.entry, List.getD_eq_getElem?_getD, List.getElem?_eq_getElem hentry,
          Option.getD_some]
        exact List.getElem_mem hentry
      obtain ⟨slot, parentHash, pk, hreq, hserves⟩ :=
        getHeader_serves default default capellaView (fun _ => false) hs hmem hresp
      obtain ⟨rfl, rfl, rfl⟩ : slot = 32 ∧ parentHash = default ∧ pk = default := by
        simpa [HeaderRequest.of, eq_comm] using hreq
      exact ⟨s, hs, resp, hresp, hserves⟩

end Dreamboat
