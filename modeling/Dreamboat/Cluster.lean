/-
**Relay instances that exchange their bids.**

With `Distributed` set, `storeSubmission` adds a bid to the auction of its own instance and starts a
goroutine that publishes the bid.  A published bid goes to every other instance, where one of
several subscribers adds it to the auction there.  Nothing orders the goroutines, the deliveries or
the subscribers, so the bids of one builder may arrive in different orders, and the last one to
arrive counts as the current one.

This module follows the instances through every interleaving.  No bid is lost or doubled on the
way, so once nothing is under way all instances have added the same bids; they agree on the value
they serve as soon as, for every builder, the same bid arrived last everywhere.  A bid stands for
its encoding on the wire, and each call of `AddBlock` is one step.

Main definitions:

* `Cluster`, `Cluster.Action`, `Cluster.step` — the instances and everything they can do;
* `Cluster.Quiescent` — nothing is under way;
* `Cluster.Inv` — the auctions are those of the calls made, and all instances have the same bids
  behind and ahead of them.

Main results:

* `Cluster.inv_run` — the invariant holds in every state of every run;
* `Cluster.Inv.bids_perm_of_quiescent` — **no bid is lost or doubled**;
* `Cluster.lastBid_eq_of_once` — a builder that bids once has the same last bid everywhere;
* `Cluster.map_worth_eq` — **agreement**.
-/

import Dreamboat.AuctioneerHistory
import Dreamboat.Runs

set_option autoImplicit false

namespace Dreamboat

open KeyedLog

/-- The instances of a relay: their auctions, and the bids that are on their way. -/
structure Cluster (n : ℕ) where
  auctioneer : Fin n → Auctioneer
  /-- The calls of `AddBlock` each instance has made so far. -/
  added : Fin n → List AddCall
  /-- The bids whose goroutine has not published them yet, with the instance that publishes. -/
  publishing : List (Fin n × BuilderBidExtended)
  /-- The published bids that wait at an instance for a subscriber. -/
  inFlight : List (Fin n × BuilderBidExtended)

namespace Cluster

variable {n : ℕ}

/-- The instances at the start. -/
def init (n : ℕ) : Cluster n := ⟨fun _ => Auctioneer.new, fun _ => [], [], []⟩

/-- `AddBlock` at the instance `i`. -/
def addBlock (c : Cluster n) (i : Fin n) (call : AddCall) : Cluster n :=
  { c with
    auctioneer := Function.update c.auctioneer i ((c.auctioneer i).addBlock call).1
    added := Function.update c.added i (c.added i ++ [call]) }

/-- The end of `storeSubmission`: the bid is added to the auction of the instance, and a goroutine
is started that publishes it. -/
def addLocal (c : Cluster n) (i : Fin n) (call : AddCall) : Cluster n :=
  { c.addBlock i call with publishing := (i, call.bid) :: c.publishing }

/-- A published bid is sent to all instances but the one that publishes it. -/
def sentTo (i : Fin n) (bid : BuilderBidExtended) : List (Fin n × BuilderBidExtended) :=
  ((List.finRange n).filter fun j => j ≠ i).map fun j => (j, bid)

/-- `PublishBuilderBid`, by one of the goroutines. -/
def publish (c : Cluster n) (k : ℕ) : Option (Cluster n) := do
  let ((i, bid), publishing) ← Runs.pick c.publishing k
  return { c with publishing, inFlight := sentTo i bid ++ c.inFlight }

/-- `runSubscriberBid`: a subscriber takes a bid and adds it to the auction of its instance. -/
def consume (c : Cluster n) (k : ℕ) (order : LoopOrder) : Option (Cluster n) := do
  let ((j, bid), inFlight) ← Runs.pick c.inFlight k
  return { c.addBlock j ⟨order, bid⟩ with inFlight }

/-- What the instances can do. -/
inductive Action (n : ℕ) where
  | submit (i : Fin n) (call : AddCall)
  | publish (k : ℕ)
  | consume (k : ℕ) (order : LoopOrder)

/-- One step of the instances. -/
def step (c : Cluster n) : Action n → Option (Cluster n)
  | .submit i call => some (c.addLocal i call)
  | .publish k => c.publish k
  | .consume k order => c.consume k order

/-- Every bid has been published, and every published bid has been consumed. -/
def Quiescent (c : Cluster n) : Prop := c.publishing = [] ∧ c.inFlight = []

/-! ### No bid is lost or doubled -/

/-- The bids that an instance has still to add. -/
def pending (c : Cluster n) (j : Fin n) : List BuilderBidExtended :=
  (c.publishing.filter fun m => m.1 ≠ j).map Prod.snd ++
    (c.inFlight.filter fun m => m.1 = j).map Prod.snd

/-- The bids that an instance has added or has still to add. -/
def total (c : Cluster n) (j : Fin n) : List BuilderBidExtended :=
  Auctioneer.bids (c.added j) ++ c.pending j

/-- The invariant of the instances. -/
structure Inv (c : Cluster n) : Prop where
  /-- Every auction is the one its calls lead to. -/
  auctioneer_eq : ∀ i, c.auctioneer i = Auctioneer.new.addBlocks (c.added i)
  /-- All instances get the same bids. -/
  total_perm : ∀ i j, (c.total i).Perm (c.total j)

theorem inv_init : (init n).Inv where
  auctioneer_eq _ := rfl
  total_perm _ _ := List.Perm.refl _

theorem auctioneer_eq_addBlock {c : Cluster n}
    (h : ∀ i, c.auctioneer i = Auctioneer.new.addBlocks (c.added i)) (i : Fin n)
    (call : AddCall) (j : Fin n) :
    (c.addBlock i call).auctioneer j =
      Auctioneer.new.addBlocks ((c.addBlock i call).added j) := by
  by_cases hj : j = i
  · subst hj
    simp [addBlock, h j, Auctioneer.addBlocks_concat]
  · simp [addBlock, hj, h j]

/-- A bid that is added at one instance is ahead of every other instance. -/
theorem total_addLocal (c : Cluster n) (i : Fin n) (call : AddCall) (j : Fin n) :
    ((c.addLocal i call).total j).Perm (call.bid :: c.total j) := by
  by_cases hj : i = j
  · subst hj
    have heq : (c.addLocal i call).total i =
        Auctioneer.bids (c.added i) ++ call.bid :: c.pending i := by
      simp [total, pending, addLocal, addBlock, Auctioneer.bids]
    rw [heq]
    exact List.perm_middle
  · have hj' : j ≠ i := fun h => hj h.symm
    have heq : (c.addLocal i call).total j =
        Auctioneer.bids (c.added j) ++ call.bid :: c.pending j := by
      simp [total, pending, addLocal, addBlock, Auctioneer.bids, hj, hj']
    rw [heq]
    exact List.perm_middle

/-- Every instance but the one that publishes is sent one copy. -/
theorem filter_sentTo (i j : Fin n) (bid : BuilderBidExtended) :
    ((sentTo i bid).filter fun m => m.1 = j).map Prod.snd = if i = j then [] else [bid] := by
  have hsplit : ((sentTo i bid).filter fun m => m.1 = j).map Prod.snd =
      (((List.finRange n).filter fun x => x = j).filter fun x => x ≠ i).map fun _ => bid := by
    simp only [sentTo, List.filter_map, List.map_map, List.filter_filter, Function.comp_def]
    simp only [Bool.and_comm]
  have hone : ((List.finRange n).filter fun x => x = j) = [j] := by
    have h := List.filter_eq (l := List.finRange n) j
    rw [List.count_eq_one_of_mem (List.nodup_finRange n) (List.mem_finRange j)] at h
    exact h
  rw [hsplit, hone]
  by_cases hij : i = j
  · simp [hij]
  · simp [hij, Ne.symm hij]

theorem publish_eq_some {c c' : Cluster n} {k : ℕ} (h : c.publish k = some c') :
    ∃ i bid rest, Runs.pick c.publishing k = some ((i, bid), rest) ∧
      c' = { c with publishing := rest, inFlight := sentTo i bid ++ c.inFlight } := by
  obtain ⟨⟨⟨i, bid⟩, rest⟩, hpick, h⟩ := Option.bind_eq_some_iff.1 h
  exact ⟨i, bid, rest, hpick, (Option.some_inj.1 h).symm⟩

theorem consume_eq_some {c c' : Cluster n} {k : ℕ} {order : LoopOrder}
    (h : c.consume k order = some c') :
    ∃ j bid rest, Runs.pick c.inFlight k = some ((j, bid), rest) ∧
      c' = { c.addBlock j ⟨order, bid⟩ with inFlight := rest } := by
  obtain ⟨⟨⟨j, bid⟩, rest⟩, hpick, h⟩ := Option.bind_eq_some_iff.1 h
  exact ⟨j, bid, rest, hpick, (Option.some_inj.1 h).symm⟩

/-- Publishing a bid leaves it ahead of the same instances. -/
theorem total_publish {c c' : Cluster n} {k : ℕ} (h : c.publish k = some c') (j : Fin n) :
    (c'.total j).Perm (c.total j) := by
  obtain ⟨i, bid, rest, hpick, rfl⟩ := publish_eq_some h
  have hperm := ((Runs.perm_of_pick hpick).filter fun m => decide (m.1 ≠ j)).map Prod.snd
  refine List.Perm.append_left _ ?_
  refine List.Perm.trans ?_ (hperm.symm.append_right _)
  simp only [pending, List.filter_append, List.map_append, filter_sentTo]
  by_cases hij : i = j
  · simp [hij]
  · simp [hij]

/-- A bid that is consumed is no longer ahead of its instance. -/
theorem total_consume {c c' : Cluster n} {k : ℕ} {order : LoopOrder}
    (h : c.consume k order = some c') (j : Fin n) : (c'.total j).Perm (c.total j) := by
  obtain ⟨i, bid, rest, hpick, rfl⟩ := consume_eq_some h
  have hperm := ((Runs.perm_of_pick hpick).filter fun m => decide (m.1 = j)).map Prod.snd
  have hpending : (c.pending j).Perm
      ((c.publishing.filter fun m => m.1 ≠ j).map Prod.snd ++
        (((i, bid) :: rest).filter fun m => m.1 = j).map Prod.snd) := hperm.append_left _
  refine List.Perm.trans ?_ (hpending.symm.append_left _)
  by_cases hij : i = j
  · subst hij
    have hleft : total { c.addBlock i ⟨order, bid⟩ with inFlight := rest } i =
        Auctioneer.bids (c.added i) ++ bid :: pending { c with inFlight := rest } i := by
      simp [total, pending, addBlock, Auctioneer.bids]
    rw [hleft]
    refine List.Perm.append_left _ ?_
    simpa [pending] using List.perm_middle.symm
  · have hij' : j ≠ i := fun h => hij h.symm
    simp [total, pending, addBlock, hij, hij']

/-- One step keeps the invariant. -/
theorem Inv.step {c c' : Cluster n} {a : Action n} (h : c.Inv) (hs : c.step a = some c') :
    c'.Inv := by
  cases a with
  | submit i call =>
      obtain rfl : c.addLocal i call = c' := Option.some_inj.1 hs
      refine ⟨auctioneer_eq_addBlock h.auctioneer_eq i call, fun i' j => ?_⟩
      exact (total_addLocal c i call i').trans
        (((h.total_perm i' j).cons _).trans (total_addLocal c i call j).symm)
  | publish k =>
      refine ⟨?_, fun i j => ?_⟩
      · obtain ⟨i, bid, rest, -, rfl⟩ := publish_eq_some hs
        exact h.auctioneer_eq
      · exact (total_publish hs i).trans ((h.total_perm i j).trans (total_publish hs j).symm)
  | consume k order =>
      refine ⟨?_, fun i j => ?_⟩
      · obtain ⟨j, bid, rest, -, rfl⟩ := consume_eq_some hs
        exact auctioneer_eq_addBlock h.auctioneer_eq j ⟨order, bid⟩
      · exact (total_consume hs i).trans ((h.total_perm i j).trans (total_consume hs j).symm)

/-- **The invariant holds in every state of every run.** -/
theorem inv_run {c : Cluster n} {as : List (Action n)}
    (hrun : Runs.run Cluster.step (init n) as = some c) : c.Inv :=
  Runs.run_invariant Cluster.step (fun _ _ _ h hs => h.step hs) inv_init hrun

/-- **No bid is lost or doubled**: once nothing is under way, all instances have added the same
bids. -/
theorem Inv.bids_perm_of_quiescent {c : Cluster n} (h : c.Inv) (hq : c.Quiescent) (i j : Fin n) :
    (Auctioneer.bids (c.added i)).Perm (Auctioneer.bids (c.added j)) := by
  have hnil : ∀ i, c.pending i = [] := fun i => by simp [pending, hq.1, hq.2]
  have hperm := h.total_perm i j
  rw [total, total, hnil, hnil, List.append_nil, List.append_nil] at hperm
  exact hperm

/-! ### Where the bids come from -/

/-- All bids that an instance has added, publishes or is sent have the property `Q`. -/
structure All (Q : BuilderBidExtended → Prop) (c : Cluster n) : Prop where
  added : ∀ i, ∀ call ∈ c.added i, Q call.bid
  publishing : ∀ m ∈ c.publishing, Q m.2
  inFlight : ∀ m ∈ c.inFlight, Q m.2

namespace All

variable {Q Q' : BuilderBidExtended → Prop} {c c' : Cluster n}

theorem init (n : ℕ) : All Q (Cluster.init n) where
  added _ _ h := by cases h
  publishing _ h := by cases h
  inFlight _ h := by cases h

theorem mono (h : All Q c) (hQ : ∀ b, Q b → Q' b) : All Q' c where
  added i call hcall := hQ _ (h.added i call hcall)
  publishing m hm := hQ _ (h.publishing m hm)
  inFlight m hm := hQ _ (h.inFlight m hm)

theorem addBlock (h : All Q c) (i : Fin n) {call : AddCall} (hcall : Q call.bid) :
    All Q (c.addBlock i call) where
  added j call' hmem := by
    by_cases hj : j = i
    · subst hj
      simp only [Cluster.addBlock, Function.update_self, List.mem_append,
        List.mem_singleton] at hmem
      rcases hmem with hmem | rfl
      · exact h.added j call' hmem
      · exact hcall
    · simp only [Cluster.addBlock, Function.update_of_ne hj] at hmem
      exact h.added j call' hmem
  publishing := h.publishing
  inFlight := h.inFlight

theorem addLocal (h : All Q c) (i : Fin n) {call : AddCall} (hcall : Q call.bid) :
    All Q (c.addLocal i call) where
  added := (h.addBlock i hcall).added
  publishing m hm := by
    rcases List.mem_cons.1 hm with rfl | hm
    · exact hcall
    · exact h.publishing m hm
  inFlight := h.inFlight

theorem publish (h : All Q c) {k : ℕ} (hs : c.publish k = some c') : All Q c' := by
  obtain ⟨i, bid, rest, hpick, rfl⟩ := publish_eq_some hs
  have hperm := Runs.perm_of_pick hpick
  refine ⟨h.added, fun m hm => ?_, fun m hm => ?_⟩
  · exact h.publishing m (hperm.mem_iff.2 (List.mem_cons_of_mem _ hm))
  · rcases List.mem_append.1 hm with hm | hm
    · obtain ⟨j, -, rfl⟩ := List.mem_map.1 hm
      exact h.publishing (i, bid) (Runs.mem_of_pick hpick)
    · exact h.inFlight m hm

theorem consume (h : All Q c) {k : ℕ} {order : LoopOrder} (hs : c.consume k order = some c') :
    All Q c' := by
  obtain ⟨j, bid, rest, hpick, rfl⟩ := consume_eq_some hs
  have hperm := Runs.perm_of_pick hpick
  have hbid : Q bid := h.inFlight (j, bid) (Runs.mem_of_pick hpick)
  refine ⟨(h.addBlock j hbid).added, h.publishing, fun m hm => ?_⟩
  exact h.inFlight m (hperm.mem_iff.2 (List.mem_cons_of_mem _ hm))

end All

/-- A bid that an instance serves is one it has added. -/
theorem Inv.mem_added_of_maxProfitBlock {c : Cluster n} (h : c.Inv) {i : Fin n} {s : UInt64}
    {p : Hash} {b : BuilderBidExtended} (hb : (c.auctioneer i).maxProfitBlock s p = some b) :
    ∃ call ∈ c.added i, call.bid = b := by
  rw [h.auctioneer_eq i] at hb
  exact List.mem_map.1 (Auctioneer.mem_bids_of_maxProfitBlock hb)

/-! ### Agreement -/

theorem superseded_iff_of_perm {bids bids' : List BuilderBidExtended} (h : bids.Perm bids')
    (s : UInt64) : Auctioneer.Superseded bids s ↔ Auctioneer.Superseded bids' s := by
  simp only [Auctioneer.Superseded, h.mem_iff]

/-- A builder that bids at most once for a slot and a parent hash has the same last bid everywhere,
in whatever order the bids arrive. -/
theorem lastBid_eq_of_once {c : Cluster n} (h : c.Inv) (hq : c.Quiescent) {s : UInt64} {p : Hash}
    {pk : PublicKey} {i : Fin n}
    (honce : ((ofSlot s (Auctioneer.bids (c.added i))).filter
      fun b => b.latestKey = ⟨pk, p⟩).length ≤ 1) (j : Fin n) :
    Auctioneer.lastBid (Auctioneer.bids (c.added i)) s p pk =
      Auctioneer.lastBid (Auctioneer.bids (c.added j)) s p pk :=
  lastWrite_eq_of_perm _ ((h.bids_perm_of_quiescent hq i j).filter _) honce

/-- **Agreement**: once nothing is under way, two instances serve bids of the same value for a slot
and a parent hash, provided that the same bid of every builder arrived last at both and that neither
has lost the lead in a roll-over. -/
theorem map_worth_eq {c : Cluster n} (as : List (Action n))
    (hrun : Runs.run Cluster.step (init n) as = some c) (hq : c.Quiescent) (s : UInt64) (p : Hash)
    (i j : Fin n)
    (hlast : ∀ pk, Auctioneer.lastBid (Auctioneer.bids (c.added i)) s p pk =
      Auctioneer.lastBid (Auctioneer.bids (c.added j)) s p pk)
    (hi : ¬Auctioneer.LeadLost (Auctioneer.bids (c.added i)) s p)
    (hj : ¬Auctioneer.LeadLost (Auctioneer.bids (c.added j)) s p) :
    ((c.auctioneer i).maxProfitBlock s p).map BuilderBidExtended.worth =
      ((c.auctioneer j).maxProfitBlock s p).map BuilderBidExtended.worth := by
  have hinv := inv_run hrun
  have hperm := hinv.bids_perm_of_quiescent hq i j
  rw [hinv.auctioneer_eq i, hinv.auctioneer_eq j]
  by_cases hsup : Auctioneer.Superseded (Auctioneer.bids (c.added i)) s
  · rw [Auctioneer.maxProfitBlock_of_superseded hsup,
      Auctioneer.maxProfitBlock_of_superseded ((superseded_iff_of_perm hperm s).1 hsup)]
  · have hsup' := mt (superseded_iff_of_perm hperm s).2 hsup
    refine ((Auctioneer.isBest_ofSlot_iff hsup).2 hi).rank_eq
      ((Auctioneer.isBest_ofSlot_iff hsup').2 hj) ?_
    rintro ⟨pk, q⟩ hq'
    obtain rfl : q = p := hq'
    exact hlast pk

/-- A bid of one builder for the slot `1`. -/
def earlyBid (value : Nat) : BuilderBidExtended where
  builderBid := { header := default, value := U256Str.ofNat value, pubkey := default }
  proposer := default
  slot := 1

/-- A bid of another builder. -/
def otherBid (value : Nat) : BuilderBidExtended :=
  { earlyBid value with
    builderBid := { (earlyBid value).builderBid with pubkey := Vector.replicate 48 1 } }

/-- Two builders bid at one of two instances each, and each bid is consumed at the other. -/
def crossing : List (Action 2) :=
  [.submit 0 ⟨Go.RangeOrder.stored, earlyBid 10⟩, .submit 1 ⟨Go.RangeOrder.stored, otherBid 20⟩,
    .publish 0, .publish 0, .consume 0 Go.RangeOrder.stored, .consume 0 Go.RangeOrder.stored]

/-- The bids arrive in different orders, and the same value is served. -/
theorem map_worth_eq_crossing :
    ∃ c, Runs.run Cluster.step (init 2) crossing = some c ∧ c.Quiescent ∧
      Auctioneer.bids (c.added 0) = [earlyBid 10, otherBid 20] ∧
      Auctioneer.bids (c.added 1) = [otherBid 20, earlyBid 10] ∧
      ((c.auctioneer 0).maxProfitBlock 1 default).map BuilderBidExtended.worth =
        ((c.auctioneer 1).maxProfitBlock 1 default).map BuilderBidExtended.worth := by
  refine ⟨_, rfl, ⟨rfl, rfl⟩, rfl, rfl, map_worth_eq crossing rfl ⟨rfl, rfl⟩ _ _ _ _
    (fun pk => lastBid_eq_of_once (@inv_run 2 _ crossing rfl) ⟨rfl, rfl⟩ ?_ _) ?_ ?_⟩
  · change ([earlyBid 10, otherBid 20].filter fun b => b.latestKey = ⟨pk, default⟩).length ≤ 1
    have hne : (earlyBid 10).latestKey ≠ (otherBid 20).latestKey := by decide
    grind
  all_goals exact fun h => absurd h.1 (by decide)

/-- A builder lowers its bid at one of two instances; the two bids arrive at the other in the
opposite order, and the instances serve different values for ever. -/
theorem map_worth_ne_reordered :
    ∃ c, Runs.run Cluster.step (init 2)
        [.submit 0 ⟨Go.RangeOrder.stored, earlyBid 10⟩,
          .submit 0 ⟨Go.RangeOrder.stored, earlyBid 5⟩, .publish 0, .publish 0,
          .consume 1 Go.RangeOrder.stored, .consume 0 Go.RangeOrder.stored] = some c ∧
      c.Quiescent ∧
      ((c.auctioneer 0).maxProfitBlock 1 default).map BuilderBidExtended.worth = some 5 ∧
      ((c.auctioneer 1).maxProfitBlock 1 default).map BuilderBidExtended.worth = some 10 := by
  refine ⟨_, rfl, ⟨rfl, rfl⟩, ?_, ?_⟩
  · decide +kernel
  · decide +kernel

end Cluster

end Dreamboat
