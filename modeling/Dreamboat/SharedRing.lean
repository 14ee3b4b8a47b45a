/-
**Calls that share the ring of auctions.**

`AddBlock` and `MaxProfitBlock` read a pointer from the ring first and take the lock of the auction
behind that pointer afterwards.  The lock lives in the object that a bid for a newer slot takes out
of the ring, so a call may hold the lock of an auction that is no longer the one in the ring, and
it then decides by the slot of the old auction whether to put a fresh one into the ring.

Here the two steps of a call are two actions, and the auctions are objects with addresses.  An
object is allocated exactly when it is put into the ring, so the slots of the objects are the slots
that have been installed.  When every call that replaces an auction finds an older one in the ring
at that moment, the calls behave as if each had run without others in between, in the order of
their bodies; a slot is then installed once, and the bids of the live auction stay.

Main definitions:

* `SharedRing`, `SharedRing.Action`, `SharedRing.step` — the objects, the ring, the calls under way
  and what they can do;
* `SharedRing.auctioneer` — the ring as the sequential model sees it;
* `SharedRing.ReplacesOlder` — a call that replaces an auction finds an older one;
* `SharedRing.Inv` — what ties the objects, the ring and the calls together.

Main results:

* `SharedRing.step_cases` — everything a step can do;
* `SharedRing.Inv.auctioneer_runBody` — **one body does to the ring what `AddBlock` does to it
  without others in between**;
* `SharedRing.installed_once` — a slot is installed at most once, and the bids of the live auction
  stay.
-/

import Dreamboat.Auctioneer
import Dreamboat.Runs

set_option autoImplicit false

namespace Dreamboat

namespace Auction

variable (order : LoopOrder) {a : Auction} {bid : BuilderBidExtended}

/-! ### The object that has been locked -/

/-- A fresh auction is put into the ring exactly for a bid of a newer slot. -/
theorem installed_addBlock (a : Auction) (bid : BuilderBidExtended) :
    (a.addBlock order bid).installed =
      if a.slot < bid.slot then some (empty bid.slot) else none := by
  unfold addBlock
  by_cases hlt : bid.slot < a.slot
  · rw [if_pos hlt, if_neg (UInt64.lt_asymm hlt)]
  · rw [if_neg hlt]
    split
    · rfl
    · split
      · rfl
      · split
        · rfl
        · split <;> rfl

/-- The slot of an object never changes. -/
theorem slot_locked (a : Auction) (bid : BuilderBidExtended) :
    (a.addBlock order bid).locked.slot = a.slot := by
  unfold addBlock
  split
  · rfl
  · split
    · rfl
    · dsimp only
      split
      · rfl
      · split
        · rfl
        · split <;> rfl

theorem inRing_of_not_gt (h : ¬a.slot < bid.slot) :
    (a.addBlock order bid).inRing = (a.addBlock order bid).locked := by
  rw [AddResult.inRing, installed_addBlock, if_neg h, Option.getD_none]

end Auction

/-! ### The calls and their steps -/

namespace SharedRing

/-- Where a call of `AddBlock` is: it has read the address of an auction, or it has returned. -/
inductive AddStage where
  | fetched (addr : ℕ)
  | returned (newMax : Bool)

structure AddThread where
  call : AddCall
  stage : AddStage

/-- Where a call of `MaxProfitBlock` is. -/
inductive ReadStage where
  | fetched (addr : ℕ)
  | returned (bid : Option BuilderBidExtended)

structure ReadThread where
  slot : UInt64
  parentHash : Hash
  stage : ReadStage

end SharedRing

/-- The auctions that have been allocated, the addresses in the ring, and the calls. -/
structure SharedRing where
  objects : List Auction
  ring : Fin numberOfSlotsInState → ℕ
  adds : List SharedRing.AddThread
  reads : List SharedRing.ReadThread

namespace SharedRing

/-- `NewAuctioneer`. -/
def init : SharedRing where
  objects := List.ofFn Auctioneer.new.auctions
  ring i := i
  adds := []
  reads := []

inductive Action where
  /-- `AddBlock` is called and reads the ring. -/
  | addBlock (call : AddCall)
  /-- The call at place `k` runs under the lock of the auction it has read. -/
  | runAdd (k : ℕ)
  /-- `MaxProfitBlock` is called and reads the ring. -/
  | maxProfitBlock (slot : UInt64) (parentHash : Hash)
  /-- The call at place `k` runs under the lock of the auction it has read. -/
  | runRead (k : ℕ)

variable (s : SharedRing)

/-- The body of `AddBlock` in the call `t` at place `k`, on the object `a` at `addr`. -/
def runBody (k : ℕ) (t : AddThread) (addr : ℕ) (a : Auction) : SharedRing :=
  let r := a.addBlock t.call.order t.call.bid
  let objects := s.objects.set addr r.locked
  let adds := s.adds.set k ⟨t.call, .returned r.newMax⟩
  match r.installed with
  | none => { s with objects := objects, adds := adds }
  | some fresh =>
      -- the ring is written without regard to what it holds by now
      { s with
        objects := objects ++ [fresh]
        ring := Function.update s.ring (ringIndex t.call.bid.slot) objects.length
        adds := adds }

def step : Action → Option SharedRing
  | .addBlock call =>
      some { s with adds := s.adds ++ [⟨call, .fetched (s.ring (ringIndex call.bid.slot))⟩] }
  | .runAdd k =>
      match s.adds[k]? with
      | some ⟨call, .fetched addr⟩ =>
          s.objects[addr]?.map (s.runBody k ⟨call, .fetched addr⟩ addr)
      | _ => none
  | .maxProfitBlock slot parentHash =>
      some { s with
        reads := s.reads ++ [⟨slot, parentHash, .fetched (s.ring (ringIndex slot))⟩] }
  | .runRead k =>
      match s.reads[k]? with
      | some ⟨slot, parentHash, .fetched addr⟩ =>
          s.objects[addr]?.map fun a =>
            { s with
              reads := s.reads.set k
                ⟨slot, parentHash, .returned (a.maxProfitBlock slot parentHash)⟩ }
      | _ => none

/-- The slots for which an auction has been put into the ring, `NewAuctioneer` included. -/
def installed : List UInt64 := s.objects.map Auction.slot

/-- The auction in the place `i` of the ring. -/
def entry (i : Fin numberOfSlotsInState) : Auction :=
  s.objects.getD (s.ring i) (Auction.empty (UInt64.ofNat i))

/-- The ring as the sequential model sees it. -/
def auctioneer : Auctioneer := ⟨s.entry⟩

/-- The body that an action is about to run: the call, and the auction it has locked. -/
def body : Action → Option (AddCall × Auction)
  | .runAdd k =>
      match s.adds[k]? with
      | some ⟨call, .fetched addr⟩ => s.objects[addr]?.map fun a => (call, a)
      | _ => none
  | _ => none

/-- A call that is about to replace an auction finds one in the ring that is older than its bid. -/
def ReplacesOlder (a : Action) : Prop :=
  ∀ b ∈ s.body a, b.2.slot < b.1.bid.slot → (s.entry (ringIndex b.1.bid.slot)).slot < b.1.bid.slot

instance (a : Action) : Decidable (s.ReplacesOlder a) :=
  inferInstanceAs (Decidable (∀ b ∈ s.body a, _ → _))

variable {s} {v : SharedRing}

/-! ### What a step does -/

/-- **Everything a step can do**: it runs the body of a call, or it leaves the objects and the ring
alone and starts at most a call that has just read the ring. -/
theorem step_cases {act : Action} (h : s.step act = some v) :
    (∃ k call addr a, s.adds[k]? = some ⟨call, .fetched addr⟩ ∧ s.objects[addr]? = some a ∧
      s.body act = some (call, a) ∧ v = s.runBody k ⟨call, .fetched addr⟩ addr a) ∨
    (s.body act = none ∧ v.objects = s.objects ∧ v.ring = s.ring ∧
      s.adds.Sublist v.adds ∧ ∀ t ∈ v.adds, t ∈ s.adds ∨
        t.stage = .fetched (s.ring (ringIndex t.call.bid.slot))) := by
  cases act with
  | addBlock call =>
      rw [step, Option.some_inj] at h
      subst h
      refine .inr ⟨rfl, rfl, rfl, List.sublist_append_left _ _, fun t ht => ?_⟩
      rcases List.mem_append.1 ht with ht | ht
      · exact .inl ht
      · rw [List.mem_singleton.1 ht]
        exact .inr rfl
  | runAdd k =>
      simp only [step] at h
      split at h
      · next call addr hk =>
          obtain ⟨a, ha, rfl⟩ := Option.map_eq_some_iff.1 h
          refine .inl ⟨k, call, addr, a, hk, ha, ?_, rfl⟩
          simp only [body, hk, ha, Option.map_some]
      · cases h
  | maxProfitBlock slot parentHash =>
      rw [step, Option.some_inj] at h
      subst h
      exact .inr ⟨rfl, rfl, rfl, List.Sublist.refl _, fun t ht => .inl ht⟩
  | runRead k =>
      simp only [step] at h
      split at h
      · obtain ⟨a, -, rfl⟩ := Option.map_eq_some_iff.1 h
        exact .inr ⟨rfl, rfl, rfl, List.Sublist.refl _, fun t ht => .inl ht⟩
      · cases h

section Body

variable {k addr : ℕ} {t : AddThread} {a : Auction}

/-- A body that replaces the auction it has locked. -/
theorem runBody_of_gt (h : a.slot < t.call.bid.slot) :
    s.runBody k t addr a =
      { objects := s.objects.set addr (a.addBlock t.call.order t.call.bid).locked ++
          [Auction.empty t.call.bid.slot]
        ring := Function.update s.ring (ringIndex t.call.bid.slot) s.objects.length
        adds := s.adds.set k ⟨t.call, .returned (a.addBlock t.call.order t.call.bid).newMax⟩
        reads := s.reads } := by
  have hin := Auction.installed_addBlock t.call.order a t.call.bid
  rw [if_pos h] at hin
  simp only [runBody, hin, List.length_set]

/-- A body that works on the auction it has locked. -/
theorem runBody_of_not_gt (h : ¬a.slot < t.call.bid.slot) :
    s.runBody k t addr a =
      { objects := s.objects.set addr (a.addBlock t.call.order t.call.bid).locked
        ring := s.ring
        adds := s.adds.set k ⟨t.call, .returned (a.addBlock t.call.order t.call.bid).newMax⟩
        reads := s.reads } := by
  have hin := Auction.installed_addBlock t.call.order a t.call.bid
  rw [if_neg h] at hin
  simp only [runBody, hin]

/-- A body installs the slot of its bid if that is newer than the auction it has locked. -/
theorem installed_runBody (ha : s.objects[addr]? = some a) :
    (s.runBody k t addr a).installed =
      s.installed ++ if a.slot < t.call.bid.slot then [t.call.bid.slot] else [] := by
  have hset : (s.objects.set addr (a.addBlock t.call.order t.call.bid).locked).map Auction.slot =
      s.objects.map Auction.slot := by
    obtain ⟨hlt, rfl⟩ := List.getElem?_eq_some_iff.1 ha
    rw [List.map_set, Auction.slot_locked]
    refine List.ext_getElem (by simp) fun i h₁ h₂ => ?_
    by_cases hi : addr = i
    · subst hi
      simp
    · simp [List.getElem_set_ne hi]
  unfold installed
  by_cases hgt : a.slot < t.call.bid.slot
  · rw [runBody_of_gt hgt, if_pos hgt, List.map_append, hset, List.map_singleton, Auction.empty]
  · rw [runBody_of_not_gt hgt, if_neg hgt, hset, List.append_nil]

/-- What a place of the ring holds after a body. -/
theorem entry_runBody (hring : ∀ i, s.ring i < s.objects.length) (i : Fin numberOfSlotsInState) :
    (s.runBody k t addr a).entry i =
      if a.slot < t.call.bid.slot ∧ i = ringIndex t.call.bid.slot then
        Auction.empty t.call.bid.slot
      else if s.ring i = addr then (a.addBlock t.call.order t.call.bid).locked
      else s.entry i := by
  have hold : ∀ l d, ((s.objects.set addr (a.addBlock t.call.order t.call.bid).locked ++ l).getD
      (s.ring i) d) = if s.ring i = addr then (a.addBlock t.call.order t.call.bid).locked
        else s.objects.getD (s.ring i) d := by
    intro l d
    rw [List.getD_eq_getElem?_getD, List.getElem?_append_left (by simpa using hring i),
      List.getElem?_set]
    by_cases haddr : s.ring i = addr
    · rw [if_pos haddr.symm, if_pos haddr, if_pos (haddr ▸ hring i), Option.getD_some]
    · rw [if_neg (Ne.symm haddr), if_neg haddr, List.getD_eq_getElem?_getD]
  unfold entry
  by_cases hgt : a.slot < t.call.bid.slot
  · rw [runBody_of_gt hgt]
    dsimp only
    by_cases hi : i = ringIndex t.call.bid.slot
    · rw [if_pos ⟨hgt, hi⟩, ← hi, Function.update_self, List.getD_eq_getElem?_getD]
      rw [List.getElem?_append_right (by simp)]
      simp
    · rw [if_neg (fun h => hi h.2), Function.update_of_ne hi, hold]
  · rw [runBody_of_not_gt hgt, if_neg (fun h => hgt h.1)]
    simpa using hold [] (Auction.empty (UInt64.ofNat i))

theorem adds_runBody :
    (s.runBody k t addr a).adds =
      s.adds.set k ⟨t.call, .returned (a.addBlock t.call.order t.call.bid).newMax⟩ := by
  by_cases hgt : a.slot < t.call.bid.slot
  · rw [runBody_of_gt hgt]
  · rw [runBody_of_not_gt hgt]

theorem ring_lt_runBody (hring : ∀ i, s.ring i < s.objects.length) (i : Fin numberOfSlotsInState) :
    (s.runBody k t addr a).ring i < (s.runBody k t addr a).objects.length := by
  by_cases hgt : a.slot < t.call.bid.slot
  · rw [runBody_of_gt hgt]
    dsimp only
    rw [List.length_append, List.length_set, List.length_singleton]
    by_cases hi : i = ringIndex t.call.bid.slot
    · rw [hi, Function.update_self]
      exact Nat.lt_succ_self _
    · rw [Function.update_of_ne hi]
      exact Nat.lt_succ_of_lt (hring i)
  · rw [runBody_of_not_gt hgt]
    simpa using hring i

end Body

/-! ### The invariant -/

/-- What ties the objects, the ring and the calls together while every call that replaces an
auction finds an older one in the ring. -/
structure Inv (s : SharedRing) : Prop where
  ring_lt : ∀ i, s.ring i < s.objects.length
  /-- Each place of the ring holds an auction for a slot that belongs there. -/
  ringIndex_entry : ∀ i, ringIndex (s.entry i).slot = i
  /-- No slot has been installed twice. -/
  nodup : s.installed.Nodup
  /-- The ring holds the newest of the objects that belong to a place. -/
  slot_le : ∀ x ∈ s.installed, x ≤ (s.entry (ringIndex x)).slot
  /-- A call has read the address of an object that belongs to the place of its bid. -/
  fetched : ∀ t ∈ s.adds, ∀ addr, t.stage = .fetched addr →
    ∃ x, s.installed[addr]? = some x ∧ ringIndex x = ringIndex t.call.bid.slot

theorem inv_init : Inv init where
  ring_lt i := by simp [init]
  ringIndex_entry := by decide
  nodup := by decide
  slot_le x hx := by
    obtain ⟨i, rfl⟩ : ∃ i : Fin numberOfSlotsInState, UInt64.ofNat i = x := by
      simpa [installed, init, Auctioneer.new, Auction.empty] using hx
    rcases i with ⟨_ | _ | i, hi⟩
    · exact UInt64.le_refl _
    · exact UInt64.le_refl _
    · exact absurd hi (by unfold numberOfSlotsInState; omega)
  fetched t ht := by cases ht

theorem Inv.getElem?_ring (h : Inv s) (i : Fin numberOfSlotsInState) :
    s.objects[s.ring i]? = some (s.entry i) := by
  rw [entry, List.getD_eq_getElem?_getD, List.getElem?_eq_getElem (h.ring_lt i), Option.getD_some]

/-- What has been installed at an address is the slot of the object there. -/
theorem installed_getElem? {addr : ℕ} {a : Auction} (ha : s.objects[addr]? = some a) :
    s.installed[addr]? = some a.slot := by
  rw [installed, List.getElem?_map, ha, Option.map_some]

section Locked

variable {k addr : ℕ} {call : AddCall} {a : Auction}

/-- Two objects for one slot are one object. -/
theorem Inv.addr_eq (h : Inv s) {addr' : ℕ} {b : Auction} (ha : s.objects[addr]? = some a)
    (hb : s.objects[addr']? = some b) (hslot : a.slot = b.slot) : addr = addr' := by
  have h₁ := installed_getElem? ha
  have h₂ := installed_getElem? hb
  obtain ⟨hlt, -⟩ := List.getElem?_eq_some_iff.1 h₁
  exact (List.getElem?_inj hlt h.nodup).1 (by rw [h₁, h₂, hslot])

/-- An object that a call has locked is the one in the ring, or it is older than that one. -/
theorem Inv.ring_eq_or_lt (h : Inv s) (ha : s.objects[addr]? = some a)
    (hi : ringIndex a.slot = ringIndex call.bid.slot) :
    (s.ring (ringIndex call.bid.slot) = addr ∧ s.entry (ringIndex call.bid.slot) = a) ∨
      (s.ring (ringIndex call.bid.slot) ≠ addr ∧
        a.slot < (s.entry (ringIndex call.bid.slot)).slot) := by
  have hget := h.getElem?_ring (ringIndex call.bid.slot)
  by_cases haddr : s.ring (ringIndex call.bid.slot) = addr
  · rw [haddr, ha, Option.some_inj] at hget
    exact .inl ⟨haddr, hget.symm⟩
  · refine .inr ⟨haddr, ?_⟩
    have hle := h.slot_le a.slot (List.mem_of_getElem? (installed_getElem? ha))
    rw [hi] at hle
    rcases UInt64.lt_or_eq_of_le hle with hlt | heq
    · exact hlt
    · exact absurd (h.addr_eq ha hget heq).symm haddr

/-- **One body does to the ring what `AddBlock` does to it without others in between.** -/
theorem Inv.auctioneer_runBody (h : Inv s) (ha : s.objects[addr]? = some a)
    (hi : ringIndex a.slot = ringIndex call.bid.slot)
    (hold : a.slot < call.bid.slot → (s.entry (ringIndex call.bid.slot)).slot < call.bid.slot) :
    (s.runBody k ⟨call, .fetched addr⟩ addr a).auctioneer = (s.auctioneer.addBlock call).1 := by
  refine congrArg Auctioneer.mk (funext fun j => ?_)
  rw [entry_runBody h.ring_lt]
  dsimp only
  by_cases hj : j = ringIndex call.bid.slot
  · subst hj
    rw [Function.update_self]
    by_cases hgt : a.slot < call.bid.slot
    · rw [if_pos ⟨hgt, rfl⟩]
      exact (Auction.inRing_of_gt _ (hold hgt)).symm
    · rw [if_neg (fun h => hgt h.1)]
      rcases h.ring_eq_or_lt ha hi with ⟨haddr, hentry⟩ | ⟨haddr, hlt⟩
      · rw [if_pos haddr]
        simp only [auctioneer, hentry]
        exact (Auction.inRing_of_not_gt _ hgt).symm
      · -- the bid is too old for the auction in the ring
        rw [if_neg haddr]
        exact (Auction.inRing_of_lt _ (UInt64.lt_of_le_of_lt (UInt64.not_lt.1 hgt) hlt)).symm
  · rw [Function.update_of_ne hj, if_neg (fun h => hj h.2), if_neg]
    · rfl
    · -- the locked object belongs to another place
      intro haddr
      have hget := h.getElem?_ring j
      rw [haddr, ha, Option.some_inj] at hget
      exact hj (by rw [← hi, hget, h.ringIndex_entry])

/-- The slot of a place of the ring never goes back. -/
theorem Inv.slot_entry_le (h : Inv s) (ha : s.objects[addr]? = some a)
    (hi : ringIndex a.slot = ringIndex call.bid.slot)
    (hold : a.slot < call.bid.slot → (s.entry (ringIndex call.bid.slot)).slot < call.bid.slot)
    (i : Fin numberOfSlotsInState) :
    (s.entry i).slot ≤ ((s.runBody k ⟨call, .fetched addr⟩ addr a).entry i).slot := by
  change (s.auctioneer.auctions i).slot ≤
    ((s.runBody k ⟨call, .fetched addr⟩ addr a).auctioneer.auctions i).slot
  rw [h.auctioneer_runBody ha hi hold]
  by_cases hj : i = ringIndex call.bid.slot
  · rw [hj, Auctioneer.addBlock_auctions_self]
    exact Auction.slot_le_inRing _ _ _
  · rw [Auctioneer.addBlock_auctions_of_ne _ _ hj]
    exact UInt64.le_refl _

/-- The object that a call has locked belongs to the place of its bid. -/
theorem Inv.ringIndex_locked (h : Inv s) (hk : s.adds[k]? = some ⟨call, .fetched addr⟩)
    (ha : s.objects[addr]? = some a) : ringIndex a.slot = ringIndex call.bid.slot := by
  obtain ⟨x, hx, hxi⟩ := h.fetched _ (List.mem_of_getElem? hk) addr rfl
  rw [installed_getElem? ha, Option.some_inj] at hx
  rw [hx, hxi]

/-- What is put into the ring is newer than everything installed for its place so far. -/
theorem Inv.nodup_concat (h : Inv s) {x : UInt64} (hx : (s.entry (ringIndex x)).slot < x) :
    (s.installed ++ [x]).Nodup := by
  refine List.nodup_append.2 ⟨h.nodup, List.nodup_singleton _, ?_⟩
  intro y hy z hz hyz
  rw [List.mem_singleton] at hz
  subst hz
  have hle := h.slot_le y hy
  rw [hyz] at hle
  exact UInt64.lt_irrefl _ (UInt64.lt_of_le_of_lt hle hx)

/-- A body keeps the invariant. -/
theorem Inv.runBody (h : Inv s) (hk : s.adds[k]? = some ⟨call, .fetched addr⟩)
    (ha : s.objects[addr]? = some a)
    (hold : a.slot < call.bid.slot → (s.entry (ringIndex call.bid.slot)).slot < call.bid.slot) :
    Inv (s.runBody k ⟨call, .fetched addr⟩ addr a) := by
  have hi := h.ringIndex_locked hk ha
  have hinst := installed_runBody (k := k) (t := ⟨call, .fetched addr⟩) ha
  refine ⟨ring_lt_runBody h.ring_lt, fun i => ?_, ?_, fun x hx => ?_, fun t ht addr' hstage => ?_⟩
  · rw [entry_runBody h.ring_lt]
    split
    · next hc => exact hc.2.symm
    · split
      · next hc haddr =>
          have hget := h.getElem?_ring i
          rw [haddr, ha, Option.some_inj] at hget
          rw [Auction.slot_locked, hget, h.ringIndex_entry]
      · exact h.ringIndex_entry i
  · rw [hinst]
    split
    · next hgt => exact h.nodup_concat (hold hgt)
    · rw [List.append_nil]
      exact h.nodup
  · rw [hinst] at hx
    rcases List.mem_append.1 hx with hx | hx
    · exact UInt64.le_trans (h.slot_le x hx) (h.slot_entry_le ha hi hold _)
    · split at hx
      · next hgt =>
          rw [List.mem_singleton] at hx
          rw [entry_runBody h.ring_lt, if_pos ⟨hgt, by rw [hx]⟩, hx]
          exact UInt64.le_refl _
      · cases hx
  · rw [adds_runBody] at ht
    rcases List.mem_or_eq_of_mem_set ht with ht | rfl
    · obtain ⟨x, hx, hxi⟩ := h.fetched t ht addr' hstage
      obtain ⟨hlt, -⟩ := List.getElem?_eq_some_iff.1 hx
      exact ⟨x, by rw [hinst, List.getElem?_append_left hlt, hx], hxi⟩
    · cases hstage

end Locked

/-- A step keeps the invariant. -/
theorem inv_step (s : SharedRing) (act : Action) (v : SharedRing) (h : Inv s)
    (hC : s.ReplacesOlder act) (hs : s.step act = some v) : Inv v := by
  rcases step_cases hs with ⟨k, call, addr, a, hk, ha, hbody, rfl⟩ | ⟨-, hobj, hring, -, hadds⟩
  · exact h.runBody hk ha (hC (call, a) hbody)
  · have hinst : v.installed = s.installed := by rw [installed, hobj, installed]
    have hentry : v.entry = s.entry := by
      funext i
      rw [entry, hobj, hring, entry]
    refine ⟨?_, ?_, ?_, ?_, fun t ht addr hstage => ?_⟩
    · rw [hobj, hring]
      exact h.ring_lt
    · rw [hentry]
      exact h.ringIndex_entry
    · rw [hinst]
      exact h.nodup
    · rw [hinst, hentry]
      exact h.slot_le
    · rw [hinst]
      rcases hadds t ht with ht | ht
      · exact h.fetched t ht addr hstage
      · rw [ht, AddStage.fetched.injEq] at hstage
        subst hstage
        exact ⟨_, installed_getElem? (h.getElem?_ring _), h.ringIndex_entry _⟩

/-! ### A slot is installed once -/

/-- What a call for the slot of an auction may do to it: enter its bid, under its own key. -/
structure KeepsBids (bid : BuilderBidExtended) (a a' : Auction) : Prop where
  slot_eq : a'.slot = a.slot
  own : a'.latestBlockByBuilder.lookup bid.latestKey = some bid
  others : ∀ key, key ≠ bid.latestKey →
    a'.latestBlockByBuilder.lookup key = a.latestBlockByBuilder.lookup key

/-- A call for the slot of the live auction enters its bid there and keeps the others. -/
theorem Inv.keepsBids (h : Inv s) {act : Action} (hC : s.ReplacesOlder act)
    (hs : s.step act = some v) {b : AddCall × Auction} (hb : b ∈ s.body act)
    (hlive : (s.entry (ringIndex b.1.bid.slot)).slot = b.1.bid.slot) :
    KeepsBids b.1.bid (s.entry (ringIndex b.1.bid.slot)) (v.entry (ringIndex b.1.bid.slot)) := by
  rcases step_cases hs with ⟨k, call, addr, a, hk, ha, hbody, rfl⟩ | ⟨hbody, -⟩
  · obtain rfl := Option.some_inj.1 (hbody.symm.trans hb)
    have hentry := congrArg (fun A => A.auctions (ringIndex call.bid.slot))
      (h.auctioneer_runBody (k := k) ha (h.ringIndex_locked hk ha) (hC (call, a) hbody))
    rw [Auctioneer.addBlock_auctions_self] at hentry
    obtain ⟨hslot, hlatest, -⟩ := Auction.inRing_of_eq call.order hlive.symm
    refine ⟨?_, ?_, fun key hkey => ?_⟩
    · exact (congrArg Auction.slot hentry).trans hslot
    · rw [show SharedRing.entry _ _ = _ from hentry]
      exact (congrArg (AList.lookup _) hlatest).trans (AList.lookup_insert _)
    · rw [show SharedRing.entry _ _ = _ from hentry]
      exact (congrArg (AList.lookup _) hlatest).trans (AList.lookup_insert_ne hkey)
  · rw [hbody] at hb
    cases hb

/-- **A slot is installed at most once**, and a call for the slot of the live auction takes none of
its bids away, in every run in which a call that replaces an auction finds an older one. -/
theorem installed_once {as : List Action} (hC : Runs.Meets step ReplacesOlder init as) :
    (∀ u, Runs.Visits step init as u → u.installed.Nodup) ∧
    ∀ pre act post u v, as = pre ++ act :: post → Runs.run step init pre = some u →
      u.step act = some v → ∀ b ∈ u.body act,
        (u.entry (ringIndex b.1.bid.slot)).slot = b.1.bid.slot →
        KeepsBids b.1.bid (u.entry (ringIndex b.1.bid.slot))
          (v.entry (ringIndex b.1.bid.slot)) := by
  refine ⟨fun u hu => (Runs.visits_invariant_of_meets step inv_step inv_init hC hu).nodup, ?_⟩
  rintro pre act post u v rfl hpre hstep b hb hlive
  obtain ⟨hCpre, hCact⟩ := (Runs.Meets.append_iff step hpre).1 hC
  exact (Runs.run_invariant_of_meets step inv_step inv_init hCpre hpre).keepsBids hCact.1 hstep hb
    hlive

/-- A call with a bid of a builder for the slot `2`. -/
def slotTwoCall (builder : UInt8) : AddCall where
  order := Go.RangeOrder.stored
  bid :=
    { builderBid :=
        { header := default, value := U256Str.ofNat 10, pubkey := Vector.replicate 48 builder }
      proposer := default
      slot := 2 }

/-- The ring holds an auction for the slot of a call in which the builder of its bid has a bid. -/
def isLive (s : SharedRing) (call : AddCall) : Bool :=
  (s.entry (ringIndex call.bid.slot)).slot = call.bid.slot ∧
    ((s.entry (ringIndex call.bid.slot)).latestBlockByBuilder.lookup call.bid.latestKey).isSome

/-- Three calls for the slot `2`, one after the other. -/
def oneByOne : List Action :=
  [.addBlock (slotTwoCall 1), .runAdd 0, .addBlock (slotTwoCall 2), .runAdd 1,
    .addBlock (slotTwoCall 3), .runAdd 2]

/-- The bid of the second of three calls one after the other stays. -/
theorem installed_once_oneByOne :
    ∃ t, Runs.run step init oneByOne = some t ∧ t.installed.Nodup ∧
      t.isLive (slotTwoCall 2) = true := by
  obtain ⟨t, ht, hlive⟩ : ∃ t, Runs.run step init oneByOne = some t ∧
      t.isLive (slotTwoCall 2) = true := Runs.exists_run_of_any _ (by decide +kernel)
  exact ⟨t, ht, (installed_once (by decide +kernel)).1 t (Runs.visits_last step ht), hlive⟩

/-- Two calls for the slot `2` read the ring before the first of them runs; a third call, which
reads the ring after that, stores its bid in the live auction. -/
def beforeStale : List Action :=
  [.addBlock (slotTwoCall 1), .addBlock (slotTwoCall 2), .runAdd 0, .addBlock (slotTwoCall 3),
    .runAdd 2]

/-- The second of the two calls installs the slot `2` again, and the stored bid is gone. -/
theorem installed_twice :
    (∃ u, Runs.run step init beforeStale = some u ∧ u.isLive (slotTwoCall 3) = true) ∧
    ∃ v, Runs.run step init (beforeStale ++ [.runAdd 1]) = some v ∧
      v.installed = [0, 1, 2, 2] ∧ v.isLive (slotTwoCall 3) = false :=
  ⟨Runs.exists_run_of_any _ (by decide +kernel), Runs.exists_run_of_any _ (by decide +kernel)⟩

end SharedRing

end Dreamboat
