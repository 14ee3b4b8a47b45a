/-
**Asking for the traces of deliveries.**

`GetDeliveredPayloads` of `src/datastore/evidence/badger/payload.go` looks up the trace of a slot;
for a block hash, a block number or a proposer it looks up the key of the slot first.  A second
delivery for the slot replaces the trace, and the entries of the first one point at the new trace:
a query for the first block hash returns the second block.  Only the first of the filters of a query
is used.

Main definitions:

* `Badger.queryToDeliveredKey`, `Badger.getlatestDelivered`, `Badger.getDeliveredPayloads` — the
  code;
* `Badger.PayloadTraceQuery.Matches` — a trace satisfies the filters that are set;
* `Badger.ledTo` — the delivery that a query leads to.

Main results:

* `Badger.run_getDeliveredPayloads` — **a query returns the delivery it leads to**;
* `Badger.deliveredRight_iff` — a query is answered right exactly when that delivery satisfies its
  filters;
* `Badger.delivered_of_other_block` — a query for a block hash that is not.
-/

import Dreamboat.SubmissionEvidence

set_option autoImplicit false

namespace Dreamboat

namespace Badger

open KeyedLog (lastWrite)

/-! ### The code -/

structure BidTraceExtended where
  bidTrace : BidTrace
  blockNumber : UInt64
  numTx : UInt64
  deriving DecidableEq, Repr

def toBidTraceExtended (t : BidTraceWithTimestamp) : BidTraceExtended :=
  ⟨t.bidTrace, t.blockNumber, t.numTx⟩

structure PayloadTraceQuery where
  slot : UInt64
  blockHash : Hash
  blockNum : UInt64
  proposerPubkey : PublicKey
  cursor : UInt64
  limit : UInt64
  deriving DecidableEq, Repr

namespace PayloadTraceQuery

def hasSlot (q : PayloadTraceQuery) : Bool := q.slot ≠ 0

def hasBlockHash (q : PayloadTraceQuery) : Bool := q.blockHash ≠ Vector.replicate 32 0

def hasBlockNum (q : PayloadTraceQuery) : Bool := q.blockNum ≠ 0

def hasPubkey (q : PayloadTraceQuery) : Bool := q.proposerPubkey ≠ Vector.replicate 48 0

end PayloadTraceQuery

structure PayloadQuery where
  slot : UInt64
  blockHash : Hash
  blockNum : UInt64
  pubKey : PublicKey
  deriving DecidableEq, Repr

/-- A query with the zero values. -/
def PayloadQuery.zero : PayloadQuery := ⟨0, Vector.replicate 32 0, 0, Vector.replicate 48 0⟩

def Value.toKey : Value → Except GoError (List Char)
  | .key text => .ok text
  | .trace _ | .slot _ => .error errDecode

def queryToDeliveredKey (db : DB) (query : PayloadQuery) : Except GoError (List Char) :=
  if query.blockHash ≠ Vector.replicate 32 0 then do
    (← get db (deliveredHashKey query.blockHash)).toKey
  else if query.blockNum ≠ 0 then do
    (← get db (deliveredNumKey query.blockNum)).toKey
  else if query.pubKey ≠ Vector.replicate 48 0 then do
    (← get db (deliveredPubkeyKey query.pubKey)).toKey
  else .ok (deliveredKey query.slot)

def maxSlotLagPayloads : ℕ := 350

/-- The loop of `getlatestDelivered`, which is left when the slot lags by `maxSlotLagPayloads`. -/
def latestDeliveredLoop (db : DB) (start : UInt64) (limit : ℤ) :
    ℕ → UInt64 → List BidTraceExtended → Call (List BidTraceExtended)
  | 0, _, el => return el
  | n + 1, initialSlot, el =>
      match get db (deliveredKey initialSlot) with
      | .error err =>
          if err = errNotFound then
            let initialSlot := initialSlot - 1
            if start - initialSlot ≥ UInt64.ofNat maxSlotLagPayloads then return el
            else latestDeliveredLoop db start limit n initialSlot el
          else throw err
      | .ok payload =>
          match payload.toTrace with
          | .error err => throw err
          | .ok bte =>
              let el := el ++ [toBidTraceExtended bte]
              if el.length = limit then return el
              -- `el[0:limit]`
              else if el.length > limit then
                if 0 ≤ limit then return el.take limit.toNat else ExceptT.mk none
              else if start - initialSlot ≥ UInt64.ofNat maxSlotLagPayloads then return el
              else latestDeliveredLoop db start limit n (initialSlot - 1) el

def getlatestDelivered (db : DB) (start : UInt64) (limit : ℤ) : Call (List BidTraceExtended) :=
  latestDeliveredLoop db start limit (maxSlotLagPayloads + 1) start []

/-- The key of the first filter that is set, if there is one. -/
def deliveredKeyOf (db : DB) (query : PayloadTraceQuery) : Except GoError (Option (List Char)) :=
  if query.hasSlot then
    (queryToDeliveredKey db { PayloadQuery.zero with slot := query.slot }).map some
  else if query.hasBlockHash then
    (queryToDeliveredKey db { PayloadQuery.zero with blockHash := query.blockHash }).map some
  else if query.hasBlockNum then
    (queryToDeliveredKey db { PayloadQuery.zero with blockNum := query.blockNum }).map some
  else if query.hasPubkey then
    (queryToDeliveredKey db { PayloadQuery.zero with pubKey := query.proposerPubkey }).map some
  else .ok none

/-- `GetDeliveredPayloads`, with what it writes as a list. -/
def getDeliveredPayloads (db : DB) (headSlot : UInt64) (query : PayloadTraceQuery) :
    Call (List BidTraceExtended) :=
  match deliveredKeyOf db query with
  | .error err => if err = errNotFound then return [] else throw err
  | .ok none =>
      let start := if query.cursor ≠ 0 then min headSlot query.cursor else headSlot
      getlatestDelivered db start query.limit.toInt64.toInt
  | .ok (some key) =>
      match get db key with
      | .error err => if err = errNotFound then return [] else throw err
      | .ok data =>
          match data.toTrace with
          | .error err => throw err
          | .ok trace => return [toBidTraceExtended trace]

/-! ### Where a query leads -/

/-- The last delivery for a slot. -/
def lastOf (ws : List Write) (slot : UInt64) : Option Delivery :=
  lastWrite Delivery.slot slot (deliveries ws)

/-- The delivery that a query leads to: the last one of the slot, or of the slot that was delivered
last with the block hash, the block number or the proposer. -/
def ledTo (ws : List Write) (q : PayloadTraceQuery) : Option Delivery :=
  if q.hasSlot then lastOf ws q.slot
  else if q.hasBlockHash then
    (lastWrite Delivery.blockHash q.blockHash (deliveries ws)).bind fun d => lastOf ws d.slot
  else if q.hasBlockNum then
    (lastWrite Delivery.blockNumber q.blockNum (deliveries ws)).bind fun d => lastOf ws d.slot
  else if q.hasPubkey then
    (lastWrite Delivery.proposer q.proposerPubkey (deliveries ws)).bind fun d => lastOf ws d.slot
  else none

/-- What is returned for a delivery. -/
def answerOf (d : Option Delivery) : List BidTraceExtended :=
  d.toList.map fun d => toBidTraceExtended d.trace.trace

section

variable {ws : List Write} {headSlot : UInt64} {q : PayloadTraceQuery}

/-- The answer through the key of a slot. -/
theorem run_of_deliveredKey {slot : UInt64}
    (h : deliveredKeyOf (history ws) q = .ok (some (deliveredKey slot))) :
    (getDeliveredPayloads (history ws) headSlot q).run =
      some (.ok (answerOf (lastOf ws slot))) := by
  have hlookup : (history ws).lookup (deliveredKey slot) = _ := lookup_delivered ws slot
  rw [getDeliveredPayloads, h]
  simp only [get, hlookup, lastOf]
  cases lastWrite Delivery.slot slot (deliveries ws) with
  | none => rfl
  | some d => rfl

/-- The answer through an entry that has the key of a slot. -/
theorem run_of_index {key : List Char} {x : Option Delivery}
    (hlookup : (history ws).lookup key = x.map fun d => .key (deliveredKey d.slot))
    (h : deliveredKeyOf (history ws) q = (get (history ws) key >>= Value.toKey).map some) :
    (getDeliveredPayloads (history ws) headSlot q).run =
      some (.ok (answerOf (x.bind fun d => lastOf ws d.slot))) := by
  rw [get, hlookup] at h
  cases x with
  | none =>
      rw [getDeliveredPayloads, h]
      rfl
  | some d => exact run_of_deliveredKey h

/-- **A query returns the delivery it leads to.** -/
theorem run_getDeliveredPayloads (hfilter : q.hasSlot = true ∨ q.hasBlockHash = true ∨
    q.hasBlockNum = true ∨ q.hasPubkey = true) :
    (getDeliveredPayloads (history ws) headSlot q).run = some (.ok (answerOf (ledTo ws q))) := by
  by_cases hslot : q.hasSlot = true
  · rw [ledTo, if_pos hslot]
    refine run_of_deliveredKey ?_
    rw [deliveredKeyOf, if_pos hslot]
    simp [queryToDeliveredKey, PayloadQuery.zero, Except.map]
  by_cases hhash : q.hasBlockHash = true
  · rw [ledTo, if_neg hslot, if_pos hhash]
    refine run_of_index (lookup_deliveredHash ws q.blockHash) ?_
    rw [deliveredKeyOf, if_neg hslot, if_pos hhash, queryToDeliveredKey, if_pos]
    · rfl
    · simpa [PayloadTraceQuery.hasBlockHash] using hhash
  by_cases hnum : q.hasBlockNum = true
  · rw [ledTo, if_neg hslot, if_neg hhash, if_pos hnum]
    refine run_of_index (lookup_deliveredNum ws q.blockNum) ?_
    rw [deliveredKeyOf, if_neg hslot, if_neg hhash, if_pos hnum, queryToDeliveredKey, if_neg,
      if_pos]
    · rfl
    · simpa [PayloadTraceQuery.hasBlockNum] using hnum
    · simp [PayloadQuery.zero]
  have hpubkey : q.hasPubkey = true := by tauto
  rw [ledTo, if_neg hslot, if_neg hhash, if_neg hnum, if_pos hpubkey]
  refine run_of_index (lookup_deliveredPubkey ws q.proposerPubkey) ?_
  rw [deliveredKeyOf, if_neg hslot, if_neg hhash, if_neg hnum, if_pos hpubkey, queryToDeliveredKey,
    if_neg, if_neg, if_pos]
  · rfl
  · simpa [PayloadTraceQuery.hasPubkey] using hpubkey
  · simp [PayloadQuery.zero]
  · simp [PayloadQuery.zero]

end

/-! ### Queries -/

/-- The trace satisfies every filter that is set. -/
def PayloadTraceQuery.Matches (q : PayloadTraceQuery) (t : BidTraceExtended) : Prop :=
  (q.hasSlot = true → t.bidTrace.slot = q.slot) ∧
    (q.hasBlockHash = true → t.bidTrace.blockHash = q.blockHash) ∧
    (q.hasBlockNum = true → t.blockNumber = q.blockNum) ∧
    (q.hasPubkey = true → t.bidTrace.proposerPubkey = q.proposerPubkey)

instance (q : PayloadTraceQuery) (t : BidTraceExtended) : Decidable (q.Matches t) :=
  inferInstanceAs (Decidable (_ ∧ _ ∧ _ ∧ _))

/-- Every trace that is returned satisfies every filter that is set. -/
def DeliveredRight (ws : List Write) (headSlot : UInt64) (q : PayloadTraceQuery) : Prop :=
  ∀ events, (getDeliveredPayloads (history ws) headSlot q).run = some (.ok events) →
    ∀ t ∈ events, q.Matches t

/-- **A query is answered right exactly when the delivery it leads to satisfies its filters**: the
last delivery of the slot, or of the slot that was delivered last with the block hash, the block
number or the proposer. -/
theorem deliveredRight_iff (ws : List Write) (headSlot : UInt64) (q : PayloadTraceQuery) :
    DeliveredRight ws headSlot q ↔
      ∀ d, ledTo ws q = some d → q.Matches (toBidTraceExtended d.trace.trace) := by
  by_cases hfilter : q.hasSlot = true ∨ q.hasBlockHash = true ∨ q.hasBlockNum = true ∨
      q.hasPubkey = true
  · have hrun : (getDeliveredPayloads (history ws) headSlot q).run = _ :=
      run_getDeliveredPayloads hfilter
    constructor
    · intro h d hd
      refine h _ hrun _ ?_
      rw [hd]
      exact List.mem_singleton_self _
    · intro h events hevents t ht
      rw [hrun, Option.some_inj, Except.ok.injEq] at hevents
      rw [← hevents] at ht
      obtain ⟨d, hd, rfl⟩ := List.mem_map.1 ht
      exact h d (Option.mem_toList.1 hd)
  · -- a query without a filter asks for nothing in particular
    have hany : ∀ t, q.Matches t := by
      intro t
      refine ⟨fun h => ?_, fun h => ?_, fun h => ?_, fun h => ?_⟩
      all_goals exact absurd (by tauto) hfilter
    exact iff_of_true (fun _ _ t _ => hany t) fun d _ => hany _

/-- A delivery of a block. -/
def sampleDelivery (slot : UInt64) (blockHash : Hash) : Delivery where
  slot := slot
  trace := ⟨⟨{ (default : BidTrace) with slot := slot, blockHash := blockHash }, 9, 0, 0, 0⟩, 9⟩

/-- Two deliveries for one slot. -/
def twoDeliveries : List Write :=
  [.delivery (sampleDelivery 7 (Vector.replicate 32 1)),
    .delivery (sampleDelivery 7 (Vector.replicate 32 2))]

/-- A query for the block hash of the first one. -/
def firstBlock : PayloadTraceQuery := ⟨0, Vector.replicate 32 1, 0, Vector.replicate 48 0, 0, 0⟩

/-- **A query for a block hash returns another block**: two deliveries were recorded for a slot. -/
theorem delivered_of_other_block :
    (getDeliveredPayloads (history twoDeliveries) 8 firstBlock).run = some (.ok
      [toBidTraceExtended (sampleDelivery 7 (Vector.replicate 32 2)).trace.trace]) ∧
    ¬ DeliveredRight twoDeliveries 8 firstBlock := by
  have hled : ledTo twoDeliveries firstBlock = some (sampleDelivery 7 (Vector.replicate 32 2)) := by
    decide +kernel
  have hrun : (getDeliveredPayloads (history twoDeliveries) 8 firstBlock).run = _ :=
    run_getDeliveredPayloads (by decide +kernel)
  rw [hled] at hrun
  refine ⟨hrun, fun h => ?_⟩
  exact absurd (h _ hrun _ (List.mem_singleton_self _)) (by decide +kernel)

end Badger

end Dreamboat
