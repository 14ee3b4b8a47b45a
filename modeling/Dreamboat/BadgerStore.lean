/-
**The evidence store on badger.**

`src/datastore/evidence/badger` keeps the traces of submissions and of deliveries in one store of
keys and values.  A trace of a submission stands under its slot, block hash and builder, and two
more entries say in which slot a block hash and a block number were submitted last.  A trace of a
delivery stands under its slot, and three more entries point at that one.  Keys are texts, and a
later write under a key replaces an earlier one.

Main definitions:

* `Badger.Key`, `Badger.Key.text` — the keys, and their texts;
* `Badger.putBuilderBlockSubmission`, `Badger.putDelivered` — the writes;
* `Badger.history` — the store after a sequence of writes.

Main results:

* `Badger.Key.text_injective` — different keys have different texts;
* `Badger.lookup_history` — **the store is a log**: under a key stands what was written last under
  it;
* `Badger.exists_key_of_lookup` — there are no other keys.
-/

import Dreamboat.Evidence
import Dreamboat.GoMap
import Dreamboat.KeyedLog
import Dreamboat.KeyText

set_option autoImplicit false

namespace Dreamboat

namespace Badger

open KeyText (decimal)
open KeyedLog (lastWrite)

/-! ### Keys -/

/-- `ds.NewKey`, for a text that is clean. -/
def newKey (text : List Char) : List Char := '/' :: text

def headerKeyContent (slot : UInt64) (blockHash builderHash : List Char) : List Char :=
  newKey ("hc/".toList ++ (decimal slot.toNat ++ '/' :: (blockHash ++ '/' :: builderHash)))

def headerHashKey (bh : Hash) : List Char := newKey ("header-hash-".toList ++ (hexString bh).toList)

def headerNumKey (bn : UInt64) : List Char := newKey ("header-num-".toList ++ decimal bn.toNat)

def deliveredKey (slot : UInt64) : List Char := newKey ("delivered-".toList ++ decimal slot.toNat)

def deliveredHashKey (bh : Hash) : List Char :=
  newKey ("delivered-hash-".toList ++ (hexString bh).toList)

def deliveredNumKey (bn : UInt64) : List Char :=
  newKey ("delivered-num-".toList ++ decimal bn.toNat)

def deliveredPubkeyKey (pk : PublicKey) : List Char :=
  newKey ("delivered-pk-".toList ++ (hexString pk).toList)

/-- What a key stands for. -/
inductive Key where
  | headerContent (slot : UInt64) (blockHash : Hash) (builder : PublicKey)
  | headerHash (bh : Hash)
  | headerNum (bn : UInt64)
  | delivered (slot : UInt64)
  | deliveredHash (bh : Hash)
  | deliveredNum (bn : UInt64)
  | deliveredPubkey (pk : PublicKey)
  deriving DecidableEq, Repr

def Key.text : Key → List Char
  | headerContent slot blockHash builder =>
      headerKeyContent slot (hexString blockHash).toList (hexString builder).toList
  | headerHash bh => headerHashKey bh
  | headerNum bn => headerNumKey bn
  | delivered slot => deliveredKey slot
  | deliveredHash bh => deliveredHashKey bh
  | deliveredNum bn => deliveredNumKey bn
  | deliveredPubkey pk => deliveredPubkeyKey pk

theorem toList_hexString {n : ℕ} (v : Vector UInt8 n) :
    (hexString v).toList = '0' :: 'x' :: Hex.digits v.toList := by
  simp [hexString, Hex.digits]

theorem length_toList_hexString {n : ℕ} (v : Vector UInt8 n) :
    (hexString v).toList.length = 2 + 2 * n := by
  rw [toList_hexString, List.length_cons, List.length_cons, Hex.length_digits, Vector.length_toList]
  omega

theorem toList_hexString_injective {n : ℕ} :
    Function.Injective fun v : Vector UInt8 n => (hexString v).toList := by
  intro v v' h
  simp only [toList_hexString, List.cons.injEq, true_and] at h
  exact Vector.toList_inj.1 (KeyText.digits_injective h)

theorem slash_not_mem_hexString {n : ℕ} (v : Vector UInt8 n) : '/' ∉ (hexString v).toList := by
  rw [toList_hexString]
  simp [KeyText.slash_not_mem_digits]

theorem decimal_toNat_injective : Function.Injective fun n : UInt64 => decimal n.toNat :=
  fun _ _ h => UInt64.toNat_inj.1 (KeyText.decimal_injective h)

/-- The digits of a slot are not the beginning of another kind of key. -/
theorem decimal_ne_of_not_isDigit {n : ℕ} {c : Char} {l : List Char} (hc : c.isDigit = false) :
    decimal n ≠ c :: l := by
  intro h
  have hdigit := KeyText.isDigit_of_mem_decimal (n := n) (h ▸ List.mem_cons_self)
  rw [hc] at hdigit
  exact Bool.false_ne_true hdigit

/-- The text of a key says which kind of key it is. -/
theorem Key.ctorIdx_eq_of_text_eq {k k' : Key} (h : k.text = k'.text) :
    k.ctorIdx = k'.ctorIdx := by
  cases k <;> cases k'
  -- The digits of a slot stand where the other keys of deliveries have a letter.
  case delivered.deliveredHash | delivered.deliveredNum | delivered.deliveredPubkey =>
    simp [text, deliveredKey, deliveredHashKey, deliveredNumKey, deliveredPubkeyKey, newKey] at h
    exact absurd h (decimal_ne_of_not_isDigit rfl)
  case deliveredHash.delivered | deliveredNum.delivered | deliveredPubkey.delivered =>
    simp [text, deliveredKey, deliveredHashKey, deliveredNumKey, deliveredPubkeyKey, newKey] at h
    exact absurd h.symm (decimal_ne_of_not_isDigit rfl)
  all_goals first
    | rfl
    | simp [text, headerKeyContent, headerHashKey, headerNumKey, deliveredKey, deliveredHashKey,
        deliveredNumKey, deliveredPubkeyKey, newKey] at h

/-- **Different keys have different texts.** -/
theorem Key.text_injective : Function.Injective Key.text := by
  intro k k' h
  have hkind := ctorIdx_eq_of_text_eq h
  cases k with
  | headerContent slot blockHash builder =>
      cases k' with
      | headerContent slot' blockHash' builder' =>
          have hrest := List.append_cancel_left (List.cons.inj h).2
          obtain ⟨hslot, hrest⟩ := KeyText.append_cons_inj (KeyText.slash_not_mem_decimal _)
            (KeyText.slash_not_mem_decimal _) hrest
          obtain ⟨hhash, hbuilder⟩ := KeyText.append_cons_inj (slash_not_mem_hexString _)
            (slash_not_mem_hexString _) hrest
          rw [decimal_toNat_injective hslot, toList_hexString_injective hhash,
            toList_hexString_injective hbuilder]
      | _ => cases hkind
  | headerHash bh =>
      cases k' with
      | headerHash bh' =>
          rw [toList_hexString_injective (List.append_cancel_left (List.cons.inj h).2)]
      | _ => cases hkind
  | headerNum bn =>
      cases k' with
      | headerNum bn' =>
          rw [decimal_toNat_injective (List.append_cancel_left (List.cons.inj h).2)]
      | _ => cases hkind
  | delivered slot =>
      cases k' with
      | delivered slot' =>
          rw [decimal_toNat_injective (List.append_cancel_left (List.cons.inj h).2)]
      | _ => cases hkind
  | deliveredHash bh =>
      cases k' with
      | deliveredHash bh' =>
          rw [toList_hexString_injective (List.append_cancel_left (List.cons.inj h).2)]
      | _ => cases hkind
  | deliveredNum bn =>
      cases k' with
      | deliveredNum bn' =>
          rw [decimal_toNat_injective (List.append_cancel_left (List.cons.inj h).2)]
      | _ => cases hkind
  | deliveredPubkey pk =>
      cases k' with
      | deliveredPubkey pk' =>
          rw [toList_hexString_injective (List.append_cancel_left (List.cons.inj h).2)]
      | _ => cases hkind

/-! ### Writes -/

/-- What stands under a key: the JSON of a trace, the bytes of a slot, or another key. -/
inductive Value where
  | trace (trace : BidTraceWithTimestamp)
  | slot (slot : UInt64)
  | key (text : List Char)
  deriving DecidableEq, Repr

abbrev DB := Go.Map (List Char) Value

/-- `PutBuilderBlockSubmission`. -/
def putBuilderBlockSubmission (db : DB) (bid : BidTraceWithTimestamp) : DB :=
  let db := db.insert (headerKeyContent bid.bidTrace.slot (hexString bid.bidTrace.blockHash).toList
    (hexString bid.bidTrace.builderPubkey).toList) (.trace bid)
  let db := db.insert (headerHashKey bid.bidTrace.blockHash) (.slot bid.bidTrace.slot)
  db.insert (headerNumKey bid.blockNumber) (.slot bid.bidTrace.slot)

/-- `PutDelivered`. -/
def putDelivered (db : DB) (slot : UInt64) (trace : DeliveredTrace) : DB :=
  let db := db.insert (deliveredHashKey trace.trace.bidTrace.blockHash) (.key (deliveredKey slot))
  let db := db.insert (deliveredNumKey trace.blockNumber) (.key (deliveredKey slot))
  let db := db.insert (deliveredPubkeyKey trace.trace.bidTrace.proposerPubkey)
    (.key (deliveredKey slot))
  db.insert (deliveredKey slot) (.trace trace.trace)

/-- The arguments of a call of `PutDelivered`. -/
structure Delivery where
  slot : UInt64
  trace : DeliveredTrace
  deriving DecidableEq, Repr

inductive Write where
  | submission (bid : BidTraceWithTimestamp)
  | delivery (d : Delivery)
  deriving DecidableEq, Repr

def write (db : DB) : Write → DB
  | .submission bid => putBuilderBlockSubmission db bid
  | .delivery d => putDelivered db d.slot d.trace

/-- The store after a sequence of writes. -/
def history (ws : List Write) : DB := ws.foldl write ∅

def Write.submission? : Write → Option BidTraceWithTimestamp
  | .submission bid => some bid
  | .delivery _ => none

def Write.delivery? : Write → Option Delivery
  | .submission _ => none
  | .delivery d => some d

def submissions (ws : List Write) : List BidTraceWithTimestamp := ws.filterMap Write.submission?

def deliveries (ws : List Write) : List Delivery := ws.filterMap Write.delivery?

def Delivery.blockHash (d : Delivery) : Hash := d.trace.trace.bidTrace.blockHash

def Delivery.blockNumber (d : Delivery) : UInt64 := d.trace.blockNumber

def Delivery.proposer (d : Delivery) : PublicKey := d.trace.trace.bidTrace.proposerPubkey

def slotOf (t : BidTraceWithTimestamp) : UInt64 := t.bidTrace.slot

def blockHashOf (t : BidTraceWithTimestamp) : Hash := t.bidTrace.blockHash

/-- The slot, block hash and builder of a trace. -/
def contentOf (t : BidTraceWithTimestamp) : UInt64 × Hash × PublicKey :=
  (t.bidTrace.slot, t.bidTrace.blockHash, t.bidTrace.builderPubkey)

/-! ### The store as a log -/

/-- The entries that a write makes, in their order. -/
def Write.entries : Write → List (Key × Value)
  | .submission bid =>
      [(.headerContent bid.bidTrace.slot bid.bidTrace.blockHash bid.bidTrace.builderPubkey,
          .trace bid),
        (.headerHash bid.bidTrace.blockHash, .slot bid.bidTrace.slot),
        (.headerNum bid.blockNumber, .slot bid.bidTrace.slot)]
  | .delivery d =>
      [(.deliveredHash d.trace.trace.bidTrace.blockHash, .key (deliveredKey d.slot)),
        (.deliveredNum d.trace.blockNumber, .key (deliveredKey d.slot)),
        (.deliveredPubkey d.trace.trace.bidTrace.proposerPubkey, .key (deliveredKey d.slot)),
        (.delivered d.slot, .trace d.trace.trace)]

def insertEntry (db : DB) (e : Key × Value) : DB := db.insert e.1.text e.2

theorem history_eq_foldl (ws : List Write) :
    history ws = (ws.flatMap Write.entries).foldl insertEntry ∅ := by
  have hwrite : ∀ (db : DB) (w : Write), write db w = w.entries.foldl insertEntry db := by
    intro db w
    cases w <;> rfl
  rw [history, List.foldl_flatMap]
  congr 1
  funext db w
  exact hwrite db w

/-- Under a key stands what was written last under it. -/
theorem lookup_foldl_insertEntry (entries : List (Key × Value)) (k : Key) :
    (entries.foldl insertEntry ∅).lookup k.text = (lastWrite Prod.fst k entries).map Prod.snd := by
  induction entries using List.reverseRecOn with
  | nil => rfl
  | append_singleton entries e ih =>
      rw [List.foldl_concat, KeyedLog.lastWrite_concat, insertEntry, Go.lookup_insert_eq]
      by_cases h : e.1 = k
      · rw [if_pos h, if_pos (by rw [h])]
        rfl
      · rw [if_neg h, if_neg fun htext => h (Key.text_injective htext).symm]
        exact ih

/-- There are no keys but those that were written. -/
theorem exists_key_of_lookup {ws : List Write} {text : List Char} {v : Value}
    (h : (history ws).lookup text = some v) : ∃ k : Key, text = k.text := by
  rw [history_eq_foldl] at h
  generalize ws.flatMap Write.entries = entries at h
  induction entries using List.reverseRecOn with
  | nil => cases h
  | append_singleton entries e ih =>
      rw [List.foldl_concat, insertEntry, Go.lookup_insert_eq] at h
      split at h
      · next htext => exact ⟨e.1, htext⟩
      · exact ih h

/-- What a kind of write puts under a key. -/
def entryAt {β κ : Type} [DecidableEq κ] (key : β → κ) (entry : β → Key × Value) (x : κ) :
    Option β → List (Key × Value)
  | none => []
  | some b => if key b = x then [entry b] else []

/-- **The store is a log**: under a key stands what was written last of the kind that the key is
for. -/
theorem lookup_history {β κ : Type} [DecidableEq κ] {sel : Write → Option β} {key : β → κ}
    (entry : β → Key × Value) {k : Key} {x : κ}
    (h : ∀ w : Write, w.entries.filter (fun e => e.1 = k) = entryAt key entry x (sel w))
    (ws : List Write) : (history ws).lookup k.text =
      (lastWrite key x (ws.filterMap sel)).map fun b => (entry b).2 := by
  have hfilter : (ws.flatMap Write.entries).filter (fun e => e.1 = k) =
      ((ws.filterMap sel).filter fun b => key b = x).map entry := by
    induction ws with
    | nil => rfl
    | cons w ws ih =>
        rw [List.flatMap_cons, List.filter_append, h, ih, List.filterMap_cons]
        cases sel w with
        | none => rfl
        | some b =>
            by_cases hb : key b = x
            · simp [entryAt, hb]
            · simp [entryAt, hb]
  rw [history_eq_foldl, lookup_foldl_insertEntry, lastWrite, hfilter, List.getLast?_map,
    Option.map_map]
  rfl

section

variable (ws : List Write)

theorem lookup_headerContent (slot : UInt64) (blockHash : Hash) (builder : PublicKey) :
    (history ws).lookup (Key.headerContent slot blockHash builder).text =
      (lastWrite contentOf (slot, blockHash, builder) (submissions ws)).map .trace := by
  refine lookup_history (fun t => (.headerContent t.bidTrace.slot t.bidTrace.blockHash
    t.bidTrace.builderPubkey, .trace t)) (fun w => ?_) ws
  cases w with
  | submission bid =>
      simp [Write.entries, Write.submission?, entryAt, contentOf, List.filter_cons]
  | delivery d => rfl

theorem lookup_headerHash (bh : Hash) :
    (history ws).lookup (Key.headerHash bh).text =
      (lastWrite blockHashOf bh (submissions ws)).map (.slot ∘ slotOf) := by
  refine lookup_history (fun t : BidTraceWithTimestamp =>
    (.headerHash (blockHashOf t), .slot (slotOf t))) (fun w => ?_) ws
  cases w with
  | submission bid =>
      simp [Write.entries, Write.submission?, entryAt, List.filter_cons]
      rfl
  | delivery d => rfl

theorem lookup_headerNum (bn : UInt64) :
    (history ws).lookup (Key.headerNum bn).text =
      (lastWrite BidTraceWithTimestamp.blockNumber bn (submissions ws)).map (.slot ∘ slotOf) := by
  refine lookup_history (fun t : BidTraceWithTimestamp =>
    (.headerNum t.blockNumber, .slot (slotOf t))) (fun w => ?_) ws
  cases w with
  | submission bid =>
      simp [Write.entries, Write.submission?, entryAt, List.filter_cons]
      rfl
  | delivery d => rfl

theorem lookup_delivered (slot : UInt64) :
    (history ws).lookup (Key.delivered slot).text =
      (lastWrite Delivery.slot slot (deliveries ws)).map fun d => .trace d.trace.trace := by
  refine lookup_history (fun d : Delivery => (.delivered d.slot, .trace d.trace.trace))
    (fun w => ?_) ws
  cases w with
  | submission bid => rfl
  | delivery d =>
      simp [Write.entries, Write.delivery?, entryAt, List.filter_cons]

theorem lookup_deliveredHash (bh : Hash) :
    (history ws).lookup (Key.deliveredHash bh).text =
      (lastWrite Delivery.blockHash bh (deliveries ws)).map
        fun d => .key (deliveredKey d.slot) := by
  refine lookup_history
    (fun d : Delivery => (.deliveredHash d.blockHash, .key (deliveredKey d.slot))) (fun w => ?_) ws
  cases w with
  | submission bid => rfl
  | delivery d =>
      simp [Write.entries, Write.delivery?, entryAt, List.filter_cons]
      rfl

theorem lookup_deliveredNum (bn : UInt64) :
    (history ws).lookup (Key.deliveredNum bn).text =
      (lastWrite Delivery.blockNumber bn (deliveries ws)).map
        fun d => .key (deliveredKey d.slot) := by
  refine lookup_history
    (fun d : Delivery => (.deliveredNum d.blockNumber, .key (deliveredKey d.slot))) (fun w => ?_) ws
  cases w with
  | submission bid => rfl
  | delivery d =>
      simp [Write.entries, Write.delivery?, entryAt, List.filter_cons]
      rfl

theorem lookup_deliveredPubkey (pk : PublicKey) :
    (history ws).lookup (Key.deliveredPubkey pk).text =
      (lastWrite Delivery.proposer pk (deliveries ws)).map fun d => .key (deliveredKey d.slot) := by
  refine lookup_history (fun d : Delivery =>
    (.deliveredPubkey d.proposer, .key (deliveredKey d.slot))) (fun w => ?_) ws
  cases w with
  | submission bid => rfl
  | delivery d =>
      simp [Write.entries, Write.delivery?, entryAt, List.filter_cons]
      rfl

end

end Badger

end Dreamboat
