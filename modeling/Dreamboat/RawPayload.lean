/-
**Finding payloads by the end of their keys.**

`src/datastore/datastore.go` stores a payload under a text that ends with its block hash, its
proposer and the decimal digits of its slot.  `GetSlotRawPayload` goes through all payloads and
takes those whose key ends in the way that the query asks for.  Which end that is depends on the
parts of the query that are set: a block hash without a proposer is not looked at, and a slot alone
is compared with the last digits of a key.

This module says when exactly the payloads that a query selects are returned: when the query has a
proposer, or when no stored slot has more digits in front of those of the query, and none has
another block hash than the one asked for.

Main definitions:

* `PayloadStore.payloadKeyKey`, `PayloadStore.putPayload`, `PayloadStore.getSlotRawPayload` — the
  code;
* `PayloadStore.Selects` — what a query asks for;
* `PayloadStore.RawRight` — exactly that is returned.

Main results:

* `PayloadStore.rawSuffix_suffix_iff` — which keys end in the way of a query;
* `PayloadStore.mem_rawEntries_iff` — what is returned;
* `PayloadStore.rawRight_iff` — **when that is what was asked for**;
* `PayloadStore.other_slot_returned` — a payload of another slot.
-/

import Mathlib.Data.Char
import Mathlib.Data.List.Lex
import Mathlib.Data.List.Sort
import Mathlib.Data.Set.List
import Dreamboat.BadgerStore

set_option autoImplicit false

namespace Dreamboat

namespace PayloadStore

open Badger (newKey toList_hexString toList_hexString_injective length_toList_hexString
  decimal_toNat_injective)
open KeyText (decimal)
open KeyedLog (lastWrite)

/-! ### The code -/

abbrev Text := List Char

/-- The texts of a block hash, a proposer and a slot, with dashes between them. -/
def payloadKeyKey (key : PayloadKey) : Text :=
  newKey ("payload-".toList ++ ((hexString key.blockHash).toList ++
    '-' :: ((hexString key.proposer).toList ++ '-' :: decimal key.slot.toNat)))

/-- The JSON of the payloads by their keys. -/
abbrev DB := Go.Map Text Text

section

variable (marshal : BlockAndTraceExtended → Except GoError Text)

/-- `PutPayload`, where `marshal` is `json.Marshal`. -/
def putPayload (db : DB) (key : PayloadKey) (payload : BlockAndTraceExtended) :
    Except GoError DB := do
  let data ← marshal payload
  return db.insert (payloadKeyKey key) data

/-- The store after some calls of `PutPayload`; one that fails stores nothing. -/
def stored (puts : List (PayloadKey × BlockAndTraceExtended)) : DB :=
  puts.foldl (fun db put => (putPayload marshal db put.1 put.2).toOption.getD db) ∅

end

/-- What the keys end with that are returned. -/
def rawSuffix (key : PayloadKey) : Text :=
  if key.blockHash ≠ Vector.replicate 32 0 ∧ key.proposer ≠ Vector.replicate 48 0 then
    (hexString key.blockHash).toList ++
      '-' :: ((hexString key.proposer).toList ++ '-' :: decimal key.slot.toNat)
  else if key.proposer ≠ Vector.replicate 48 0 then
    (hexString key.proposer).toList ++ '-' :: decimal key.slot.toNat
  else decimal key.slot.toNat

/-- The keys and values that the iterator stops at, in the order of the keys. -/
def rawEntries (db : DB) (key : PayloadKey) : List (Text × Text) :=
  let items := (db.entries.map fun e => (e.1, e.2)).insertionSort fun e e' => e.1 ≤ e'.1
  items.filter fun e => "/payload-".toList.isPrefixOf e.1 && (rawSuffix key).isSuffixOf e.1

/-- What is written for an entry. -/
def rawLine (e : Text × Text) : List Text := [e.1, "  ".toList, e.2, "\n".toList]

def getSlotRawPayload (db : DB) (key : PayloadKey) : Except GoError (List Text) :=
  if key.slot = 0 then .error (.new "wrong slot number")
  else .ok ((rawEntries db key).flatMap rawLine)

/-! ### The ends of keys -/

section

variable {n : ℕ} (v : Vector UInt8 n)

theorem dash_not_mem_hexString : '-' ∉ (hexString v).toList := by
  rw [toList_hexString]
  simp [KeyText.dash_not_mem_digits]

/-- A hexadecimal text is the end of another one of its length only if it is the same. -/
theorem hexString_suffix_iff {v w : Vector UInt8 n} :
    (hexString v).toList <:+ (hexString w).toList ↔ v = w := by
  constructor
  · intro h
    refine toList_hexString_injective (h.eq_of_length ?_)
    rw [length_toList_hexString, length_toList_hexString]
  · rintro rfl
    exact List.suffix_refl _

end

/-- The text of a key up to the dash before its block hash. -/
def keyKind : Text := ['/', 'p', 'a', 'y', 'l', 'o', 'a', 'd']

/-- The text of a key up to the dash before its slot. -/
def keyFront (key : PayloadKey) : Text :=
  keyKind ++ '-' :: ((hexString key.blockHash).toList ++ '-' :: (hexString key.proposer).toList)

theorem payloadKeyKey_eq (key : PayloadKey) :
    payloadKeyKey key = keyFront key ++ '-' :: decimal key.slot.toNat := by
  have hkind : ∀ l, newKey ("payload-".toList ++ l) = keyKind ++ '-' :: l := fun _ => rfl
  rw [payloadKeyKey, hkind, keyFront, List.append_assoc, List.cons_append, List.append_assoc,
    List.cons_append]

theorem payloadKeyKey_injective : Function.Injective payloadKeyKey := by
  intro k k' h
  rw [payloadKeyKey, payloadKeyKey, newKey, newKey, List.cons_inj_right,
    List.append_cancel_left_eq] at h
  obtain ⟨hhash, h⟩ := KeyText.append_cons_inj (dash_not_mem_hexString _)
    (dash_not_mem_hexString _) h
  obtain ⟨hproposer, hslot⟩ := KeyText.append_cons_inj (dash_not_mem_hexString _)
    (dash_not_mem_hexString _) h
  obtain ⟨blockHash, proposer, slot⟩ := k
  obtain ⟨blockHash', proposer', slot'⟩ := k'
  rw [PayloadKey.mk.injEq]
  exact ⟨toList_hexString_injective hhash, toList_hexString_injective hproposer,
    decimal_toNat_injective hslot⟩

section

variable {q key : PayloadKey}

/-- An end with digits alone. -/
theorem decimal_suffix_iff :
    decimal q.slot.toNat <:+ payloadKeyKey key ↔
      decimal q.slot.toNat <:+ decimal key.slot.toNat := by
  rw [payloadKeyKey_eq]
  exact KeyText.suffix_append_cons_iff (KeyText.dash_not_mem_decimal _)

/-- An end with a dash before the digits. -/
theorem slot_suffix_iff {front : Text} :
    front ++ '-' :: decimal q.slot.toNat <:+ payloadKeyKey key ↔
      q.slot = key.slot ∧ front <:+ keyFront key := by
  rw [payloadKeyKey_eq, KeyText.append_cons_suffix_iff (KeyText.dash_not_mem_decimal _)
    (KeyText.dash_not_mem_decimal _)]
  exact and_congr_left' decimal_toNat_injective.eq_iff

theorem proposer_suffix_iff :
    (hexString q.proposer).toList <:+ keyFront key ↔ q.proposer = key.proposer := by
  rw [keyFront, KeyText.suffix_append_cons_iff (dash_not_mem_hexString _),
    KeyText.suffix_append_cons_iff (dash_not_mem_hexString _), hexString_suffix_iff]

theorem hash_suffix_iff :
    (hexString q.blockHash).toList ++ '-' :: (hexString q.proposer).toList <:+ keyFront key ↔
      q.proposer = key.proposer ∧ q.blockHash = key.blockHash := by
  rw [keyFront, ← List.cons_append, ← List.append_assoc,
    KeyText.append_cons_suffix_iff (dash_not_mem_hexString _) (dash_not_mem_hexString _),
    KeyText.suffix_append_cons_iff (dash_not_mem_hexString _), hexString_suffix_iff]
  exact and_congr_left' toList_hexString_injective.eq_iff

/-- What a query asks for: the slot, and the parts that are set. -/
def Selects (q key : PayloadKey) : Prop :=
  key.slot = q.slot ∧ (q.blockHash ≠ Vector.replicate 32 0 → key.blockHash = q.blockHash) ∧
    (q.proposer ≠ Vector.replicate 48 0 → key.proposer = q.proposer)

instance (q key : PayloadKey) : Decidable (Selects q key) :=
  inferInstanceAs (Decidable (_ ∧ _ ∧ _))

/-- **Which keys end in the way of a query**: with a proposer those that it selects, and otherwise
those whose slot ends with the digits of its slot. -/
theorem rawSuffix_suffix_iff :
    rawSuffix q <:+ payloadKeyKey key ↔
      if q.proposer ≠ Vector.replicate 48 0 then Selects q key
      else decimal q.slot.toNat <:+ decimal key.slot.toNat := by
  unfold rawSuffix Selects
  by_cases hproposer : q.proposer ≠ Vector.replicate 48 0
  · by_cases hhash : q.blockHash ≠ Vector.replicate 32 0
    · rw [if_pos ⟨hhash, hproposer⟩, if_pos hproposer, ← List.cons_append, ← List.append_assoc,
        slot_suffix_iff, hash_suffix_iff]
      tauto
    · rw [if_neg (fun h => hhash h.1), if_pos hproposer, if_pos hproposer, slot_suffix_iff,
        proposer_suffix_iff]
      tauto
  · rw [if_neg (fun h => hproposer h.2), if_neg hproposer, if_neg hproposer, decimal_suffix_iff]

end

/-! ### What is stored -/

section

variable (marshal : BlockAndTraceExtended → Except GoError Text)
  (puts : List (PayloadKey × BlockAndTraceExtended))

/-- The JSON that is written by some calls, with the keys. -/
def written : List (PayloadKey × Text) :=
  puts.filterMap fun put => (marshal put.2).toOption.map fun data => (put.1, data)

/-- What stands under a key. -/
def storedAt (key : PayloadKey) : Option Text :=
  (lastWrite Prod.fst key (written marshal puts)).map Prod.snd

theorem stored_eq : stored marshal puts =
    (written marshal puts).foldl (fun db put => db.insert (payloadKeyKey put.1) put.2) ∅ := by
  unfold stored written
  rw [List.foldl_filterMap]
  congr 1
  funext db put
  unfold putPayload
  cases marshal put.2 with
  | error err => rfl
  | ok data => rfl

/-- **The store is a log**: under a key stands what was written last under it, and there are no
other keys. -/
theorem lookup_stored (text : Text) (data : Text) :
    (stored marshal puts).lookup text = some data ↔
      ∃ key, text = payloadKeyKey key ∧ storedAt marshal puts key = some data := by
  rw [stored_eq]
  unfold storedAt
  induction written marshal puts using List.reverseRecOn with
  | nil => simp
  | append_singleton log put ih =>
      rw [List.foldl_concat, Go.lookup_insert_eq]
      by_cases htext : text = payloadKeyKey put.1
      · rw [if_pos htext]
        constructor
        · intro h
          refine ⟨put.1, htext, ?_⟩
          rw [KeyedLog.lastWrite_concat, if_pos rfl]
          exact h
        · rintro ⟨key, hkey, h⟩
          obtain rfl : put.1 = key := payloadKeyKey_injective (htext.symm.trans hkey)
          rw [KeyedLog.lastWrite_concat, if_pos rfl] at h
          exact h
      · rw [if_neg htext, ih]
        refine exists_congr fun key => and_congr_right fun hkey => ?_
        have hne : put.1 ≠ key := fun h => htext (h ▸ hkey)
        rw [KeyedLog.lastWrite_concat, if_neg hne]

variable {marshal puts} {q : PayloadKey}

/-- The entries that are returned are those of the keys that end in the way of the query. -/
theorem mem_rawEntries_iff {text data : Text} :
    (text, data) ∈ rawEntries (stored marshal puts) q ↔
      ∃ key, text = payloadKeyKey key ∧ storedAt marshal puts key = some data ∧
        rawSuffix q <:+ payloadKeyKey key := by
  have hentry : (text, data) ∈ (stored marshal puts).entries.map (fun e => (e.1, e.2)) ↔
      (stored marshal puts).lookup text = some data := by
    rw [← Option.mem_def, AList.mem_lookup_iff, List.mem_map]
    constructor
    · rintro ⟨e, he, heq⟩
      cases heq
      exact he
    · intro he
      exact ⟨⟨text, data⟩, he, rfl⟩
  have hbegins : ∀ key, "/payload-".toList <+: payloadKeyKey key := by
    intro key
    exact List.prefix_append _ _
  simp only [rawEntries, List.mem_filter, List.mem_insertionSort, hentry, lookup_stored,
    Bool.and_eq_true, List.isPrefixOf_iff_prefix, List.isSuffixOf_iff_suffix]
  constructor
  · rintro ⟨⟨key, rfl, hkey⟩, -, hends⟩
    exact ⟨key, rfl, hkey, hends⟩
  · rintro ⟨key, rfl, hkey, hends⟩
    exact ⟨⟨key, rfl, hkey⟩, hbegins key, hends⟩

theorem nodup_rawEntries (db : DB) : (rawEntries db q).Nodup := by
  refine List.Nodup.filter _ ((List.perm_insertionSort _ _).nodup_iff.2 ?_)
  refine List.Nodup.map ?_ (List.NodupKeys.nodup db.nodupKeys)
  rintro ⟨k, v⟩ ⟨k', v'⟩ h
  cases h
  rfl

/-- What is written says which entries it is written for. -/
theorem flatMap_rawLine_injective :
    Function.Injective fun entries : List (Text × Text) => entries.flatMap rawLine := by
  intro l l' h
  induction l generalizing l' with
  | nil =>
      cases l' with
      | nil => rfl
      | cons e l' => cases h
  | cons e l ih =>
      cases l' with
      | nil => cases h
      | cons e' l' =>
          obtain ⟨k, v⟩ := e
          obtain ⟨k', v'⟩ := e'
          simp only [List.flatMap_cons, rawLine, List.cons_append, List.nil_append,
            List.cons.injEq, true_and] at h
          obtain ⟨rfl, rfl, hrest⟩ := h
          rw [ih hrest]

end

/-! ### What is returned -/

/-- The entries that the query selects are returned, each of them once, and no others. -/
def RawRight (marshal : BlockAndTraceExtended → Except GoError Text)
    (puts : List (PayloadKey × BlockAndTraceExtended)) (q : PayloadKey) : Prop :=
  ∃ entries : List (PayloadKey × Text),
    getSlotRawPayload (stored marshal puts) q =
        .ok (entries.flatMap fun e => rawLine (payloadKeyKey e.1, e.2)) ∧
      entries.Nodup ∧
      ∀ key data, (key, data) ∈ entries ↔ storedAt marshal puts key = some data ∧ Selects q key

section

variable {marshal : BlockAndTraceExtended → Except GoError Text}
  {puts : List (PayloadKey × BlockAndTraceExtended)} {q : PayloadKey}

/-- An entry, with the text of its key. -/
def textEntry (e : PayloadKey × Text) : Text × Text := (payloadKeyKey e.1, e.2)

theorem textEntry_injective : Function.Injective textEntry := by
  rintro ⟨k, v⟩ ⟨k', v'⟩ h
  simp only [textEntry, Prod.mk.injEq] at h
  obtain ⟨hkey, rfl⟩ := h
  rw [payloadKeyKey_injective hkey]

theorem mem_entries_iff {entries : List (PayloadKey × Text)}
    (h : entries.map textEntry = rawEntries (stored marshal puts) q) {key : PayloadKey}
    {data : Text} :
    (key, data) ∈ entries ↔
      storedAt marshal puts key = some data ∧ rawSuffix q <:+ payloadKeyKey key := by
  rw [← List.mem_map_of_injective textEntry_injective, h, textEntry, mem_rawEntries_iff]
  constructor
  · rintro ⟨key', hkey, hstored, hends⟩
    obtain rfl := payloadKeyKey_injective hkey
    exact ⟨hstored, hends⟩
  · rintro ⟨hstored, hends⟩
    exact ⟨key, rfl, hstored, hends⟩

/-- The right entries are returned when the ends of the stored keys tell them apart. -/
theorem rawRight_iff_ends (hslot : q.slot ≠ 0) :
    RawRight marshal puts q ↔
      ∀ key data, storedAt marshal puts key = some data →
        (rawSuffix q <:+ payloadKeyKey key ↔ Selects q key) := by
  have hlines : ∀ entries : List (PayloadKey × Text),
      (entries.flatMap fun e => rawLine (payloadKeyKey e.1, e.2)) =
        (entries.map textEntry).flatMap rawLine := by
    intro entries
    rw [List.flatMap_map]
    rfl
  constructor
  · rintro ⟨entries, hget, -, hmem⟩ key data hstored
    rw [getSlotRawPayload, if_neg hslot, hlines, Except.ok.injEq] at hget
    have hentries : (key, data) ∈ entries ↔ _ :=
      mem_entries_iff (flatMap_rawLine_injective hget).symm
    rw [hmem] at hentries
    tauto
  · intro h
    have hkeys : rawEntries (stored marshal puts) q ∈ Set.range (List.map textEntry) := by
      rw [Set.range_list_map]
      rintro ⟨text, data⟩ he
      obtain ⟨key, rfl, -, -⟩ := mem_rawEntries_iff.1 he
      exact ⟨(key, data), rfl⟩
    obtain ⟨entries, hentries⟩ := hkeys
    refine ⟨entries, ?_, ?_, ?_⟩
    · rw [getSlotRawPayload, if_neg hslot, hlines, hentries]
    · exact List.Nodup.of_map textEntry (hentries ▸ nodup_rawEntries _)
    · intro key data
      rw [mem_entries_iff hentries]
      exact and_congr_right fun hstored => h key data hstored

end

/-- No stored slot has other digits in front of those of the query, and no payload of the slot has
another block hash than the one asked for. -/
def ToldApart (marshal : BlockAndTraceExtended → Except GoError Text)
    (puts : List (PayloadKey × BlockAndTraceExtended)) (q : PayloadKey) : Prop :=
  ∀ key data, storedAt marshal puts key = some data →
    decimal q.slot.toNat <:+ decimal key.slot.toNat →
      key.slot = q.slot ∧ (q.blockHash ≠ Vector.replicate 32 0 → key.blockHash = q.blockHash)

/-- **The right entries are returned exactly when** the query has a proposer, or the digits of its
slot are enough to tell the stored payloads apart. -/
theorem rawRight_iff (marshal : BlockAndTraceExtended → Except GoError Text)
    (puts : List (PayloadKey × BlockAndTraceExtended)) (q : PayloadKey) (hslot : q.slot ≠ 0) :
    RawRight marshal puts q ↔
      q.proposer ≠ Vector.replicate 48 0 ∨ ToldApart marshal puts q := by
  rw [rawRight_iff_ends hslot]
  by_cases hproposer : q.proposer ≠ Vector.replicate 48 0
  · refine iff_of_true ?_ (.inl hproposer)
    intro key data _
    rw [rawSuffix_suffix_iff, if_pos hproposer]
  · rw [or_iff_right hproposer]
    refine forall_congr' fun key => forall_congr' fun data => forall_congr' fun _ => ?_
    have hself : key.slot = q.slot → decimal q.slot.toNat <:+ decimal key.slot.toNat := by
      intro h
      rw [h]
    rw [rawSuffix_suffix_iff, if_neg hproposer, Selects]
    tauto

/-- A payload of a slot, by the proposer of ones. -/
def payloadFor (slot : UInt64) : PayloadKey × BlockAndTraceExtended :=
  (⟨Vector.replicate 32 7, Vector.replicate 48 1, slot⟩, default)

/-- With its proposer, the payload of a slot is found. -/
theorem rawRight_iff_proposer :
    RawRight (fun _ => .ok "payload".toList) [payloadFor 5, payloadFor 15]
      ⟨Vector.replicate 32 0, Vector.replicate 48 1, 5⟩ :=
  (rawRight_iff (fun _ => .ok "payload".toList) [payloadFor 5, payloadFor 15]
    ⟨Vector.replicate 32 0, Vector.replicate 48 1, 5⟩ (by decide)).2 (.inl (by decide))

/-- **A payload of another slot**: the digits of slot 15 end with those of slot 5. -/
theorem other_slot_returned :
    getSlotRawPayload (stored (fun _ => .ok "payload".toList) [payloadFor 15])
        ⟨Vector.replicate 32 0, Vector.replicate 48 0, 5⟩ =
      .ok (rawLine (payloadKeyKey (payloadFor 15).1, "payload".toList)) ∧
    ¬RawRight (fun _ => .ok "payload".toList) [payloadFor 15]
      ⟨Vector.replicate 32 0, Vector.replicate 48 0, 5⟩ := by
  refine ⟨by decide +kernel, ?_⟩
  rw [rawRight_iff_ends (by decide)]
  intro h
  exact absurd (h (payloadFor 15).1 "payload".toList (by decide +kernel)) (by decide +kernel)

end PayloadStore

end Dreamboat
