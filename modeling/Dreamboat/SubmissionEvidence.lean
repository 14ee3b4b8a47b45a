/-
**Asking for the traces of submissions.**

`GetBuilderBlockSubmissions` of `src/datastore/evidence/badger/blocks.go` scans the keys that begin
with a slot; for a block hash or a block number it looks up the slot first.  The slot in the
beginning of a key is a text without an end, so the scan for slot 1 runs over the slots 10 to 19,
100 to 199 and so on as well.  Only the first of the filters of a query is used, a block number
leads to all traces of a slot, and the builder is not used at all.

Main definitions:

* `Badger.getHeadersRange`, `Badger.getLatestHeaders`, `Badger.getBuilderBlockSubmissions` — the
  code;
* `Badger.SubmissionTraceQuery.Matches` — a trace satisfies the filters that are set;
* `Badger.latestTraces` — the stored traces of the slots before the head;
* `Badger.ScannedFor` — the traces that the scan for a query runs over.

Main results:

* `Badger.getHeadersRange_eq` — **a scan gives the stored traces** whose keys begin so, in their
  order;
* `Badger.getLatestHeaders_eq` — the scan over the latest slots;
* `Badger.submissionsRight_iff` — **a query is answered right exactly when the scan for it runs over
  no trace that it does not ask for**;
* `Badger.submissions_of_other_slots` — queries that are not.
-/

import Mathlib.Data.Char
import Mathlib.Data.List.Dedup
import Mathlib.Data.List.Lex
import Mathlib.Data.List.Sort
import Dreamboat.BadgerStore

set_option autoImplicit false

namespace Dreamboat

namespace Badger

open KeyText (decimal)
open KeyedLog (lastWrite)

/-! ### The code -/

structure SubmissionTraceQuery where
  slot : UInt64
  blockHash : Hash
  blockNum : UInt64
  limit : UInt64
  builderPubkey : PublicKey
  deriving DecidableEq, Repr

namespace SubmissionTraceQuery

def hasSlot (q : SubmissionTraceQuery) : Bool := q.slot ≠ 0

def hasBlockHash (q : SubmissionTraceQuery) : Bool := q.blockHash ≠ Vector.replicate 32 0

def hasBlockNum (q : SubmissionTraceQuery) : Bool := q.blockNum ≠ 0

/-- The builder is set, which the code does not ask. -/
def hasBuilderPubkey (q : SubmissionTraceQuery) : Bool := q.builderPubkey ≠ Vector.replicate 48 0

end SubmissionTraceQuery

/-- `ds.ErrNotFound`. -/
def errNotFound : GoError := .new "datastore: key not found"

/-- `DB.Get`. -/
def get (db : DB) (key : List Char) : Except GoError Value :=
  match db.lookup key with
  | some v => .ok v
  | none => .error errNotFound

/-- A value that is not the JSON of a trace, or not the bytes of a slot. -/
def errDecode : GoError := .new "invalid value"

def Value.toTrace : Value → Except GoError BidTraceWithTimestamp
  | .trace t => .ok t
  | .slot _ | .key _ => .error errDecode

def Value.toSlot : Value → Except GoError UInt64
  | .slot s => .ok s
  | .trace _ | .key _ => .error errDecode

/-- The values under the keys that begin with a text, in the order of the keys. -/
def scan (db : DB) (text : List Char) : List Value :=
  ((db.entries.filter fun e => text.isPrefixOf e.1).insertionSort fun e e' => e.1 ≤ e'.1).map (·.2)

/-- What the keys of a scan begin with. -/
def rangeStart (slot blockhash : List Char) : List Char :=
  if blockhash ≠ [] then newKey ("hc/".toList ++ (slot ++ '/' :: blockhash))
  else newKey ("hc/".toList ++ slot)

def getHeadersRange (db : DB) (slot blockhash : List Char) :
    Except GoError (List BidTraceWithTimestamp) :=
  (scan db (rangeStart slot blockhash)).mapM Value.toTrace

def getHeadersByBlockNum (db : DB) (blockNumber : UInt64) :
    Except GoError (List BidTraceWithTimestamp) := do
  let slot ← get db (headerNumKey blockNumber)
  let slot ← slot.toSlot
  getHeadersRange db (decimal slot.toNat) []

def getHeadersByBlockHash (db : DB) (hash : Hash) :
    Except GoError (List BidTraceWithTimestamp) := do
  let slot ← get db (headerHashKey hash)
  let slot ← slot.toSlot
  getHeadersRange db (decimal slot.toNat) (hexString hash).toList

def maxSlotLagBlocks : ℕ := 50

/-- A call that may panic. -/
abbrev Call := ExceptT GoError Option

/-- The loop of `getLatestHeaders`, which is left after `maxSlotLagBlocks` rounds. -/
def latestHeadersLoop (db : DB) (headSlot : UInt64) (limit : ℤ) :
    ℕ → UInt64 → List BidTraceWithTimestamp → Call (List BidTraceWithTimestamp)
  | 0, _, el => return el
  | n + 1, initialSlot, el =>
      match getHeadersRange db (decimal initialSlot.toNat) [] with
      | .error err => if err = errNotFound then return el else throw err
      | .ok events =>
          let el := el ++ events
          if el.length = limit then return el
          -- `el[0:limit]`
          else if el.length > limit then
            if 0 ≤ limit then return el.take limit.toNat else ExceptT.mk none
          else if headSlot - initialSlot ≥ UInt64.ofNat maxSlotLagBlocks then return el
          else latestHeadersLoop db headSlot limit n (initialSlot - 1) el

def getLatestHeaders (db : DB) (headSlot : UInt64) (limit : ℤ) :
    Call (List BidTraceWithTimestamp) :=
  latestHeadersLoop db headSlot limit maxSlotLagBlocks (headSlot - 1) []

/-- `GetBuilderBlockSubmissions`, with what it writes as a list. -/
def getBuilderBlockSubmissions (db : DB) (headSlot : UInt64) (query : SubmissionTraceQuery) :
    Call (List BidTraceWithTimestamp) :=
  let events : Call (List BidTraceWithTimestamp) :=
    if query.hasSlot then
      ExceptT.mk (some (getHeadersRange db (decimal query.slot.toNat) []))
    else if query.hasBlockHash then
      ExceptT.mk (some (getHeadersByBlockHash db query.blockHash))
    else if query.hasBlockNum then
      ExceptT.mk (some (getHeadersByBlockNum db query.blockNum))
    else getLatestHeaders db headSlot query.limit.toInt64.toInt
  tryCatch events fun err => if err = errNotFound then return [] else throw err

/-! ### A scan -/

/-- The trace is the last one of its slot, block hash and builder. -/
def Stored (ws : List Write) (t : BidTraceWithTimestamp) : Prop :=
  lastWrite contentOf (contentOf t) (submissions ws) = some t

instance (ws : List Write) (t : BidTraceWithTimestamp) : Decidable (Stored ws t) :=
  inferInstanceAs (Decidable (_ = _))

/-- The key of a trace. -/
def keyOf (t : BidTraceWithTimestamp) : Key :=
  .headerContent t.bidTrace.slot t.bidTrace.blockHash t.bidTrace.builderPubkey

/-- The stored traces, each once. -/
def storedTraces (ws : List Write) : List BidTraceWithTimestamp :=
  ((submissions ws).filter fun t => Stored ws t).dedup

/-- Traces in the order of their keys. -/
def byKey (l : List BidTraceWithTimestamp) : List BidTraceWithTimestamp :=
  l.insertionSort fun t t' => (keyOf t).text ≤ (keyOf t').text

/-- The entry of a trace. -/
def entryOf (t : BidTraceWithTimestamp) : (_ : List Char) × Value := ⟨(keyOf t).text, .trace t⟩

theorem entryOf_injective : Function.Injective entryOf := by
  intro t t' h
  exact Value.trace.inj (congrArg Sigma.snd h)

theorem mem_storedTraces_iff {ws : List Write} {t : BidTraceWithTimestamp} :
    t ∈ storedTraces ws ↔ Stored ws t := by
  rw [storedTraces, List.mem_dedup, List.mem_filter, decide_eq_true_eq]
  exact and_iff_right_of_imp fun h => (KeyedLog.mem_of_lastWrite contentOf h).1

/-- Lists of the same members with different keys are sorted alike. -/
theorem insertionSort_eq_of_perm {β : Type} (key : β → List Char) {l l' : List β}
    (h : l.Perm l') (hkey : ∀ b ∈ l, ∀ b' ∈ l, key b = key b' → b = b') :
    l.insertionSort (fun b b' => key b ≤ key b') = l'.insertionSort fun b b' => key b ≤ key b' := by
  have htotal : Std.Total fun b b' : β => key b ≤ key b' := ⟨fun b b' => le_total _ _⟩
  have htrans : IsTrans β fun b b' => key b ≤ key b' := ⟨fun _ _ _ => le_trans⟩
  refine List.Perm.eq_of_pairwise ?_ (List.pairwise_insertionSort _ l)
    (List.pairwise_insertionSort _ l')
    (((List.perm_insertionSort _ l).trans h).trans (List.perm_insertionSort _ l').symm)
  intro b b' hb hb' hle hle'
  have hmem : b' ∈ l := h.mem_iff.2 ((List.mem_insertionSort _).1 hb')
  exact hkey b ((List.mem_insertionSort _).1 hb) b' hmem (le_antisymm hle hle')

theorem mapM_toTrace (l : List BidTraceWithTimestamp) :
    (l.map Value.trace).mapM Value.toTrace = .ok l := by
  induction l with
  | nil => rfl
  | cons t l ih =>
      rw [List.map_cons, List.mapM_cons, ih]
      rfl

/-- Only the keys of traces begin like a scan. -/
theorem eq_headerContent_of_rangeStart {slot blockhash : List Char} {k : Key}
    (h : rangeStart slot blockhash <+: k.text) :
    ∃ s bh b, k = .headerContent s bh b := by
  have hbegins : newKey "hc/".toList <+: k.text := by
    refine List.IsPrefix.trans ?_ h
    rw [rangeStart]
    split
    · exact ⟨slot ++ '/' :: blockhash, by simp [newKey]⟩
    · exact ⟨slot, by simp [newKey]⟩
  cases k with
  | headerContent s bh b => exact ⟨s, bh, b, rfl⟩
  | _ => simp [Key.text, headerHashKey, headerNumKey, deliveredKey, deliveredHashKey,
      deliveredNumKey, deliveredPubkeyKey, newKey] at hbegins

/-- The entries that a scan runs over are those of stored traces. -/
theorem mem_entries_iff {ws : List Write} {slot blockhash : List Char}
    {e : (_ : List Char) × Value} :
    e ∈ (history ws).entries ∧ rangeStart slot blockhash <+: e.1 ↔
      ∃ t, (Stored ws t ∧ rangeStart slot blockhash <+: (keyOf t).text) ∧ entryOf t = e := by
  obtain ⟨key, v⟩ := e
  rw [← AList.mem_lookup_iff, Option.mem_def]
  constructor
  · rintro ⟨hkey, hbegins⟩
    obtain ⟨k, rfl⟩ := exists_key_of_lookup hkey
    obtain ⟨s, bh, b, rfl⟩ := eq_headerContent_of_rangeStart hbegins
    rw [lookup_headerContent] at hkey
    obtain ⟨t, ht, rfl⟩ := Option.map_eq_some_iff.1 hkey
    cases (KeyedLog.mem_of_lastWrite contentOf ht).2
    exact ⟨t, ⟨ht, hbegins⟩, rfl⟩
  · rintro ⟨t, ⟨ht, hbegins⟩, heq⟩
    cases heq
    refine ⟨?_, hbegins⟩
    rw [keyOf, lookup_headerContent]
    exact congrArg (Option.map Value.trace) ht

/-- **A scan gives the stored traces** whose keys begin so, in their order. -/
theorem getHeadersRange_eq (ws : List Write) (slot blockhash : List Char) :
    getHeadersRange (history ws) slot blockhash = .ok (byKey ((storedTraces ws).filter fun t =>
      (rangeStart slot blockhash).isPrefixOf (keyOf t).text)) := by
  have hentries : (history ws).entries.Nodup := List.NodupKeys.nodup (history ws).nodupKeys
  have htraces : (storedTraces ws).Nodup := List.nodup_dedup _
  have hperm : ((history ws).entries.filter fun e =>
      (rangeStart slot blockhash).isPrefixOf e.1).Perm (((storedTraces ws).filter fun t =>
        (rangeStart slot blockhash).isPrefixOf (keyOf t).text).map entryOf) := by
    refine (List.perm_ext_iff_of_nodup (hentries.filter _)
      ((htraces.filter _).map entryOf_injective)).2 fun e => ?_
    simp only [List.mem_map, List.mem_filter, List.isPrefixOf_iff_prefix, mem_storedTraces_iff]
    exact mem_entries_iff
  have hkey : ∀ e ∈ (history ws).entries, ∀ e' ∈ (history ws).entries, e.1 = e'.1 → e = e' :=
    fun e he e' he' h => (history ws).nodupKeys.eq_of_fst_eq he he' h
  rw [getHeadersRange, scan, insertionSort_eq_of_perm Sigma.fst hperm fun e he e' he' =>
    hkey e (List.mem_filter.1 he).1 e' (List.mem_filter.1 he').1]
  rw [byKey, ← mapM_toTrace, ← List.map_insertionSort (fun t t' => (keyOf t).text ≤ (keyOf t').text)
    (fun e e' => e.1 ≤ e'.1) entryOf _ fun _ _ _ _ => Iff.rfl, List.map_map]
  rfl

/-- A scan for a slot runs over all slots whose digits begin with its digits. -/
theorem rangeStart_slot_iff (slot : UInt64) (t : BidTraceWithTimestamp) :
    rangeStart (decimal slot.toNat) [] <+: (keyOf t).text ↔
      decimal slot.toNat <+: decimal (slotOf t).toNat := by
  rw [rangeStart, if_neg (by simp), keyOf, Key.text, headerKeyContent, newKey, newKey,
    List.cons_prefix_cons, List.prefix_append_right_inj]
  simp only [true_and]
  exact KeyText.prefix_append_cons_iff (KeyText.slash_not_mem_decimal _)

/-- A scan for a slot and a block hash. -/
theorem rangeStart_hash_iff (slot : UInt64) (hash : Hash) (t : BidTraceWithTimestamp) :
    rangeStart (decimal slot.toNat) (hexString hash).toList <+: (keyOf t).text ↔
      slotOf t = slot ∧ blockHashOf t = hash := by
  have hne : (hexString hash).toList ≠ [] := by
    rw [toList_hexString]
    simp
  rw [rangeStart, if_pos hne, keyOf, Key.text, headerKeyContent, newKey, newKey,
    List.cons_prefix_cons, List.prefix_append_right_inj]
  simp only [true_and]
  rw [KeyText.append_cons_prefix_iff (KeyText.slash_not_mem_decimal _)
    (KeyText.slash_not_mem_decimal _), KeyText.prefix_append_cons_iff (slash_not_mem_hexString _)]
  constructor
  · rintro ⟨hslot, hhash⟩
    have hlength : (hexString hash).toList.length =
        (hexString t.bidTrace.blockHash).toList.length := by
      rw [length_toList_hexString, length_toList_hexString]
    exact ⟨(decimal_toNat_injective hslot).symm,
      (toList_hexString_injective (hhash.eq_of_length hlength)).symm⟩
  · rintro ⟨rfl, rfl⟩
    exact ⟨rfl, List.prefix_refl _⟩

/-! ### The latest slots -/

/-- The stored traces whose slots begin with the digits of a slot. -/
def slotTraces (ws : List Write) (slot : UInt64) : List BidTraceWithTimestamp :=
  byKey ((storedTraces ws).filter fun t =>
    (decimal slot.toNat).isPrefixOf (decimal (slotOf t).toNat))

/-- These traces for the slots before the head, the latest slot first. -/
def latestTraces (ws : List Write) (headSlot : UInt64) : List BidTraceWithTimestamp :=
  (List.range maxSlotLagBlocks).flatMap fun i => slotTraces ws (headSlot - 1 - UInt64.ofNat i)

theorem mem_slotTraces_iff {ws : List Write} {slot : UInt64} {t : BidTraceWithTimestamp} :
    t ∈ slotTraces ws slot ↔ Stored ws t ∧ decimal slot.toNat <+: decimal (slotOf t).toNat := by
  rw [slotTraces, byKey, List.mem_insertionSort, List.mem_filter, mem_storedTraces_iff,
    List.isPrefixOf_iff_prefix]

theorem getHeadersRange_slot (ws : List Write) (slot : UInt64) :
    getHeadersRange (history ws) (decimal slot.toNat) [] = .ok (slotTraces ws slot) := by
  rw [getHeadersRange_eq, slotTraces]
  congr
  funext t
  rw [Bool.eq_iff_iff, List.isPrefixOf_iff_prefix, List.isPrefixOf_iff_prefix, rangeStart_slot_iff]

section

variable {ws : List Write} {headSlot : UInt64} {limit : ℤ}

theorem lag_eq (headSlot : UInt64) (i : ℕ) :
    headSlot - (headSlot - 1 - UInt64.ofNat i) = UInt64.ofNat (i + 1) := by
  rw [UInt64.ofNat_add]
  grind

/-- The loop after `i` rounds, with `n` rounds to go. -/
theorem latestHeadersLoop_eq (n i : ℕ) (hrounds : i + n = maxSlotLagBlocks)
    (el : List BidTraceWithTimestamp) (hel : el.length ≤ limit) :
    latestHeadersLoop (history ws) headSlot limit n (headSlot - 1 - UInt64.ofNat i) el =
      pure ((el ++ (List.range' i n).flatMap fun j =>
        slotTraces ws (headSlot - 1 - UInt64.ofNat j)).take limit.toNat) := by
  induction n generalizing i el with
  | zero =>
      rw [latestHeadersLoop, List.range'_zero, List.flatMap_nil, List.append_nil,
        List.take_of_length_le (by omega)]
  | succ n ih =>
      have hlag : headSlot - (headSlot - 1 - UInt64.ofNat i) ≥ UInt64.ofNat maxSlotLagBlocks ↔
          n = 0 := by
        have hmax : maxSlotLagBlocks = 50 := rfl
        rw [lag_eq, ge_iff_le, UInt64.le_iff_toNat_le, UInt64.toNat_ofNat', UInt64.toNat_ofNat',
          Nat.mod_eq_of_lt (by omega), Nat.mod_eq_of_lt (by omega)]
        omega
      rw [latestHeadersLoop, getHeadersRange_slot, List.range'_succ, List.flatMap_cons,
        ← List.append_assoc]
      dsimp only
      generalize el ++ slotTraces ws (headSlot - 1 - UInt64.ofNat i) = el'
      split
      case isTrue hlength =>
        rw [List.take_append_of_le_length (by omega), List.take_of_length_le (by omega)]
      case isFalse hlength =>
        split
        case isTrue hlonger =>
          rw [if_pos (by omega), List.take_append_of_le_length (by omega)]
        case isFalse hshorter =>
          split
          case isTrue hlast =>
            rw [hlag.1 hlast, List.range'_zero, List.flatMap_nil, List.append_nil,
              List.take_of_length_le (by omega)]
          case isFalse hmore =>
            have hnext :
                headSlot - 1 - UInt64.ofNat i - 1 = headSlot - 1 - UInt64.ofNat (i + 1) := by
              rw [UInt64.ofNat_add]
              grind
            rw [hnext]
            exact ih (i + 1) (by omega) el' (by omega)

theorem getLatestHeaders_eq :
    getLatestHeaders (history ws) headSlot limit =
      if 0 ≤ limit then pure ((latestTraces ws headSlot).take limit.toNat)
      else ExceptT.mk none := by
  split
  case isTrue hlimit =>
    have hzero : headSlot - 1 = headSlot - 1 - UInt64.ofNat 0 := by grind
    rw [getLatestHeaders, hzero, latestHeadersLoop_eq maxSlotLagBlocks 0 (Nat.zero_add _) []
      (by simpa using hlimit), List.nil_append, latestTraces, List.range_eq_range']
  case isFalse hlimit =>
    rw [getLatestHeaders, maxSlotLagBlocks, latestHeadersLoop, getHeadersRange_slot]
    dsimp only
    rw [if_neg (by omega), if_pos (by omega), if_neg hlimit]

end

/-! ### Queries -/

/-- The trace satisfies every filter that is set. -/
def SubmissionTraceQuery.Matches (q : SubmissionTraceQuery) (t : BidTraceWithTimestamp) : Prop :=
  (q.hasSlot = true → slotOf t = q.slot) ∧
    (q.hasBlockHash = true → blockHashOf t = q.blockHash) ∧
    (q.hasBlockNum = true → t.blockNumber = q.blockNum) ∧
    (q.hasBuilderPubkey = true → t.bidTrace.builderPubkey = q.builderPubkey)

instance (q : SubmissionTraceQuery) (t : BidTraceWithTimestamp) : Decidable (q.Matches t) :=
  inferInstanceAs (Decidable (_ ∧ _ ∧ _ ∧ _))

def SubmissionTraceQuery.OnlySlot (q : SubmissionTraceQuery) : Prop :=
  q.hasSlot = true ∧ q.hasBlockHash = false ∧ q.hasBlockNum = false ∧ q.hasBuilderPubkey = false

/-- Every trace that is returned satisfies every filter that is set, and a query for a slot alone
returns every trace that is stored for the slot. -/
def SubmissionsRight (ws : List Write) (headSlot : UInt64) (q : SubmissionTraceQuery) : Prop :=
  (∀ events, (getBuilderBlockSubmissions (history ws) headSlot q).run = some (.ok events) →
    ∀ t ∈ events, q.Matches t) ∧
  (q.OnlySlot → ∃ events,
    (getBuilderBlockSubmissions (history ws) headSlot q).run = some (.ok events) ∧
      ∀ t, Stored ws t → slotOf t = q.slot → t ∈ events)

/-- The scan for the query runs over the trace: the stored traces of the slots that begin with the
digits of the slot that is asked for, or in which the block number was submitted last; the ones of
the slot in which the block hash was submitted last; or the latest ones, up to the limit. -/
def ScannedFor (ws : List Write) (headSlot : UInt64) (q : SubmissionTraceQuery)
    (t : BidTraceWithTimestamp) : Prop :=
  if q.hasSlot then Stored ws t ∧ decimal q.slot.toNat <+: decimal (slotOf t).toNat
  else if q.hasBlockHash then
    Stored ws t ∧ ∃ p, lastWrite blockHashOf q.blockHash (submissions ws) = some p ∧
      slotOf t = slotOf p ∧ blockHashOf t = q.blockHash
  else if q.hasBlockNum then
    Stored ws t ∧ ∃ p, lastWrite BidTraceWithTimestamp.blockNumber q.blockNum (submissions ws) =
      some p ∧ decimal (slotOf p).toNat <+: decimal (slotOf t).toNat
  else t ∈ (latestTraces ws headSlot).take q.limit.toInt64.toInt.toNat

/-- **A query returns what the scan for it runs over**, or it panics because of its limit. -/
theorem run_getBuilderBlockSubmissions (ws : List Write) (headSlot : UInt64)
    (q : SubmissionTraceQuery) :
    (∃ events, (getBuilderBlockSubmissions (history ws) headSlot q).run = some (.ok events) ∧
      ∀ t, t ∈ events ↔ ScannedFor ws headSlot q t) ∨
    q.hasSlot = false ∧ (getBuilderBlockSubmissions (history ws) headSlot q).run = none ∧
      ∀ t, ¬ ScannedFor ws headSlot q t := by
  simp only [getBuilderBlockSubmissions, ScannedFor]
  split
  case isTrue =>
    refine .inl ⟨slotTraces ws q.slot, ?_, fun t => mem_slotTraces_iff⟩
    rw [getHeadersRange_slot]
    rfl
  case isFalse hslot =>
  split
  case isTrue =>
    refine .inl ?_
    have hlookup : (history ws).lookup (headerHashKey q.blockHash) = _ :=
      lookup_headerHash ws q.blockHash
    rw [getHeadersByBlockHash, get, hlookup]
    cases lastWrite blockHashOf q.blockHash (submissions ws) with
    | none => exact ⟨[], rfl, by simp⟩
    | some p =>
        refine ⟨_, congrArg (fun x => (tryCatch (ExceptT.mk (some x) : Call _) _).run)
          (getHeadersRange_eq ws _ _), fun t => ?_⟩
        rw [byKey, List.mem_insertionSort, List.mem_filter, mem_storedTraces_iff,
          List.isPrefixOf_iff_prefix, rangeStart_hash_iff]
        simp
  case isFalse =>
  split
  case isTrue =>
    refine .inl ?_
    have hlookup : (history ws).lookup (headerNumKey q.blockNum) = _ :=
      lookup_headerNum ws q.blockNum
    rw [getHeadersByBlockNum, get, hlookup]
    cases lastWrite BidTraceWithTimestamp.blockNumber q.blockNum (submissions ws) with
    | none => exact ⟨[], rfl, by simp⟩
    | some p =>
        refine ⟨_, congrArg (fun x => (tryCatch (ExceptT.mk (some x) : Call _) _).run)
          (getHeadersRange_slot ws (slotOf p)), fun t => ?_⟩
        rw [mem_slotTraces_iff]
        simp
  case isFalse =>
    rw [getLatestHeaders_eq]
    by_cases hlimit : 0 ≤ q.limit.toInt64.toInt
    · rw [if_pos hlimit]
      exact .inl ⟨_, rfl, fun t => Iff.rfl⟩
    · rw [if_neg hlimit]
      refine .inr ⟨by simpa using hslot, rfl, fun t ht => ?_⟩
      rw [Int.toNat_of_nonpos (by omega), List.take_zero] at ht
      cases ht

/-- **A query is answered right exactly when the scan for it runs over no trace that it does not ask
for.** -/
theorem submissionsRight_iff (ws : List Write) (headSlot : UInt64) (q : SubmissionTraceQuery) :
    SubmissionsRight ws headSlot q ↔ ∀ t, ScannedFor ws headSlot q t → q.Matches t := by
  rcases run_getBuilderBlockSubmissions ws headSlot q with
    ⟨events, hrun, hmem⟩ | ⟨hslot, hrun, hnone⟩
  · constructor
    · intro h t ht
      exact h.1 events hrun t ((hmem t).2 ht)
    · intro h
      refine ⟨fun events' hrun' t ht => ?_, fun honly => ⟨events, hrun, fun t ht hslot => ?_⟩⟩
      · rw [hrun, Option.some_inj, Except.ok.injEq] at hrun'
        exact h t ((hmem t).1 (hrun' ▸ ht))
      · rw [hmem, ScannedFor, if_pos honly.1, hslot]
        exact ⟨ht, List.prefix_refl _⟩
  · refine iff_of_true ⟨fun events' hrun' => ?_, fun honly => ?_⟩ fun t ht => absurd ht (hnone t)
    · rw [hrun] at hrun'
      cases hrun'
    · exact absurd (honly.1.symm.trans hslot) Bool.noConfusion

/-- A trace of a slot and a block number. -/
def sampleTrace (slot blockNumber : UInt64) (builder : PublicKey) : BidTraceWithTimestamp where
  bidTrace := { (default : BidTrace) with slot := slot, builderPubkey := builder }
  blockNumber := blockNumber
  numTx := 0
  timestamp := 0
  timestampMs := 0

/-- A query without filters. -/
def anyQuery : SubmissionTraceQuery :=
  ⟨0, Vector.replicate 32 0, 0, 0, Vector.replicate 48 0⟩

def builderA : PublicKey := Vector.replicate 48 1

def builderB : PublicKey := Vector.replicate 48 2

/-- What the scan runs over is returned. -/
theorem not_submissionsRight {ws : List Write} {headSlot : UInt64} {q : SubmissionTraceQuery}
    {t : BidTraceWithTimestamp} (ht : ScannedFor ws headSlot q t) (hq : ¬ q.Matches t) :
    ¬ SubmissionsRight ws headSlot q := by
  intro h
  rcases run_getBuilderBlockSubmissions ws headSlot q with ⟨events, hrun, hmem⟩ | ⟨-, -, hnone⟩
  · exact hq (h.1 events hrun t ((hmem t).2 ht))
  · exact hnone t ht

/-- **Traces that were not asked for**: a query for slot 1 returns a trace of slot 10, a query for a
block number returns a trace of another number in the same slot, and a query for a builder, with a
slot or alone, returns a trace of another builder. -/
theorem submissions_of_other_slots :
    ¬ SubmissionsRight
      [.submission (sampleTrace 1 5 builderA), .submission (sampleTrace 10 6 builderA)]
      20 { anyQuery with slot := 1 } ∧
    ¬ SubmissionsRight
      [.submission (sampleTrace 3 5 builderA), .submission (sampleTrace 3 6 builderB)]
      20 { anyQuery with blockNum := 5 } ∧
    ¬ SubmissionsRight
      [.submission (sampleTrace 3 5 builderA), .submission (sampleTrace 3 5 builderB)]
      20 { anyQuery with slot := 3, builderPubkey := builderA } ∧
    ¬ SubmissionsRight
      [.submission (sampleTrace 3 5 builderA), .submission (sampleTrace 3 5 builderB)]
      4 { anyQuery with limit := 2, builderPubkey := builderA } := by
  refine ⟨not_submissionsRight (t := sampleTrace 10 6 builderA) ⟨?_, ?_⟩ ?_,
    not_submissionsRight (t := sampleTrace 3 6 builderB)
      ⟨?_, sampleTrace 3 5 builderA, ?_, ?_⟩ ?_,
    not_submissionsRight (t := sampleTrace 3 5 builderB) ⟨?_, ?_⟩ ?_,
    not_submissionsRight (t := sampleTrace 3 5 builderB) (?_ : _ ∈ List.take _ _) ?_⟩
  all_goals decide +kernel

end Badger

end Dreamboat
