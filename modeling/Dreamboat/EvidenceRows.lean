/-
**Rows as a JSON array.**

The evidence stores over SQL write their answer row by row: a bracket before the first row, a comma
before each other one, the row, and a bracket behind the last.  Once something is written, errors
are logged and nil is returned.  A row may not be scanned, its encoding may fail, and the context
may be done when it is reached; each of these ends the loop in a place of its own, and the bracket
at the end is written in some of them.

What has been written is followed through the scanner of JSON texts: behind every row it is inside
an array whose elements are the rows so far.

Main definitions:

* `EvidenceRows.Row` — a row with what goes wrong at it;
* `EvidenceRows.writeRows` — the loop, and `EvidenceRows.getDeliveredPayloads`,
  `EvidenceRows.getBuilderBlockSubmissions`;
* `EvidenceRows.ArrayRight` — what is written when nil is returned is an array of the rows up to one
  of them;
* `EvidenceRows.firstFailure` — where the loop ends.

Main results:

* `EvidenceRows.scan_element` — a row leads from one element of the array to the next;
* `EvidenceRows.arrays_right_iff` — **the arrays are right exactly when the first failure is neither
  an end of the context nor an encoding behind the first row**;
* `EvidenceRows.arrays_left_open` — an array that is not closed, an empty answer, and one with a
  comma too many.
-/

import Dreamboat.DeliveredEvidence
import Dreamboat.JsonScan

set_option autoImplicit false

namespace Dreamboat

open Badger (BidTraceExtended)
open Go.Json (Scanner Frame scan parse objectText stringMember plain)

namespace EvidenceRows

/-! ### The texts of the traces -/

def uintText (n : UInt64) : String := String.ofList (KeyText.decimal n.toNat)

/-- `types.BidTrace` with the names of its fields in JSON. -/
def bidTraceMembers (t : BidTrace) : List (String × String) :=
  [("slot", uintText t.slot), ("parent_hash", hexString t.parentHash),
    ("block_hash", hexString t.blockHash), ("builder_pubkey", hexString t.builderPubkey),
    ("proposer_pubkey", hexString t.proposerPubkey),
    ("proposer_fee_recipient", hexString t.proposerFeeRecipient),
    ("gas_limit", uintText t.gasLimit), ("gas_used", uintText t.gasUsed),
    ("value", String.ofList (KeyText.decimal t.value.bigInt))]

def extendedMembers (t : BidTraceExtended) : List (String × String) :=
  bidTraceMembers t.bidTrace ++
    [("block_number", uintText t.blockNumber), ("num_tx", uintText t.numTx)]

def timestampMembers (t : BidTraceWithTimestamp) : List (String × String) :=
  extendedMembers (Badger.toBidTraceExtended t) ++
    [("timestamp", uintText t.timestamp), ("timestamp_ms", uintText t.timestampMs)]

/-! ### The loop -/

/-- A row: the trace that is made of it or the error of `Scan`, whether the context is done when it
is reached, and the error of `Encode`. -/
structure Row (α : Type) where
  scan : Except GoError α
  ctxDone : Bool
  encode : Option GoError

/-- What is written before a row. -/
def separator (idx : ℕ) : List Char := if idx = 0 then ['['] else [',', ' ']

variable {α : Type}

/-- The loop over the rows: what is written, and the error that is returned. -/
def writeRows (members : α → List (String × String)) : ℕ → List (Row α) →
    List Char × Option GoError
  | idx, [] => (if idx = 0 then ['[', ']'] else [']'], none)
  | idx, row :: rows =>
      match row.scan with
      | .error e => if idx = 0 then ([], some e) else ([']'], none)
      | .ok bt =>
          if row.ctxDone then ([], none)
          else
            match row.encode with
            | some _ => (separator idx ++ [']'], none)
            | none =>
                (separator idx ++ objectText (members bt) ++
                  '\n' :: (writeRows members (idx + 1) rows).1,
                  (writeRows members (idx + 1) rows).2)

/-- What `QueryContext` gives. -/
inductive Query (α : Type) where
  | noRows
  | failed (e : GoError)
  | rows (rows : List (Row α))

def getDeliveredPayloads : Query BidTraceExtended → List Char × Option GoError
  -- an empty slice through an encoder, which writes a line
  | .noRows => (['[', ']', '\n'], none)
  | .failed e => ([], some (.wrap "query error" e))
  | .rows rows => writeRows extendedMembers 0 rows

def getBuilderBlockSubmissions : Query BidTraceWithTimestamp → List Char × Option GoError
  | .noRows => (['[', ']'], none)
  | .failed e => ([], some (.wrap "query error" e))
  | .rows rows => writeRows timestampMembers 0 rows

/-! ### Arrays -/

/-- The encoding of a trace, as a value. -/
def element (members : α → List (String × String)) (bt : α) : Go.Json :=
  .obj ((members bt).map stringMember)

def Query.results : Query α → List (Except GoError α)
  | .rows l => l.map Row.scan
  | _ => []

/-- When nil is returned, what is written is one array of the encodings of the first rows. -/
def ArrayRight (members : α → List (String × String)) (q : Query α)
    (out : List Char × Option GoError) : Prop :=
  out.2 = none → ∃ bts : List α, bts.map .ok <+: q.results ∧
    parse out.1 = some (.arr (bts.map (element members)))

inductive Failure where
  | scan | ctx | encode
  deriving DecidableEq

def Row.failure (row : Row α) : Option Failure :=
  match row.scan with
  | .error _ => some .scan
  | .ok _ => if row.ctxDone then some .ctx else row.encode.map fun _ => .encode

/-- The first failure, with its place. -/
def firstFailure : List (Row α) → Option (ℕ × Failure)
  | [] => none
  | row :: rows =>
      match row.failure with
      | some f => some (0, f)
      | none => (firstFailure rows).map fun (n, f) => (n + 1, f)

/-- The first failure, if there is one, is a row that is not scanned, or the encoding of the first
row. -/
def Query.Closes : Query α → Prop
  | .rows l => ∀ n f, firstFailure l = some (n, f) → f = .scan ∨ (f = .encode ∧ n = 0)
  | _ => True

/-! ### The texts are plain -/

theorem plain_of_isDigit {c : Char} (h : c.isDigit = true) : plain c = true := by
  have hquote : c ≠ '"' := by
    rintro rfl
    exact absurd h (by decide)
  have hescape : c ≠ '\\' := by
    rintro rfl
    exact absurd h (by decide)
  have hcontrol : ¬c < ' ' := by
    intro hlt
    have hval : c.val.toNat < 32 := hlt
    have hdigit : 48 ≤ c.val.toNat := by
      simp only [Char.isDigit, Bool.and_eq_true, decide_eq_true_eq] at h
      exact h.1
    omega
  simp [plain, hquote, hescape, hcontrol]

theorem plain_digitChar {k : ℕ} (h : k < 16) : plain (Nat.digitChar k) = true := by
  revert k
  decide

theorem plain_hexString {n : ℕ} (v : Vector UInt8 n) : (hexString v).toList.all plain = true := by
  have hchars : (hexString v).toList = ['0', 'x'] ++ v.toList.flatMap fun b =>
      [Nat.digitChar (b.toNat / 16), Nat.digitChar (b.toNat % 16)] := by
    simp [hexString]
  rw [hchars, List.all_append, List.all_flatMap, Bool.and_eq_true]
  refine ⟨by decide, List.all_eq_true.2 fun b _ => ?_⟩
  have hhigh : b.toNat / 16 < 16 := by
    have := b.toNat_lt
    omega
  simp [plain_digitChar hhigh, plain_digitChar (Nat.mod_lt b.toNat (by decide : 0 < 16))]

theorem plain_decimal (n : ℕ) : (String.ofList (KeyText.decimal n)).toList.all plain = true := by
  rw [String.toList_ofList, List.all_eq_true]
  exact fun c hc => plain_of_isDigit (KeyText.isDigit_of_mem_decimal hc)

/-- Texts that are written as they are. -/
def PlainMembers (l : List (String × String)) : Prop :=
  l ≠ [] ∧ ∀ m ∈ l, m.1.toList.all plain = true ∧ m.2.toList.all plain = true

theorem plain_extendedMembers (t : BidTraceExtended) : PlainMembers (extendedMembers t) := by
  refine ⟨by simp [extendedMembers, bidTraceMembers], ?_⟩
  simp only [extendedMembers, bidTraceMembers, List.cons_append, List.nil_append,
    List.forall_mem_cons, plain_hexString, plain_decimal, uintText, and_true]
  decide

theorem plain_timestampMembers (t : BidTraceWithTimestamp) :
    PlainMembers (timestampMembers t) := by
  refine ⟨by simp [timestampMembers], fun m hm => ?_⟩
  rcases List.mem_append.1 hm with hm | hm
  · exact (plain_extendedMembers _).2 m hm
  · simp only [List.mem_cons, List.not_mem_nil, or_false] at hm
    have hname : "timestamp".toList.all plain = true ∧ "timestamp_ms".toList.all plain = true := by
      decide
    rcases hm with rfl | rfl
    · exact ⟨hname.1, plain_decimal _⟩
    · exact ⟨hname.2, plain_decimal _⟩

/-! ### Through the scanner -/

/-- Where the scanner is behind some elements, the last one first. -/
def behind : List Go.Json → Scanner
  | [] => .start
  | v :: vs => ⟨[.arr vs], .endValue v⟩

/-- **A row** leads from one element of the array to the next. -/
theorem scan_element {l : List (String × String)} (h : PlainMembers l) (vs : List Go.Json)
    (rest : List Char) :
    scan (behind vs) (separator vs.length ++ objectText l ++ '\n' :: rest) =
      scan (behind (.obj (l.map stringMember) :: vs)) rest := by
  have hdepth : ([] : List Frame).length + 1 < Scanner.maxNestingDepth := by decide
  have hobject := Go.Json.scan_objectText h.1 h.2 (.arr vs) hdepth ('\n' :: rest)
  rw [List.append_assoc]
  cases vs with
  | nil =>
      refine Eq.trans ?_ (hobject.trans (Go.Json.scan_cons_of_next rfl rest))
      rfl
  | cons v vs =>
      refine Eq.trans ?_ (hobject.trans (Go.Json.scan_cons_of_next rfl rest))
      rfl

/-! ### The whole answer -/

/-- The first failure behind a number of rows does not leave the array open. -/
def ClosesFrom (idx : ℕ) (rows : List (Row α)) : Prop :=
  ∀ n f, firstFailure rows = some (n, f) → f = .scan ∨ (f = .encode ∧ idx + n = 0)

theorem closesFrom_cons_of_failure {row : Row α} {f : Failure} (h : row.failure = some f) (idx : ℕ)
    (rows : List (Row α)) : ClosesFrom idx (row :: rows) ↔ f = .scan ∨ (f = .encode ∧ idx = 0) := by
  simp [ClosesFrom, firstFailure, h]

theorem closesFrom_cons_of_none {row : Row α} (h : row.failure = none) (idx : ℕ)
    (rows : List (Row α)) : ClosesFrom idx (row :: rows) ↔ ClosesFrom (idx + 1) rows := by
  simp only [ClosesFrom, firstFailure, h]
  constructor
  · intro hrow n f hf
    rcases hrow (n + 1) f (by rw [hf]; rfl) with hscan | ⟨-, hzero⟩
    · exact .inl hscan
    · omega
  · intro hrows n f hf
    obtain ⟨⟨n', f'⟩, hfirst, hpair⟩ := Option.map_eq_some_iff.1 hf
    obtain ⟨rfl, rfl⟩ := Prod.mk.inj hpair
    rcases hrows n' f' hfirst with hscan | ⟨-, hzero⟩
    · exact .inl hscan
    · omega

/-- What comes behind some elements: the rest of one array, or a text that is none. -/
structure Written (members : α → List (String × String)) (vs : List Go.Json) (rows : List (Row α))
    (out : List Char × Option GoError) : Prop where
  closed : ClosesFrom vs.length rows → out.2 = none →
    ∃ bts : List α, bts.map .ok <+: rows.map Row.scan ∧
      scan (behind vs) out.1 = .value (.arr (vs.reverse ++ bts.map (element members))) []
  left : ¬ClosesFrom vs.length rows → out.2 = none ∧ (scan (behind vs) out.1).unfinished = true

section

variable {members : α → List (String × String)} {vs : List Go.Json}

/-- The bracket at the end. -/
theorem scan_bracket (vs : List Go.Json) :
    scan (behind vs) (if vs.length = 0 then ['[', ']'] else [']']) =
      .value (.arr vs.reverse) [] := by
  cases vs with
  | nil => rfl
  | cons v vs => rfl

theorem written_nil : Written members vs [] (writeRows members vs.length []) := by
  have hcloses : ClosesFrom vs.length ([] : List (Row α)) := fun _ _ h => by cases h
  refine ⟨fun _ _ => ⟨[], List.nil_prefix, ?_⟩, fun h => absurd hcloses h⟩
  rw [List.map_nil, List.append_nil]
  exact scan_bracket vs

theorem written_scan {row : Row α} {e : GoError} (hscan : row.scan = .error e)
    (rows : List (Row α)) :
    Written members vs (row :: rows) (writeRows members vs.length (row :: rows)) := by
  have hfailure : row.failure = some .scan := by rw [Row.failure, hscan]
  have hcloses := (closesFrom_cons_of_failure hfailure vs.length rows).2 (.inl rfl)
  refine ⟨fun _ hnil => ⟨[], List.nil_prefix, ?_⟩, fun h => absurd hcloses h⟩
  rw [writeRows, hscan] at hnil ⊢
  cases vs with
  | nil => cases hnil
  | cons v vs =>
      rw [List.map_nil, List.append_nil]
      rfl

theorem written_ctx {row : Row α} {bt : α} (hscan : row.scan = .ok bt) (hctx : row.ctxDone = true)
    (rows : List (Row α)) :
    Written members vs (row :: rows) (writeRows members vs.length (row :: rows)) := by
  have hfailure : row.failure = some .ctx := by simp [Row.failure, hscan, hctx]
  have hopen : ¬ClosesFrom vs.length (row :: rows) := by
    rw [closesFrom_cons_of_failure hfailure]
    simp
  refine ⟨fun h => absurd h hopen, fun _ => ?_⟩
  simp only [writeRows, hscan, hctx, if_true]
  cases vs with
  | nil => exact ⟨trivial, rfl⟩
  | cons v vs => exact ⟨trivial, rfl⟩

theorem written_encode {row : Row α} {bt : α} {e : GoError} (hscan : row.scan = .ok bt)
    (hctx : row.ctxDone = false) (hencode : row.encode = some e) (rows : List (Row α)) :
    Written members vs (row :: rows) (writeRows members vs.length (row :: rows)) := by
  have hfailure : row.failure = some .encode := by simp [Row.failure, hscan, hctx, hencode]
  have hiff := closesFrom_cons_of_failure hfailure vs.length rows
  simp only [writeRows, hscan, hctx, hencode]
  cases vs with
  | nil =>
      refine ⟨fun _ _ => ⟨[], List.nil_prefix, rfl⟩, fun h => ?_⟩
      exact absurd (hiff.2 (.inr ⟨rfl, rfl⟩)) h
  | cons v vs =>
      refine ⟨fun h => ?_, fun _ => ⟨rfl, rfl⟩⟩
      rcases hiff.1 h with h | ⟨-, h⟩
      · cases h
      · cases h

theorem written_row (hplain : ∀ bt, PlainMembers (members bt)) {row : Row α} {bt : α}
    (hscan : row.scan = .ok bt) (hctx : row.ctxDone = false) (hencode : row.encode = none)
    {rows : List (Row α)}
    (hrest : Written members (element members bt :: vs) rows
      (writeRows members (vs.length + 1) rows)) :
    Written members vs (row :: rows) (writeRows members vs.length (row :: rows)) := by
  have hfailure : row.failure = none := by simp [Row.failure, hscan, hctx, hencode]
  have hiff : ClosesFrom vs.length (row :: rows) ↔ ClosesFrom (vs.length + 1) rows :=
    closesFrom_cons_of_none hfailure vs.length rows
  have htext := scan_element (hplain bt) vs (writeRows members (vs.length + 1) rows).1
  simp only [writeRows, hscan, hctx, hencode, Bool.false_eq_true, if_false]
  refine ⟨fun h hnil => ?_, fun h => ?_⟩
  · obtain ⟨bts, hbts, hvalue⟩ := hrest.closed (hiff.1 h) hnil
    refine ⟨bt :: bts, ?_, ?_⟩
    · rw [List.map_cons, List.map_cons, hscan]
      exact (List.prefix_cons_inj _).2 hbts
    · rw [htext]
      refine hvalue.trans ?_
      rw [List.reverse_cons, List.append_assoc]
      rfl
  · obtain ⟨hnil, hopen⟩ := hrest.left fun hcloses => h (hiff.2 hcloses)
    refine ⟨hnil, ?_⟩
    rw [htext]
    exact hopen

/-- **The rest of the rows**: behind any elements the loop closes the array or leaves it open. -/
theorem written_writeRows (hplain : ∀ bt, PlainMembers (members bt)) (rows : List (Row α))
    (vs : List Go.Json) : Written members vs rows (writeRows members vs.length rows) := by
  induction rows generalizing vs with
  | nil => exact written_nil
  | cons row rows ih =>
      cases hscan : row.scan with
      | error e => exact written_scan hscan rows
      | ok bt =>
          cases hctx : row.ctxDone with
          | true => exact written_ctx hscan hctx rows
          | false =>
              cases hencode : row.encode with
              | some e => exact written_encode hscan hctx hencode rows
              | none => exact written_row hplain hscan hctx hencode (ih (element members bt :: vs))

/-- The answer for rows is right exactly when the array is closed. -/
theorem arrayRight_rows_iff (hplain : ∀ bt, PlainMembers (members bt)) (rows : List (Row α)) :
    ArrayRight members (.rows rows) (writeRows members 0 rows) ↔ (Query.rows rows).Closes := by
  have hwritten : Written members [] rows (writeRows members 0 rows) :=
    written_writeRows hplain rows []
  have hcloses : (Query.rows rows).Closes ↔ ClosesFrom 0 rows := by
    simp [Query.Closes, ClosesFrom]
  rw [hcloses]
  constructor
  · intro h
    by_contra hopen
    obtain ⟨hnil, hunfinished⟩ := hwritten.left hopen
    obtain ⟨bts, -, hparse⟩ := h hnil
    rw [Go.Json.parse_of_unfinished hunfinished] at hparse
    cases hparse
  · intro h hnil
    obtain ⟨bts, hbts, hvalue⟩ := hwritten.closed h hnil
    exact ⟨bts, hbts, Go.Json.parse_of_value hvalue rfl⟩

end

/-- **Arrays**: what is written when nil is returned is an array of the first rows exactly when the
first failure is neither an end of the context nor an encoding behind the first row. -/
theorem arrays_right_iff (delivered : Query BidTraceExtended)
    (submissions : Query BidTraceWithTimestamp) :
    (ArrayRight extendedMembers delivered (getDeliveredPayloads delivered) ↔ delivered.Closes) ∧
      (ArrayRight timestampMembers submissions (getBuilderBlockSubmissions submissions) ↔
        submissions.Closes) := by
  constructor
  · cases delivered with
    | noRows => exact iff_of_true (fun _ => ⟨[], List.nil_prefix, rfl⟩) trivial
    | failed e => exact iff_of_true (fun h => by cases h) trivial
    | rows rows => exact arrayRight_rows_iff plain_extendedMembers rows
  · cases submissions with
    | noRows => exact iff_of_true (fun _ => ⟨[], List.nil_prefix, rfl⟩) trivial
    | failed e => exact iff_of_true (fun h => by cases h) trivial
    | rows rows => exact arrayRight_rows_iff plain_timestampMembers rows

/-! ### Arrays that are left open -/

def fineRow : Row BidTraceExtended := ⟨.ok ⟨default, 0, 0⟩, false, none⟩

/-- The context is done at the first row or at the second one, or the second one is not encoded:
nothing is written, the array is not closed, or there is a comma before its end. -/
theorem arrays_left_open :
    ¬ArrayRight extendedMembers (.rows [{ fineRow with ctxDone := true }])
        (getDeliveredPayloads (.rows [{ fineRow with ctxDone := true }])) ∧
      ¬ArrayRight extendedMembers (.rows [fineRow, { fineRow with ctxDone := true }])
        (getDeliveredPayloads (.rows [fineRow, { fineRow with ctxDone := true }])) ∧
      ¬ArrayRight extendedMembers (.rows [fineRow, { fineRow with encode := some (.new "") }])
        (getDeliveredPayloads (.rows [fineRow, { fineRow with encode := some (.new "") }])) := by
  have hnot : ∀ (rows : List (Row BidTraceExtended)) n f, firstFailure rows = some (n, f) →
      ¬(f = .scan ∨ f = .encode ∧ n = 0) →
      ¬ArrayRight extendedMembers (.rows rows) (getDeliveredPayloads (.rows rows)) := by
    intro rows n f hfirst hopen h
    exact hopen ((arrayRight_rows_iff plain_extendedMembers rows).1 h n f hfirst)
  refine ⟨hnot _ 0 .ctx rfl (by decide), hnot _ 1 .ctx rfl (by decide), ?_⟩
  exact hnot _ 1 .encode rfl (by decide)

end EvidenceRows

end Dreamboat
