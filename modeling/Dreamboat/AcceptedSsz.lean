/-
**What the Capella decoders accept.**

The bytes that `UnmarshalSSZ` of the Capella containers is called on come from builders and from
other instances, so they can be any bytes.  No decoder slices them out of range, and of a value that
is returned it is known which bytes each of its fields was read from.

A decoder checks that an offset is not one into the fixed part and that the offsets do not decrease.
It does not check that the first offset is the one where the fixed part ends, and a list of
transactions that begins with the offset `0` has no elements whatever follows.  Bytes between the
fixed part and the first field, or behind such an offset, are skipped.  Where no bytes are skipped,
and only there, a value is written as the bytes it was read from.

Main definitions:

* `Capella.SubmitBlockRequest.unmarshalSSZ` — the decoder of a submission;
* `Capella.ExecutionPayload.ReadFrom` — how a payload and the bytes go together;
* `Capella.ExecutionPayload.Tight`, `Capella.BuilderBidExtended.Tight`,
  `Capella.BlockAndTraceExtended.Tight` — no bytes are skipped;
* `Capella.CanonicalOn` — the values that are read are written as the same bytes.

Main results:

* `Capella.ExecutionPayload.returns_unmarshalSSZ` — a payload is read in range;
* `Capella.unmarshalSSZ_inRange` — **no decoder panics**, and what is known of a submission that is
  accepted;
* `Capella.canonical_iff_tight` — **a value is written as the bytes it was read from exactly where
  none of them was skipped**;
* `Capella.gap_not_written` — one byte that is skipped.
-/

import Dreamboat.BidCodec

set_option autoImplicit false

namespace Dreamboat

open Ssz (Decoder slice sliceFrom copyBytes writeOffset readOffset writeOffsets writeList
  uint64Bytes index part offsetAt leNat Returns returns_ite_throw returns_pure length_part
  part_append_part toList_copyBytes_part slice_eq_part returns_slice returns_sliceFrom
  returns_readOffset)
open SszError

/-! ### Fields -/

theorem uint64Bytes_unmarshallUint64 {b : List UInt8} (h : b.length = 8) :
    uint64Bytes (unmarshallUint64 b) = b := by
  rw [unmarshallUint64_eq, Ssz.uint64Bytes_ofNat h]

theorem uint64Bytes_part {buf : List UInt8} {lo hi : ℕ} (hhi : hi ≤ buf.length) (h : hi = lo + 8) :
    uint64Bytes (unmarshallUint64 (part buf lo hi)) = part buf lo hi := by
  refine uint64Bytes_unmarshallUint64 ?_
  rw [length_part hhi]
  omega

/-- A withdrawal is written as the bytes it was read from. -/
theorem Withdrawal.encode_of_unmarshalSSZ {b : List UInt8} {w : Withdrawal}
    (h : Withdrawal.unmarshalSSZ b = .ok w) : w.encode = b := by
  rw [Withdrawal.unmarshalSSZ] at h
  split at h
  · cases h
  · next hlen =>
      cases h
      have hlen : b.length = 44 := not_not.1 hlen
      have haddress : (Vector.ofFn fun i : Fin 20 => ((b.drop 16).take 20).getD i 0).toList =
          (b.drop 16).take 20 := Ssz.toList_copyBytes (by simp [hlen])
      have hlast : (b.drop 36).take 8 = b.drop 36 := List.take_of_length_le (by simp [hlen])
      have hsplit : ∀ n k, (b.drop n).take k ++ b.drop (n + k) = b.drop n := by
        intro n k
        rw [← List.drop_drop, List.take_append_drop]
      rw [Withdrawal.encode]
      dsimp only
      rw [haddress, uint64Bytes_unmarshallUint64 (by simp [hlen]),
        uint64Bytes_unmarshallUint64 (by simp [hlen]),
        uint64Bytes_unmarshallUint64 (by simp [hlen]), hlast, hsplit 16 20, hsplit 8 8,
        List.take_append_drop]

/-- The withdrawals that are accepted are written as the bytes they were read from. -/
theorem returns_decodeWithdrawals (buf : List UInt8) :
    Returns (decodeWithdrawals buf) fun ws =>
      ws.length ≤ 16 ∧ ws.flatMap Withdrawal.encode = buf := by
  refine (Ssz.returns_divideInt2 buf.length 44 16).bind fun num hnum => ?_
  obtain ⟨hmax, hlen⟩ := hnum
  have hone : ∀ i ∈ List.range num,
      Returns (do
        let b ← slice buf (i * 44) ((i + 1) * 44)
        ExceptT.mk (some (Withdrawal.unmarshalSSZ b)) : Decoder GoError Withdrawal)
        fun w => w.encode = part buf (i * 44) ((i + 1) * 44) := by
    intro i hi
    have hlt := List.mem_range.1 hi
    rw [slice_eq_part (by omega) (by omega), pure_bind]
    exact ⟨_, rfl, fun w hw => Withdrawal.encode_of_unmarshalSSZ hw⟩
  refine (Ssz.returns_mapM hone).mono fun ws hws => ?_
  have hmap : ws.map Withdrawal.encode =
      (List.range num).map fun i => part buf (i * 44) ((i + 1) * 44) := by
    refine List.ext_getElem ?_ ?_
    · rw [List.length_map, List.length_map, hws.length_eq]
    · intro i hi₁ hi₂
      have hi : i < ws.length := by simpa using hi₁
      have hi' : i < (List.range num).length := by simpa using hi₂
      have hget := List.Forall₂.get hws hi' hi
      simpa using hget
  refine ⟨by rw [← hws.length_eq, List.length_range]; exact hmax, ?_⟩
  rw [List.flatMap_def, hmap, Ssz.flatten_parts num hlen.ge, ← hlen, Ssz.part_zero_length]

namespace Capella

namespace ExecutionPayload

/-- A list of transactions that begins with the offset `0`: it counts as an empty one. -/
def ZeroOffset (buf : List UInt8) : Prop := 4 ≤ buf.length ∧ leNat (buf.take 4) = 0

instance (buf : List UInt8) : Decidable (ZeroOffset buf) :=
  inferInstanceAs (Decidable (_ ∧ _))

/-- The transactions that are accepted are written as the bytes they were read from, but for the
bytes behind an offset `0`. -/
theorem returns_decodeTransactions (buf : List UInt8) :
    Returns (decodeTransactions buf) fun txs =>
      txs.length ≤ 1048576 ∧ (∀ tx ∈ txs, tx.length ≤ 1073741824) ∧
        (¬ZeroOffset buf ∧ buf = writeList txs ∨ ZeroOffset buf ∧ txs = []) := by
  have hone : ∀ b : List UInt8,
      Returns (if b.length > 1073741824 then throw errBytesLength else pure b :
        Decoder GoError (List UInt8)) fun tx => b = tx ∧ tx.length ≤ 1073741824 := by
    intro b
    exact returns_ite_throw fun hlong => returns_pure ⟨rfl, by omega⟩
  refine (Ssz.returns_decodeDynamicLength buf 1048576).bind fun num hnum => ?_
  obtain ⟨hmax, hnum⟩ := hnum
  rcases hnum with ⟨rfl, rfl⟩ | ⟨hlen, hoffset⟩
  · exact returns_pure ⟨Nat.zero_le _, by simp, .inl ⟨by simp [ZeroOffset], rfl⟩⟩
  · by_cases hzero : num = 0
    · subst hzero
      exact returns_pure ⟨Nat.zero_le _, by simp, .inr ⟨⟨hlen, hoffset⟩, rfl⟩⟩
    · refine (Ssz.returns_unmarshalDynamic hone hlen hoffset hzero).mono fun txs htxs => ?_
      obtain ⟨items, hall, hcount, hbuf⟩ := htxs
      have hitems : items = txs := List.forall₂_eq_eq_eq ▸ hall.imp fun _ _ h => h.1
      subst hitems
      refine ⟨by omega, ?_, .inl ⟨?_, hbuf⟩⟩
      · intro tx htx
        obtain ⟨i, hi, rfl⟩ := List.mem_iff_getElem.1 htx
        exact (List.Forall₂.get hall hi hi).2
      · rintro ⟨-, hzero'⟩
        omega

/-- How a payload and the bytes it was read from go together; `before` is the extra data of the
value that it was read into. -/
structure ReadFrom (before buf : List UInt8) (e : ExecutionPayload) : Prop where
  size : 512 ≤ buf.length
  ordered : 512 ≤ offsetAt buf 436 ∧ offsetAt buf 436 ≤ offsetAt buf 504 ∧
    offsetAt buf 504 ≤ offsetAt buf 508 ∧ offsetAt buf 508 ≤ buf.length
  head : (e.fixedPart.take 10).flatten = part buf 0 436
  middle : ((e.fixedPart.drop 11).take 2).flatten = part buf 440 504
  extraData : e.epExtraData = before ++ part buf (offsetAt buf 436) (offsetAt buf 504)
  short : offsetAt buf 504 - offsetAt buf 436 ≤ 32
  count : e.epTransactions.length ≤ 1048576
  long : ∀ tx ∈ e.epTransactions, tx.length ≤ 1073741824
  transactions :
    ¬ZeroOffset (part buf (offsetAt buf 504) (offsetAt buf 508)) ∧
      part buf (offsetAt buf 504) (offsetAt buf 508) = writeList e.epTransactions ∨
    ZeroOffset (part buf (offsetAt buf 504) (offsetAt buf 508)) ∧ e.epTransactions = []
  withdrawals : ∃ ws, e.epWithdrawals = some ws ∧ ws.length ≤ 16 ∧
    ws.flatMap Withdrawal.encode = part buf (offsetAt buf 508) buf.length

/-- **A payload is read in range**, and each of its fields from the bytes its offset points to. -/
theorem returns_unmarshalSSZ (target : ExecutionPayload) (buf : List UInt8) :
    Returns (target.unmarshalSSZ buf) (ReadFrom target.epExtraData buf) := by
  simp only [unmarshalSSZ]
  refine returns_ite_throw fun hsize => ?_
  -- the fields up to the first offset
  iterate 11 refine returns_slice (by omega) (by omega) ?_
  refine returns_readOffset (by omega) rfl ?_
  refine returns_ite_throw fun h10 => returns_ite_throw fun hfixed => ?_
  iterate 3 refine returns_slice (by omega) (by omega) ?_
  refine returns_readOffset (by omega) rfl (returns_ite_throw fun h13 => ?_)
  refine returns_slice (by omega) (by omega) ?_
  refine returns_readOffset (by omega) rfl (returns_ite_throw fun h14 => ?_)
  -- the fields of variable size
  refine returns_slice (by omega) (by omega) (returns_ite_throw fun hshort => ?_)
  rw [length_part (by omega)] at hshort
  refine returns_slice (by omega) (by omega) ?_
  refine (returns_decodeTransactions _).bind fun txs htxs => ?_
  obtain ⟨hcount, hlong, htxs⟩ := htxs
  refine returns_sliceFrom (by omega) ?_
  refine (returns_decodeWithdrawals _).bind fun ws hws => returns_pure ?_
  refine ⟨by omega, by omega, ?_, ?_, rfl, by omega, hcount, hlong, htxs, ws, rfl, hws⟩
  · simp only [fixedPart, List.take_succ_cons, List.take_zero, List.flatten_cons, List.flatten_nil,
      List.append_nil]
    simp (disch := omega) only [toList_copyBytes_part, uint64Bytes_part, part_append_part]
  · simp only [fixedPart, List.drop_succ_cons, List.drop_zero, List.take_succ_cons, List.take_zero,
      List.flatten_cons, List.flatten_nil, List.append_nil]
    simp (disch := omega) only [toList_copyBytes_part, part_append_part]

section

variable {buf : List UInt8} {e : ExecutionPayload}

/-- No bytes are skipped: the extra data begin where the fixed part ends, and the transactions do
not begin with the offset `0`. -/
def Tight (buf : List UInt8) : Prop :=
  offsetAt buf 436 = 512 ∧ ¬ZeroOffset (part buf (offsetAt buf 504) (offsetAt buf 508))

instance (buf : List UInt8) : Decidable (Tight buf) := inferInstanceAs (Decidable (_ ∧ _))

theorem ReadFrom.length_extraData (h : ReadFrom [] buf e) :
    e.epExtraData.length = offsetAt buf 504 - offsetAt buf 436 := by
  have hordered := h.ordered
  rw [h.extraData, List.nil_append, length_part (by omega)]

theorem ReadFrom.length_withdrawals (h : ReadFrom [] buf e) :
    (e.epWithdrawals.getD []).length * 44 = buf.length - offsetAt buf 508 := by
  obtain ⟨ws, hws, -, hbytes⟩ := h.withdrawals
  have hlen := congrArg List.length hbytes
  rw [length_part le_rfl, List.length_flatMap] at hlen
  simpa [hws] using hlen

theorem ReadFrom.writable (h : ReadFrom [] buf e) : e.Writable := by
  obtain ⟨ws, hws, hcount, -⟩ := h.withdrawals
  refine ⟨?_, h.count, ?_⟩
  · rw [h.length_extraData]
    exact h.short
  · rw [hws, Option.getD_some]
    exact hcount

theorem ReadFrom.marshalSSZTo_eq (h : ReadFrom [] buf e) (dst : List UInt8) :
    e.marshalSSZTo dst = .ok (dst ++ e.encode) :=
  ExecutionPayload.marshalSSZTo_eq h.writable h.long dst

/-- The fields are no more than the bytes, and they are all of them only if none is skipped. -/
theorem ReadFrom.sizeSSZ_le (h : ReadFrom [] buf e) :
    e.sizeSSZ ≤ buf.length ∧ (e.sizeSSZ = buf.length → Tight buf) := by
  have hordered := h.ordered
  have hextra := h.length_extraData
  have hws := h.length_withdrawals
  have hsize : e.sizeSSZ = 512 + e.epExtraData.length + (writeList e.epTransactions).length +
      (e.epWithdrawals.getD []).length * 44 := by rw [sizeSSZ, length_writeList_eq]
  have hpart : (part buf (offsetAt buf 504) (offsetAt buf 508)).length =
      offsetAt buf 508 - offsetAt buf 504 := length_part (by omega)
  rcases h.transactions with ⟨hzero, hbytes⟩ | ⟨hzero, hnone⟩
  · rw [← hbytes] at hsize
    exact ⟨by omega, fun _ => ⟨by omega, hzero⟩⟩
  · have hnil : (writeList e.epTransactions).length = 0 := by rw [hnone]; rfl
    have hfour := hzero.1
    exact ⟨by omega, fun _ => by omega⟩

/-- If no bytes are skipped, a payload is written as the bytes it was read from. -/
theorem ReadFrom.encode_eq (h : ReadFrom [] buf e) (ht : Tight buf) : e.encode = buf := by
  obtain ⟨h10, hzero⟩ := ht
  have hsize := h.size
  have hordered := h.ordered
  have hextra := h.length_extraData
  obtain ⟨ws, hws, -, hbytes⟩ := h.withdrawals
  have htxs : part buf (offsetAt buf 504) (offsetAt buf 508) = writeList e.epTransactions := by
    rcases h.transactions with ⟨-, htxs⟩ | ⟨hzero', -⟩
    · exact htxs
    · exact absurd hzero' hzero
  have h13 : 512 + e.epExtraData.length = offsetAt buf 504 := by omega
  have h14 : 512 + e.epExtraData.length + (writeList e.epTransactions).length =
      offsetAt buf 508 := by
    rw [← htxs, length_part (by omega)]
    omega
  have hfixed : e.fixedPart.flatten = part buf 0 512 := by
    have hsplit : e.fixedPart = e.fixedPart.take 10 ++ (writeOffset 512 ::
        ((e.fixedPart.drop 11).take 2 ++ [writeOffset (512 + e.epExtraData.length),
          writeOffset (512 + e.epExtraData.length + (writeList e.epTransactions).length)])) := rfl
    have hfirst : writeOffset 512 = part buf 436 440 := by
      rw [← h10]
      exact Ssz.writeOffset_offsetAt (by omega)
    rw [hsplit, h14, h13, hfirst]
    simp only [List.flatten_append, List.flatten_cons, List.flatten_nil, List.append_nil, h.head,
      h.middle]
    rw [Ssz.writeOffset_offsetAt (by omega), Ssz.writeOffset_offsetAt (by omega)]
    simp (disch := omega) only [part_append_part]
  rw [encode, hfixed, hws, Option.getD_some, hbytes, ← htxs, h.extraData, List.nil_append, h10]
  simp (disch := omega) only [part_append_part, Ssz.part_zero_length]

end

end ExecutionPayload

/-! ### Headers and bids -/

namespace ExecutionPayloadHeader

/-- How a header and the bytes it was read from go together. -/
structure ReadFrom (before buf : List UInt8) (e : ExecutionPayloadHeader) : Prop where
  size : 568 ≤ buf.length
  ordered : 568 ≤ offsetAt buf 436 ∧ offsetAt buf 436 ≤ buf.length
  head : (e.fixedPart.take 10).flatten = part buf 0 436
  middle : (e.fixedPart.drop 11).flatten = part buf 440 568
  extraData : e.extraData = before ++ part buf (offsetAt buf 436) buf.length
  short : buf.length - offsetAt buf 436 ≤ 32

/-- A header is read in range. -/
theorem returns_unmarshalSSZ (target : ExecutionPayloadHeader) (buf : List UInt8) :
    Returns (target.unmarshalSSZ buf) (ReadFrom target.extraData buf) := by
  simp only [unmarshalSSZ]
  refine returns_ite_throw fun hsize => ?_
  iterate 11 refine returns_slice (by omega) (by omega) ?_
  refine returns_readOffset (by omega) rfl ?_
  refine returns_ite_throw fun h10 => returns_ite_throw fun hfixed => ?_
  iterate 4 refine returns_slice (by omega) (by omega) ?_
  refine returns_sliceFrom (by omega) (returns_ite_throw fun hshort => returns_pure ?_)
  rw [length_part le_rfl] at hshort
  refine ⟨by omega, by omega, ?_, ?_, rfl, by omega⟩
  · simp only [fixedPart, List.take_succ_cons, List.take_zero, List.flatten_cons, List.flatten_nil,
      List.append_nil]
    simp (disch := omega) only [toList_copyBytes_part, uint64Bytes_part, part_append_part]
  · simp only [fixedPart, List.drop_succ_cons, List.drop_zero, List.flatten_cons, List.flatten_nil,
      List.append_nil]
    simp (disch := omega) only [toList_copyBytes_part, part_append_part]

section

variable {buf : List UInt8} {e : ExecutionPayloadHeader}

/-- No bytes are skipped: the extra data begin where the fixed part ends. -/
def Tight (buf : List UInt8) : Prop := offsetAt buf 436 = 568

instance (buf : List UInt8) : Decidable (Tight buf) := inferInstanceAs (Decidable (_ = _))

theorem ReadFrom.length_extraData (h : ReadFrom [] buf e) :
    e.extraData.length = buf.length - offsetAt buf 436 := by
  rw [h.extraData, List.nil_append, length_part le_rfl]

theorem ReadFrom.sizeSSZ_le (h : ReadFrom [] buf e) :
    e.sizeSSZ ≤ buf.length ∧ (e.sizeSSZ = buf.length → Tight buf) := by
  have hordered := h.ordered
  have hextra := h.length_extraData
  rw [sizeSSZ, Tight]
  omega

theorem ReadFrom.encode_eq (h : ReadFrom [] buf e) (ht : Tight buf) : e.encode = buf := by
  rw [Tight] at ht
  have hsize := h.size
  have hfirst : writeOffset 568 = part buf 436 440 := by
    rw [← ht]
    exact Ssz.writeOffset_offsetAt (by omega)
  have hfixed : e.fixedPart.flatten = part buf 0 568 := by
    have hsplit : e.fixedPart =
        e.fixedPart.take 10 ++ (writeOffset 568 :: e.fixedPart.drop 11) := rfl
    rw [hsplit, List.flatten_append, List.flatten_cons, h.head, h.middle, hfirst]
    simp (disch := omega) only [part_append_part]
  rw [encode, hfixed, h.extraData, List.nil_append, ht,
    part_append_part (by omega) (by omega) le_rfl, Ssz.part_zero_length]

end

end ExecutionPayloadHeader

namespace BuilderBid

/-- How a bid of a builder and the bytes it was read from go together. -/
structure ReadFrom (before buf : List UInt8) (b : BuilderBid) : Prop where
  ordered : 84 ≤ offsetAt buf 0 ∧ offsetAt buf 0 ≤ buf.length
  fields : reversedValue b.capellaValue ++ b.capellaPubkey.toList = part buf 4 84
  header : ∃ header, b.capellaHeader = some header ∧
    header.ReadFrom before (part buf (offsetAt buf 0) buf.length)

/-- A bid of a builder is read in range. -/
theorem returns_unmarshalSSZ (target : BuilderBid) (buf : List UInt8) :
    Returns (target.unmarshalSSZ buf) (ReadFrom target.header.extraData buf) := by
  simp only [unmarshalSSZ]
  refine returns_ite_throw fun hsize => returns_slice (by omega) (by omega) ?_
  refine returns_readOffset (by omega) rfl ?_
  refine returns_ite_throw fun h0 => returns_ite_throw fun hfixed => ?_
  have hvalue : ((List.range 32).mapM fun i => index buf (35 - i) : Decoder GoError _) =
      pure (part buf 4 36).reverse := Ssz.mapM_index_down 4 36 (by omega)
  rw [hvalue, pure_bind]
  refine returns_slice (by omega) (by omega) (returns_sliceFrom (by omega) ?_)
  refine (ExecutionPayloadHeader.returns_unmarshalSSZ _ _).bind fun header hheader => ?_
  refine returns_pure ⟨by omega, ?_, header, rfl, hheader⟩
  have hlen : (part buf 4 36).reverse.length = 32 := by
    rw [List.length_reverse, length_part (by omega)]
  rw [reversedValue_eq, Ssz.toList_copyBytes hlen, List.reverse_reverse,
    toList_copyBytes_part (by omega) rfl, part_append_part (by omega) (by omega) (by omega)]

section

variable {buf : List UInt8} {b : BuilderBid}

/-- No bytes are skipped. -/
def Tight (buf : List UInt8) : Prop :=
  offsetAt buf 0 = 84 ∧ ExecutionPayloadHeader.Tight (part buf (offsetAt buf 0) buf.length)

instance (buf : List UInt8) : Decidable (Tight buf) := inferInstanceAs (Decidable (_ ∧ _))

theorem ReadFrom.marshalSSZTo_eq (h : ReadFrom [] buf b) (dst : List UInt8) :
    b.marshalSSZTo dst = .ok (dst ++ b.encode) := by
  obtain ⟨header, hheader, hread⟩ := h.header
  refine BuilderBid.marshalSSZTo_eq ?_ dst
  rw [BuilderBid.header, hheader, Option.getD_some, hread.length_extraData]
  exact hread.short

theorem ReadFrom.sizeSSZ_le (h : ReadFrom [] buf b) :
    b.sizeSSZ ≤ buf.length ∧ (b.sizeSSZ = buf.length → Tight buf) := by
  have hordered := h.ordered
  obtain ⟨header, hheader, hread⟩ := h.header
  obtain ⟨hle, htight⟩ := hread.sizeSSZ_le
  rw [length_part le_rfl] at hle htight
  rw [sizeSSZ, BuilderBid.header, hheader, Option.getD_some]
  exact ⟨by omega, fun _ => ⟨by omega, htight (by omega)⟩⟩

theorem ReadFrom.encode_eq (h : ReadFrom [] buf b) (ht : Tight buf) : b.encode = buf := by
  obtain ⟨h0, ht⟩ := ht
  have hordered := h.ordered
  obtain ⟨header, hheader, hread⟩ := h.header
  have hfirst : writeOffset 84 = part buf 0 4 := by
    rw [← h0]
    exact Ssz.writeOffset_offsetAt (by omega)
  rw [encode, ← List.append_assoc (reversedValue _), h.fields, BuilderBid.header, hheader,
    Option.getD_some, hread.encode_eq ht, h0, hfirst]
  simp (disch := omega) only [part_append_part, Ssz.part_zero_length]

end

end BuilderBid

namespace BuilderBidExtended

/-- How a bid and the bytes it was read from go together. -/
structure ReadFrom (before buf : List UInt8) (b : BuilderBidExtended) : Prop where
  ordered : 60 ≤ offsetAt buf 0 ∧ offsetAt buf 0 ≤ buf.length
  fields : b.capellaProposer.toList ++ uint64Bytes b.capellaSlot = part buf 4 60
  bid : b.capellaBuilderBid.ReadFrom before (part buf (offsetAt buf 0) buf.length)

/-- A bid is read in range. -/
theorem returns_unmarshalSSZ (target : BuilderBidExtended) (buf : List UInt8) :
    Returns (target.unmarshalSSZ buf)
      (ReadFrom target.capellaBuilderBid.header.extraData buf) := by
  simp only [unmarshalSSZ]
  refine returns_ite_throw fun hsize => returns_slice (by omega) (by omega) ?_
  refine returns_readOffset (by omega) rfl ?_
  refine returns_ite_throw fun h0 => returns_ite_throw fun hfixed => ?_
  iterate 2 refine returns_slice (by omega) (by omega) ?_
  refine returns_sliceFrom (by omega) ?_
  refine (BuilderBid.returns_unmarshalSSZ _ _).bind fun bid hbid => ?_
  refine returns_pure ⟨by omega, ?_, hbid⟩
  simp (disch := omega) only [toList_copyBytes_part, uint64Bytes_part, part_append_part]

section

variable {buf : List UInt8} {b : BuilderBidExtended}

/-- No bytes are skipped. -/
def Tight (buf : List UInt8) : Prop :=
  offsetAt buf 0 = 60 ∧ BuilderBid.Tight (part buf (offsetAt buf 0) buf.length)

instance (buf : List UInt8) : Decidable (Tight buf) := inferInstanceAs (Decidable (_ ∧ _))

theorem ReadFrom.marshalSSZ_eq (h : ReadFrom [] buf b) : b.marshalSSZ = .ok b.encode := by
  simp only [marshalSSZ, marshalSSZTo]
  rw [h.bid.marshalSSZTo_eq, encode]
  simp only [List.nil_append, List.append_assoc]

theorem ReadFrom.tight_of_sizeSSZ (h : ReadFrom [] buf b) (hsize : b.sizeSSZ = buf.length) :
    Tight buf := by
  have hordered := h.ordered
  obtain ⟨hle, htight⟩ := h.bid.sizeSSZ_le
  rw [length_part le_rfl] at hle htight
  rw [sizeSSZ] at hsize
  exact ⟨by omega, htight (by omega)⟩

theorem ReadFrom.encode_eq (h : ReadFrom [] buf b) (ht : Tight buf) : b.encode = buf := by
  obtain ⟨h0, ht⟩ := ht
  have hordered := h.ordered
  have hfirst : writeOffset 60 = part buf 0 4 := by
    rw [← h0]
    exact Ssz.writeOffset_offsetAt (by omega)
  rw [encode, ← List.append_assoc b.capellaProposer.toList, h.fields, h.bid.encode_eq ht, h0,
    hfirst]
  simp (disch := omega) only [part_append_part, Ssz.part_zero_length]

end

end BuilderBidExtended

end Capella

/-! ### Stored values -/

theorem BidTrace.returns_unmarshalSSZ (buf : List UInt8) :
    Returns (BidTrace.unmarshalSSZ buf) fun bt => bt.fixedPart.flatten = part buf 0 236 := by
  rw [BidTrace.unmarshalSSZ]
  refine returns_ite_throw fun hsize => ?_
  iterate 9 refine returns_slice (by omega) (by omega) ?_
  refine returns_pure ?_
  simp only [fixedPart, List.flatten_cons, List.flatten_nil, List.append_nil]
  simp (disch := omega) only [toList_copyBytes_part, uint64Bytes_part, part_append_part]

theorem SignedBidTrace.returns_unmarshalSSZ (buf : List UInt8) :
    Returns (SignedBidTrace.unmarshalSSZ buf) fun sbt => sbt.encode = part buf 0 332 := by
  rw [SignedBidTrace.unmarshalSSZ]
  refine returns_ite_throw fun hsize => ?_
  iterate 2 refine returns_slice (by omega) (by omega) ?_
  refine (BidTrace.returns_unmarshalSSZ _).bind fun message hmessage => returns_pure ?_
  have hlen : (part buf 96 332).length = 236 := length_part (by omega)
  have hall : part (part buf 96 332) 0 236 = part buf 96 332 := by
    rw [← hlen, Ssz.part_zero_length]
  rw [encode, hmessage, hall, toList_copyBytes_part (by omega) rfl,
    part_append_part (by omega) (by omega) (by omega)]

namespace Capella

namespace GetPayloadResponse

/-- How an answer and the bytes it was read from go together. -/
structure ReadFrom (before buf : List UInt8) (gpr : GetPayloadResponse) : Prop where
  size : 8 ≤ buf.length
  ordered : 8 ≤ offsetAt buf 0 ∧ offsetAt buf 0 ≤ offsetAt buf 4 ∧ offsetAt buf 4 ≤ buf.length
  version : gpr.capellaVersion = part buf (offsetAt buf 0) (offsetAt buf 4)
  data : gpr.capellaData.ReadFrom before (part buf (offsetAt buf 4) buf.length)

/-- An answer is read in range. -/
theorem returns_unmarshalSSZ (target : GetPayloadResponse) (buf : List UInt8) :
    Returns (target.unmarshalSSZ buf) (ReadFrom target.capellaData.epExtraData buf) := by
  simp only [unmarshalSSZ]
  refine returns_ite_throw fun hsize => returns_slice (by omega) (by omega) ?_
  refine returns_readOffset (by omega) rfl ?_
  refine returns_ite_throw fun hversion => returns_ite_throw fun hfixed => ?_
  refine returns_slice (by omega) (by omega) ?_
  refine returns_readOffset (by omega) rfl (returns_ite_throw fun hdata => ?_)
  refine returns_slice (by omega) (by omega) (returns_sliceFrom (by omega) ?_)
  refine (ExecutionPayload.returns_unmarshalSSZ _ _).bind fun data hread => ?_
  exact returns_pure ⟨by omega, by omega, rfl, hread⟩

section

variable {buf : List UInt8} {gpr : GetPayloadResponse}

/-- No bytes are skipped. -/
def Tight (buf : List UInt8) : Prop :=
  offsetAt buf 0 = 8 ∧ ExecutionPayload.Tight (part buf (offsetAt buf 4) buf.length)

instance (buf : List UInt8) : Decidable (Tight buf) := inferInstanceAs (Decidable (_ ∧ _))

theorem ReadFrom.length_version (h : ReadFrom [] buf gpr) :
    gpr.capellaVersion.length = offsetAt buf 4 - offsetAt buf 0 := by
  rw [h.version, length_part h.ordered.2.2]

theorem ReadFrom.sizeSSZ_le (h : ReadFrom [] buf gpr) :
    gpr.sizeSSZ ≤ buf.length ∧ (gpr.sizeSSZ = buf.length → Tight buf) := by
  have hordered := h.ordered
  have hversion := h.length_version
  obtain ⟨hle, htight⟩ := h.data.sizeSSZ_le
  rw [length_part le_rfl] at hle htight
  rw [sizeSSZ]
  exact ⟨by omega, fun _ => ⟨by omega, htight (by omega)⟩⟩

theorem ReadFrom.encode_eq (h : ReadFrom [] buf gpr) (ht : Tight buf) : gpr.encode = buf := by
  obtain ⟨h0, ht⟩ := ht
  have hsize := h.size
  have hordered := h.ordered
  have hversion := h.length_version
  have hfirst : writeOffset 8 = part buf 0 4 := by
    rw [← h0]
    exact Ssz.writeOffset_offsetAt (by omega)
  have h4 : 8 + gpr.capellaVersion.length = offsetAt buf 4 := by omega
  rw [encode, h4, hfirst, Ssz.writeOffset_offsetAt (by omega), h.version, h.data.encode_eq ht, h0]
  simp (disch := omega) only [part_append_part, Ssz.part_zero_length]

end

end GetPayloadResponse

namespace BlockAndTraceExtended

/-- How a stored value and the bytes it was read from go together. -/
structure ReadFrom (before buf : List UInt8) (bte : BlockAndTraceExtended) : Prop where
  ordered : 368 ≤ offsetAt buf 0 ∧ offsetAt buf 0 ≤ buf.length
  fields : bte.capellaTrace.encode ++ bte.capellaExecutionHeaderHash.toList = part buf 4 368
  payload : bte.capellaPayload.ReadFrom before (part buf (offsetAt buf 0) buf.length)

/-- A stored value is read in range. -/
theorem returns_unmarshalSSZ (target : BlockAndTraceExtended) (buf : List UInt8) :
    Returns (target.unmarshalSSZ buf)
      (ReadFrom target.capellaPayload.capellaData.epExtraData buf) := by
  simp only [unmarshalSSZ]
  refine returns_ite_throw fun hsize => returns_slice (by omega) (by omega) ?_
  refine returns_readOffset (by omega) rfl ?_
  refine returns_ite_throw fun h0 => returns_ite_throw fun hfixed => ?_
  refine returns_slice (by omega) (by omega) ?_
  refine ((SignedBidTrace.returns_unmarshalSSZ _).adapt _).bind fun trace htrace => ?_
  refine returns_slice (by omega) (by omega) (returns_sliceFrom (by omega) ?_)
  refine ((GetPayloadResponse.returns_unmarshalSSZ _ _).adapt _).bind fun payload hpayload => ?_
  refine returns_pure ⟨by omega, ?_, hpayload⟩
  have hlen : (part buf 4 336).length = 332 := length_part (by omega)
  have hall : part (part buf 4 336) 0 332 = part buf 4 336 := by
    rw [← hlen, Ssz.part_zero_length]
  rw [htrace, hall, toList_copyBytes_part (by omega) rfl,
    part_append_part (by omega) (by omega) (by omega)]

section

variable {buf : List UInt8} {bte : BlockAndTraceExtended}

/-- No bytes are skipped. -/
def Tight (buf : List UInt8) : Prop :=
  offsetAt buf 0 = 368 ∧ GetPayloadResponse.Tight (part buf (offsetAt buf 0) buf.length)

instance (buf : List UInt8) : Decidable (Tight buf) := inferInstanceAs (Decidable (_ ∧ _))

theorem ReadFrom.marshalSSZ_eq (h : ReadFrom [] buf bte) : bte.marshalSSZ = .ok bte.encode :=
  BlockAndTraceExtended.marshalSSZ_eq h.payload.data.writable h.payload.data.long

theorem ReadFrom.tight_of_sizeSSZ (h : ReadFrom [] buf bte) (hsize : bte.sizeSSZ = buf.length) :
    Tight buf := by
  have hordered := h.ordered
  obtain ⟨hle, htight⟩ := h.payload.sizeSSZ_le
  rw [length_part le_rfl] at hle htight
  rw [sizeSSZ] at hsize
  exact ⟨by omega, htight (by omega)⟩

theorem ReadFrom.encode_eq (h : ReadFrom [] buf bte) (ht : Tight buf) : bte.encode = buf := by
  obtain ⟨h0, ht⟩ := ht
  have hordered := h.ordered
  have hfirst : writeOffset 368 = part buf 0 4 := by
    rw [← h0]
    exact Ssz.writeOffset_offsetAt (by omega)
  rw [encode, ← List.append_assoc bte.capellaTrace.encode, h.fields, h.payload.encode_eq ht, h0,
    hfirst]
  simp (disch := omega) only [part_append_part, Ssz.part_zero_length]

end

end BlockAndTraceExtended

/-! ### Submissions -/

/-- `types.BidTrace.UnmarshalSSZ`, which is not part of the repository: it fails unless it is given
236 bytes. -/
structure BidTraceDecoder where
  unmarshalSSZ : List UInt8 → Except GoError BidTrace
  size : ∀ b bt, unmarshalSSZ b = .ok bt → b.length = 236

instance : Inhabited BidTraceDecoder := ⟨⟨fun _ => .error errSize, fun _ _ h => nomatch h⟩⟩

/-- `capella.SubmitBlockRequest`, the fields that are read from the bytes. -/
structure SubmitBlockRequest where
  capellaMessage : BidTrace
  capellaExecutionPayload : ExecutionPayload
  capellaSignature : Signature
  deriving DecidableEq, Inhabited, Repr

namespace SubmitBlockRequest

def unmarshalSSZ (T : BidTraceDecoder) (s : SubmitBlockRequest) (buf : List UInt8) :
    Decoder GoError SubmitBlockRequest :=
  let size := buf.length
  if size < 336 then throw errSize
  else do
    let message ← slice buf 0 236
    let capellaMessage ← ExceptT.mk (some (T.unmarshalSSZ message))
    let o1 ← slice buf 236 240
    let o1 ← readOffset o1
    if o1 > size then throw errOffset
    else if o1 < 336 then throw errInvalidVariableOffset
    else do
      let signature ← slice buf 240 336
      let payload ← sliceFrom buf o1
      let capellaExecutionPayload ← s.capellaExecutionPayload.unmarshalSSZ payload
      return {
        capellaMessage
        capellaExecutionPayload
        capellaSignature := copyBytes 96 signature }

/-- A submission is read in range. -/
theorem returns_unmarshalSSZ (T : BidTraceDecoder) (target : SubmitBlockRequest)
    (buf : List UInt8) :
    Returns (target.unmarshalSSZ T buf) fun s => offsetAt buf 236 ≤ buf.length ∧
      s.capellaExecutionPayload.ReadFrom target.capellaExecutionPayload.epExtraData
        (part buf (offsetAt buf 236) buf.length) := by
  simp only [unmarshalSSZ]
  refine returns_ite_throw fun hsize => returns_slice (by omega) (by omega) ?_
  have hmessage : Returns (ExceptT.mk (some (T.unmarshalSSZ (part buf 0 236))) :
      Decoder GoError BidTrace) fun _ => True := ⟨_, rfl, fun _ _ => trivial⟩
  refine hmessage.bind fun message _ => returns_slice (by omega) (by omega) ?_
  refine returns_readOffset (by omega) rfl ?_
  refine returns_ite_throw fun h1 => returns_ite_throw fun hfixed => ?_
  refine returns_slice (by omega) (by omega) (returns_sliceFrom (by omega) ?_)
  refine (ExecutionPayload.returns_unmarshalSSZ _ _).bind fun payload hpayload => ?_
  exact returns_pure ⟨by omega, hpayload⟩

end SubmitBlockRequest

/-- The elements of the lists of a payload stand one behind the other, up to the end of the bytes.
-/
theorem ExecutionPayload.ReadFrom.exists_pieces {buf : List UInt8} {e : ExecutionPayload}
    (h : e.ReadFrom [] buf) :
    ∃ pre pieces, buf = pre ++ (e.epTransactions.flatten ++ pieces.flatten) ∧
      List.Forall₂ (fun piece w => Withdrawal.unmarshalSSZ piece = .ok w) pieces
        (e.epWithdrawals.getD []) := by
  have hsize := h.size
  have hordered := h.ordered
  obtain ⟨ws, hws, -, hbytes⟩ := h.withdrawals
  -- the bytes of the transactions: what stands before them, and the transactions
  have htxs : ∃ offsets, part buf (offsetAt buf 504) (offsetAt buf 508) =
      offsets ++ e.epTransactions.flatten := by
    rcases h.transactions with ⟨-, htxs⟩ | ⟨-, hnone⟩
    · exact ⟨_, htxs⟩
    · refine ⟨part buf (offsetAt buf 504) (offsetAt buf 508), ?_⟩
      rw [hnone, List.flatten_nil, List.append_nil]
  obtain ⟨offsets, htxs⟩ := htxs
  refine ⟨part buf 0 (offsetAt buf 504) ++ offsets, ws.map Withdrawal.encode, ?_, ?_⟩
  · rw [← List.flatMap_def, hbytes, List.append_assoc, ← List.append_assoc offsets, ← htxs]
    simp (disch := omega) only [part_append_part, Ssz.part_zero_length]
  · rw [hws, Option.getD_some, List.forall₂_map_left_iff, List.forall₂_same]
    exact fun w _ => w.unmarshalSSZ_encode

/-- **No decoder panics**, whatever the bytes and the value that is filled; and a submission that is
accepted into a zero value keeps the limits, with the elements of its lists one behind the other in
the bytes. -/
theorem unmarshalSSZ_inRange (T : BidTraceDecoder) (buf : List UInt8) :
    (∀ s : SubmitBlockRequest, (s.unmarshalSSZ T buf).run ≠ none) ∧
    (∀ b : BuilderBidExtended, (b.unmarshalSSZ buf).run ≠ none) ∧
    (∀ bte : BlockAndTraceExtended, (bte.unmarshalSSZ buf).run ≠ none) ∧
    ∀ s, ((default : SubmitBlockRequest).unmarshalSSZ T buf).run = some (.ok s) →
      s.capellaExecutionPayload.epExtraData.length ≤ 32 ∧
      s.capellaExecutionPayload.epTransactions.length ≤ 1048576 ∧
      (s.capellaExecutionPayload.epWithdrawals.getD []).length ≤ 16 ∧
      ∃ pre pieces, buf =
          pre ++ (s.capellaExecutionPayload.epTransactions.flatten ++ pieces.flatten) ∧
        List.Forall₂ (fun piece w => Withdrawal.unmarshalSSZ piece = .ok w) pieces
          (s.capellaExecutionPayload.epWithdrawals.getD []) := by
  refine ⟨fun s => (s.returns_unmarshalSSZ T buf).ne_none,
    fun b => (b.returns_unmarshalSSZ buf).ne_none,
    fun bte => (bte.returns_unmarshalSSZ buf).ne_none, ?_⟩
  intro s hs
  obtain ⟨h1, hread⟩ := ((default : SubmitBlockRequest).returns_unmarshalSSZ T buf).of_run hs
  obtain ⟨pre, pieces, hbuf, hpieces⟩ := ExecutionPayload.ReadFrom.exists_pieces hread
  have hwritable := ExecutionPayload.ReadFrom.writable hread
  refine ⟨hwritable.extraData, hwritable.transactions, hwritable.withdrawals,
    part buf 0 (offsetAt buf 236) ++ pre, pieces, ?_, hpieces⟩
  rw [List.append_assoc, ← hbuf, part_append_part (Nat.zero_le _) h1 le_rfl, Ssz.part_zero_length]

/-! ### What is read is written back -/

/-- The values that are read from bytes are written as the same bytes exactly on the bytes that meet
the condition, and no two byte strings that do are read as the same value. -/
def CanonicalOn {α : Type} (unmarshalSSZ : List UInt8 → Decoder GoError α)
    (marshalSSZ : α → Except GoError (List UInt8)) (tight : List UInt8 → Prop) : Prop :=
  (∀ b x, (unmarshalSSZ b).run = some (.ok x) → (marshalSSZ x = .ok b ↔ tight b)) ∧
  ∀ b b' x, (unmarshalSSZ b).run = some (.ok x) → (unmarshalSSZ b').run = some (.ok x) →
    tight b → tight b' → b = b'

/-- The second part follows from the first one. -/
theorem canonicalOn_of_iff {α : Type} {unmarshalSSZ : List UInt8 → Decoder GoError α}
    {marshalSSZ : α → Except GoError (List UInt8)} {tight : List UInt8 → Prop}
    (h : ∀ b x, (unmarshalSSZ b).run = some (.ok x) → (marshalSSZ x = .ok b ↔ tight b)) :
    CanonicalOn unmarshalSSZ marshalSSZ tight := by
  refine ⟨h, ?_⟩
  intro b b' x hb hb' ht ht'
  exact Except.ok.inj (((h b x hb).2 ht).symm.trans ((h b' x hb').2 ht'))

/-- What is written has all the bytes that were read exactly if none was skipped. -/
theorem marshal_eq_iff {buf encoded : List UInt8} {size : ℕ} {tight : Prop}
    {written : Except GoError (List UInt8)} (hwritten : written = .ok encoded)
    (hlen : encoded.length = size) (hsize : size = buf.length → tight)
    (hencode : tight → encoded = buf) : written = .ok buf ↔ tight := by
  rw [hwritten]
  constructor
  · intro h
    exact hsize (by rw [← hlen, Except.ok.inj h])
  · intro ht
    rw [hencode ht]

/-- **A value is written as the bytes it was read from exactly where none of them was skipped.** -/
theorem canonical_iff_tight :
    CanonicalOn (default : ExecutionPayload).unmarshalSSZ (fun e => e.marshalSSZTo [])
      ExecutionPayload.Tight ∧
    CanonicalOn (default : BuilderBidExtended).unmarshalSSZ BuilderBidExtended.marshalSSZ
      BuilderBidExtended.Tight ∧
    CanonicalOn (default : BlockAndTraceExtended).unmarshalSSZ BlockAndTraceExtended.marshalSSZ
      BlockAndTraceExtended.Tight := by
  refine ⟨canonicalOn_of_iff ?_, canonicalOn_of_iff ?_, canonicalOn_of_iff ?_⟩
  · intro b e he
    have h := ((default : ExecutionPayload).returns_unmarshalSSZ b).of_run he
    exact marshal_eq_iff (h.marshalSSZTo_eq []) e.length_encode h.sizeSSZ_le.2 h.encode_eq
  · intro b bid hbid
    have h := ((default : BuilderBidExtended).returns_unmarshalSSZ b).of_run hbid
    exact marshal_eq_iff h.marshalSSZ_eq bid.length_encode h.tight_of_sizeSSZ h.encode_eq
  · intro b bte hbte
    have h := ((default : BlockAndTraceExtended).returns_unmarshalSSZ b).of_run hbte
    exact marshal_eq_iff h.marshalSSZ_eq bte.length_encode h.tight_of_sizeSSZ h.encode_eq

/-- A payload of zeros with one byte between the fixed part and the first field. -/
def gapped : List UInt8 :=
  List.replicate 436 0 ++ (writeOffset 513 ++ (List.replicate 64 0 ++ (writeOffset 513 ++
    (writeOffset 513 ++ [0]))))

theorem exists_run_eq_ok {α : Type} {x : Decoder GoError α} (h : x.run.any Except.isOk = true) :
    ∃ a, x.run = some (.ok a) := by
  generalize x.run = r at h ⊢
  match r, h with
  | some (.ok a), _ => exact ⟨a, rfl⟩

/-- **One byte that is skipped**: the payload is accepted, and it is not written as these bytes. -/
theorem gap_not_written :
    ∃ e, ((default : ExecutionPayload).unmarshalSSZ gapped).run = some (.ok e) ∧
      e.marshalSSZTo [] ≠ .ok gapped := by
  have haccepted :
      ((default : ExecutionPayload).unmarshalSSZ gapped).run.any Except.isOk = true := by
    decide +kernel
  have hskipped : ¬ExecutionPayload.Tight gapped := by decide +kernel
  obtain ⟨e, he⟩ := exists_run_eq_ok haccepted
  have h := ((default : ExecutionPayload).returns_unmarshalSSZ gapped).of_run he
  refine ⟨e, he, ?_⟩
  rw [ne_eq, marshal_eq_iff (h.marshalSSZTo_eq []) e.length_encode h.sizeSSZ_le.2 h.encode_eq]
  exact hskipped

end Capella

end Dreamboat
