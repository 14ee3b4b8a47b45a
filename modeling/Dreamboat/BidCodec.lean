/-
**The form in which a Capella bid is sent.**

An instance sends the bids it accepts to the others as SSZ (`capella.BuilderBidExtended` in
`src/structs/forks/capella/capella.go`).  There are three containers, one within the other: the bid
with its proposer and slot, the bid of the builder, and the header, each with one variable field.
The header is behind a pointer; `nil` is written as a header of zeros.  The value is written from
its last byte to its first one and read in the same way.

Main definitions:

* `Capella.ExecutionPayloadHeader.marshalSSZTo`, `Capella.BuilderBid.marshalSSZTo`,
  `Capella.BuilderBidExtended.marshalSSZTo` — the writers, with `unmarshalSSZ` and `sizeSSZ` of the
  same types;
* `Capella.BuilderBidExtended.encode` — the bytes a bid is written as.

Main results:

* `Capella.BuilderBid.unmarshalSSZ_encode` — the bid of a builder is read back, its value with it;
* `Capella.BuilderBidExtended.marshalSSZ_readBack` — **a bid is the same in every instance**.
-/

import Dreamboat.PayloadCodec
import Dreamboat.SszDecode

set_option autoImplicit false

namespace Dreamboat

namespace Capella

open Ssz (Decoder slice sliceFrom copyBytes writeOffset readOffset uint64Bytes index part)
open SszError

/-! ### The header -/

namespace ExecutionPayloadHeader

def sizeSSZ (e : ExecutionPayloadHeader) : ℕ := 568 + e.extraData.length

def marshalSSZTo (e : ExecutionPayloadHeader) (buf : List UInt8) : Except GoError (List UInt8) :=
  let dst := buf ++ e.parentHash.toList ++ e.feeRecipient.toList ++ e.stateRoot.toList ++
    e.receiptsRoot.toList ++ e.logsBloom.toList ++ e.random.toList ++ uint64Bytes e.blockNumber ++
    uint64Bytes e.gasLimit ++ uint64Bytes e.gasUsed ++ uint64Bytes e.timestamp ++
    writeOffset 568 ++ e.baseFeePerGas.bytes.toList ++ e.blockHash.toList ++
    e.transactionsRoot.toList ++ e.withdrawalsRoot.toList
  if e.extraData.length > 32 then
    .error (errBytesLengthFn "ExecutionPayloadHeader.ExtraData" e.extraData.length 32)
  else .ok (dst ++ e.extraData)

/-- `UnmarshalSSZ` on the header `e`: the extra data is appended to the one of `e`. -/
def unmarshalSSZ (e : ExecutionPayloadHeader) (buf : List UInt8) :
    Decoder GoError ExecutionPayloadHeader :=
  let size := buf.length
  if size < 568 then throw errSize
  else do
    let parentHash ← slice buf 0 32
    let feeRecipient ← slice buf 32 52
    let stateRoot ← slice buf 52 84
    let receiptsRoot ← slice buf 84 116
    let logsBloom ← slice buf 116 372
    let random ← slice buf 372 404
    let blockNumber ← slice buf 404 412
    let gasLimit ← slice buf 412 420
    let gasUsed ← slice buf 420 428
    let timestamp ← slice buf 428 436
    let o10 ← slice buf 436 440
    let o10 ← readOffset o10
    if o10 > size then throw errOffset
    else if o10 < 568 then throw errInvalidVariableOffset
    else do
      let baseFeePerGas ← slice buf 440 472
      let blockHash ← slice buf 472 504
      let transactionsRoot ← slice buf 504 536
      let withdrawalsRoot ← slice buf 536 568
      let extraData ← sliceFrom buf o10
      if extraData.length > 32 then throw errBytesLength
      else return {
        parentHash := copyBytes 32 parentHash
        feeRecipient := copyBytes 20 feeRecipient
        stateRoot := copyBytes 32 stateRoot
        receiptsRoot := copyBytes 32 receiptsRoot
        logsBloom := copyBytes 256 logsBloom
        random := copyBytes 32 random
        blockNumber := unmarshallUint64 blockNumber
        gasLimit := unmarshallUint64 gasLimit
        gasUsed := unmarshallUint64 gasUsed
        timestamp := unmarshallUint64 timestamp
        extraData := e.extraData ++ extraData
        baseFeePerGas := ⟨copyBytes 32 baseFeePerGas⟩
        blockHash := copyBytes 32 blockHash
        transactionsRoot := copyBytes 32 transactionsRoot
        withdrawalsRoot := copyBytes 32 withdrawalsRoot }

end ExecutionPayloadHeader

/-! ### The bid of a builder -/

/-- `capella.BuilderBid`; `none` is a header that is `nil`. -/
structure BuilderBid where
  capellaHeader : Option ExecutionPayloadHeader
  capellaValue : U256Str
  capellaPubkey : PublicKey
  deriving DecidableEq, Inhabited, Repr

namespace BuilderBid

/-- The header, a new one where there is none. -/
def header (b : BuilderBid) : ExecutionPayloadHeader := b.capellaHeader.getD default

def sizeSSZ (b : BuilderBid) : ℕ := 84 + b.header.sizeSSZ

/-- The loop that appends the bytes of the value, the last one first. -/
def reversedValue (v : U256Str) : List UInt8 :=
  List.ofFn fun i : Fin 32 => v.bytes[31 - i.val]

def marshalSSZTo (b : BuilderBid) (buf : List UInt8) : Except GoError (List UInt8) :=
  let dst := buf ++ writeOffset 84
  let dst := dst ++ reversedValue b.capellaValue ++ b.capellaPubkey.toList
  b.header.marshalSSZTo dst

def unmarshalSSZ (b : BuilderBid) (buf : List UInt8) : Decoder GoError BuilderBid :=
  let size := buf.length
  if size < 84 then throw errSize
  else do
    let o0 ← slice buf 0 4
    let o0 ← readOffset o0
    if o0 > size then throw errOffset
    else if o0 < 84 then throw errInvalidVariableOffset
    else do
      let value ← (List.range 32).mapM fun i => index buf (35 - i)
      let pubkey ← slice buf 36 84
      let header ← sliceFrom buf o0
      let header ← b.header.unmarshalSSZ header
      return {
        capellaHeader := some header
        capellaValue := ⟨copyBytes 32 value⟩
        capellaPubkey := copyBytes 48 pubkey }

end BuilderBid

/-! ### The bid with its proposer and slot -/

/-- `capella.BuilderBidExtended`. -/
structure BuilderBidExtended where
  capellaBuilderBid : BuilderBid
  capellaProposer : PublicKey
  capellaSlot : UInt64
  deriving DecidableEq, Inhabited, Repr

namespace BuilderBidExtended

def sizeSSZ (b : BuilderBidExtended) : ℕ := 60 + b.capellaBuilderBid.sizeSSZ

def marshalSSZTo (b : BuilderBidExtended) (buf : List UInt8) : Except GoError (List UInt8) :=
  let dst := buf ++ writeOffset 60
  let dst := dst ++ b.capellaProposer.toList ++ uint64Bytes b.capellaSlot
  b.capellaBuilderBid.marshalSSZTo dst

/-- `ssz.MarshalSSZ` starts with an empty buffer. -/
def marshalSSZ (b : BuilderBidExtended) : Except GoError (List UInt8) := b.marshalSSZTo []

def unmarshalSSZ (b : BuilderBidExtended) (buf : List UInt8) :
    Decoder GoError BuilderBidExtended :=
  let size := buf.length
  if size < 60 then throw errSize
  else do
    let o0 ← slice buf 0 4
    let o0 ← readOffset o0
    if o0 > size then throw errOffset
    else if o0 < 60 then throw errInvalidVariableOffset
    else do
      let proposer ← slice buf 4 52
      let slot ← slice buf 52 60
      let bid ← sliceFrom buf o0
      let capellaBuilderBid ← b.capellaBuilderBid.unmarshalSSZ bid
      return {
        capellaBuilderBid
        capellaProposer := copyBytes 48 proposer
        capellaSlot := unmarshallUint64 slot }

end BuilderBidExtended

/-! ### The header is read back -/

namespace ExecutionPayloadHeader

/-- The fixed part of a header. -/
def fixedPart (e : ExecutionPayloadHeader) : List (List UInt8) :=
  [e.parentHash.toList, e.feeRecipient.toList, e.stateRoot.toList, e.receiptsRoot.toList,
    e.logsBloom.toList, e.random.toList, uint64Bytes e.blockNumber, uint64Bytes e.gasLimit,
    uint64Bytes e.gasUsed, uint64Bytes e.timestamp, writeOffset 568, e.baseFeePerGas.bytes.toList,
    e.blockHash.toList, e.transactionsRoot.toList, e.withdrawalsRoot.toList]

/-- The bytes a header is written as. -/
def encode (e : ExecutionPayloadHeader) : List UInt8 := e.fixedPart.flatten ++ e.extraData

@[simp] theorem length_fixedPart (e : ExecutionPayloadHeader) :
    e.fixedPart.flatten.length = 568 := by
  simp [fixedPart]

theorem length_encode (e : ExecutionPayloadHeader) : e.encode.length = e.sizeSSZ := by
  rw [encode, List.length_append, length_fixedPart, sizeSSZ]

theorem marshalSSZTo_eq {e : ExecutionPayloadHeader} (h : e.extraData.length ≤ 32)
    (buf : List UInt8) : e.marshalSSZTo buf = .ok (buf ++ e.encode) := by
  simp only [marshalSSZTo]
  rw [if_neg (by omega)]
  simp only [encode, fixedPart, List.flatten_cons, List.flatten_nil, List.append_assoc,
    List.nil_append]

/-- A slice of the fixed part. -/
theorem slice_encode (e : ExecutionPayloadHeader) {piece : List UInt8} (k lo hi : ℕ)
    (hk : e.fixedPart[k]? = some piece)
    (hlo : (e.fixedPart.take k).flatten.length = lo := by simp [fixedPart])
    (hhi : lo + piece.length = hi := by simp) :
    (slice e.encode lo hi : Decoder GoError _) = pure piece :=
  Ssz.slice_field k hk hlo hhi

/-- A header is read back, with the extra data behind the one of the header it is read into. -/
theorem unmarshalSSZ_encode (target : ExecutionPayloadHeader) {e : ExecutionPayloadHeader}
    (h : e.extraData.length ≤ 32) :
    target.unmarshalSSZ e.encode =
      pure { e with extraData := target.extraData ++ e.extraData } := by
  have hparent := e.slice_encode 0 0 32 rfl
  have hrecipient := e.slice_encode 1 32 52 rfl
  have hstate := e.slice_encode 2 52 84 rfl
  have hreceipts := e.slice_encode 3 84 116 rfl
  have hbloom := e.slice_encode 4 116 372 rfl
  have hrandom := e.slice_encode 5 372 404 rfl
  have hnumber := e.slice_encode 6 404 412 rfl
  have hlimit := e.slice_encode 7 412 420 rfl
  have hused := e.slice_encode 8 420 428 rfl
  have htime := e.slice_encode 9 428 436 rfl
  have ho10 := e.slice_encode 10 436 440 rfl
  have hfee := e.slice_encode 11 440 472 rfl
  have hhash := e.slice_encode 12 472 504 rfl
  have htxs := e.slice_encode 13 504 536 rfl
  have hws := e.slice_encode 14 536 568 rfl
  have hextra : (sliceFrom e.encode 568 : Decoder GoError _) = pure e.extraData :=
    Ssz.sliceFrom_of_eq rfl e.length_fixedPart
  have hread : (readOffset (writeOffset 568) : Decoder GoError ℕ) = pure 568 :=
    Ssz.readOffset_writeOffset_self (by decide)
  have hlen := e.length_encode
  rw [sizeSSZ] at hlen
  simp only [unmarshalSSZ]
  rw [if_neg (by omega)]
  simp only [hparent, hrecipient, hstate, hreceipts, hbloom, hrandom, hnumber, hlimit, hused, htime,
    ho10, hread, pure_bind]
  rw [if_neg (by omega), if_neg (by omega)]
  simp only [hfee, hhash, htxs, hws, hextra, pure_bind]
  rw [if_neg (by omega)]
  simp only [unmarshallUint64_uint64Bytes, Ssz.copyBytes_toList]

end ExecutionPayloadHeader

/-! ### A bid is read back -/

namespace BuilderBid

theorem reversedValue_eq (v : U256Str) : reversedValue v = v.bytes.toList.reverse := by
  refine List.ext_getElem ?_ ?_
  · rw [reversedValue, List.length_ofFn, List.length_reverse, Vector.length_toList]
  · intro i _ _
    rw [List.getElem_reverse]
    simp only [reversedValue, List.getElem_ofFn, Vector.getElem_toList, Vector.length_toList]

@[simp] theorem length_reversedValue (v : U256Str) : (reversedValue v).length = 32 := by
  rw [reversedValue, List.length_ofFn]

/-- The bytes a bid of a builder is written as. -/
def encode (b : BuilderBid) : List UInt8 :=
  writeOffset 84 ++ (reversedValue b.capellaValue ++ (b.capellaPubkey.toList ++ b.header.encode))

theorem length_encode (b : BuilderBid) : b.encode.length = b.sizeSSZ := by
  rw [encode, List.length_append, List.length_append, List.length_append, Ssz.length_writeOffset,
    length_reversedValue, Vector.length_toList, ExecutionPayloadHeader.length_encode, sizeSSZ]
  omega

theorem marshalSSZTo_eq {b : BuilderBid} (h : b.header.extraData.length ≤ 32)
    (buf : List UInt8) : b.marshalSSZTo buf = .ok (buf ++ b.encode) := by
  simp only [marshalSSZTo]
  rw [ExecutionPayloadHeader.marshalSSZTo_eq h, encode]
  simp only [List.append_assoc]

/-- **The value is read as it was written**: both loops go from its last byte to its first one. -/
theorem mapM_index_encode (b : BuilderBid) :
    ((List.range 32).mapM fun i => index b.encode (35 - i) : Decoder GoError _) =
      pure b.capellaValue.bytes.toList := by
  have hlen := b.length_encode
  rw [sizeSSZ] at hlen
  have hpart : part b.encode 4 36 = reversedValue b.capellaValue :=
    Ssz.part_of_eq rfl (by simp) (by simp)
  have hread : ((List.range 32).mapM fun i => index b.encode (35 - i) : Decoder GoError _) =
      pure (part b.encode 4 36).reverse := Ssz.mapM_index_down 4 36 (by omega)
  rw [hread, hpart, reversedValue_eq, List.reverse_reverse]

/-- **The bid of a builder is read back**, into any bid without extra data of its own. -/
theorem unmarshalSSZ_encode {target b : BuilderBid} (htarget : target.header.extraData = [])
    (h : b.header.extraData.length ≤ 32) :
    target.unmarshalSSZ b.encode = pure { b with capellaHeader := some b.header } := by
  have hoffset : (slice b.encode 0 4 : Decoder GoError _) = pure (writeOffset 84) :=
    Ssz.slice_of_eq (List.nil_append _).symm rfl (by simp)
  have hpubkey : (slice b.encode 36 84 : Decoder GoError _) = pure b.capellaPubkey.toList := by
    have hbuf : b.encode = writeOffset 84 ++ reversedValue b.capellaValue ++
        (b.capellaPubkey.toList ++ b.header.encode) := by rw [encode, List.append_assoc]
    exact Ssz.slice_of_eq hbuf (by simp) (by simp)
  have hheader : (sliceFrom b.encode 84 : Decoder GoError _) = pure b.header.encode := by
    have hbuf : b.encode = writeOffset 84 ++ reversedValue b.capellaValue ++
        b.capellaPubkey.toList ++ b.header.encode := by
      rw [encode, List.append_assoc, List.append_assoc]
    exact Ssz.sliceFrom_of_eq hbuf (by simp)
  have hread : (readOffset (writeOffset 84) : Decoder GoError ℕ) = pure 84 :=
    Ssz.readOffset_writeOffset_self (by decide)
  have hlen := b.length_encode
  rw [sizeSSZ] at hlen
  simp only [unmarshalSSZ]
  rw [if_neg (by omega), hoffset, pure_bind, hread, pure_bind, if_neg (by omega),
    if_neg (by omega), mapM_index_encode, pure_bind, hpubkey, pure_bind, hheader, pure_bind,
    ExecutionPayloadHeader.unmarshalSSZ_encode _ h, pure_bind, htarget, List.nil_append,
    Ssz.copyBytes_toList, Ssz.copyBytes_toList]

end BuilderBid

namespace BuilderBidExtended

/-- The bytes a bid is sent as. -/
def encode (b : BuilderBidExtended) : List UInt8 :=
  writeOffset 60 ++ (b.capellaProposer.toList ++ (uint64Bytes b.capellaSlot ++
    b.capellaBuilderBid.encode))

theorem length_encode (b : BuilderBidExtended) : b.encode.length = b.sizeSSZ := by
  rw [encode, List.length_append, List.length_append, List.length_append, Ssz.length_writeOffset,
    Vector.length_toList, Ssz.length_uint64Bytes, BuilderBid.length_encode, sizeSSZ]
  omega

theorem marshalSSZ_eq {b : BuilderBidExtended}
    (h : b.capellaBuilderBid.header.extraData.length ≤ 32) : b.marshalSSZ = .ok b.encode := by
  simp only [marshalSSZ, marshalSSZTo]
  rw [BuilderBid.marshalSSZTo_eq h, encode]
  simp only [List.nil_append, List.append_assoc]

theorem unmarshalSSZ_encode {b : BuilderBidExtended}
    (h : b.capellaBuilderBid.header.extraData.length ≤ 32) :
    (default : BuilderBidExtended).unmarshalSSZ b.encode = pure { b with
      capellaBuilderBid := { b.capellaBuilderBid with
        capellaHeader := some b.capellaBuilderBid.header } } := by
  have hoffset : (slice b.encode 0 4 : Decoder GoError _) = pure (writeOffset 60) :=
    Ssz.slice_of_eq (List.nil_append _).symm rfl (by simp)
  have hproposer : (slice b.encode 4 52 : Decoder GoError _) = pure b.capellaProposer.toList :=
    Ssz.slice_of_eq rfl (by simp) (by simp)
  have hslot : (slice b.encode 52 60 : Decoder GoError _) = pure (uint64Bytes b.capellaSlot) := by
    have hbuf : b.encode = writeOffset 60 ++ b.capellaProposer.toList ++
        (uint64Bytes b.capellaSlot ++ b.capellaBuilderBid.encode) := by
      rw [encode, List.append_assoc]
    exact Ssz.slice_of_eq hbuf (by simp) (by simp)
  have hbid : (sliceFrom b.encode 60 : Decoder GoError _) = pure b.capellaBuilderBid.encode := by
    have hbuf : b.encode = writeOffset 60 ++ b.capellaProposer.toList ++
        uint64Bytes b.capellaSlot ++ b.capellaBuilderBid.encode := by
      rw [encode, List.append_assoc, List.append_assoc]
    exact Ssz.sliceFrom_of_eq hbuf (by simp)
  have hread : (readOffset (writeOffset 60) : Decoder GoError ℕ) = pure 60 :=
    Ssz.readOffset_writeOffset_self (by decide)
  have hlen := b.length_encode
  rw [sizeSSZ] at hlen
  simp only [unmarshalSSZ]
  rw [if_neg (by omega), hoffset, pure_bind, hread, pure_bind, if_neg (by omega),
    if_neg (by omega), hproposer, pure_bind, hslot, pure_bind, hbid, pure_bind,
    BuilderBid.unmarshalSSZ_encode rfl h, pure_bind, Ssz.copyBytes_toList,
    unmarshallUint64_uint64Bytes]

/-- **A bid is the same in every instance**: it is written, in as many bytes as `SizeSSZ` says, and
a zero value into which they are read becomes the bid again. -/
theorem marshalSSZ_readBack (b : BuilderBidExtended) (header : ExecutionPayloadHeader)
    (hheader : b.capellaBuilderBid.capellaHeader = some header)
    (hextra : header.extraData.length ≤ 32) :
    ∃ buf, b.marshalSSZ = .ok buf ∧ buf.length = b.sizeSSZ ∧
      ((default : BuilderBidExtended).unmarshalSSZ buf).run = some (.ok b) := by
  have hget : b.capellaBuilderBid.header = header := by
    rw [BuilderBid.header, hheader, Option.getD_some]
  have h : b.capellaBuilderBid.header.extraData.length ≤ 32 := by rwa [hget]
  refine ⟨b.encode, marshalSSZ_eq h, b.length_encode, ?_⟩
  rw [unmarshalSSZ_encode h, hget, ← hheader]
  rfl

/-- A bid with a value of two different bytes and a header with extra data. -/
def sample : BuilderBidExtended where
  capellaBuilderBid := ⟨some { (default : ExecutionPayloadHeader) with extraData := [1, 2] },
    .ofNat 513, default⟩
  capellaProposer := default
  capellaSlot := 7

theorem marshalSSZ_readBack_sample :
    sample.sizeSSZ = 714 ∧ ∃ buf, sample.marshalSSZ = .ok buf ∧ buf.length = 714 ∧
      ((default : BuilderBidExtended).unmarshalSSZ buf).run = some (.ok sample) :=
  ⟨by decide, marshalSSZ_readBack sample _ rfl (by decide)⟩

end BuilderBidExtended

end Capella

end Dreamboat
