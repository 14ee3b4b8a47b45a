/-
**The stored form of a Capella payload.**

The payload store keeps `capella.BlockAndTraceExtended` as SSZ.  The code in
`src/structs/forks/capella/capella.go` is written by hand after the pattern of generated code: four
containers, one within the other, with the offsets of their variable fields.

`MarshalSSZTo` appends to a buffer.  `UnmarshalSSZ` fills a value; the one field to which it
appends is the extra data, so that the value it is called on matters.  The fixed arrays are
overwritten as a whole.  A version is the bytes of a string.

Main definitions:

* `Withdrawal.marshalSSZTo`, `BidTrace.marshalSSZTo`, `SignedBidTrace.marshalSSZTo`,
  `Capella.ExecutionPayload.marshalSSZTo`, `Capella.GetPayloadResponse.marshalSSZTo`,
  `Capella.BlockAndTraceExtended.marshalSSZTo` — the writers, with `unmarshalSSZ` of the same types
  and `sizeSSZ` of the variable ones;
* `Capella.ExecutionPayload.encode` — the bytes a payload is written as.

Main results:

* `Capella.ExecutionPayload.unmarshalSSZ_encode` — a payload is read back;
* `Capella.BlockAndTraceExtended.unmarshalSSZ_marshalSSZ` — **what is stored is read back**, if no
  transaction is too long;
* `Capella.BlockAndTraceExtended.marshalSSZ_of_long` — a long transaction is not stored.
-/

import Dreamboat.SszCodec
import Dreamboat.SubmitOutcome

set_option autoImplicit false

namespace Dreamboat

open Ssz (Decoder slice sliceFrom copyBytes writeOffset readOffset writeOffsets writeList
  uint64Bytes)

/-! ### Errors -/

namespace SszError

def errSize : GoError := .new "incorrect size"

def errOffset : GoError := .new "incorrect offset"

def errInvalidVariableOffset : GoError :=
  .new "invalid ssz encoding. first variable element offset indexes into fixed value data"

def errBytesLength : GoError := .new "bytes array does not have the correct length"

def errBytesLengthFn (name : String) (found expected : ℕ) : GoError :=
  .new (name ++ " (bytes array does not have the correct length): expected " ++ toString expected ++
    " and " ++ toString found ++ " found")

def errListTooBigFn (name : String) (found max : ℕ) : GoError :=
  .new (name ++ " (list length is higher than max value): max expected " ++ toString max ++
    " and " ++ toString found ++ " found")

/-- `fmt.Errorf` with a text in front of an error. -/
def wrapped (msg : String) (err : GoError) : GoError := .wrap (msg ++ ": " ++ err.error) err

end SszError

open SszError

/-! ### Withdrawals -/

namespace Withdrawal

def marshalSSZTo (w : Withdrawal) (buf : List UInt8) : Except GoError (List UInt8) :=
  .ok (buf ++ uint64Bytes w.index ++ uint64Bytes w.validatorIndex ++ w.address.toList ++
    uint64Bytes w.amount)

end Withdrawal

/-- The withdrawals of a payload: `ssz.DivideInt2(len(buf), 44, 16)`, and a slice for each of them.
-/
def decodeWithdrawals (buf : List UInt8) : Decoder GoError (List Withdrawal) := do
  let num ← Ssz.divideInt2 .new buf.length 44 16
  (List.range num).mapM fun ii => do
    let b ← slice buf (ii * 44) ((ii + 1) * 44)
    ExceptT.mk (some (Withdrawal.unmarshalSSZ b))

/-! ### The signed bid -/

namespace BidTrace

def marshalSSZTo (bt : BidTrace) (buf : List UInt8) : Except GoError (List UInt8) :=
  .ok (buf ++ uint64Bytes bt.slot ++ bt.parentHash.toList ++ bt.blockHash.toList ++
    bt.builderPubkey.toList ++ bt.proposerPubkey.toList ++ bt.proposerFeeRecipient.toList ++
    uint64Bytes bt.gasLimit ++ uint64Bytes bt.gasUsed ++ bt.value.bytes.toList)

def unmarshalSSZ (buf : List UInt8) : Decoder GoError BidTrace :=
  if buf.length < 236 then throw errSize
  else do
    let slot ← slice buf 0 8
    let parentHash ← slice buf 8 40
    let blockHash ← slice buf 40 72
    let builderPubkey ← slice buf 72 120
    let proposerPubkey ← slice buf 120 168
    let proposerFeeRecipient ← slice buf 168 188
    let gasLimit ← slice buf 188 196
    let gasUsed ← slice buf 196 204
    let value ← slice buf 204 236
    return {
      slot := unmarshallUint64 slot
      parentHash := copyBytes 32 parentHash
      blockHash := copyBytes 32 blockHash
      builderPubkey := copyBytes 48 builderPubkey
      proposerPubkey := copyBytes 48 proposerPubkey
      proposerFeeRecipient := copyBytes 20 proposerFeeRecipient
      gasLimit := unmarshallUint64 gasLimit
      gasUsed := unmarshallUint64 gasUsed
      value := ⟨copyBytes 32 value⟩ }

end BidTrace

namespace SignedBidTrace

def marshalSSZTo (sbt : SignedBidTrace) (buf : List UInt8) : Except GoError (List UInt8) :=
  sbt.message.marshalSSZTo (buf ++ sbt.signature.toList)

def unmarshalSSZ (buf : List UInt8) : Decoder GoError SignedBidTrace :=
  if buf.length < 332 then throw errSize
  else do
    let signature ← slice buf 0 96
    let message ← slice buf 96 332
    let message ← BidTrace.unmarshalSSZ message
    return { signature := copyBytes 96 signature, message }

end SignedBidTrace

namespace Capella

/-! ### The payload -/

namespace ExecutionPayload

def sizeSSZ (e : ExecutionPayload) : ℕ :=
  512 + e.epExtraData.length + (e.epTransactions.map fun tx => 4 + tx.length).sum +
    (e.epWithdrawals.getD []).length * 44

/-- The loop that appends the transactions. -/
def appendTransactions (txs : List (List UInt8)) (dst : List UInt8) :
    Except GoError (List UInt8) :=
  txs.foldlM (fun dst tx =>
    if tx.length > 1073741824 then
      .error (errBytesLengthFn "ExecutionPayload.Transactions[ii]" tx.length 1073741824)
    else .ok (dst ++ tx)) dst

/-- The loop that appends the withdrawals. -/
def appendWithdrawals (withdrawals : List Withdrawal) (dst : List UInt8) :
    Except GoError (List UInt8) :=
  withdrawals.foldlM (fun dst w => w.marshalSSZTo dst) dst

def marshalSSZTo (e : ExecutionPayload) (buf : List UInt8) : Except GoError (List UInt8) :=
  let offset := 512
  let dst := buf ++ e.epParentHash.toList ++ e.epFeeRecipient.toList ++ e.epStateRoot.toList ++
    e.epReceiptsRoot.toList ++ e.epLogsBloom.toList ++ e.epRandom.toList ++
    uint64Bytes e.epBlockNumber ++ uint64Bytes e.epGasLimit ++ uint64Bytes e.epGasUsed ++
    uint64Bytes e.epTimestamp
  -- offset (10) `ExtraData`
  let dst := dst ++ writeOffset offset
  let offset := offset + e.epExtraData.length
  let dst := dst ++ e.epBaseFeePerGas.bytes.toList ++ e.epBlockHash.toList
  -- offset (13) `Transactions`
  let dst := dst ++ writeOffset offset
  let offset := offset + (e.epTransactions.map fun tx => 4 + tx.length).sum
  -- offset (14) `Withdrawals`
  let dst := dst ++ writeOffset offset
  if e.epExtraData.length > 32 then
    .error (errBytesLengthFn "ExecutionPayload.ExtraData" e.epExtraData.length 32)
  else
    let dst := dst ++ e.epExtraData
    if e.epTransactions.length > 1048576 then
      .error (errListTooBigFn "ExecutionPayload.Transactions" e.epTransactions.length 1048576)
    else do
      let dst := dst ++ writeOffsets (4 * e.epTransactions.length) e.epTransactions
      let dst ← appendTransactions e.epTransactions dst
      let withdrawals := e.epWithdrawals.getD []
      if withdrawals.length > 16 then
        .error (errListTooBigFn "ExecutionPayload.Withdrawals" withdrawals.length 16)
      else appendWithdrawals withdrawals dst

/-- The transactions of a payload. -/
def decodeTransactions (buf : List UInt8) : Decoder GoError (List (List UInt8)) := do
  let num ← Ssz.decodeDynamicLength .new buf 1048576
  Ssz.unmarshalDynamic .new buf num fun b =>
    if b.length > 1073741824 then throw errBytesLength else pure b

/-- `UnmarshalSSZ` on the value `e`: the extra data is appended to the one of `e`. -/
def unmarshalSSZ (e : ExecutionPayload) (buf : List UInt8) : Decoder GoError ExecutionPayload :=
  let size := buf.length
  if size < 512 then throw errSize
  else do
    let parentHash ← slice buf 0 32
    let feeRecipient ← slice buf 32 52
    let stateRoot ← slice buf 52 84
    let receiptsRoot ← slice buf 84 116
    let logsBloom ← slice buf 116 372
    let random ← slice buf 372 404
    let blockNumber ← slice buf 404 412
    let gasLimit ← slice buf 412 420
    let gasUsed ← slice buf 420 428
    let timestamp ← slice buf 428 436
    let o10 ← slice buf 436 440
    let o10 ← readOffset o10
    if o10 > size then throw errOffset
    else if o10 < 512 then throw errInvalidVariableOffset
    else do
      let baseFeePerGas ← slice buf 440 472
      let blockHash ← slice buf 472 504
      let o13 ← slice buf 504 508
      let o13 ← readOffset o13
      if o13 > size ∨ o10 > o13 then throw errOffset
      else do
        let o14 ← slice buf 508 512
        let o14 ← readOffset o14
        if o14 > size ∨ o13 > o14 then throw errOffset
        else do
          let extraData ← slice buf o10 o13
          if extraData.length > 32 then throw errBytesLength
          else do
            let transactions ← slice buf o13 o14
            let transactions ← decodeTransactions transactions
            let withdrawals ← sliceFrom buf o14
            let withdrawals ← decodeWithdrawals withdrawals
            return {
              epParentHash := copyBytes 32 parentHash
              epFeeRecipient := copyBytes 20 feeRecipient
              epStateRoot := copyBytes 32 stateRoot
              epReceiptsRoot := copyBytes 32 receiptsRoot
              epLogsBloom := copyBytes 256 logsBloom
              epRandom := copyBytes 32 random
              epBlockNumber := unmarshallUint64 blockNumber
              epGasLimit := unmarshallUint64 gasLimit
              epGasUsed := unmarshallUint64 gasUsed
              epTimestamp := unmarshallUint64 timestamp
              epExtraData := e.epExtraData ++ extraData
              epBaseFeePerGas := ⟨copyBytes 32 baseFeePerGas⟩
              epBlockHash := copyBytes 32 blockHash
              epTransactions := transactions
              epWithdrawals := some withdrawals }

/-- The payload with an empty list in the place of one that is `nil`. -/
def filled (e : ExecutionPayload) : ExecutionPayload :=
  { e with epWithdrawals := some (e.epWithdrawals.getD []) }

end ExecutionPayload

/-! ### The answer with a payload -/

/-- `capella.GetPayloadResponse`, the version as bytes. -/
structure GetPayloadResponse where
  capellaVersion : List UInt8
  capellaData : ExecutionPayload
  deriving DecidableEq, Inhabited, Repr

namespace GetPayloadResponse

def sizeSSZ (gpr : GetPayloadResponse) : ℕ :=
  4 + gpr.capellaVersion.length + (4 + gpr.capellaData.sizeSSZ)

def marshalSSZTo (gpr : GetPayloadResponse) (buf : List UInt8) : Except GoError (List UInt8) :=
  let versionOffset := 4 + 4
  let buf := buf ++ writeOffset versionOffset
  let dataOffset := versionOffset + gpr.capellaVersion.length
  let buf := buf ++ writeOffset dataOffset
  let buf := buf ++ gpr.capellaVersion
  gpr.capellaData.marshalSSZTo buf

def unmarshalSSZ (gpr : GetPayloadResponse) (buf : List UInt8) :
    Decoder GoError GetPayloadResponse :=
  let size := buf.length
  if size < 8 then throw errSize
  else do
    let versionOffset ← slice buf 0 4
    let versionOffset ← readOffset versionOffset
    if versionOffset > size then throw errOffset
    else if versionOffset < 8 then throw errInvalidVariableOffset
    else do
      let dataOffset ← slice buf 4 8
      let dataOffset ← readOffset dataOffset
      if dataOffset > size ∨ versionOffset > dataOffset then throw errOffset
      else do
        let capellaVersion ← slice buf versionOffset dataOffset
        let data ← sliceFrom buf dataOffset
        let capellaData ← gpr.capellaData.unmarshalSSZ data
        return { capellaVersion, capellaData }

end GetPayloadResponse

/-! ### The stored value -/

/-- `capella.BlockAndTraceExtended`. -/
structure BlockAndTraceExtended where
  capellaPayload : GetPayloadResponse
  capellaTrace : SignedBidTrace
  capellaExecutionHeaderHash : Hash
  deriving DecidableEq, Inhabited, Repr

namespace BlockAndTraceExtended

def sizeSSZ (bte : BlockAndTraceExtended) : ℕ := 368 + bte.capellaPayload.sizeSSZ

def marshalSSZTo (bte : BlockAndTraceExtended) (buf : List UInt8) : Except GoError (List UInt8) :=
  let payloadOffset := 4 + 332 + 32
  let buf := buf ++ writeOffset payloadOffset
  match bte.capellaTrace.marshalSSZTo buf with
  | .error err => .error (wrapped "failed to marshal trace" err)
  | .ok buf =>
      let buf := buf ++ bte.capellaExecutionHeaderHash.toList
      match bte.capellaPayload.marshalSSZTo buf with
      | .error err => .error (wrapped "failed to marshal payload" err)
      | .ok buf => .ok buf

/-- `ssz.MarshalSSZ` starts with an empty buffer. -/
def marshalSSZ (bte : BlockAndTraceExtended) : Except GoError (List UInt8) := bte.marshalSSZTo []

def unmarshalSSZ (bte : BlockAndTraceExtended) (buf : List UInt8) :
    Decoder GoError BlockAndTraceExtended :=
  let size := buf.length
  if size < 368 then throw errSize
  else do
    let payloadOffset ← slice buf 0 4
    let payloadOffset ← readOffset payloadOffset
    if payloadOffset > size then throw errOffset
    else if payloadOffset < 368 then throw errInvalidVariableOffset
    else do
      let trace ← slice buf 4 336
      let capellaTrace ←
        (SignedBidTrace.unmarshalSSZ trace).adapt (wrapped "failed to unmarshal trace message")
      let hash ← slice buf 336 368
      let payload ← sliceFrom buf payloadOffset
      let capellaPayload ←
        (bte.capellaPayload.unmarshalSSZ payload).adapt (wrapped "failed to unmarshal payload data")
      return { capellaPayload, capellaTrace, capellaExecutionHeaderHash := copyBytes 32 hash }

/-- The value with an empty list in the place of one that is `nil`. -/
def filled (bte : BlockAndTraceExtended) : BlockAndTraceExtended :=
  { bte with capellaPayload :=
      { bte.capellaPayload with capellaData := bte.capellaPayload.capellaData.filled } }

end BlockAndTraceExtended

end Capella

/-! ### Parts that are read back -/

theorem unmarshallUint64_eq (buf : List UInt8) :
    unmarshallUint64 buf = UInt64.ofNat (Ssz.leNat buf) := by
  induction buf with
  | nil => rfl
  | cons b buf ih =>
      have hcons : unmarshallUint64 (b :: buf) = b.toUInt64 + 256 * unmarshallUint64 buf := rfl
      rw [hcons, ih, Ssz.leNat_cons, UInt64.ofNat_add, UInt64.ofNat_mul, UInt64.ofNat_uInt8ToNat]
      rfl

@[simp] theorem unmarshallUint64_uint64Bytes (v : UInt64) :
    unmarshallUint64 (uint64Bytes v) = v := by
  have hfits : v.toNat % 256 ^ 8 = v.toNat := Nat.mod_eq_of_lt v.toNat_lt
  rw [unmarshallUint64_eq, Ssz.uint64Bytes_eq, Ssz.leNat_leBytes, hfits, UInt64.ofNat_toNat]

/-- A loop that appends. -/
theorem foldlM_append {α : Type} {f : List UInt8 → α → Except GoError (List UInt8)}
    {g : α → List UInt8} {l : List α} (hf : ∀ dst, ∀ x ∈ l, f dst x = .ok (dst ++ g x))
    (dst : List UInt8) : l.foldlM f dst = .ok (dst ++ l.flatMap g) := by
  induction l generalizing dst with
  | nil => simp [pure, Except.pure]
  | cons x l ih =>
      rw [List.foldlM_cons, hf dst x List.mem_cons_self]
      exact (ih (fun dst y hy => hf dst y (List.mem_cons_of_mem _ hy)) (dst ++ g x)).trans
        (by simp)

/-- A loop over steps that do not panic. -/
theorem mapM_some {α β : Type} {f : α → Decoder GoError β} {g : α → Except GoError β} {l : List α}
    (hf : ∀ x ∈ l, f x = ExceptT.mk (some (g x))) : l.mapM f = ExceptT.mk (some (l.mapM g)) := by
  induction l with
  | nil => rfl
  | cons x l ih =>
      rw [List.mapM_cons, List.mapM_cons, hf x List.mem_cons_self,
        ih fun y hy => hf y (List.mem_cons_of_mem _ hy)]
      cases g x with
      | error err => rfl
      | ok y =>
          cases l.mapM g with
          | error err => rfl
          | ok ys => rfl

namespace Withdrawal

/-- The bytes a withdrawal is written as. -/
def encode (w : Withdrawal) : List UInt8 :=
  uint64Bytes w.index ++
    (uint64Bytes w.validatorIndex ++ (w.address.toList ++ uint64Bytes w.amount))

@[simp] theorem length_encode (w : Withdrawal) : w.encode.length = 44 := by simp [encode]

theorem marshalSSZTo_eq (w : Withdrawal) (buf : List UInt8) :
    w.marshalSSZTo buf = .ok (buf ++ w.encode) := by simp [marshalSSZTo, encode]

theorem unmarshalSSZ_encode (w : Withdrawal) : Withdrawal.unmarshalSSZ w.encode = .ok w := by
  have hdrop : ∀ (v : UInt64) (n : ℕ), 8 ≤ n → (uint64Bytes v).drop n = [] := by
    intro v n hn
    exact List.drop_eq_nil_of_le (by simpa using hn)
  have htake : ∀ v : UInt64, (uint64Bytes v).take 8 = uint64Bytes v := by
    intro v
    exact List.take_of_length_le (by simp)
  rw [Withdrawal.unmarshalSSZ, if_neg (by simp)]
  simp [encode, List.drop_append, hdrop, htake]

end Withdrawal

/-- **No slice of the withdrawals is out of range**: the decoder never panics, and it is the one
that takes the bytes apart without a look at the bounds. -/
theorem decodeWithdrawals_eq (buf : List UInt8) :
    decodeWithdrawals buf = ExceptT.mk (some (unmarshalWithdrawals buf)) := by
  rw [decodeWithdrawals, unmarshalWithdrawals, Ssz.divideInt2]
  split
  · rfl
  · split
    · rfl
    · rw [pure_bind]
      refine mapM_some ?_
      intro i hi
      have hlt : i < buf.length / 44 := List.mem_range.1 hi
      have hslice : (slice buf (i * 44) ((i + 1) * 44) : Decoder GoError _) =
          pure ((buf.drop (i * 44)).take 44) := by
        rw [slice, if_pos (by omega), List.drop_take]
        congr 2
        omega
      rw [hslice, pure_bind]

theorem decodeWithdrawals_encode {ws : List Withdrawal} (h : ws.length ≤ 16) :
    decodeWithdrawals (ws.flatMap Withdrawal.encode) = pure ws := by
  have hlen : (ws.flatMap Withdrawal.encode).length = ws.length * 44 := by
    simp [List.length_flatMap]
  have hloop : ∀ i ∈ List.range ws.length,
      (do
        let b ← slice (ws.flatMap Withdrawal.encode) (i * 44) ((i + 1) * 44)
        ExceptT.mk (some (Withdrawal.unmarshalSSZ b)) : Decoder GoError Withdrawal) =
      ExceptT.mk (some (.ok (ws.getD i default))) := by
    intro i hi
    have hx : ws[i]? = some (ws.getD i default) := by
      simp [List.getElem?_eq_getElem (List.mem_range.1 hi)]
    rw [Ssz.slice_flatMap Withdrawal.length_encode hx, pure_bind, Withdrawal.unmarshalSSZ_encode]
  have hall : (List.range ws.length).map (fun i => ws.getD i default) = ws := by
    refine List.ext_getElem (by simp) ?_
    intro i _ hi
    simp [List.getElem?_eq_getElem hi]
  rw [decodeWithdrawals, hlen, Ssz.divideInt2, if_neg (by simp), if_neg (by omega), pure_bind,
    Nat.mul_div_cancel _ (by decide), mapM_some hloop]
  exact congrArg (fun x => ExceptT.mk (some x)) (List.mapM_pure.trans (congrArg pure hall))

/-! ### The signed bid is read back -/

namespace BidTrace

/-- The fields of a bid, one behind the other. -/
def fixedPart (bt : BidTrace) : List (List UInt8) :=
  [uint64Bytes bt.slot, bt.parentHash.toList, bt.blockHash.toList, bt.builderPubkey.toList,
    bt.proposerPubkey.toList, bt.proposerFeeRecipient.toList, uint64Bytes bt.gasLimit,
    uint64Bytes bt.gasUsed, bt.value.bytes.toList]

theorem length_fixedPart (bt : BidTrace) : bt.fixedPart.flatten.length = 236 := by
  simp [fixedPart]

theorem marshalSSZTo_eq (bt : BidTrace) (buf : List UInt8) :
    bt.marshalSSZTo buf = .ok (buf ++ bt.fixedPart.flatten) := by
  simp [marshalSSZTo, fixedPart]

/-- A slice of the bytes of a bid. -/
theorem slice_fixedPart (bt : BidTrace) {piece : List UInt8} (k lo hi : ℕ)
    (hk : bt.fixedPart[k]? = some piece) (hlo : (bt.fixedPart.take k).flatten.length = lo)
    (hhi : lo + piece.length = hi) :
    (slice bt.fixedPart.flatten lo hi : Decoder GoError _) = pure piece :=
  Ssz.slice_flatten k hk hlo hhi

theorem unmarshalSSZ_fixedPart (bt : BidTrace) :
    BidTrace.unmarshalSSZ bt.fixedPart.flatten = pure bt := by
  have hslot := bt.slice_fixedPart 0 0 8 rfl rfl (by simp)
  have hparent := bt.slice_fixedPart 1 8 40 rfl (by simp [fixedPart]) (by simp)
  have hblock := bt.slice_fixedPart 2 40 72 rfl (by simp [fixedPart]) (by simp)
  have hbuilder := bt.slice_fixedPart 3 72 120 rfl (by simp [fixedPart]) (by simp)
  have hproposer := bt.slice_fixedPart 4 120 168 rfl (by simp [fixedPart]) (by simp)
  have hrecipient := bt.slice_fixedPart 5 168 188 rfl (by simp [fixedPart]) (by simp)
  have hlimit := bt.slice_fixedPart 6 188 196 rfl (by simp [fixedPart]) (by simp)
  have hused := bt.slice_fixedPart 7 196 204 rfl (by simp [fixedPart]) (by simp)
  have hvalue := bt.slice_fixedPart 8 204 236 rfl (by simp [fixedPart]) (by simp)
  rw [BidTrace.unmarshalSSZ, if_neg (by rw [length_fixedPart]; decide)]
  simp only [hslot, hparent, hblock, hbuilder, hproposer, hrecipient, hlimit, hused, hvalue,
    pure_bind, unmarshallUint64_uint64Bytes, Ssz.copyBytes_toList]

end BidTrace

namespace SignedBidTrace

/-- The bytes a signed bid is written as. -/
def encode (sbt : SignedBidTrace) : List UInt8 :=
  sbt.signature.toList ++ sbt.message.fixedPart.flatten

@[simp] theorem length_encode (sbt : SignedBidTrace) : sbt.encode.length = 332 := by
  rw [encode, List.length_append, BidTrace.length_fixedPart, Vector.length_toList]

theorem marshalSSZTo_eq (sbt : SignedBidTrace) (buf : List UInt8) :
    sbt.marshalSSZTo buf = .ok (buf ++ sbt.encode) := by
  rw [marshalSSZTo, BidTrace.marshalSSZTo_eq, encode, List.append_assoc]

theorem unmarshalSSZ_encode (sbt : SignedBidTrace) :
    SignedBidTrace.unmarshalSSZ sbt.encode = pure sbt := by
  have hsignature : (slice sbt.encode 0 96 : Decoder GoError _) = pure sbt.signature.toList :=
    Ssz.slice_of_eq (List.nil_append _).symm rfl (by simp)
  have hmessage : (slice sbt.encode 96 332 : Decoder GoError _) =
      pure sbt.message.fixedPart.flatten := by
    have hbuf : sbt.encode = sbt.signature.toList ++ (sbt.message.fixedPart.flatten ++ []) := by
      rw [List.append_nil, encode]
    exact Ssz.slice_of_eq hbuf (by simp) (by rw [BidTrace.length_fixedPart])
  rw [SignedBidTrace.unmarshalSSZ, if_neg (by simp)]
  simp only [hsignature, hmessage, pure_bind, BidTrace.unmarshalSSZ_fixedPart,
    Ssz.copyBytes_toList]

end SignedBidTrace

namespace Capella

/-! ### The payload is read back -/

namespace ExecutionPayload

/-- The fixed part of a payload. -/
def fixedPart (e : ExecutionPayload) : List (List UInt8) :=
  [e.epParentHash.toList, e.epFeeRecipient.toList, e.epStateRoot.toList, e.epReceiptsRoot.toList,
    e.epLogsBloom.toList, e.epRandom.toList, uint64Bytes e.epBlockNumber, uint64Bytes e.epGasLimit,
    uint64Bytes e.epGasUsed, uint64Bytes e.epTimestamp, writeOffset 512,
    e.epBaseFeePerGas.bytes.toList, e.epBlockHash.toList, writeOffset (512 + e.epExtraData.length),
    writeOffset (512 + e.epExtraData.length + (writeList e.epTransactions).length)]

/-- The bytes a payload is written as. -/
def encode (e : ExecutionPayload) : List UInt8 :=
  e.fixedPart.flatten ++ (e.epExtraData ++ (writeList e.epTransactions ++
    (e.epWithdrawals.getD []).flatMap Withdrawal.encode))

@[simp] theorem length_fixedPart (e : ExecutionPayload) : e.fixedPart.flatten.length = 512 := by
  simp [fixedPart]

/-- The offsets and the bytes of the transactions. -/
theorem length_writeList_eq (txs : List (List UInt8)) :
    (writeList txs).length = (txs.map fun tx => 4 + tx.length).sum := by
  rw [Ssz.length_writeList]
  induction txs with
  | nil => rfl
  | cons tx txs ih =>
      rw [List.map_cons, List.sum_cons, ← ih, List.flatten_cons, List.length_append,
        List.length_cons]
      omega

theorem length_encode (e : ExecutionPayload) : e.encode.length = e.sizeSSZ := by
  have hws : ((e.epWithdrawals.getD []).flatMap Withdrawal.encode).length =
      (e.epWithdrawals.getD []).length * 44 := by simp [List.length_flatMap]
  rw [encode, List.length_append, List.length_append, List.length_append, length_fixedPart,
    length_writeList_eq, hws, sizeSSZ]
  omega

/-- What can be written. -/
structure Writable (e : ExecutionPayload) : Prop where
  extraData : e.epExtraData.length ≤ 32
  transactions : e.epTransactions.length ≤ 1048576
  withdrawals : (e.epWithdrawals.getD []).length ≤ 16

theorem appendTransactions_eq {txs : List (List UInt8)} (h : ∀ tx ∈ txs, tx.length ≤ 1073741824)
    (dst : List UInt8) : appendTransactions txs dst = .ok (dst ++ txs.flatten) := by
  have hf : ∀ (dst : List UInt8), ∀ tx ∈ txs,
      (if tx.length > 1073741824 then
        Except.error (errBytesLengthFn "ExecutionPayload.Transactions[ii]" tx.length 1073741824)
      else .ok (dst ++ tx)) = .ok (dst ++ id tx) := by
    intro dst tx htx
    exact if_neg (by have := h tx htx; omega)
  rw [appendTransactions, foldlM_append hf, List.flatMap_id]

theorem appendWithdrawals_eq (ws : List Withdrawal) (dst : List UInt8) :
    appendWithdrawals ws dst = .ok (dst ++ ws.flatMap Withdrawal.encode) :=
  foldlM_append (fun dst w _ => w.marshalSSZTo_eq dst) dst

theorem marshalSSZTo_eq {e : ExecutionPayload} (h : e.Writable)
    (hlong : ∀ tx ∈ e.epTransactions, tx.length ≤ 1073741824) (buf : List UInt8) :
    e.marshalSSZTo buf = .ok (buf ++ e.encode) := by
  have hextra := h.extraData
  have htxs := h.transactions
  have hws := h.withdrawals
  simp only [marshalSSZTo]
  rw [if_neg (by omega), if_neg (by omega), appendTransactions_eq hlong]
  simp only [bind, Except.bind]
  rw [if_neg (by omega), appendWithdrawals_eq, ← length_writeList_eq]
  simp only [encode, fixedPart, writeList, List.flatten_cons, List.flatten_nil, List.append_assoc,
    List.nil_append]

/-- A slice of the fixed part. -/
theorem slice_encode (e : ExecutionPayload) {piece : List UInt8} (k lo hi : ℕ)
    (hk : e.fixedPart[k]? = some piece)
    (hlo : (e.fixedPart.take k).flatten.length = lo := by simp [fixedPart])
    (hhi : lo + piece.length = hi := by simp) :
    (slice e.encode lo hi : Decoder GoError _) = pure piece :=
  Ssz.slice_field k hk hlo hhi

theorem decodeTransactions_write {txs : List (List UInt8)} (hcount : txs.length ≤ 1048576)
    (hlen : (writeList txs).length < 2 ^ 32) (hlong : ∀ tx ∈ txs, tx.length ≤ 1073741824) :
    decodeTransactions (writeList txs) = pure txs := by
  have hf : ∀ tx ∈ txs, (if tx.length > 1073741824 then throw errBytesLength else pure tx :
      Decoder GoError (List UInt8)) = pure (id tx) := by
    intro tx htx
    exact if_neg (by have := hlong tx htx; omega)
  rw [decodeTransactions, Ssz.decodeDynamicLength_write _ hcount hlen, pure_bind,
    Ssz.unmarshalDynamic_write hlen hf, List.map_id]

/-- The variable fields stand where the offsets say. -/
theorem slices_encode (e : ExecutionPayload) :
    (slice e.encode 512 (512 + e.epExtraData.length) : Decoder GoError _) = pure e.epExtraData ∧
    (slice e.encode (512 + e.epExtraData.length)
      (512 + e.epExtraData.length + (writeList e.epTransactions).length) : Decoder GoError _) =
        pure (writeList e.epTransactions) ∧
    (sliceFrom e.encode
      (512 + e.epExtraData.length + (writeList e.epTransactions).length) : Decoder GoError _) =
        pure ((e.epWithdrawals.getD []).flatMap Withdrawal.encode) := by
  refine ⟨Ssz.slice_of_eq rfl e.length_fixedPart rfl, ?_, ?_⟩
  · have hbuf : e.encode = e.fixedPart.flatten ++ e.epExtraData ++ (writeList e.epTransactions ++
        (e.epWithdrawals.getD []).flatMap Withdrawal.encode) := by
      rw [encode, List.append_assoc]
    refine Ssz.slice_of_eq hbuf ?_ rfl
    rw [List.length_append, length_fixedPart]
  · have hbuf : e.encode = e.fixedPart.flatten ++ e.epExtraData ++ writeList e.epTransactions ++
        (e.epWithdrawals.getD []).flatMap Withdrawal.encode := by
      rw [encode, List.append_assoc, List.append_assoc]
    refine Ssz.sliceFrom_of_eq hbuf ?_
    rw [List.length_append, List.length_append, length_fixedPart]

/-- **A payload is read back**, with the extra data behind the one of the value it is read into. -/
theorem unmarshalSSZ_encode (target : ExecutionPayload) {e : ExecutionPayload} (h : e.Writable)
    (hlong : ∀ tx ∈ e.epTransactions, tx.length ≤ 1073741824) (hsize : e.sizeSSZ < 2 ^ 32) :
    target.unmarshalSSZ e.encode =
      pure { e.filled with epExtraData := target.epExtraData ++ e.epExtraData } := by
  have hparent := e.slice_encode 0 0 32 rfl
  have hrecipient := e.slice_encode 1 32 52 rfl
  have hstate := e.slice_encode 2 52 84 rfl
  have hreceipts := e.slice_encode 3 84 116 rfl
  have hbloom := e.slice_encode 4 116 372 rfl
  have hrandom := e.slice_encode 5 372 404 rfl
  have hnumber := e.slice_encode 6 404 412 rfl
  have hlimit := e.slice_encode 7 412 420 rfl
  have hused := e.slice_encode 8 420 428 rfl
  have htime := e.slice_encode 9 428 436 rfl
  have ho10 := e.slice_encode 10 436 440 rfl
  have hfee := e.slice_encode 11 440 472 rfl
  have hhash := e.slice_encode 12 472 504 rfl
  have ho13 := e.slice_encode 13 504 508 rfl
  have ho14 := e.slice_encode 14 508 512 rfl
  obtain ⟨hextra, htxs, hws⟩ := e.slices_encode
  have hlen : e.encode.length = 512 + e.epExtraData.length + (writeList e.epTransactions).length +
      (e.epWithdrawals.getD []).length * 44 := by
    rw [length_encode, sizeSSZ, length_writeList_eq]
  have hbound := e.length_encode
  have hread10 : (readOffset (writeOffset 512) : Decoder GoError ℕ) = pure 512 :=
    Ssz.readOffset_writeOffset_self (by decide)
  have hread13 : (readOffset (writeOffset (512 + e.epExtraData.length)) : Decoder GoError ℕ) =
      pure (512 + e.epExtraData.length) := Ssz.readOffset_writeOffset_self (by omega)
  have hread14 : (readOffset (writeOffset (512 + e.epExtraData.length +
      (writeList e.epTransactions).length)) : Decoder GoError ℕ) =
        pure (512 + e.epExtraData.length + (writeList e.epTransactions).length) :=
    Ssz.readOffset_writeOffset_self (by omega)
  have hshort := h.extraData
  -- the fields and checks in the order in which the decoder comes to them
  simp only [unmarshalSSZ]
  rw [if_neg (by omega)]
  simp only [hparent, hrecipient, hstate, hreceipts, hbloom, hrandom, hnumber, hlimit, hused, htime,
    ho10, hread10, pure_bind]
  rw [if_neg (by omega), if_neg (by omega)]
  simp only [hfee, hhash, ho13, hread13, pure_bind]
  rw [if_neg (by omega)]
  simp only [ho14, hread14, pure_bind]
  rw [if_neg (by omega), hextra, pure_bind, if_neg (by omega), htxs, pure_bind,
    decodeTransactions_write h.transactions (by omega) hlong, pure_bind, hws, pure_bind,
    decodeWithdrawals_encode h.withdrawals, pure_bind]
  simp only [unmarshallUint64_uint64Bytes, Ssz.copyBytes_toList, filled]

/-- A transaction that is too long ends the loop. -/
theorem appendTransactions_of_long {txs : List (List UInt8)}
    (h : ∃ tx ∈ txs, 1073741824 < tx.length) (dst : List UInt8) :
    ∃ err, appendTransactions txs dst = .error err := by
  induction txs generalizing dst with
  | nil => simp at h
  | cons tx txs ih =>
      by_cases hlong : tx.length > 1073741824
      · refine ⟨errBytesLengthFn "ExecutionPayload.Transactions[ii]" tx.length 1073741824, ?_⟩
        rw [appendTransactions, List.foldlM_cons, if_pos hlong]
        rfl
      · have hrest : ∃ tx ∈ txs, 1073741824 < tx.length := by
          obtain ⟨tx', htx', hlong'⟩ := h
          rcases List.mem_cons.1 htx' with rfl | htx'
          · exact absurd hlong' hlong
          · exact ⟨tx', htx', hlong'⟩
        obtain ⟨err, herr⟩ := ih hrest (dst ++ tx)
        refine ⟨err, ?_⟩
        rw [appendTransactions, List.foldlM_cons, if_neg hlong]
        exact herr

theorem marshalSSZTo_of_long {e : ExecutionPayload}
    (h : ∃ tx ∈ e.epTransactions, 1073741824 < tx.length) (buf : List UInt8) :
    ∃ err, e.marshalSSZTo buf = .error err := by
  simp only [marshalSSZTo]
  split
  · exact ⟨_, rfl⟩
  · split
    · exact ⟨_, rfl⟩
    · obtain ⟨err, herr⟩ := appendTransactions_of_long h _
      exact ⟨err, by rw [herr]; rfl⟩

end ExecutionPayload

/-! ### The stored value is read back -/

namespace GetPayloadResponse

/-- The bytes an answer is written as. -/
def encode (gpr : GetPayloadResponse) : List UInt8 :=
  writeOffset 8 ++ (writeOffset (8 + gpr.capellaVersion.length) ++
    (gpr.capellaVersion ++ gpr.capellaData.encode))

theorem length_encode (gpr : GetPayloadResponse) : gpr.encode.length = gpr.sizeSSZ := by
  rw [encode, List.length_append, List.length_append, List.length_append, Ssz.length_writeOffset,
    Ssz.length_writeOffset, ExecutionPayload.length_encode, sizeSSZ]
  omega

theorem marshalSSZTo_eq {gpr : GetPayloadResponse} (h : gpr.capellaData.Writable)
    (hlong : ∀ tx ∈ gpr.capellaData.epTransactions, tx.length ≤ 1073741824) (buf : List UInt8) :
    gpr.marshalSSZTo buf = .ok (buf ++ gpr.encode) := by
  simp only [marshalSSZTo]
  rw [ExecutionPayload.marshalSSZTo_eq h hlong, encode]
  simp only [List.append_assoc]

theorem unmarshalSSZ_encode (target : GetPayloadResponse) {gpr : GetPayloadResponse}
    (h : gpr.capellaData.Writable)
    (hlong : ∀ tx ∈ gpr.capellaData.epTransactions, tx.length ≤ 1073741824)
    (hsize : gpr.sizeSSZ < 2 ^ 32) :
    target.unmarshalSSZ gpr.encode = pure { gpr with
      capellaData := { gpr.capellaData.filled with
        epExtraData := target.capellaData.epExtraData ++ gpr.capellaData.epExtraData } } := by
  have hversion : (slice gpr.encode 0 4 : Decoder GoError _) = pure (writeOffset 8) :=
    Ssz.slice_of_eq (List.nil_append _).symm rfl (by simp)
  have hdata : (slice gpr.encode 4 8 : Decoder GoError _) =
      pure (writeOffset (8 + gpr.capellaVersion.length)) :=
    Ssz.slice_of_eq rfl (by simp) (by simp)
  have hbytes : (slice gpr.encode 8 (8 + gpr.capellaVersion.length) : Decoder GoError _) =
      pure gpr.capellaVersion := by
    have hbuf : gpr.encode = writeOffset 8 ++ writeOffset (8 + gpr.capellaVersion.length) ++
        (gpr.capellaVersion ++ gpr.capellaData.encode) := by rw [encode, List.append_assoc]
    exact Ssz.slice_of_eq hbuf (by simp) rfl
  have hpayload : (sliceFrom gpr.encode (8 + gpr.capellaVersion.length) : Decoder GoError _) =
      pure gpr.capellaData.encode := by
    have hbuf : gpr.encode = writeOffset 8 ++ writeOffset (8 + gpr.capellaVersion.length) ++
        gpr.capellaVersion ++ gpr.capellaData.encode := by
      rw [encode, List.append_assoc, List.append_assoc]
    refine Ssz.sliceFrom_of_eq hbuf ?_
    rw [List.length_append, List.length_append, Ssz.length_writeOffset, Ssz.length_writeOffset]
  have hread8 : (readOffset (writeOffset 8) : Decoder GoError ℕ) = pure 8 :=
    Ssz.readOffset_writeOffset_self (by decide)
  have hlen := gpr.length_encode
  rw [sizeSSZ] at hlen hsize
  have hreadData : (readOffset (writeOffset (8 + gpr.capellaVersion.length)) : Decoder GoError ℕ) =
      pure (8 + gpr.capellaVersion.length) := Ssz.readOffset_writeOffset_self (by
    rw [ExecutionPayload.sizeSSZ] at hsize
    omega)
  simp only [unmarshalSSZ]
  rw [if_neg (by omega), hversion, pure_bind, hread8, pure_bind, if_neg (by omega),
    if_neg (by omega), hdata, pure_bind, hreadData, pure_bind, if_neg ?_, hbytes, pure_bind,
    hpayload, pure_bind, ExecutionPayload.unmarshalSSZ_encode _ h hlong (by omega), pure_bind]
  rw [ExecutionPayload.sizeSSZ] at hlen
  omega

end GetPayloadResponse

namespace BlockAndTraceExtended

/-- The bytes a value is stored as. -/
def encode (bte : BlockAndTraceExtended) : List UInt8 :=
  writeOffset 368 ++ (bte.capellaTrace.encode ++
    (bte.capellaExecutionHeaderHash.toList ++ bte.capellaPayload.encode))

theorem length_encode (bte : BlockAndTraceExtended) : bte.encode.length = bte.sizeSSZ := by
  rw [encode, List.length_append, List.length_append, List.length_append, Ssz.length_writeOffset,
    SignedBidTrace.length_encode, Vector.length_toList, GetPayloadResponse.length_encode, sizeSSZ]
  omega

theorem marshalSSZ_eq {bte : BlockAndTraceExtended} (h : bte.capellaPayload.capellaData.Writable)
    (hlong : ∀ tx ∈ bte.capellaPayload.capellaData.epTransactions, tx.length ≤ 1073741824) :
    bte.marshalSSZ = .ok bte.encode := by
  simp only [marshalSSZ, marshalSSZTo, SignedBidTrace.marshalSSZTo_eq,
    GetPayloadResponse.marshalSSZTo_eq h hlong, encode, List.nil_append, List.append_assoc]

/-- A value with a transaction that is too long is not stored. -/
theorem marshalSSZ_of_long {bte : BlockAndTraceExtended}
    (h : ∃ tx ∈ bte.capellaPayload.capellaData.epTransactions, 1073741824 < tx.length) :
    ∃ err, bte.marshalSSZ = .error err := by
  simp only [marshalSSZ, marshalSSZTo, SignedBidTrace.marshalSSZTo_eq,
    GetPayloadResponse.marshalSSZTo]
  obtain ⟨err, herr⟩ := ExecutionPayload.marshalSSZTo_of_long h _
  exact ⟨wrapped "failed to marshal payload" err, by rw [herr]⟩

theorem adapt_pure {α : Type} (f : GoError → GoError) (x : α) :
    ExceptT.adapt f (pure x : Decoder GoError α) = pure x := rfl

theorem unmarshalSSZ_encode {bte : BlockAndTraceExtended}
    (h : bte.capellaPayload.capellaData.Writable)
    (hlong : ∀ tx ∈ bte.capellaPayload.capellaData.epTransactions, tx.length ≤ 1073741824)
    (hsize : bte.sizeSSZ < 2 ^ 32) :
    (default : BlockAndTraceExtended).unmarshalSSZ bte.encode = pure bte.filled := by
  have hoffset : (slice bte.encode 0 4 : Decoder GoError _) = pure (writeOffset 368) :=
    Ssz.slice_of_eq (List.nil_append _).symm rfl (by simp)
  have htrace : (slice bte.encode 4 336 : Decoder GoError _) = pure bte.capellaTrace.encode :=
    Ssz.slice_of_eq rfl (by simp) (by simp)
  have hhash : (slice bte.encode 336 368 : Decoder GoError _) =
      pure bte.capellaExecutionHeaderHash.toList := by
    have hbuf : bte.encode = writeOffset 368 ++ bte.capellaTrace.encode ++
        (bte.capellaExecutionHeaderHash.toList ++ bte.capellaPayload.encode) := by
      rw [encode, List.append_assoc]
    exact Ssz.slice_of_eq hbuf (by simp) (by simp)
  have hpayload : (sliceFrom bte.encode 368 : Decoder GoError _) =
      pure bte.capellaPayload.encode := by
    have hbuf : bte.encode = writeOffset 368 ++ bte.capellaTrace.encode ++
        bte.capellaExecutionHeaderHash.toList ++ bte.capellaPayload.encode := by
      rw [encode, List.append_assoc, List.append_assoc]
    exact Ssz.sliceFrom_of_eq hbuf (by simp)
  have hread : (readOffset (writeOffset 368) : Decoder GoError ℕ) = pure 368 :=
    Ssz.readOffset_writeOffset_self (by decide)
  have hlen := bte.length_encode
  rw [sizeSSZ] at hlen hsize
  have hinner := GetPayloadResponse.unmarshalSSZ_encode
    (default : BlockAndTraceExtended).capellaPayload h hlong (by omega)
  simp only [unmarshalSSZ]
  rw [if_neg (by omega), hoffset, pure_bind, hread, pure_bind, if_neg (by omega),
    if_neg (by omega), htrace, pure_bind, SignedBidTrace.unmarshalSSZ_encode, adapt_pure, pure_bind,
    hhash, pure_bind, hpayload, pure_bind, hinner, adapt_pure, pure_bind, Ssz.copyBytes_toList]
  rfl

/-- **What is stored is read back**: the value is written, in as many bytes as `SizeSSZ` says, and a
zero value into which they are read becomes the value again, up to a list of withdrawals that was
`nil`. -/
theorem unmarshalSSZ_marshalSSZ (bte : BlockAndTraceExtended)
    (hextra : bte.capellaPayload.capellaData.epExtraData.length ≤ 32)
    (htxs : bte.capellaPayload.capellaData.epTransactions.length ≤ 1048576)
    (hlong : ∀ tx ∈ bte.capellaPayload.capellaData.epTransactions, tx.length ≤ 1073741824)
    (hws : (bte.capellaPayload.capellaData.epWithdrawals.getD []).length ≤ 16)
    (hsize : bte.sizeSSZ < 2 ^ 32) :
    ∃ b, bte.marshalSSZ = .ok b ∧ b.length = bte.sizeSSZ ∧
      ∃ bte', ((default : BlockAndTraceExtended).unmarshalSSZ b).run = some (.ok bte') ∧
        bte'.filled = bte.filled := by
  have h : bte.capellaPayload.capellaData.Writable := ⟨hextra, htxs, hws⟩
  exact ⟨bte.encode, marshalSSZ_eq h hlong, bte.length_encode, bte.filled,
    congrArg ExceptT.run (unmarshalSSZ_encode h hlong hsize), rfl⟩

/-- A payload with extra data, two transactions, one of them empty, and a withdrawal. -/
def sample : BlockAndTraceExtended :=
  { (default : BlockAndTraceExtended) with
    capellaPayload := ⟨[99, 97, 112], { (default : ExecutionPayload) with
      epExtraData := [1, 2]
      epTransactions := [[3, 4, 5], []]
      epWithdrawals := some [default] }⟩ }

theorem unmarshalSSZ_marshalSSZ_sample :
    sample.sizeSSZ = 948 ∧ ∃ b, sample.marshalSSZ = .ok b ∧ b.length = 948 ∧
      ∃ bte', ((default : BlockAndTraceExtended).unmarshalSSZ b).run = some (.ok bte') ∧
        bte'.filled = sample.filled :=
  ⟨by decide, unmarshalSSZ_marshalSSZ sample (by decide) (by decide) (by decide) (by decide)
    (by decide)⟩

/-- A payload with one transaction. -/
def oneTransaction (tx : List UInt8) : BlockAndTraceExtended :=
  { (default : BlockAndTraceExtended) with
    capellaPayload := ⟨[], { (default : ExecutionPayload) with epTransactions := [tx] }⟩ }

theorem sizeSSZ_oneTransaction (tx : List UInt8) :
    (oneTransaction tx).sizeSSZ = 892 + tx.length := by
  simp only [oneTransaction, sizeSSZ, GetPayloadResponse.sizeSSZ, ExecutionPayload.sizeSSZ,
    List.map_cons, List.map_nil, List.sum_cons, List.sum_nil]
  have hextra : (default : ExecutionPayload).epExtraData.length = 0 := rfl
  have hws : ((default : ExecutionPayload).epWithdrawals.getD []).length = 0 := rfl
  rw [hextra, hws, List.length_nil]
  omega

/-- Within all the other limits, a transaction of more than `2 ^ 30` bytes is refused. -/
theorem oneTransaction_not_written {tx : List UInt8} (h : tx.length = 1073741825) :
    (oneTransaction tx).capellaPayload.capellaData.epExtraData.length ≤ 32 ∧
    (oneTransaction tx).capellaPayload.capellaData.epTransactions.length ≤ 1048576 ∧
    ((oneTransaction tx).capellaPayload.capellaData.epWithdrawals.getD []).length ≤ 16 ∧
    (oneTransaction tx).sizeSSZ < 2 ^ 32 ∧ ¬∃ b, (oneTransaction tx).marshalSSZ = .ok b := by
  have hlong : ∃ tx' ∈ (oneTransaction tx).capellaPayload.capellaData.epTransactions,
      1073741824 < tx'.length := ⟨tx, List.mem_singleton.2 rfl, by omega⟩
  refine ⟨Nat.zero_le _, by simp [oneTransaction], Nat.zero_le _, ?_, ?_⟩
  · rw [sizeSSZ_oneTransaction, h]
    decide
  · obtain ⟨err, herr⟩ := marshalSSZ_of_long hlong
    rintro ⟨b, hb⟩
    rw [herr] at hb
    cases hb

/-- A transaction of `2 ^ 30 + 1` bytes that are zero. -/
theorem longTransaction_not_written :
    let bte := oneTransaction (List.replicate 1073741825 0)
    bte.capellaPayload.capellaData.epExtraData.length ≤ 32 ∧
    bte.capellaPayload.capellaData.epTransactions.length ≤ 1048576 ∧
    (bte.capellaPayload.capellaData.epWithdrawals.getD []).length ≤ 16 ∧
    bte.sizeSSZ < 2 ^ 32 ∧ ¬∃ b, bte.marshalSSZ = .ok b :=
  oneTransaction_not_written List.length_replicate

end BlockAndTraceExtended

end Capella

end Dreamboat
