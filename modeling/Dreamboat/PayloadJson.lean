/-
**Payloads as JSON.**

`PutPayload` of `src/datastore/datastore.go` stores the JSON of a payload and `GetPayload` reads it
back; bids and blocks of the earlier fork go between instances as JSON as well.  Byte arrays are
written in hexadecimal, numbers as strings of decimal digits with a few exceptions, and an embedded
struct gives its fields to the one it is in.

The module has the JSON of every struct of the relay that is stored or sent, with its reader, and
shows that what is written is read back: a payload is, if its extra data is not too long and its
version is a plain text; both hold for what the relay stores.  The JSON of the values of other
packages is left open, but for that.

Main definitions:

* `PayloadJson.BoostCodecs` — the values of other packages, with what is assumed of them;
* `PayloadJson.BoostCodecs.plain` — hexadecimal and decimal texts for them;
* `PayloadJson.bellatrixPayload`, `PayloadJson.capellaPayload`, … — the structs;
* `PayloadJson.boostJson` — the readers of all types;
* `PayloadJson.marshal` — the JSON of a block.

Main results:

* `PayloadJson.unmarshal_marshal` — **a block is read back**.
-/

import Dreamboat.JsonCodec
import Dreamboat.Transport

set_option autoImplicit false

namespace Dreamboat

namespace PayloadJson

open Go.Json (Into Codec Member clean)
open KeyText (decimal)
open RpcResponse (decimal?)

/-- The error for JSON that does not fit the type. -/
def mismatch : GoError := .new "json: cannot unmarshal"

/-! ### Texts -/

theorem clean_of_isDigit {c : Char} (h : c.isDigit = true) : clean c = true := by
  have hne : ∀ c' : Char, c'.isDigit = false → c ≠ c' := by
    rintro c' hc' rfl
    exact absurd h (by rw [hc']; decide)
  have hle : ¬c < ' ' := by
    simp only [Char.isDigit, Bool.and_eq_true, decide_eq_true_eq] at h
    intro hlt
    exact absurd (UInt32.le_trans h.1 (UInt32.le_of_lt hlt)) (by decide)
  simp [clean, Go.Json.plain, Transport.isAscii_of_isDigit h, hne '"' (by decide),
    hne '\\' (by decide), hne '<' (by decide), hne '>' (by decide), hne '&' (by decide), hle]

theorem all_clean_decimal (n : ℕ) : (decimal n).all clean = true :=
  List.all_eq_true.2 fun _ hc => clean_of_isDigit (KeyText.isDigit_of_mem_decimal hc)

/-- The text of bytes: `0x` and two digits for each. -/
def hexText (bs : List UInt8) : List Char := '0' :: 'x' :: Hex.digits bs

theorem all_clean_hexText (bs : List UInt8) : (hexText bs).all clean = true := by
  have hdigit : ∀ n < 16, clean (Nat.digitChar n) = true := by decide
  rw [hexText, List.all_cons, List.all_cons, List.all_eq_true.2]
  · rfl
  · intro c hc
    obtain ⟨b, -, hb⟩ := List.mem_flatMap.1 hc
    have hlt : b.toNat < 256 := b.toNat_lt
    simp only [List.mem_cons, List.not_mem_nil, or_false] at hb
    rcases hb with rfl | rfl
    · exact hdigit _ (by omega)
    · exact hdigit _ (by omega)

/-- `hexutil.Bytes.UnmarshalText`: an empty text is one of no bytes. -/
def hexBytes? : List Char → Option (List UInt8)
  | [] => some []
  | '0' :: x :: digits => if x = 'x' ∨ x = 'X' then Hex.bytes digits else none
  | _ => none

theorem hexBytes?_hexText (bs : List UInt8) : hexBytes? (hexText bs) = some bs := by
  rw [hexText, hexBytes?, if_pos (.inl rfl), Hex.bytes_digits]

/-! ### Values without fields -/

/-- A string, by its text: everything but a string is refused. -/
def ofText {α : Type} (write : α → List Char) (read : List Char → Option α) (Fit : α → Prop)
    (hclean : ∀ a, Fit a → (write a).all clean = true)
    (hread : ∀ a, Fit a → read (write a) = some a) : Codec GoError α where
  write a := .str (String.ofList (write a))
  read
    | .str t, _ =>
        match read t.toList with
        | some a => .ok a
        | none => .error mismatch
    | _, _ => .error mismatch
  Fit := Fit
  depth := 0
  written a h := .str 0 _ (by rw [String.toList_ofList]; exact hclean a h)
  read_write a old h := by simp only [String.toList_ofList, hread a h]

/-- A byte array of fixed size. -/
def fixed (n : ℕ) : Codec GoError (Vector UInt8 n) :=
  ofText (fun v => hexText v.toList)
    (fun t => (hexBytes? t).bind fun bs =>
      if h : bs.length = n then some ⟨bs.toArray, h⟩ else none)
    (fun _ => True) (fun v _ => all_clean_hexText v.toList) fun v _ => by
      rw [hexBytes?_hexText, Option.bind_some, dif_pos v.length_toList]
      rfl

/-- `hexutil.Bytes`. -/
def bytes : Codec GoError (List UInt8) :=
  ofText hexText hexBytes? (fun _ => True) (fun bs _ => all_clean_hexText bs)
    fun bs _ => hexBytes?_hexText bs

/-- `types.ExtraData`: there are at most 32 bytes. -/
def extraData : Codec GoError (List UInt8) :=
  ofText hexText (fun t => (hexBytes? t).bind fun bs => if bs.length > 32 then none else some bs)
    (fun bs => bs.length ≤ 32) (fun bs _ => all_clean_hexText bs) fun bs h => by
      rw [hexBytes?_hexText, Option.bind_some, if_neg (Nat.not_lt.2 h)]

theorem bigInt_eq_leNat (x : U256Str) : x.bigInt = Ssz.leNat x.bytes.toList := by
  rw [U256Str.bigInt]
  induction x.bytes.toList with
  | nil => rfl
  | cons b bs ih => rw [List.foldr_cons, ih, Ssz.leNat_cons]

theorem toList_bytes_ofNat (n : ℕ) : (U256Str.ofNat n).bytes.toList = Ssz.leBytes 32 n := by
  refine List.ext_getElem (by simp [U256Str.ofNat]) fun i hi hi' => ?_
  simp [U256Str.ofNat, Ssz.leBytes]

theorem ofNat_bigInt (x : U256Str) : U256Str.ofNat x.bigInt = x := by
  have hbytes : (U256Str.ofNat x.bigInt).bytes.toList = x.bytes.toList := by
    rw [toList_bytes_ofNat, bigInt_eq_leNat]
    have hread := Ssz.leBytes_leNat x.bytes.toList
    rwa [Vector.length_toList] at hread
  cases x with
  | mk bytes => exact congrArg U256Str.mk (Vector.toList_inj.1 hbytes)

theorem bigInt_lt (x : U256Str) : x.bigInt < 2 ^ 256 := by
  have hlt := Ssz.leNat_lt x.bytes.toList
  rw [Vector.length_toList, ← bigInt_eq_leNat] at hlt
  exact hlt.trans_eq (by norm_num)

/-- `types.U256Str`: a decimal number without leading zeros.  The other forms of big integers, with
signs or prefixes, are not written. -/
def u256Str : Codec GoError U256Str :=
  ofText (fun x => decimal x.bigInt)
    (fun t => (decimal? t).bind fun n =>
      if decimal n = t ∧ n < 2 ^ 256 then some (U256Str.ofNat n) else none)
    (fun _ => True) (fun x _ => all_clean_decimal x.bigInt) fun x _ => by
      rw [Transport.decimal?_decimal, Option.bind_some, if_pos ⟨rfl, bigInt_lt x⟩, ofNat_bigInt]

/-- A number, which `null` leaves alone. -/
def readNumber (text : List Char) : Except GoError UInt64 :=
  match decimal? text with
  | some n => if n < 2 ^ 64 then .ok (.ofNat n) else .error mismatch
  | none => .error mismatch

theorem readNumber_decimal (n : UInt64) : readNumber (decimal n.toNat) = .ok n := by
  rw [readNumber, Transport.decimal?_decimal]
  simp only [if_pos n.toNat_lt]
  exact congrArg Except.ok UInt64.ofNat_toNat

/-- `uint64`. -/
def uint64 : Codec GoError UInt64 where
  write n := .num (String.ofList (decimal n.toNat))
  read
    | .null, n => .ok n
    | .num t, _ => readNumber t.toList
    | _, _ => .error mismatch
  Fit _ := True
  depth := 0
  written n _ := .num 0 n.toNat
  read_write n old _ := by simp only [String.toList_ofList, readNumber_decimal]

/-- `uint64` with the option `string`. -/
def uint64String : Codec GoError UInt64 where
  write n := .str (String.ofList (decimal n.toNat))
  read
    | .null, n => .ok n
    | .str t, _ => readNumber t.toList
    | _, _ => .error mismatch
  Fit _ := True
  depth := 0
  written n _ := .str 0 _ (by rw [String.toList_ofList]; exact all_clean_decimal n.toNat)
  read_write n old _ := by simp only [String.toList_ofList, readNumber_decimal]

/-- Bytes that are a text which needs no escapes. -/
def CleanText (bs : List UInt8) : Prop := (bs.map Utf8.char).all clean = true

instance (bs : List UInt8) : Decidable (CleanText bs) :=
  inferInstanceAs (Decidable ((bs.map Utf8.char).all clean = true))

theorem bytes_map_char {bs : List UInt8} (h : CleanText bs) :
    Utf8.bytes (bs.map Utf8.char) = bs := by
  have hascii := Go.Json.all_isAscii_of_all_clean h
  rw [Utf8.bytes_eq_map hascii, List.map_map]
  refine List.map_id'' ?_ bs
  intro b
  have hlt : b.toNat < 256 := b.toNat_lt
  have hvalid : b.toNat.isValidChar := .inl (by omega)
  rw [Function.comp_apply, Utf8.byte, Utf8.char, Char.ofNat, dif_pos hvalid]
  exact UInt8.ofNat_toNat

/-- `types.VersionString`. -/
def versionString : Codec GoError (List UInt8) where
  write bs := .str (String.ofList (bs.map Utf8.char))
  read
    | .null, bs => .ok bs
    | .str t, _ => .ok (Utf8.bytes t.toList)
    | _, _ => .error mismatch
  Fit := CleanText
  depth := 0
  written bs h := .str 0 _ (by rw [String.toList_ofList]; exact h)
  read_write bs old h := by simp only [String.toList_ofList, bytes_map_char h]

/-! ### Headers -/

abbrev hash : Codec GoError Hash := fixed 32
abbrev address : Codec GoError Address := fixed 20
abbrev publicKey : Codec GoError PublicKey := fixed 48
abbrev signature : Codec GoError Signature := fixed 96
abbrev bloom : Codec GoError Bloom := fixed 256

/-- `types.ExecutionPayloadHeader`. -/
def headerMembers : List (Member GoError Bellatrix.ExecutionPayloadHeader) :=
  [.of "parent_hash" Bellatrix.ExecutionPayloadHeader.parentHash
      (fun h x => { h with parentHash := x }) hash,
    .of "fee_recipient" Bellatrix.ExecutionPayloadHeader.feeRecipient
      (fun h x => { h with feeRecipient := x }) address,
    .of "state_root" Bellatrix.ExecutionPayloadHeader.stateRoot
      (fun h x => { h with stateRoot := x }) hash,
    .of "receipts_root" Bellatrix.ExecutionPayloadHeader.receiptsRoot
      (fun h x => { h with receiptsRoot := x }) hash,
    .of "logs_bloom" Bellatrix.ExecutionPayloadHeader.logsBloom
      (fun h x => { h with logsBloom := x }) bloom,
    .of "prev_randao" Bellatrix.ExecutionPayloadHeader.random
      (fun h x => { h with random := x }) hash,
    .of "block_number" Bellatrix.ExecutionPayloadHeader.blockNumber
      (fun h x => { h with blockNumber := x }) uint64String,
    .of "gas_limit" Bellatrix.ExecutionPayloadHeader.gasLimit
      (fun h x => { h with gasLimit := x }) uint64String,
    .of "gas_used" Bellatrix.ExecutionPayloadHeader.gasUsed
      (fun h x => { h with gasUsed := x }) uint64String,
    .of "timestamp" Bellatrix.ExecutionPayloadHeader.timestamp
      (fun h x => { h with timestamp := x }) uint64String,
    .of "extra_data" Bellatrix.ExecutionPayloadHeader.extraData
      (fun h x => { h with extraData := x }) extraData,
    .of "base_fee_per_gas" Bellatrix.ExecutionPayloadHeader.baseFeePerGas
      (fun h x => { h with baseFeePerGas := x }) u256Str,
    .of "block_hash" Bellatrix.ExecutionPayloadHeader.blockHash
      (fun h x => { h with blockHash := x }) hash,
    .of "transactions_root" Bellatrix.ExecutionPayloadHeader.transactionsRoot
      (fun h x => { h with transactionsRoot := x }) hash]

def bellatrixHeader : Codec GoError Bellatrix.ExecutionPayloadHeader := .struct mismatch
  headerMembers (by decide) fun s old => by cases s; cases old; rfl

/-- An array is never empty, so the option `omitempty` has no effect on the root. -/
def capellaHeader : Codec GoError Capella.ExecutionPayloadHeader := .struct mismatch
  (headerMembers.map (.embedded Capella.ExecutionPayloadHeader.toExecutionPayloadHeader
      fun h x => { h with toExecutionPayloadHeader := x }) ++
    [.of "withdrawals_root" Capella.ExecutionPayloadHeader.withdrawalsRoot
      (fun h x => { h with withdrawalsRoot := x }) hash])
  (by decide) fun s old => by
    cases s with | mk s _ => cases s; cases old with | mk old _ => cases old; rfl

theorem fit_headerMembers {header : Bellatrix.ExecutionPayloadHeader}
    (h : header.extraData.length ≤ 32) : ∀ m ∈ headerMembers, m.Fit header := by
  simp only [headerMembers, List.forall_mem_cons, Member.of]
  simp [fixed, ofText, extraData, u256Str, uint64String, h]

/-! ### The types of other packages -/

/-- The values of other packages as JSON.  It is assumed that they are read back if they are not too
long and need no escapes, that they are not nested, and that a header is an object. -/
structure BoostCodecs where
  hash : Codec GoError Hash
  address : Codec GoError Address
  publicKey : Codec GoError PublicKey
  signature : Codec GoError Signature
  bloom : Codec GoError Bloom
  u256Str : Codec GoError U256Str
  extraData : Codec GoError (List UInt8)
  /-- `hexutil.Bytes`. -/
  bytes : Codec GoError (List UInt8)
  versionString : Codec GoError (List UInt8)
  bellatrixHeader : Codec GoError Bellatrix.ExecutionPayloadHeader
  capellaHeader : Codec GoError Capella.ExecutionPayloadHeader
  fit_values : (∀ x, hash.Fit x) ∧ (∀ x, address.Fit x) ∧ (∀ x, publicKey.Fit x) ∧
    (∀ x, signature.Fit x) ∧ (∀ x, bloom.Fit x) ∧ (∀ x, u256Str.Fit x) ∧ ∀ x, bytes.Fit x
  fit_extraData : ∀ {x}, x.length ≤ 32 → extraData.Fit x
  fit_versionString : ∀ {x}, CleanText x → versionString.Fit x
  fit_bellatrixHeader : ∀ {x}, x.extraData.length ≤ 32 → bellatrixHeader.Fit x
  depth_values : hash.depth = 0 ∧ address.depth = 0 ∧ publicKey.depth = 0 ∧ signature.depth = 0 ∧
    bloom.depth = 0 ∧ u256Str.depth = 0 ∧ extraData.depth = 0 ∧ bytes.depth = 0 ∧
    versionString.depth = 0 ∧ bellatrixHeader.depth = 1
  isNull_bellatrixHeader : ∀ x, (bellatrixHeader.write x).isNull = false
  isNull_capellaHeader : ∀ x, (capellaHeader.write x).isNull = false

/-- Hexadecimal and decimal texts, and headers as objects of them. -/
def BoostCodecs.plain : BoostCodecs where
  hash := PayloadJson.hash
  address := PayloadJson.address
  publicKey := PayloadJson.publicKey
  signature := PayloadJson.signature
  bloom := PayloadJson.bloom
  u256Str := PayloadJson.u256Str
  extraData := PayloadJson.extraData
  bytes := PayloadJson.bytes
  versionString := PayloadJson.versionString
  bellatrixHeader := PayloadJson.bellatrixHeader
  capellaHeader := PayloadJson.capellaHeader
  fit_values := by simp [fixed, ofText, PayloadJson.u256Str, PayloadJson.bytes]
  fit_extraData h := h
  fit_versionString h := h
  fit_bellatrixHeader h := fit_headerMembers h
  depth_values := by decide
  isNull_bellatrixHeader _ := rfl
  isNull_capellaHeader _ := rfl

variable (B : BoostCodecs)

/-! ### Structs of values -/

/-- `types.BidTrace`, and `capella.BidTrace` as well. -/
def bidTrace : Codec GoError BidTrace := .struct mismatch
  [.of "slot" BidTrace.slot (fun t x => { t with slot := x }) uint64String,
    .of "parent_hash" BidTrace.parentHash (fun t x => { t with parentHash := x }) B.hash,
    .of "block_hash" BidTrace.blockHash (fun t x => { t with blockHash := x }) B.hash,
    .of "builder_pubkey" BidTrace.builderPubkey (fun t x => { t with builderPubkey := x })
      B.publicKey,
    .of "proposer_pubkey" BidTrace.proposerPubkey (fun t x => { t with proposerPubkey := x })
      B.publicKey,
    .of "proposer_fee_recipient" BidTrace.proposerFeeRecipient
      (fun t x => { t with proposerFeeRecipient := x }) B.address,
    .of "gas_limit" BidTrace.gasLimit (fun t x => { t with gasLimit := x }) uint64String,
    .of "gas_used" BidTrace.gasUsed (fun t x => { t with gasUsed := x }) uint64String,
    .of "value" BidTrace.value (fun t x => { t with value := x }) B.u256Str]

def payloadMembers : List (Member GoError Bellatrix.ExecutionPayload) :=
  [.of "parent_hash" Bellatrix.ExecutionPayload.epParentHash
      (fun p x => { p with epParentHash := x }) B.hash,
    .of "fee_recipient" Bellatrix.ExecutionPayload.epFeeRecipient
      (fun p x => { p with epFeeRecipient := x }) B.address,
    .of "state_root" Bellatrix.ExecutionPayload.epStateRoot
      (fun p x => { p with epStateRoot := x }) B.hash,
    .of "receipts_root" Bellatrix.ExecutionPayload.epReceiptsRoot
      (fun p x => { p with epReceiptsRoot := x }) B.hash,
    .of "logs_bloom" Bellatrix.ExecutionPayload.epLogsBloom
      (fun p x => { p with epLogsBloom := x }) B.bloom,
    .of "prev_randao" Bellatrix.ExecutionPayload.epRandom
      (fun p x => { p with epRandom := x }) B.hash,
    .of "block_number" Bellatrix.ExecutionPayload.epBlockNumber
      (fun p x => { p with epBlockNumber := x }) uint64String,
    .of "gas_limit" Bellatrix.ExecutionPayload.epGasLimit
      (fun p x => { p with epGasLimit := x }) uint64String,
    .of "gas_used" Bellatrix.ExecutionPayload.epGasUsed
      (fun p x => { p with epGasUsed := x }) uint64String,
    .of "timestamp" Bellatrix.ExecutionPayload.epTimestamp
      (fun p x => { p with epTimestamp := x }) uint64String,
    .of "extra_data" Bellatrix.ExecutionPayload.epExtraData
      (fun p x => { p with epExtraData := x }) B.extraData,
    .of "base_fee_per_gas" Bellatrix.ExecutionPayload.epBaseFeePerGas
      (fun p x => { p with epBaseFeePerGas := x }) B.u256Str,
    .of "block_hash" Bellatrix.ExecutionPayload.epBlockHash
      (fun p x => { p with epBlockHash := x }) B.hash,
    .of "transactions" Bellatrix.ExecutionPayload.epTransactions
      (fun p x => { p with epTransactions := x }) (.list mismatch [] B.bytes)]

def bellatrixPayload : Codec GoError Bellatrix.ExecutionPayload := .struct mismatch
  (payloadMembers B) (by simp only [payloadMembers, List.map, Member.name_of]; decide)
  fun s old => by cases s; cases old; rfl

def withdrawal : Codec GoError Withdrawal := .struct mismatch
  [.of "index" Withdrawal.index (fun w x => { w with index := x }) uint64String,
    .of "validator_index" Withdrawal.validatorIndex
      (fun w x => { w with validatorIndex := x }) uint64String,
    .of "address" Withdrawal.address (fun w x => { w with address := x }) B.address,
    .of "amount" Withdrawal.amount (fun w x => { w with amount := x }) uint64String]

/-- The fields of the earlier fork are embedded. -/
def capellaPayload : Codec GoError Capella.ExecutionPayload := .struct mismatch
  ((payloadMembers B).map (.embedded Capella.ExecutionPayload.toExecutionPayload
      fun p x => { p with toExecutionPayload := x }) ++
    [.of "withdrawals" Capella.ExecutionPayload.epWithdrawals
      (fun p x => { p with epWithdrawals := x }) (.slice mismatch default (withdrawal B))])
  (by simp only [payloadMembers, List.map, List.cons_append, List.nil_append, Member.name_of,
    Member.name_embedded]; decide) fun s old => by
    cases s with | mk s _ => cases s; cases old with | mk old _ => cases old; rfl

/-! ### Bids -/

/-- The readers of the values without pointers, and the scanner. -/
def boostJson : JsonTypes where
  parse b :=
    match Go.Json.parse (Utf8.runes b) with
    | some j => .ok j
    | none => .error mismatch
  mismatch := mismatch
  publicKey := B.publicKey.read
  signature := B.signature.read
  hash := B.hash.read
  u256Str := B.u256Str.read
  uint64 := uint64.read
  versionString := B.versionString.read
  bidTrace := (bidTrace B).read
  bellatrixHeader := B.bellatrixHeader.read
  bellatrixPayload := (bellatrixPayload B).read
  capellaHeader := B.capellaHeader.read
  capellaPayload := (capellaPayload B).read

def bellatrixBid : Codec GoError Bellatrix.BuilderBid := .struct mismatch
  [.of "header" Bellatrix.BuilderBid.bellatrixHeader (fun b x => { b with bellatrixHeader := x })
      (.pointer default B.bellatrixHeader B.isNull_bellatrixHeader),
    .of "value" Bellatrix.BuilderBid.bellatrixValue
      (fun b x => { b with bellatrixValue := x }) B.u256Str,
    .of "pubkey" Bellatrix.BuilderBid.bellatrixPubkey
      (fun b x => { b with bellatrixPubkey := x }) B.publicKey]

def bellatrixBidExtended : Codec GoError Bellatrix.BuilderBidExtended := .struct mismatch
  [.of "bid" Bellatrix.BuilderBidExtended.bellatrixBuilderBid
      (fun b x => { b with bellatrixBuilderBid := x }) (bellatrixBid B),
    .of "proposer" Bellatrix.BuilderBidExtended.bellatrixProposer
      (fun b x => { b with bellatrixProposer := x }) B.publicKey,
    .of "slot" Bellatrix.BuilderBidExtended.bellatrixSlot
      (fun b x => { b with bellatrixSlot := x }) uint64]

def capellaBid : Codec GoError Capella.BuilderBid := .struct mismatch
  [.of "header" Capella.BuilderBid.capellaHeader (fun b x => { b with capellaHeader := x })
      (.pointer default B.capellaHeader B.isNull_capellaHeader),
    .of "value" Capella.BuilderBid.capellaValue (fun b x => { b with capellaValue := x }) B.u256Str,
    .of "pubkey" Capella.BuilderBid.capellaPubkey
      (fun b x => { b with capellaPubkey := x }) B.publicKey]

def capellaBidExtended : Codec GoError Capella.BuilderBidExtended := .struct mismatch
  [.of "bid" Capella.BuilderBidExtended.capellaBuilderBid
      (fun b x => { b with capellaBuilderBid := x }) (capellaBid B),
    .of "proposer" Capella.BuilderBidExtended.capellaProposer
      (fun b x => { b with capellaProposer := x }) B.publicKey,
    .of "slot" Capella.BuilderBidExtended.capellaSlot
      (fun b x => { b with capellaSlot := x }) uint64]

/-! ### Blocks -/

def bellatrixTrace : Codec GoError Bellatrix.SignedBidTrace := .struct mismatch
  [.of "signature" Bellatrix.SignedBidTrace.signature
      (fun t x => { t with signature := x }) B.signature,
    .of "message" Bellatrix.SignedBidTrace.message (fun t x => { t with message := x })
      (.pointer default (bidTrace B) fun _ => rfl)]

def bellatrixSignedBid : Codec GoError Bellatrix.SignedBuilderBid := .struct mismatch
  [.of "message" Bellatrix.SignedBuilderBid.bellatrixMessage
      (fun s x => { s with bellatrixMessage := x })
      (.pointer default (bellatrixBid B) fun _ => rfl),
    .of "signature" Bellatrix.SignedBuilderBid.bellatrixSignature
      (fun s x => { s with bellatrixSignature := x }) B.signature]

def bellatrixHeaderResponse : Codec GoError Bellatrix.GetHeaderResponse := .struct mismatch
  [.of "version" Bellatrix.GetHeaderResponse.bellatrixVersion
      (fun g x => { g with bellatrixVersion := x }) B.versionString,
    .of "data" Bellatrix.GetHeaderResponse.bellatrixData (fun g x => { g with bellatrixData := x })
      (bellatrixSignedBid B)]

def bellatrixPayloadResponse : Codec GoError Bellatrix.GetPayloadResponse := .struct mismatch
  [.of "version" Bellatrix.GetPayloadResponse.bellatrixVersion
      (fun g x => { g with bellatrixVersion := x }) B.versionString,
    .of "data" Bellatrix.GetPayloadResponse.bellatrixData (fun g x => { g with bellatrixData := x })
      (bellatrixPayload B)]

def bellatrixBlock : Codec GoError Bellatrix.BlockBidAndTrace := .struct mismatch
  [.of "Trace" Bellatrix.BlockBidAndTrace.trace (fun b x => { b with trace := x })
      (.pointer default (bellatrixTrace B) fun _ => rfl),
    .of "Bid" Bellatrix.BlockBidAndTrace.bid
      (fun b x => { b with bid := x }) (bellatrixHeaderResponse B),
    .of "Payload" Bellatrix.BlockBidAndTrace.payload (fun b x => { b with payload := x })
      (bellatrixPayloadResponse B)]

def capellaTrace : Codec GoError SignedBidTrace := .struct mismatch
  [.of "signature" SignedBidTrace.signature (fun t x => { t with signature := x }) B.signature,
    .of "message" SignedBidTrace.message (fun t x => { t with message := x }) (bidTrace B)]

def capellaPayloadResponse : Codec GoError Capella.GetPayloadResponse := .struct mismatch
  [.of "version" Capella.GetPayloadResponse.capellaVersion
      (fun g x => { g with capellaVersion := x }) B.versionString,
    .of "data" Capella.GetPayloadResponse.capellaData (fun g x => { g with capellaData := x })
      (capellaPayload B)]

def capellaBlock : Codec GoError Capella.BlockAndTraceExtended := .struct mismatch
  [.of "CapellaPayload" Capella.BlockAndTraceExtended.capellaPayload
      (fun b x => { b with capellaPayload := x }) (capellaPayloadResponse B),
    .of "CapellaTrace" Capella.BlockAndTraceExtended.capellaTrace
      (fun b x => { b with capellaTrace := x }) (capellaTrace B),
    .of "execution_header_hash" Capella.BlockAndTraceExtended.capellaExecutionHeaderHash
      (fun b x => { b with capellaExecutionHeaderHash := x }) B.hash]

theorem read_bellatrixBidExtended : (bellatrixBidExtended B).read =
    Bellatrix.BuilderBidExtended.unmarshalJSON (boostJson B) := rfl

theorem read_bellatrixBlock : (bellatrixBlock B).read =
    Bellatrix.BlockBidAndTrace.unmarshalJSON (boostJson B) := rfl

theorem read_capellaBlock : (capellaBlock B).read =
    Capella.BlockAndTraceExtended.unmarshalJSON (boostJson B) := rfl

/-- `json.Marshal`. -/
def marshal {α : Type} (c : Codec GoError α) (a : α) : List UInt8 :=
  Utf8.bytes (Go.Json.text (c.write a))

variable {B}

theorem parse_marshal {α : Type} (c : Codec GoError α) {a : α} (h : c.Fit a)
    {members : List (String × Go.Json)} (hobj : c.write a = .obj members)
    (hdepth : c.depth ≤ Go.Json.Scanner.maxNestingDepth) :
    (boostJson B).parse (marshal c a) = .ok (c.write a) := by
  have hwritten := c.written a h
  simp only [boostJson, marshal, Utf8.runes_bytes hwritten.all_isAscii_text]
  rw [hobj] at hwritten ⊢
  rw [Go.Json.parse_text hwritten hdepth]

/-- **What is written is read back.** -/
theorem unmarshal_marshal {α : Type} [Inhabited α] (c : Codec GoError α) {a : α} (h : c.Fit a)
    {members : List (String × Go.Json)} (hobj : c.write a = .obj members)
    (hdepth : c.depth ≤ Go.Json.Scanner.maxNestingDepth) :
    Stream.unmarshal (boostJson B) c.read (marshal c a) = .ok a := by
  rw [Stream.unmarshal, parse_marshal c h hobj hdepth]
  exact c.read_write a default h

/-- What is written from fields of other names leaves a struct empty. -/
theorem unmarshal_foreign {α β : Type} [Inhabited β] (c : Codec GoError α)
    (keys names : List String) {a : α} (h : c.Fit a) {members : List (String × Go.Json)}
    (hobj : c.write a = .obj members) (hdepth : c.depth ≤ Go.Json.Scanner.maxNestingDepth)
    {fields : List (Go.Json.Field GoError β)} (hkeys : members.map Prod.fst = keys)
    (hnames : fields.map Go.Json.Field.name = names)
    (hforeign : ∀ key ∈ keys, Go.Json.ownerOf names key = none) :
    Stream.unmarshal (boostJson B) (Go.Json.struct mismatch fields) (marshal c a) =
      .ok default := by
  rw [Stream.unmarshal, parse_marshal c h hobj hdepth, hobj]
  refine Go.Json.struct_of_foreign mismatch (fun m hm => ?_) default
  rw [hnames]
  exact hforeign m.1 (hkeys ▸ List.mem_map_of_mem hm)

/-- The values are not nested, so the structs are not nested too deeply. -/
theorem depth_bellatrixBidExtended :
    (bellatrixBidExtended B).depth ≤ Go.Json.Scanner.maxNestingDepth := by
  simp [bellatrixBidExtended, bellatrixBid, Codec.struct, Codec.pointer, Member.of, uint64,
    B.depth_values, Go.Json.Scanner.maxNestingDepth]

theorem depth_bellatrixBlock : (bellatrixBlock B).depth ≤ Go.Json.Scanner.maxNestingDepth := by
  simp [bellatrixBlock, bellatrixTrace, bellatrixHeaderResponse, bellatrixSignedBid, bellatrixBid,
    bellatrixPayloadResponse, bellatrixPayload, payloadMembers, bidTrace, Codec.struct,
    Codec.pointer, Codec.list, Member.of, uint64String, B.depth_values,
    Go.Json.Scanner.maxNestingDepth]

theorem depth_capellaBlock : (capellaBlock B).depth ≤ Go.Json.Scanner.maxNestingDepth := by
  simp [capellaBlock, capellaTrace, capellaPayloadResponse, capellaPayload, payloadMembers,
    withdrawal, bidTrace, Codec.struct, Codec.slice, Codec.list, Member.of, Member.embedded,
    uint64String, B.depth_values, Go.Json.Scanner.maxNestingDepth]

/-! ### What can be read back -/

theorem fit_payloadMembers {p : Bellatrix.ExecutionPayload} (h : p.epExtraData.length ≤ 32) :
    ∀ m ∈ payloadMembers B, m.Fit p := by
  simp only [payloadMembers, List.forall_mem_cons, Member.of]
  simp [uint64String, Codec.list, B.fit_values, B.fit_extraData h]

theorem fit_withdrawal (w : Withdrawal) : (withdrawal B).Fit w := by
  simp only [withdrawal, Codec.struct, List.forall_mem_cons, Member.of]
  simp [uint64String, B.fit_values]

theorem fit_bidTrace (t : BidTrace) : (bidTrace B).Fit t := by
  simp only [bidTrace, Codec.struct, List.forall_mem_cons, Member.of]
  simp [uint64String, B.fit_values]

theorem fit_capellaPayload {p : Capella.ExecutionPayload} (h : p.epExtraData.length ≤ 32) :
    (capellaPayload B).Fit p := by
  intro m hm
  rcases List.mem_append.1 hm with hm | hm
  · obtain ⟨m', hm', rfl⟩ := List.mem_map.1 hm
    exact fit_payloadMembers h m' hm'
  · obtain rfl := List.mem_singleton.1 hm
    exact fun _ _ w _ => fit_withdrawal w

theorem fit_bellatrixBid {b : Bellatrix.BuilderBid}
    (h : ∀ header, b.bellatrixHeader = some header → header.extraData.length ≤ 32) :
    (bellatrixBid B).Fit b := by
  simp only [bellatrixBid, Codec.struct, List.forall_mem_cons, Member.of]
  exact ⟨fun header hheader => B.fit_bellatrixHeader (h header hheader),
    by simp [B.fit_values], by simp [B.fit_values], nofun⟩

theorem fit_bellatrixBidExtended {b : Bellatrix.BuilderBidExtended}
    (h : ∀ header, b.bellatrixBuilderBid.bellatrixHeader = some header →
      header.extraData.length ≤ 32) : (bellatrixBidExtended B).Fit b := by
  simp only [bellatrixBidExtended, Codec.struct, List.forall_mem_cons, Member.of]
  exact ⟨fit_bellatrixBid h, by simp [B.fit_values], trivial, nofun⟩

/-- Texts without escapes, and extra data that is not too long. -/
structure BellatrixReadable (b : Bellatrix.BlockBidAndTrace) : Prop where
  bidVersion : CleanText b.bid.bellatrixVersion
  payloadVersion : CleanText b.payload.bellatrixVersion
  header : ∀ message header, b.bid.bellatrixData.bellatrixMessage = some message →
    message.bellatrixHeader = some header → header.extraData.length ≤ 32
  payload : b.payload.bellatrixData.epExtraData.length ≤ 32

structure CapellaReadable (b : Capella.BlockAndTraceExtended) : Prop where
  version : CleanText b.capellaPayload.capellaVersion
  payload : b.capellaPayload.capellaData.epExtraData.length ≤ 32

theorem BellatrixReadable.fit {b : Bellatrix.BlockBidAndTrace} (h : BellatrixReadable b) :
    (bellatrixBlock B).Fit b := by
  have htrace : ∀ t : Bellatrix.SignedBidTrace, (bellatrixTrace B).Fit t := by
    intro t
    simp only [bellatrixTrace, Codec.struct, List.forall_mem_cons, Member.of]
    exact ⟨by simp [B.fit_values], fun message _ => fit_bidTrace message, nofun⟩
  have hbid : (bellatrixHeaderResponse B).Fit b.bid := by
    simp only [bellatrixHeaderResponse, bellatrixSignedBid, Codec.struct, List.forall_mem_cons,
      Member.of]
    exact ⟨B.fit_versionString h.bidVersion, ⟨fun message hmessage => fit_bellatrixBid
      fun header hheader => h.header message header hmessage hheader,
      by simp [B.fit_values], nofun⟩, nofun⟩
  have hpayload : (bellatrixPayloadResponse B).Fit b.payload := by
    simp only [bellatrixPayloadResponse, Codec.struct, List.forall_mem_cons, Member.of]
    exact ⟨B.fit_versionString h.payloadVersion, fit_payloadMembers h.payload, nofun⟩
  simp only [bellatrixBlock, Codec.struct, List.forall_mem_cons, Member.of]
  exact ⟨fun t _ => htrace t, hbid, hpayload, nofun⟩

theorem CapellaReadable.fit {b : Capella.BlockAndTraceExtended} (h : CapellaReadable b) :
    (capellaBlock B).Fit b := by
  have htrace : (capellaTrace B).Fit b.capellaTrace := by
    simp only [capellaTrace, Codec.struct, List.forall_mem_cons, Member.of]
    exact ⟨by simp [B.fit_values], fit_bidTrace _, nofun⟩
  have hpayload : (capellaPayloadResponse B).Fit b.capellaPayload := by
    simp only [capellaPayloadResponse, Codec.struct, List.forall_mem_cons, Member.of]
    exact ⟨B.fit_versionString h.version, fit_capellaPayload h.payload, nofun⟩
  simp only [capellaBlock, Codec.struct, List.forall_mem_cons, Member.of]
  exact ⟨hpayload, htrace, by simp [B.fit_values], nofun⟩

end PayloadJson

end Dreamboat
