/-
**Messages between instances, as bytes.**

`src/stream/transport/transport.go` turns a message into bytes and back: a number that says how the
rest is encoded, and the message as JSON.  The number is always the same one when a message is
written, and two numbers are accepted when one is read; the encoding of the payload is a number of
its own inside of the message.  In the JSON the sender is a text of 36 characters, and the payload
is base64, or `null` if there is none.

Main definitions:

* `Transport.Message` — a message, with its sender;
* `Transport.encode`, `Transport.decode` — the bytes of a message.

Main results:

* `Transport.parse_marshalJSON` — the JSON of a message is read as it is written;
* `Transport.decode_encode` — **every message is read back**.
-/

import Dreamboat.JsonText
import Dreamboat.RpcResponse
import Dreamboat.Stream
import Dreamboat.WireText

set_option autoImplicit false

namespace Dreamboat

namespace Transport

open Go.Json (Into Field struct member Reads ReadsMember writtenObject quoted plain)
open KeyText (decimal)
open RpcResponse (decimal?)

/-! ### Messages -/

/-- `uuid.UUID`. -/
abbrev UUID := Vector UInt8 16

/-- The other values of `ForkVersionFormat`. -/
def unknown : UInt64 := 0
def altairJson : UInt64 := 1

structure Message where
  source : UUID
  forkEncoding : UInt64
  /-- `none` is a slice that is `nil`. -/
  payload : Option (List UInt8)
  deriving DecidableEq, Repr

instance : Inhabited Message := ⟨⟨Vector.replicate 16 0, unknown, none⟩⟩

/-- What the handlers of the stream read of a message. -/
def Message.toStream (m : Message) : Stream.Message := ⟨m.forkEncoding, m.payload.getD []⟩

/-! ### Writing -/

/-- A slice of bytes in JSON. -/
def payloadText : Option (List UInt8) → List Char
  | none => "null".toList
  | some bs => quoted (String.ofList (Base64.encode bs))

def uuidText (source : UUID) : List Char := Uuid.text source.toList

/-- `json.Marshal`; the fields have no names of their own in JSON. -/
def Message.marshalJSON (m : Message) : List Char := writtenObject
  [("Source", quoted (String.ofList (uuidText m.source))),
    ("ForkEncoding", decimal m.forkEncoding.toNat),
    ("Payload", payloadText m.payload)]

/-- The number in front is the one for JSON of the later fork, whatever the payload is. -/
def encode (m : Message) : List UInt8 :=
  Uvarint.put Stream.capellaJson.toNat ++ Utf8.bytes m.marshalJSON

/-! ### Reading -/

/-- A number of some bits. -/
def readUint (bits : ℕ) : Into Unit ℕ
  | .null, n => .ok n
  | .num t, _ =>
      match decimal? t.toList with
      | some n => if n < 2 ^ bits then .ok n else .error ()
      | none => .error ()
  | _, _ => .error ()

def readForkEncoding : Into Unit UInt64 := fun j n => (readUint 64 j n.toNat).map UInt64.ofNat

def readUUID : Into Unit UUID
  | .null, source => .ok source
  | .str t, _ =>
      match Uuid.parse t.toList with
      | some bs => if h : bs.length = 16 then .ok ⟨bs.toArray, h⟩ else .error ()
      | none => .error ()
  | _, _ => .error ()

/-- A slice of bytes is also read from an array of numbers. -/
def readPayload : Into Unit (Option (List UInt8))
  | .null, _ => .ok none
  | .str t, _ =>
      match Base64.decode t.toList with
      | some bs => .ok (some bs)
      | none => .error ()
  | .arr elems, _ =>
      (elems.mapM fun elem => (readUint 8 elem 0).map UInt8.ofNat).map some
  | _, _ => .error ()

def messageFields : List (Field Unit Message) :=
  [.of "Source" Message.source (fun m x => { m with source := x }) readUUID,
    .of "ForkEncoding" Message.forkEncoding (fun m x => { m with forkEncoding := x })
      readForkEncoding,
    .of "Payload" Message.payload (fun m x => { m with payload := x }) readPayload]

def Message.unmarshalJSON : Into Unit Message := struct () messageFields

def errDecodeVarint : GoError := .new "error decoding varint value"

def invalidForkVersion (version : ℕ) : GoError := .new s!"invalid fork version: {version}"

/-- `json.Unmarshal` into a new message; `jsonError` is the error it returns for bytes that are not
the JSON of one. -/
def unmarshal (jsonError : List UInt8 → GoError) (body : List UInt8) : Except GoError Message :=
  match Go.Json.parse (Utf8.runes body) with
  | none => .error (jsonError body)
  | some v =>
      match Message.unmarshalJSON v default with
      | .error _ => .error (jsonError body)
      | .ok m => .ok m

def decode (jsonError : List UInt8 → GoError) (b : List UInt8) : Except GoError Message :=
  match Uvarint.read b with
  | none => .error errDecodeVarint
  | some (varint, body) =>
      if varint = Stream.bellatrixJson.toNat ∨ varint = Stream.capellaJson.toNat then
        unmarshal jsonError body
      else .error (invalidForkVersion varint)

/-! ### The characters of a message -/

theorem isAscii_of_isDigit {c : Char} (h : c.isDigit = true) : Utf8.isAscii c = true := by
  simp only [Char.isDigit, Bool.and_eq_true, decide_eq_true_eq, ge_iff_le,
    UInt32.le_iff_toNat_le] at h
  exact decide_eq_true (Nat.lt_of_le_of_lt h.2 (by decide))

theorem all_isAscii_quoted {s : List Char} (h : s.all Utf8.isAscii = true) :
    (quoted (String.ofList s)).all Utf8.isAscii = true := by
  simp only [quoted, String.toList_ofList, List.all_append, List.all_cons, h]
  rfl

theorem all_isAscii_payloadText (payload : Option (List UInt8)) :
    (payloadText payload).all Utf8.isAscii = true := by
  cases payload with
  | none => rfl
  | some bs =>
      exact all_isAscii_quoted
        (List.all_eq_true.2 (Base64.forall_mem_encode (by decide) (by decide) bs))

theorem all_isAscii_decimal (n : ℕ) : (decimal n).all Utf8.isAscii = true :=
  List.all_eq_true.2 fun _ hc => isAscii_of_isDigit (KeyText.isDigit_of_mem_decimal hc)

theorem all_isAscii_marshalJSON (m : Message) : m.marshalJSON.all Utf8.isAscii = true := by
  have hsource := all_isAscii_quoted (Uuid.all_isAscii_text m.source.toList)
  have hkey : ∀ key ∈ ["Source", "ForkEncoding", "Payload"],
      (quoted key).all Utf8.isAscii = true := by decide
  simp only [List.forall_mem_cons] at hkey
  simp only [Message.marshalJSON, uuidText, writtenObject, Go.Json.writtenMembers, List.all_append,
    List.all_cons, hsource, hkey, all_isAscii_decimal, all_isAscii_payloadText]
  rfl

/-! ### Every message is read back -/

theorem decimal?_decimal (n : ℕ) : decimal? (decimal n) = some n := by
  have hdigits : (decimal n).all Char.isDigit = true :=
    List.all_eq_true.2 fun _ hc => KeyText.isDigit_of_mem_decimal hc
  have hvalue : (decimal n).foldl (fun n c => 10 * n + (c.toNat - '0'.toNat)) 0 = n := by
    rw [← Nat.ofDigitChars_eq_foldl]
    exact Nat.ofDigitChars_ten_toDigits
  rw [decimal?, if_pos ⟨Nat.toDigits_ne_nil, hdigits⟩, hvalue]

theorem readForkEncoding_decimal (n m : UInt64) :
    readForkEncoding (.num (String.ofList (decimal n.toNat))) m = .ok n := by
  rw [readForkEncoding, readUint, String.toList_ofList, decimal?_decimal]
  simp only [if_pos n.toNat_lt]
  exact congrArg Except.ok UInt64.ofNat_toNat

theorem readUUID_uuidText (source source' : UUID) :
    readUUID (.str (String.ofList (uuidText source))) source' = .ok source := by
  have hlen : source.toList.length = 16 := by simp
  rw [readUUID, String.toList_ofList, uuidText, Uuid.parse_text hlen]
  simp only [dif_pos hlen]
  rfl

/-- What the text of a payload is as JSON. -/
def payloadJson : Option (List UInt8) → Go.Json
  | none => .null
  | some bs => .str (String.ofList (Base64.encode bs))

theorem readPayload_payloadJson (payload old : Option (List UInt8)) :
    readPayload (payloadJson payload) old = .ok payload := by
  cases payload with
  | none => rfl
  | some bs => rw [payloadJson, readPayload, String.toList_ofList, Base64.decode_encode]

theorem reads_payloadText (payload : Option (List UInt8)) :
    Reads (payloadText payload) (payloadJson payload) := by
  cases payload with
  | none => exact Go.Json.reads_null
  | some bs =>
      refine Go.Json.reads_quoted ?_
      rw [String.toList_ofList]
      exact List.all_eq_true.2 (Base64.forall_mem_encode (by decide) (by decide) bs)

/-- The JSON of a message. -/
def Message.json (m : Message) : List (String × Go.Json) :=
  [("Source", .str (String.ofList (uuidText m.source))),
    ("ForkEncoding", .num (String.ofList (decimal m.forkEncoding.toNat))),
    ("Payload", payloadJson m.payload)]

/-- The JSON of a message is read as it is written. -/
theorem parse_marshalJSON (m : Message) : Go.Json.parse m.marshalJSON = some (.obj m.json) := by
  have hsource : Reads (quoted (String.ofList (uuidText m.source)))
      (.str (String.ofList (uuidText m.source))) := by
    refine Go.Json.reads_quoted ?_
    rw [String.toList_ofList]
    exact List.all_eq_true.2 (Uuid.forall_mem_text (by decide) (by decide) _)
  refine Go.Json.parse_writtenObject (.cons ?_ (.cons ?_ (.cons ?_ .nil))) (List.cons_ne_nil _ _)
  · exact .intro (by decide) hsource
  · exact .intro (by decide) (Go.Json.reads_decimal _)
  · exact .intro (by decide) (reads_payloadText m.payload)

theorem unmarshalJSON_json (m old : Message) :
    Message.unmarshalJSON (.obj m.json) old = .ok m := by
  have hsource : ∀ s v, member messageFields s ("Source", v) =
      (readUUID v s.source).map fun x => { s with source := x } := fun _ _ => rfl
  have hfork : ∀ s v, member messageFields s ("ForkEncoding", v) =
      (readForkEncoding v s.forkEncoding).map fun x => { s with forkEncoding := x } :=
    fun _ _ => rfl
  have hpayload : ∀ s v, member messageFields s ("Payload", v) =
      (readPayload v s.payload).map fun x => { s with payload := x } := fun _ _ => rfl
  rw [Message.unmarshalJSON, struct, Message.json, List.foldlM_cons, hsource, readUUID_uuidText]
  show List.foldlM _ _ _ = _
  rw [List.foldlM_cons, hfork, readForkEncoding_decimal]
  show List.foldlM _ _ _ = _
  rw [List.foldlM_cons, hpayload, readPayload_payloadJson]
  rfl

/-- **Every message is read back.** -/
theorem decode_encode (jsonError : List UInt8 → GoError) (m : Message) :
    decode jsonError (encode m) = .ok m := by
  rw [decode, encode, Uvarint.read_put (by decide)]
  simp only [or_true, if_true, unmarshal]
  rw [Utf8.runes_bytes (all_isAscii_marshalJSON m), parse_marshalJSON]
  simp only [unmarshalJSON_json]

end Transport

end Dreamboat
