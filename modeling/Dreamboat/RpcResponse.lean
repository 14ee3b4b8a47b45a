/-
**What the clients take for a success.**

The clients over HTTP and over a websocket decode the response of a node into a struct with a
pointer to an error, and they return an error if the pointer is set and the message it points at is
not empty.  The HTTP client does not look at the status of the response.  The decoder takes the
first value of the text, ignores members it does not know, takes names up to case, and lets a later
member of a name write over an earlier one.

A success is a response with a status below 300 whose text has no error object in it.  What the
decoder makes of the members is followed from the text to the message in the struct.

Main definitions:

* `RpcResponse.unmarshalJSON` — a value of JSON is read into the struct;
* `GethHttp.receive`, `GethWs.answer` — what becomes of a response;
* `RpcResponse.HttpRight`, `RpcResponse.WsRight` — nil is returned for a success only;
* `RpcResponse.speaks` — the members leave a message in the struct.

Main results:

* `RpcResponse.tracks_speaks` — the message in the struct is known from the text;
* `RpcResponse.nilIsSuccess_iff` — **nil is returned for a success only exactly when the response is
  one, cannot be read, or leaves a message**;
* `RpcResponse.nil_for_failures` — a response with status 500, and an error without a message.
-/

import Dreamboat.JsonScan
import Dreamboat.SimClients

set_option autoImplicit false

namespace Dreamboat

open Go.Json (Into Field Tracks Keeps struct pointer atMember afterPointer tracks_struct tracks_of
  keeps_of tracks_pointer fetch DecoderError)
open GethWs (RpcError RpcRawResponse)

namespace RpcResponse

/-! ### Reading a response -/

/-- The texts of errors of `encoding/json`, and the text of a value as it stands in a message. -/
structure JsonTexts where
  mismatch : GoError
  decoder : DecoderError → GoError
  raw : Go.Json → String

variable (J : JsonTexts)

/-- A number in decimal digits. -/
def decimal? (l : List Char) : Option ℕ :=
  if l ≠ [] ∧ l.all Char.isDigit then
    some (l.foldl (fun n c => 10 * n + (c.toNat - '0'.toNat)) 0)
  else none

def readString : Into GoError String
  | .null, s => .ok s
  | .str t, _ => .ok t
  | _, _ => .error J.mismatch

def readUint64 : Into GoError UInt64
  | .null, n => .ok n
  | .num t, _ =>
      match decimal? t.toList with
      | some n => if n < 2 ^ 64 then .ok (.ofNat n) else .error J.mismatch
      | none => .error J.mismatch
  | _, _ => .error J.mismatch

def readInt64 : Into GoError Int64
  | .null, i => .ok i
  | .num t, _ =>
      match t.toList with
      | '-' :: digits =>
          match decimal? digits with
          | some n => if n ≤ 2 ^ 63 then .ok (.ofInt (-n)) else .error J.mismatch
          | none => .error J.mismatch
      | digits =>
          match decimal? digits with
          | some n => if n < 2 ^ 63 then .ok (.ofInt n) else .error J.mismatch
          | none => .error J.mismatch
  | _, _ => .error J.mismatch

/-- A `json.RawMessage` takes every value. -/
def readRawMessage : Into GoError String := fun j _ => .ok (J.raw j)

instance : Inhabited RpcError := ⟨⟨0, ""⟩⟩

def errorFields : List (Field GoError RpcError) :=
  [.of "code" RpcError.code (fun e x => { e with code := x }) (readInt64 J),
    .of "message" RpcError.message (fun e x => { e with message := x }) (readString J)]

def responseFields : List (Field GoError RpcRawResponse) :=
  [.of "jsonrpc" RpcRawResponse.versionTag (fun r x => { r with versionTag := x }) (readString J),
    .of "result" RpcRawResponse.result (fun r x => { r with result := x }) (readRawMessage J),
    .of "error" RpcRawResponse.error (fun r x => { r with error := x })
      (pointer default (struct J.mismatch (errorFields J))),
    .of "id" RpcRawResponse.id (fun r x => { r with id := x }) (readUint64 J),
    .of "node" RpcRawResponse.node (fun r x => { r with node := x }) (readString J)]

def unmarshalJSON : Into GoError RpcRawResponse := struct J.mismatch (responseFields J)

/-- A decoder reads a value into a new struct. -/
def decoded (value : Except DecoderError Go.Json) : Except GoError RpcRawResponse :=
  match value with
  | .error e => .error (J.decoder e)
  | .ok v => unmarshalJSON J v default

/-- A response of a node over HTTP; the body comes in pieces. -/
structure Reply where
  status : ℕ
  body : List (List Char)

end RpcResponse

open RpcResponse

/-- What becomes of a response over HTTP; its status is not looked at. -/
def GethHttp.receive (J : JsonTexts) (reply : RpcResponse.Reply) : GethHttp.Outcome :=
  match decoded J (Go.Json.Decoder.new.decode reply.body).1 with
  | .error e => .decode e.error
  | .ok r => .response r

/-- What `RequestRPC` gives for the call with a number when a message is decoded by a new decoder:
a response that is not the one of the call is not sent to it, and its context ends. -/
def GethWs.answer (J : JsonTexts) (url : String) (id : UInt64) (body : List (List Char))
    (ended : CtxErr) : Except CtxErr RpcRawResponse :=
  match decoded J (Go.Json.Decoder.new.decode body).1 with
  | .error _ => .error ended
  | .ok r => if r.id ≠ 1 ∧ r.id = id then .ok { r with node := url } else .error ended

namespace RpcResponse

variable {J : JsonTexts}

/-! ### Successes -/

/-- The value at the beginning of a text. -/
def firstValue (text : List Char) : Option Go.Json := (fetch .start text []).value?

def isErrorObject : String × Go.Json → Bool
  | (name, .obj _) => decide (name = "error")
  | _ => false

/-- There is an error object in a text, whatever is in the object. -/
def hasErrorObject (text : List Char) : Bool :=
  match firstValue text with
  | some (.obj members) => members.any isErrorObject
  | _ => false

def Reply.Success (reply : Reply) : Prop :=
  200 ≤ reply.status ∧ reply.status < 300 ∧ hasErrorObject reply.body.flatten = false

/-- The client over HTTP returns nil for a success only. -/
def HttpRight (J : JsonTexts) (address : String) (reply : Reply) : Prop :=
  ∀ w, (GethHttp.validateBlock address (GethHttp.receive J reply) w).1.2 = none → reply.Success

/-- The client over a websocket returns nil for a text without an error object only. -/
def WsRight (J : JsonTexts) (tryOtherConnection : Bool) (url : String) (id : UInt64)
    (body : List (List Char)) (ended : CtxErr) (other : Option (Except CtxErr RpcRawResponse)) :
    Prop :=
  ∀ w, (GethWs.validateBlock tryOtherConnection (.sent (GethWs.answer J url id body ended) other)
    w).1.2 = none → hasErrorObject body.flatten = false

/-! ### The message that is left -/

/-- What a member does to a message. -/
def speaksAfter : Go.Json → Bool → Bool
  | .str t, _ => decide (t ≠ "")
  | _, b => b

/-- After all members there is an error with a message. -/
def speaks (v : Go.Json) : Bool :=
  atMember ["jsonrpc", "result", "error", "id", "node"] "error"
    (afterPointer (atMember ["code", "message"] "message" speaksAfter)) v false

/-- There is an error with a message in the struct. -/
def hasMessage (r : RpcRawResponse) : Bool := r.error.any fun e => decide (e.message ≠ "")

theorem tracks_readString :
    Tracks (readString J) (fun s => decide (s ≠ "")) speaksAfter := by
  intro j s s' h
  cases j with
  | null | str t =>
      cases h
      rfl
  | bool _ | num _ | arr _ | obj _ => cases h

theorem tracks_errorFields :
    Tracks (struct J.mismatch (errorFields J)) (fun e => decide (e.message ≠ ""))
      (atMember ["code", "message"] "message" speaksAfter) := by
  refine tracks_struct fun field hfield => ?_
  simp only [errorFields, List.mem_cons, List.not_mem_nil, or_false] at hfield
  rcases hfield with rfl | rfl
  · exact keeps_of fun _ _ => rfl
  · exact tracks_of tracks_readString (fun _ _ => rfl) fun _ => rfl

/-- **The message in the struct** is known from the members of the value. -/
theorem tracks_speaks :
    Tracks (unmarshalJSON J) hasMessage
      (atMember ["jsonrpc", "result", "error", "id", "node"] "error"
        (afterPointer (atMember ["code", "message"] "message" speaksAfter))) := by
  refine tracks_struct fun field hfield => ?_
  simp only [responseFields, List.mem_cons, List.not_mem_nil, or_false] at hfield
  rcases hfield with rfl | rfl | rfl | rfl | rfl
  · exact keeps_of fun _ _ => rfl
  · exact keeps_of fun _ _ => rfl
  · exact tracks_of (tracks_pointer tracks_errorFields rfl) (fun _ _ => rfl) fun _ => rfl
  · exact keeps_of fun _ _ => rfl
  · exact keeps_of fun _ _ => rfl

theorem responseError_eq_none_iff (r : RpcRawResponse) :
    responseError r = none ↔ hasMessage r = false := by
  unfold responseError hasMessage
  cases r.error with
  | none => simp
  | some e => simp

/-- The text cannot be read into the struct, or it leaves a message there. -/
def Refused (J : JsonTexts) (body : List (List Char)) : Prop :=
  ∀ v, firstValue body.flatten = some v →
    (unmarshalJSON J v default).isOk = false ∨ speaks v = true

/-- The text is not the response that a call waits for. -/
def Undelivered (J : JsonTexts) (id : UInt64) (body : List (List Char)) : Prop :=
  ∀ v r, firstValue body.flatten = some v → unmarshalJSON J v default = .ok r →
    r.id = 1 ∨ r.id ≠ id

/-- What is decoded is the first value of the text, in whatever pieces it comes. -/
theorem decoded_eq_ok_iff (body : List (List Char)) (r : RpcRawResponse) :
    decoded J (Go.Json.Decoder.new.decode body).1 = .ok r ↔
      ∃ v, firstValue body.flatten = some v ∧ unmarshalJSON J v default = .ok r := by
  have hpieces := Go.Json.value?_fetch .start [] body
  rw [List.nil_append] at hpieces
  rw [firstValue, ← hpieces, Go.Json.Decoder.decode, Go.Json.Decoder.new]
  cases fetch .start [] body with
  | value v rest => simp [decoded, Go.Json.Fetched.value?]
  | error e => simp [decoded, Go.Json.Fetched.value?]

/-- What is read without an error has a message exactly when the text speaks. -/
theorem responseError_of_unmarshalJSON {v : Go.Json} {r : RpcRawResponse}
    (h : unmarshalJSON J v default = .ok r) : responseError r = none ↔ speaks v = false := by
  rw [responseError_eq_none_iff, tracks_speaks v default r h]
  rfl

/-- A response without an error in it is read exactly from the texts that are not refused. -/
theorem refused_iff (body : List (List Char)) :
    Refused J body ↔
      ∀ r, decoded J (Go.Json.Decoder.new.decode body).1 = .ok r → responseError r ≠ none := by
  constructor
  · intro h r hr
    obtain ⟨v, hv, hread⟩ := (decoded_eq_ok_iff body r).1 hr
    rw [Ne, responseError_of_unmarshalJSON hread, Bool.not_eq_false]
    rcases h v hv with hfails | hspeaks
    · rw [hread] at hfails
      cases hfails
    · exact hspeaks
  · intro h v hv
    cases hread : unmarshalJSON J v default with
    | error e => exact .inl rfl
    | ok r =>
        have hne := h r ((decoded_eq_ok_iff body r).2 ⟨v, hv, hread⟩)
        rw [Ne, responseError_of_unmarshalJSON hread, Bool.not_eq_false] at hne
        exact .inr hne

/-! ### The clients -/

/-- The client over HTTP returns nil exactly for what is read without an error in it. -/
theorem http_eq_none_iff (address : String) (reply : Reply) (w : SimWorld) :
    (GethHttp.validateBlock address (GethHttp.receive J reply) w).1.2 = none ↔
      w.ctx = none ∧ ∃ r, decoded J (Go.Json.Decoder.new.decode reply.body).1 = .ok r ∧
        responseError r = none := by
  unfold GethHttp.validateBlock GethHttp.receive
  cases w.ctx with
  | some e => simp
  | none =>
      cases decoded J (Go.Json.Decoder.new.decode reply.body).1 with
      | error e => simp [GethHttp.justsend]
      | ok r => simp [GethHttp.justsend]

theorem httpRight_iff (address : String) (reply : Reply) :
    HttpRight J address reply ↔ reply.Success ∨ Refused J reply.body := by
  rw [refused_iff]
  constructor
  · intro h
    by_contra hneither
    rw [not_or, not_forall] at hneither
    obtain ⟨hfails, r, hr⟩ := hneither
    rw [Classical.not_imp, not_not] at hr
    exact hfails (h .start ((http_eq_none_iff address reply .start).2 ⟨rfl, r, hr⟩))
  · rintro (h | h) w hnil
    · exact h
    · obtain ⟨-, r, hr, hnone⟩ := (http_eq_none_iff address reply w).1 hnil
      exact absurd hnone (h r hr)

section Websocket

variable (tryOtherConnection : Bool) (other : Option (Except CtxErr RpcRawResponse))

/-- Once the context has ended, the other connection is not asked either. -/
theorem ws_of_lost (ended : CtxErr) {w : SimWorld} (hctx : w.ctx = none) :
    (GethWs.validateBlock tryOtherConnection (.sent (.error ended) other) w).1.2 ≠ none := by
  cases other with
  | none => simp [GethWs.validateBlock, GethWs.trySend, hctx]
  | some reply =>
      simp only [GethWs.validateBlock, GethWs.trySend, hctx]
      split_ifs <;> simp

theorem ws_of_found (r : RpcRawResponse) {w : SimWorld} (hctx : w.ctx = none) :
    (GethWs.validateBlock tryOtherConnection (.sent (.ok r) other) w).1.2 = responseError r := by
  cases other with
  | none => simp [GethWs.validateBlock, GethWs.trySend, hctx]
  | some reply =>
      simp only [GethWs.validateBlock, GethWs.trySend, hctx]
      split_ifs with h
      · cases SimClients.fallsBack_responseError h.2
      · rfl

/-- The client over a websocket returns nil exactly for a response to its call that is read without
an error in it. -/
theorem ws_eq_none_iff (url : String) (id : UInt64) (body : List (List Char)) (ended : CtxErr)
    (w : SimWorld) :
    (GethWs.validateBlock tryOtherConnection (.sent (GethWs.answer J url id body ended) other)
        w).1.2 = none ↔
      w.ctx = none ∧ ∃ r, decoded J (Go.Json.Decoder.new.decode body).1 = .ok r ∧
        (r.id ≠ 1 ∧ r.id = id) ∧ responseError r = none := by
  unfold GethWs.answer
  cases hctx : w.ctx with
  | some e => simp [GethWs.validateBlock, hctx]
  | none =>
      cases decoded J (Go.Json.Decoder.new.decode body).1 with
      | error e => simp [ws_of_lost tryOtherConnection other ended hctx]
      | ok r =>
          dsimp only
          split_ifs with hid
          · rw [ws_of_found _ _ _ hctx]
            refine ⟨fun h => ⟨rfl, r, rfl, hid, h⟩, ?_⟩
            rintro ⟨-, r', hr', -, h⟩
            cases hr'
            exact h
          · refine iff_of_false (ws_of_lost tryOtherConnection other ended hctx) ?_
            rintro ⟨-, r', hr', hid', -⟩
            cases hr'
            exact hid hid'

theorem wsRight_iff (url : String) (id : UInt64) (body : List (List Char)) (ended : CtxErr) :
    WsRight J tryOtherConnection url id body ended other ↔
      hasErrorObject body.flatten = false ∨ Refused J body ∨ Undelivered J id body := by
  constructor
  · intro h
    by_contra hneither
    rw [not_or, not_or, refused_iff, not_forall] at hneither
    obtain ⟨hobject, ⟨r, hr⟩, hdelivered⟩ := hneither
    rw [Classical.not_imp, not_not] at hr
    simp only [Undelivered, not_forall, not_or, not_not] at hdelivered
    obtain ⟨v, r', hv, hread, hid⟩ := hdelivered
    have hr' : decoded J (Go.Json.Decoder.new.decode body).1 = .ok r' :=
      (decoded_eq_ok_iff body r').2 ⟨v, hv, hread⟩
    obtain rfl : r = r' := Except.ok.inj (hr.1.symm.trans hr')
    exact hobject (h .start ((ws_eq_none_iff tryOtherConnection other url id body ended .start).2
      ⟨rfl, r, hr', hid, hr.2⟩))
  · intro h w hnil
    obtain ⟨-, r, hr, hid, hnone⟩ := (ws_eq_none_iff _ _ url id body ended w).1 hnil
    rcases h with h | h | h
    · exact h
    · exact absurd hnone ((refused_iff body).1 h r hr)
    · obtain ⟨v, hv, hread⟩ := (decoded_eq_ok_iff body r).1 hr
      rcases h v r hv hread with hone | hother
      · exact absurd hone hid.1
      · exact absurd hid.2 hother

end Websocket

/-- **Nil for a success only**: the client over HTTP returns nil for a success only exactly when the
response is one or is refused, and so does the client over a websocket unless the response does not
reach it. -/
theorem nilIsSuccess_iff (J : JsonTexts) (address : String) (reply : Reply)
    (tryOtherConnection : Bool) (url : String) (id : UInt64) (body : List (List Char))
    (ended : CtxErr) (other : Option (Except CtxErr RpcRawResponse)) :
    (HttpRight J address reply ↔ reply.Success ∨ Refused J reply.body) ∧
      (WsRight J tryOtherConnection url id body ended other ↔
        hasErrorObject body.flatten = false ∨ Refused J body ∨ Undelivered J id body) :=
  ⟨httpRight_iff address reply, wsRight_iff tryOtherConnection other url id body ended⟩

/-! ### Failures that are taken for a success -/

def noTexts : JsonTexts := ⟨.new "", fun _ => .new "", fun _ => ""⟩

def emptyBody : List Char := "\x7b\x7d".toList

/-- A response with a code and without a message. -/
def codeOnly : List Char :=
  "\x7b\"id\":3,\"error\":\x7b\"code\":-32000,\"message\":\"\"\x7d\x7d".toList

/-- A response with status 500, and an error without a message over HTTP and over a websocket. -/
theorem nil_for_failures :
    ¬HttpRight noTexts "" ⟨500, [emptyBody]⟩ ∧ ¬HttpRight noTexts "" ⟨200, [codeOnly]⟩ ∧
      ¬WsRight noTexts false "" 3 [codeOnly] .canceled none := by
  have hobject : hasErrorObject codeOnly = true := by decide +kernel
  refine ⟨fun h => ?_, fun h => ?_, fun h => ?_⟩
  · have hnil : (GethHttp.validateBlock "" (GethHttp.receive noTexts ⟨500, [emptyBody]⟩)
        .start).1.2 = none := by
      decide +kernel
    exact absurd (h .start hnil).2.1 (by decide)
  · have hnil : (GethHttp.validateBlock "" (GethHttp.receive noTexts ⟨200, [codeOnly]⟩)
        .start).1.2 = none := by
      decide +kernel
    have hright := (h .start hnil).2.2
    simp [hobject] at hright
  · have hnil : (GethWs.validateBlock false (.sent (GethWs.answer noTexts "" 3 [codeOnly]
        .canceled) none) .start).1.2 = none := by
      decide +kernel
    have hright := h .start hnil
    simp [hobject] at hright

end RpcResponse

end Dreamboat
