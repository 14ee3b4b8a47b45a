/-
**The decoder of the websocket.**

`Conn.rpcDecoder` hands every message of the node to one JSON decoder: the reader below the decoder
is set to the message, and the decoder is asked for a value.  A message that cannot be decoded is
skipped.  The decoder is not set back, though: an error of its scanner and the end of a message
before the end of a value are returned for all later messages, and what is left of a message behind
its first value is scanned before the next message is read, or instead of it.

A message is the list of the pieces in which the reader gives it.  What of a message has been read
behind its value depends on them, since the rest of it is dropped with the next message.

Main definitions:

* `RpcDecoder.round`, `RpcDecoder.rpcDecoder` — the loop;
* `RpcDecoder.Independent` — the response to a message is the one of a new decoder;
* `RpcDecoder.Single` — a message is one value, with white space around it.

Main results:

* `RpcDecoder.step_decode` — what a connection does with a response that is decoded;
* `RpcDecoder.exists_round_ne` — a decoder that is not clean gives another response to some message
  than a new one;
* `RpcDecoder.independent_iff` — **responses are independent of the messages before exactly when
  each of these is a single value**;
* `RpcDecoder.deaf_after_empty` — nothing is dispatched behind an empty message.
-/

import Dreamboat.RpcResponse

set_option autoImplicit false

namespace Dreamboat

open Go.Json (Decoder Scanner fetch scan blank)
open GethWs (RpcRawResponse)

namespace RpcDecoder

open RpcResponse

/-! ### The loop -/

abbrev Message := List (List Char)

/-- The response with the node attached, unless it is the one to a health check. -/
def dispatch (url : String) (r : RpcRawResponse) : Option RpcRawResponse :=
  if r.id = 1 then none else some { r with node := url }

/-- One round of the loop. -/
def round (J : JsonTexts) (url : String) (dec : Decoder) (msg : Message) :
    Option RpcRawResponse × Decoder :=
  match dec.decode msg with
  | (value, dec) =>
      match decoded J value with
      | .error _ => (none, dec)
      | .ok r => (dispatch url r, dec)

/-- The responses that are dispatched for messages. -/
def rpcDecoder (J : JsonTexts) (url : String) (dec : Decoder) : List Message →
    List (Option RpcRawResponse)
  | [] => []
  | msg :: msgs =>
      (round J url dec msg).1 :: rpcDecoder J url (round J url dec msg).2 msgs

/-- A connection looks for the channel of a response that is dispatched. -/
theorem step_decode (s : GethWs.State) (r : RpcRawResponse) :
    GethWs.step s (.decode r) =
      if s.pending.length < GethWs.decodeWorkersNumber then
        match dispatch s.url r with
        | none => some s
        | some r =>
            match s.rc.get r.id with
            | none => some s
            | some (ch, rc) => some { s with rc, pending := (ch, r) :: s.pending }
      else none := by
  simp only [GethWs.step, dispatch]
  split_ifs with hroom hone
  · rfl
  · rfl
  · rfl

/-! ### Independence -/

/-- The response to a message when it is the first one. -/
def alone (J : JsonTexts) (url : String) (msg : Message) : Option RpcRawResponse :=
  (round J url .new msg).1

/-- Behind any of the messages, the response to every message is the one of a new decoder. -/
def Independent (J : JsonTexts) (url : String) (msgs : List Message) : Prop :=
  ∀ before, before <+: msgs → ∀ msg,
    (rpcDecoder J url .new (before ++ [msg])).getLast? = some (alone J url msg)

/-- A message of one value; of what is read there is only white space around the value. -/
def Single (msg : Message) : Prop :=
  ∃ v rest, fetch .start [] msg = .value v rest ∧ blank rest = true

variable {J : JsonTexts} {url : String} {dec : Decoder}

/-- The decoder behind messages. -/
def behind (dec : Decoder) (msgs : List Message) : Decoder :=
  msgs.foldl (fun dec msg => (dec.decode msg).2) dec

theorem round_snd (dec : Decoder) (msg : Message) :
    (round J url dec msg).2 = (dec.decode msg).2 := by
  unfold round
  obtain ⟨value, dec'⟩ := dec.decode msg
  dsimp only
  cases decoded J value <;> rfl

theorem getLast?_rpcDecoder (dec : Decoder) (before : List Message) (msg : Message) :
    (rpcDecoder J url dec (before ++ [msg])).getLast? =
      some (round J url (behind dec before) msg).1 := by
  induction before generalizing dec with
  | nil => rfl
  | cons m before ih =>
      rw [List.cons_append, rpcDecoder, List.getLast?_cons, ih, round_snd]
      rfl

theorem single_iff (msg : Message) : Single msg ↔ (Decoder.new.decode msg).2.clean = true := by
  rw [Single, Decoder.decode, Decoder.new]
  cases fetch .start [] msg with
  | value v rest => simp [Decoder.clean]
  | error e => simp [Decoder.clean]

theorem clean_decode_iff (h : dec.clean = true) (msg : Message) :
    (dec.decode msg).2.clean = true ↔ Single msg := by
  rw [single_iff, (Go.Json.decode_of_clean h msg).2]

/-- A clean decoder gives the response of a new one. -/
theorem round_of_clean (h : dec.clean = true) (msg : Message) :
    (round J url dec msg).1 = alone J url msg := by
  have hvalue := (Go.Json.decode_of_clean h msg).1
  unfold alone round
  generalize dec.decode msg = out at hvalue
  generalize Decoder.new.decode msg = out' at hvalue
  obtain ⟨value, d⟩ := out
  obtain ⟨value', d'⟩ := out'
  obtain rfl : value = value' := hvalue
  dsimp only
  cases decoded J value <;> rfl

/-- Single values leave the decoder clean. -/
theorem clean_behind (h : dec.clean = true) {msgs : List Message} (hmsgs : ∀ m ∈ msgs, Single m) :
    (behind dec msgs).clean = true := by
  induction msgs generalizing dec with
  | nil => exact h
  | cons m msgs ih =>
      refine ih ((clean_decode_iff h m).2 (hmsgs m List.mem_cons_self)) fun m' hm' => ?_
      exact hmsgs m' (List.mem_cons_of_mem _ hm')

/-! ### A decoder that is not clean -/

/-- A response to the call of a number of one digit. -/
def probe (digit : Char) : List Char := ['{', '"', 'i', 'd', '"', ':', digit, '}']

theorem alone_probe (J : JsonTexts) (url : String) :
    (alone J url [probe '2']).map RpcRawResponse.id = some 2 ∧
      (alone J url [probe '3']).map RpcRawResponse.id = some 3 := by
  constructor
  · rfl
  · rfl

/-- What is dispatched for a value. -/
def respond (J : JsonTexts) (url : String) (v : Go.Json) : Option RpcRawResponse :=
  match unmarshalJSON J v default with
  | .error _ => none
  | .ok r => dispatch url r

theorem round_fst_of_err {e : Go.Json.DecoderError} (h : dec.err = some e) (msg : Message) :
    (round J url dec msg).1 = none := by
  unfold round Decoder.decode
  rw [h]
  rfl

theorem round_fst (h : dec.err = none) (msg : Message) :
    (round J url dec msg).1 = (fetch .start dec.buf msg).value?.bind (respond J url) := by
  unfold round Decoder.decode
  rw [h]
  cases fetch .start dec.buf msg with
  | error e => rfl
  | value v rest =>
      dsimp only [decoded, Go.Json.Fetched.value?, Option.bind_some, respond]
      cases unmarshalJSON J v default <;> rfl

/-- Inside an array or an object, no value ends with the probe. -/
theorem value?_fetch_probe {s : Scanner} (h : s.Inside) :
    (fetch s (probe '2') []).value? = none := by
  obtain ⟨stack, mode⟩ := s
  cases stack with
  | nil => exact absurd rfl h
  | cons frame stack =>
      have hbegin : (fetch ⟨frame :: stack, .beginValue⟩ (probe '2') []).value? = none := by
        by_cases hdepth : (frame :: stack).length < Scanner.maxNestingDepth
        · have hopen : (⟨frame :: stack, .beginValue⟩ : Scanner).step '{' =
              .next ⟨.key [] :: frame :: stack, .beginStringOrEmpty⟩ := if_pos hdepth
          rw [fetch, probe, Go.Json.scan_cons_of_next hopen]
          rfl
        · have hdeep : (⟨frame :: stack, .beginValue⟩ : Scanner).step '{' = .error :=
            if_neg hdepth
          rw [fetch, probe, scan, hdeep]
          rfl
      cases mode with
      | beginValue => exact hbegin
      | beginValueOrEmpty => exact hbegin
      | beginString => rfl
      | beginStringOrEmpty => rfl
      | endValue v =>
          cases frame with
          | arr elems => rfl
          | key members => cases v <;> rfl
          | value members key => rfl
      | inString raw => cases frame <;> rfl
      | inStringEsc raw => rfl
      | inStringEscU more raw => rfl
      | number state raw => cases state <;> cases frame <;> rfl
      | literal state => cases state <;> rfl

/-- A value that is no array or object does not give the response of the probe. -/
theorem respond_of_scalar {v : Go.Json} (h : v.scalar = true) :
    (respond J url v).map RpcRawResponse.id ≠ some 2 := by
  cases v with
  | null =>
      have hzero : (respond J url .null).map RpcRawResponse.id = some 0 := rfl
      rw [hzero]
      decide
  | bool _ | num _ | str _ => exact fun hnone => by cases hnone
  | arr _ | obj _ => cases h

/-- **A decoder that is not clean** gives another response to some message than a new one. -/
theorem exists_round_ne (J : JsonTexts) (url : String) (h : dec.clean = false) :
    ∃ msg, (round J url dec msg).1 ≠ alone J url msg := by
  obtain ⟨htwo, hthree⟩ := alone_probe J url
  by_contra hall
  simp only [not_exists, not_not] at hall
  rw [← hall] at htwo hthree
  cases herr : dec.err with
  | some e =>
      rw [round_fst_of_err herr] at htwo
      cases htwo
  | none =>
      rw [round_fst herr] at htwo hthree
      have hblank : blank dec.buf = false := by
        rw [Decoder.clean, herr] at h
        exact h
      cases hscan : scan .start dec.buf with
      | value v rest =>
          rw [Go.Json.fetch_of_value hscan] at htwo hthree
          have heq := htwo.symm.trans hthree
          cases heq
      | error =>
          rw [Go.Json.fetch_of_error hscan] at htwo
          cases htwo
      | more s =>
          rw [Go.Json.fetch_of_more hscan] at htwo
          rcases Go.Json.begun_of_scan_start hblank hscan with hinside | halone
          · rw [value?_fetch_probe hinside] at htwo
            cases htwo
          · cases hvalue : (fetch s (probe '2') []).value? with
            | none =>
                rw [hvalue] at htwo
                cases htwo
            | some v =>
                rw [hvalue, Option.bind_some] at htwo
                exact respond_of_scalar (Go.Json.scalar_of_fetch halone hvalue) htwo

/-! ### All messages -/

/-- If all responses are those of a new decoder, then the decoder was clean behind every message. -/
theorem single_of_round_eq {msgs : List Message} (hclean : dec.clean = true)
    (h : ∀ before, before <+: msgs → ∀ msg,
      (round J url (behind dec before) msg).1 = alone J url msg) :
    ∀ msg ∈ msgs, Single msg := by
  induction msgs generalizing dec with
  | nil => exact fun msg hmsg => absurd hmsg List.not_mem_nil
  | cons m msgs ih =>
      have hm : Single m := by
        rw [← clean_decode_iff hclean]
        by_contra hne
        obtain ⟨msg, hmsg⟩ := exists_round_ne J url (Bool.eq_false_of_not_eq_true hne)
        exact hmsg (h [m] ((List.prefix_cons_inj m).2 List.nil_prefix) msg)
      have hrest : ∀ msg ∈ msgs, Single msg :=
        ih ((clean_decode_iff hclean m).2 hm) fun before hbefore =>
          h (m :: before) ((List.prefix_cons_inj m).2 hbefore)
      exact List.forall_mem_cons.2 ⟨hm, hrest⟩

/-- **Independence**: the responses do not depend on the messages before exactly when each of these
is a single value. -/
theorem independent_iff (J : JsonTexts) (url : String) (msgs : List Message) :
    Independent J url msgs ↔ ∀ msg ∈ msgs, Single msg := by
  simp only [Independent, getLast?_rpcDecoder, Option.some_inj]
  constructor
  · exact single_of_round_eq rfl
  · intro h before hbefore msg
    refine round_of_clean (clean_behind rfl fun m hm => h m ?_) msg
    exact hbefore.subset hm

/-- A response behind an empty message is not dispatched, and behind a message of two values the
second of them is dispatched in its place. -/
theorem deaf_after_empty :
    ¬Independent noTexts "" [[]] ∧ ¬Independent noTexts "" [[probe '3' ++ probe '4']] := by
  constructor
  · intro h
    have hlost : (rpcDecoder noTexts "" .new ([[]] ++ [[probe '2']])).getLast? ≠
        some (alone noTexts "" [probe '2']) := by
      decide +kernel
    exact hlost (h _ (List.prefix_refl _) _)
  · intro h
    have hother : (rpcDecoder noTexts "" .new ([[probe '3' ++ probe '4']] ++
        [[probe '2']])).getLast? ≠ some (alone noTexts "" [probe '2']) := by
      decide +kernel
    exact hother (h _ (List.prefix_refl _) _)

end RpcDecoder

end Dreamboat
