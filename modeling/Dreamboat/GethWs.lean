/-
**Remote calls over a websocket.**

`RequestRPC` takes a channel from a pool, enters it into a map under the number of its message,
sends the message and waits.  A decoder that gets a response takes the channel out of the map, and
in a later step it sends the response into the channel, if there is room.  When the context of a
call ends first, the call takes its number out of the map and puts the channel back into the pool.

The channels are numbers here, so that it can be said where they are: in the pool, in the map, with
a decoder or with a call.

Main definitions:

* `GethWs.RespCache` — the map and the pool;
* `GethWs.State`, `GethWs.Action`, `GethWs.step` — a connection with its calls and decoders.
-/

import Dreamboat.GoChan
import Dreamboat.GoMap
import Dreamboat.Runs
import Dreamboat.Structs

set_option autoImplicit false

namespace Dreamboat

namespace GethWs

/-! ### Messages -/

structure RpcError where
  code : Int64
  message : String
  deriving DecidableEq, Repr

structure RpcRawResponse where
  versionTag : String
  result : String
  error : Option RpcError
  id : UInt64
  node : String
  deriving DecidableEq, Repr

instance : Inhabited RpcRawResponse := ⟨⟨"", "", none, 0, ""⟩⟩

/-- The text of a request. -/
def concatBytes (id : UInt64) (method params : String) : String :=
  "\x7b\"jsonrpc\":\"2.0\", \"id\": " ++ toString id.toNat ++ ", \"method\": \"" ++ method ++
    "\",\"params\": " ++ params ++ " \x7d"

/-! ### The map and the pool -/

/-- The channels by message number, and the channels to be used again.  A channel is a number. -/
structure RespCache where
  c : Go.Map UInt64 ℕ
  p : List ℕ

namespace RespCache

/-- A channel of the pool; the pool keeps no order. -/
def poolGet (rc : RespCache) (k : ℕ) : Option (ℕ × RespCache) :=
  (Runs.pick rc.p k).map fun (ch, p) => (ch, { rc with p })

def poolPut (rc : RespCache) (ch : ℕ) : RespCache := { rc with p := ch :: rc.p }

def set (rc : RespCache) (id : UInt64) (ch : ℕ) : RespCache := { rc with c := rc.c.insert id ch }

def del (rc : RespCache) (id : UInt64) : RespCache := { rc with c := rc.c.erase id }

def get (rc : RespCache) (id : UInt64) : Option (ℕ × RespCache) :=
  (rc.c.lookup id).map fun ch => (ch, { rc with c := rc.c.erase id })

end RespCache

/-! ### Calls and decoders -/

/-- How far a call is. -/
inductive Stage where
  /-- It has a channel. -/
  | pooled
  /-- It has a message number. -/
  | numbered
  /-- The channel is in the map. -/
  | registered
  /-- The message is sent. -/
  | waiting
  /-- The context has ended. -/
  | cancelled (err : GoError)
  /-- The result is fixed, and the channel goes back to the pool. -/
  | returning (result : Except GoError RpcRawResponse)
  | returned (result : Except GoError RpcRawResponse)

namespace Stage

/-- The call has its channel. -/
def active : Stage → Bool
  | .returned _ => false
  | _ => true

/-- The call has entered its channel into the map and has not come to a result. -/
def expecting : Stage → Bool
  | .registered | .waiting | .cancelled _ => true
  | _ => false

def result : Stage → Option (Except GoError RpcRawResponse)
  | .returning result | .returned result => some result
  | _ => none

end Stage

/-- A call of `RequestRPC`. -/
structure Call where
  method : String
  content : String
  chan : ℕ
  /-- The number of its message; 0 before it has one. -/
  id : UInt64
  ctxErr : Option GoError
  stage : Stage

def decodeWorkersNumber : ℕ := 10

structure State where
  url : String
  messageID : UInt64
  rc : RespCache
  /-- The channels, and how many of them were made. -/
  chans : ℕ → Go.Chan RpcRawResponse
  made : ℕ
  /-- The messages to be written, in a channel that several connections may share. -/
  input : Go.Chan String
  /-- What the decoders at work have taken out of the map, with the response they hold. -/
  pending : List (ℕ × RpcRawResponse)
  /-- The context of the decoders has ended. -/
  done : Bool
  calls : List Call

def newConn (url : String) (input : Go.Chan String) : State where
  url := url
  messageID := 2
  rc := ⟨∅, []⟩
  chans := fun _ => Go.Chan.make 1
  made := 0
  input := input
  pending := []
  done := false
  calls := []

inductive Action where
  /-- A call comes in, and the pool makes a channel for it. -/
  | requestNew (method content : String)
  /-- A call comes in, and the pool has a channel for it. -/
  | requestPooled (method content : String) (k : ℕ)
  /-- The steps of a call. -/
  | number (k : ℕ)
  | set (k : ℕ)
  | send (k : ℕ)
  | selectResp (k : ℕ)
  | selectCtx (k : ℕ)
  | del (k : ℕ)
  | poolPut (k : ℕ)
  /-- The context of a call ends. -/
  | ctxDone (k : ℕ) (err : GoError)
  /-- The pool drops a channel. -/
  | poolDrop (k : ℕ)
  /-- `EnqueueRPC` takes a number. -/
  | enqueueRPC
  /-- Another sender puts a message into the channel of the messages. -/
  | foreign (msg : String)
  /-- A message is written. -/
  | write
  /-- A decoder gets a response. -/
  | decode (r : RpcRawResponse)
  /-- A decoder sends its response, if there is room. -/
  | deliver (k : ℕ)
  /-- A decoder notices that its context has ended. -/
  | discard (k : ℕ)
  /-- Reading fails. -/
  | readError

def newCall (method content : String) (ch : ℕ) : Call :=
  ⟨method, content, ch, 0, none, .pooled⟩

def step (s : State) : Action → Option State
  | .requestNew method content =>
      some { s with
        chans := Function.update s.chans s.made (Go.Chan.make 1)
        made := s.made + 1
        calls := s.calls ++ [newCall method content s.made] }
  | .requestPooled method content k => do
      let (ch, rc) ← s.rc.poolGet k
      return { s with rc, calls := s.calls ++ [newCall method content ch] }
  | .number k => do
      let c ← s.calls[k]?
      match c.stage with
      | .pooled =>
          let id := s.messageID + 1
          return { s with
            messageID := id
            calls := s.calls.set k { c with id, stage := .numbered } }
      | _ => none
  | .set k => do
      let c ← s.calls[k]?
      match c.stage with
      | .numbered =>
          return { s with
            rc := s.rc.set c.id c.chan
            calls := s.calls.set k { c with stage := .registered } }
      | _ => none
  | .send k => do
      let c ← s.calls[k]?
      match c.stage with
      | .registered => do
          let input ← s.input.trySend (concatBytes c.id c.method c.content)
          return { s with input, calls := s.calls.set k { c with stage := .waiting } }
      | _ => none
  | .selectResp k => do
      let c ← s.calls[k]?
      match c.stage with
      | .waiting => do
          let (b, ch) ← (s.chans c.chan).recv default
          return { s with
            chans := Function.update s.chans c.chan ch
            calls := s.calls.set k { c with stage := .returning (.ok b) } }
      | _ => none
  | .selectCtx k => do
      let c ← s.calls[k]?
      match c.stage, c.ctxErr with
      | .waiting, some err =>
          return { s with calls := s.calls.set k { c with stage := .cancelled err } }
      | _, _ => none
  | .del k => do
      let c ← s.calls[k]?
      match c.stage with
      | .cancelled err =>
          return { s with
            rc := s.rc.del c.id
            calls := s.calls.set k { c with stage := .returning (.error err) } }
      | _ => none
  | .poolPut k => do
      let c ← s.calls[k]?
      match c.stage with
      | .returning result =>
          return { s with
            rc := s.rc.poolPut c.chan
            calls := s.calls.set k { c with stage := .returned result } }
      | _ => none
  | .ctxDone k err => do
      let c ← s.calls[k]?
      return { s with calls := s.calls.set k { c with ctxErr := c.ctxErr.or (some err) } }
  | .poolDrop k => do
      let (_, rc) ← s.rc.poolGet k
      return { s with rc }
  | .enqueueRPC => some { s with messageID := s.messageID + 1 }
  | .foreign msg => do
      let input ← s.input.trySend msg
      return { s with input }
  | .write => do
      let (_, input) ← s.input.recv ""
      return { s with input }
  | .decode r =>
      if s.pending.length < decodeWorkersNumber then
        if r.id = 1 then some s
        else
          match s.rc.get r.id with
          | none => some s
          | some (ch, rc) =>
              some { s with rc, pending := (ch, { r with node := s.url }) :: s.pending }
      else none
  | .deliver k => do
      let ((ch, r), pending) ← Runs.pick s.pending k
      match (s.chans ch).trySend r with
      | some c => return { s with pending, chans := Function.update s.chans ch c }
      | none => return { s with pending }
  | .discard k => do
      let (_, pending) ← Runs.pick s.pending k
      if s.done then return { s with pending } else none
  | .readError => some { s with done := true }

end GethWs

end Dreamboat
