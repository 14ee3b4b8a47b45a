/-
**The manager of the store of registrations, up to its end.**

`src/validators/storemanager.go` sends batches of registrations through a channel to workers that
store them.  `SendStore` holds the read lock of a mutex while it looks at a flag and sends; `Close`
sets the flag and closes the channel under the write lock, and then waits for the workers, which
end when the channel is closed and empty.  A send into a closed channel would be a panic.

The batches are numbered by the calls of `SendStore`.

Main definitions:

* `StoreManager.State`, `StoreManager.Action`, `StoreManager.step` — the senders, the workers and
  the closing;
* `StoreManager.Locks`, `StoreManager.Batches` — the invariants of the mutex and of the batches.

Main results:

* `StoreManager.locks_step`, `StoreManager.batches_step` — one step keeps them;
* `StoreManager.close_after_batches` — **no batch that was accepted is lost, none is taken twice,
  and nothing is sent into the closed channel**.
-/

import Dreamboat.GoChan
import Dreamboat.Runs
import Dreamboat.ValidatorStore

set_option autoImplicit false

namespace Dreamboat

structure StoreReqItem where
  payload : SignedValidatorRegistration
  time : UInt64
  deriving DecidableEq

structure StoreReq where
  items : List StoreReqItem
  deriving DecidableEq

namespace StoreManager

/-! ### The parties -/

/-- How far a call of `SendStore` is. -/
inductive SendStage where
  | called
  /-- It has the read lock. -/
  | rlocked
  /-- It has found the flag down, and sends. -/
  | sending
  | sent
  /-- It has found the flag up. -/
  | refused
  | returned (accepted : Bool)
  deriving DecidableEq

namespace SendStage

/-- The call has the read lock. -/
def reading : SendStage → Bool
  | .rlocked | .sending | .sent | .refused => true
  | .called | .returned _ => false

/-- The call has observed that the flag is down. -/
def observedOpen : SendStage → Bool
  | .sending | .sent => true
  | .returned accepted => accepted
  | .called | .rlocked | .refused => false

/-- The batch is in the channel or has been. -/
def accepted : SendStage → Bool
  | .sent => true
  | .returned accepted => accepted
  | .called | .rlocked | .sending | .refused => false

end SendStage

structure Send where
  request : StoreReq
  stage : SendStage
  deriving DecidableEq

/-- A worker of `ParallelStore` waits for a batch, or it stores one, some items of which are stored,
or its loop has ended. -/
inductive Worker where
  | idle
  | storing (batch : ℕ) (done rest : List StoreReqItem)
  | exited
  deriving DecidableEq

def Worker.batch : Worker → Option ℕ
  | .storing batch _ _ => some batch
  | .idle | .exited => none

/-- What has become of a batch: the items that were stored, and the error that kept the next one
from being stored. -/
structure Handled where
  batch : ℕ
  done : List StoreReqItem
  err : Option GoError
  deriving DecidableEq

/-- How far `Close` is. -/
inductive CloseStage where
  | idle
  | called
  /-- It has the write lock. -/
  | locked
  | flagged
  | chanClosed
  | unlocked
  | returned
  deriving DecidableEq

namespace CloseStage

/-- `Close` has the write lock. -/
def writing : CloseStage → Bool
  | .locked | .flagged | .chanClosed => true
  | .idle | .called | .unlocked | .returned => false

/-- The flag is up. -/
def isFlagged : CloseStage → Bool
  | .flagged | .chanClosed | .unlocked | .returned => true
  | .idle | .called | .locked => false

/-- The channel is closed. -/
def isChanClosed : CloseStage → Bool
  | .chanClosed | .unlocked | .returned => true
  | .idle | .called | .locked | .flagged => false

end CloseStage

structure State where
  storeCh : Go.Chan ℕ
  isClosed : Bool
  sends : List Send
  workers : List Worker
  close : CloseStage
  /-- Which worker has taken which batch. -/
  taken : List (ℕ × ℕ)
  handled : List Handled
  panicked : Bool
  deriving DecidableEq

/-- A new manager after `RunStore`. -/
def State.init (storeSize num : ℕ) : State where
  storeCh := Go.Chan.make storeSize
  isClosed := false
  sends := []
  workers := List.replicate num .idle
  close := .idle
  taken := []
  handled := []
  panicked := false

inductive Action where
  | sendStore (request : StoreReq)
  | rlock (k : ℕ)
  | load (k : ℕ)
  | send (k : ℕ)
  /-- The batch goes from the sender to a worker that waits for one. -/
  | handoff (k w : ℕ)
  | runlock (k : ℕ)
  | receive (w : ℕ)
  /-- A worker finds the channel closed and empty. -/
  | exit (w : ℕ)
  /-- A worker stores an item, or fails to. -/
  | put (w : ℕ) (err : Option GoError)
  | finish (w : ℕ)
  | close
  | lock
  | storeFlag
  | closeChan
  | unlock
  | wait

def setSend (s : State) (k : ℕ) (send : Send) (stage : SendStage) : State :=
  { s with sends := s.sends.set k { send with stage } }

/-- A worker begins with a batch. -/
def take (s : State) (w k : ℕ) (request : StoreReq) : State :=
  { s with
    workers := s.workers.set w (.storing k [] request.items)
    taken := s.taken ++ [(k, w)] }

/-- A worker is done with a batch. -/
def leave (s : State) (w : ℕ) (handled : Handled) : State :=
  { s with workers := s.workers.set w .idle, handled := s.handled ++ [handled] }

/-- A step of the call `k`, which is at `stage`. -/
def stepSend (s : State) (k : ℕ) (stage : SendStage) (f : Send → Option State) : Option State := do
  let send ← s.sends[k]?
  if send.stage = stage then f send else none

/-- A step of `Close`, which is at `stage`. -/
def stepClose (s : State) (stage : CloseStage) (f : Option State) : Option State :=
  if s.close = stage then f else none

def step (s : State) (a : Action) : Option State :=
  if s.panicked then none
  else
    match a with
    | .sendStore request => some { s with sends := s.sends ++ [⟨request, .called⟩] }
    | .rlock k => stepSend s k .called fun send =>
        if s.close.writing then none else some (setSend s k send .rlocked)
    | .load k => stepSend s k .rlocked fun send =>
        some (setSend s k send (if s.isClosed then .refused else .sending))
    | .send k => stepSend s k .sending fun send =>
        if s.storeCh.closed then some { s with panicked := true }
        else do
          let storeCh ← s.storeCh.trySend k
          return { setSend s k send .sent with storeCh }
    | .handoff k w => stepSend s k .sending fun send =>
        match s.workers[w]?, s.storeCh.buf with
        | some .idle, [] =>
            if s.storeCh.closed then none else some (take (setSend s k send .sent) w k send.request)
        | _, _ => none
    | .runlock k => do
        let send ← s.sends[k]?
        match send.stage with
        | .sent => return setSend s k send (.returned true)
        | .refused => return setSend s k send (.returned false)
        | _ => none
    | .receive w =>
        match s.workers[w]?, s.storeCh.buf with
        | some .idle, k :: buf => do
            let send ← s.sends[k]?
            return take { s with storeCh := { s.storeCh with buf } } w k send.request
        | _, _ => none
    | .exit w =>
        match s.workers[w]?, s.storeCh.buf with
        | some .idle, [] =>
            if s.storeCh.closed then some { s with workers := s.workers.set w .exited } else none
        | _, _ => none
    | .put w err =>
        match s.workers[w]? with
        | some (.storing k done (item :: rest)) =>
            match err with
            | none => some { s with workers := s.workers.set w (.storing k (done ++ [item]) rest) }
            | some err => some (leave s w ⟨k, done, some err⟩)
        | _ => none
    | .finish w =>
        match s.workers[w]? with
        | some (.storing k done []) => some (leave s w ⟨k, done, none⟩)
        | _ => none
    | .close => stepClose s .idle (some { s with close := .called })
    | .lock => stepClose s .called
        (if ∀ send ∈ s.sends, send.stage.reading = false then some { s with close := .locked }
        else none)
    | .storeFlag => stepClose s .locked (some { s with close := .flagged, isClosed := true })
    | .closeChan => stepClose s .flagged
        (if h : s.storeCh.closed = false then
          some { s with close := .chanClosed, storeCh := s.storeCh.close h }
        else some { s with panicked := true })
    | .unlock => stepClose s .chanClosed (some { s with close := .unlocked })
    | .wait => stepClose s .unlocked
        (if ∀ w ∈ s.workers, w = .exited then some { s with close := .returned } else none)

/-! ### One step -/

variable {s s' : State} {a : Action}

theorem stepSend_eq_some {k : ℕ} {stage : SendStage} {f : Send → Option State}
    (h : stepSend s k stage f = some s') :
    ∃ send, s.sends[k]? = some send ∧ send.stage = stage ∧ f send = some s' := by
  obtain ⟨send, hsend, h⟩ := Option.bind_eq_some_iff.1 h
  split at h
  · next hstage => exact ⟨send, hsend, hstage, h⟩
  · cases h

theorem stepClose_eq_some {stage : CloseStage} {f : Option State}
    (h : stepClose s stage f = some s') : s.close = stage ∧ f = some s' := by
  simp only [stepClose] at h
  split at h
  · next hstage => exact ⟨hstage, h⟩
  · cases h

/-- What becomes of a call of `SendStore`, with the batches in the channel and the workers. -/
inductive SendEffect (s : State) (k : ℕ) (send : Send) : State → Prop
  | rlock : send.stage = .called → s.close.writing = false →
      SendEffect s k send (setSend s k send .rlocked)
  | refuse : send.stage = .rlocked → s.isClosed = true →
      SendEffect s k send (setSend s k send .refused)
  | observe : send.stage = .rlocked → s.isClosed = false →
      SendEffect s k send (setSend s k send .sending)
  | panic : send.stage = .sending → s.storeCh.closed = true →
      SendEffect s k send { s with panicked := true }
  | send (storeCh : Go.Chan ℕ) : send.stage = .sending → s.storeCh.closed = false →
      s.storeCh.trySend k = some storeCh →
      SendEffect s k send { setSend s k send .sent with storeCh }
  | handoff (w : ℕ) : send.stage = .sending → s.storeCh.closed = false →
      s.workers[w]? = some .idle → s.storeCh.buf = [] →
      SendEffect s k send (take (setSend s k send .sent) w k send.request)
  | runlock (accepted : Bool) : send.stage = (if accepted then .sent else .refused) →
      SendEffect s k send (setSend s k send (.returned accepted))

/-- What a worker does. -/
inductive WorkEffect (s : State) (w : ℕ) : State → Prop
  | receive (k : ℕ) (buf : List ℕ) (send : Send) : s.workers[w]? = some .idle →
      s.storeCh.buf = k :: buf → s.sends[k]? = some send →
      WorkEffect s w (take { s with storeCh := { s.storeCh with buf } } w k send.request)
  | exit : s.workers[w]? = some .idle → s.storeCh.buf = [] → s.storeCh.closed = true →
      WorkEffect s w { s with workers := s.workers.set w .exited }
  | put (k : ℕ) (done : List StoreReqItem) (item : StoreReqItem) (rest : List StoreReqItem) :
      s.workers[w]? = some (.storing k done (item :: rest)) →
      WorkEffect s w { s with workers := s.workers.set w (.storing k (done ++ [item]) rest) }
  | fail (k : ℕ) (done : List StoreReqItem) (item : StoreReqItem) (rest : List StoreReqItem)
      (err : GoError) : s.workers[w]? = some (.storing k done (item :: rest)) →
      WorkEffect s w (leave s w ⟨k, done, some err⟩)
  | finish (k : ℕ) (done : List StoreReqItem) : s.workers[w]? = some (.storing k done []) →
      WorkEffect s w (leave s w ⟨k, done, none⟩)

/-- What `Close` does. -/
inductive CloseEffect (s : State) : State → Prop
  | call : s.close = .idle → CloseEffect s { s with close := .called }
  | lock : s.close = .called → (∀ send ∈ s.sends, send.stage.reading = false) →
      CloseEffect s { s with close := .locked }
  | storeFlag : s.close = .locked → CloseEffect s { s with close := .flagged, isClosed := true }
  | closeChan (h : s.storeCh.closed = false) : s.close = .flagged →
      CloseEffect s { s with close := .chanClosed, storeCh := s.storeCh.close h }
  | panic : s.close = .flagged → s.storeCh.closed = true → CloseEffect s { s with panicked := true }
  | unlock : s.close = .chanClosed → CloseEffect s { s with close := .unlocked }
  | wait : s.close = .unlocked → (∀ w ∈ s.workers, w = .exited) →
      CloseEffect s { s with close := .returned }

/-- **Everything a step can do.** -/
theorem step_cases (h : step s a = some s') :
    (∃ request, s' = { s with sends := s.sends ++ [⟨request, .called⟩] }) ∨
    (∃ k send, s.sends[k]? = some send ∧ SendEffect s k send s') ∨
    (∃ w, WorkEffect s w s') ∨ CloseEffect s s' := by
  simp only [step] at h
  split at h
  · cases h
  cases a with
  | sendStore request => exact .inl ⟨request, (Option.some_inj.1 h).symm⟩
  | rlock k =>
      obtain ⟨send, hsend, hstage, h⟩ := stepSend_eq_some h
      refine .inr (.inl ⟨k, send, hsend, ?_⟩)
      split at h
      · cases h
      · next hwriting =>
          rw [← Option.some_inj.1 h]
          exact .rlock hstage (by simpa using hwriting)
  | load k =>
      obtain ⟨send, hsend, hstage, h⟩ := stepSend_eq_some h
      refine .inr (.inl ⟨k, send, hsend, ?_⟩)
      rw [← Option.some_inj.1 h]
      cases hclosed : s.isClosed with
      | true => exact .refuse hstage hclosed
      | false => exact .observe hstage hclosed
  | send k =>
      obtain ⟨send, hsend, hstage, h⟩ := stepSend_eq_some h
      refine .inr (.inl ⟨k, send, hsend, ?_⟩)
      split at h
      · next hclosed =>
          rw [← Option.some_inj.1 h]
          exact .panic hstage hclosed
      · next hclosed =>
          obtain ⟨storeCh, hch, h⟩ := Option.bind_eq_some_iff.1 h
          rw [← Option.some_inj.1 h]
          exact .send storeCh hstage (by simpa using hclosed) hch
  | handoff k w =>
      obtain ⟨send, hsend, hstage, h⟩ := stepSend_eq_some h
      refine .inr (.inl ⟨k, send, hsend, ?_⟩)
      split at h
      · next hidle hbuf =>
          split at h
          · cases h
          · next hclosed =>
              rw [← Option.some_inj.1 h]
              exact .handoff w hstage (by simpa using hclosed) hidle hbuf
      · cases h
  | runlock k =>
      obtain ⟨send, hsend, h⟩ := Option.bind_eq_some_iff.1 h
      refine .inr (.inl ⟨k, send, hsend, ?_⟩)
      split at h
      · next hstage =>
          rw [← Option.some_inj.1 h]
          exact .runlock true hstage
      · next hstage =>
          rw [← Option.some_inj.1 h]
          exact .runlock false hstage
      · cases h
  | receive w =>
      refine .inr (.inr (.inl ⟨w, ?_⟩))
      simp only at h
      split at h
      · next k buf hidle hbuf =>
          obtain ⟨send, hsend, h⟩ := Option.bind_eq_some_iff.1 h
          rw [← Option.some_inj.1 h]
          exact .receive k buf send hidle hbuf hsend
      · cases h
  | exit w =>
      refine .inr (.inr (.inl ⟨w, ?_⟩))
      simp only at h
      split at h
      · next hidle hbuf =>
          split at h
          · next hclosed =>
              rw [← Option.some_inj.1 h]
              exact .exit hidle hbuf hclosed
          · cases h
      · cases h
  | put w err =>
      refine .inr (.inr (.inl ⟨w, ?_⟩))
      simp only at h
      split at h
      · next k done item rest hw =>
          cases err with
          | none =>
              rw [← Option.some_inj.1 h]
              exact .put k done item rest hw
          | some err =>
              rw [← Option.some_inj.1 h]
              exact .fail k done item rest err hw
      · cases h
  | finish w =>
      refine .inr (.inr (.inl ⟨w, ?_⟩))
      simp only at h
      split at h
      · next k done hw =>
          rw [← Option.some_inj.1 h]
          exact .finish k done hw
      · cases h
  | close =>
      obtain ⟨hstage, h⟩ := stepClose_eq_some h
      rw [← Option.some_inj.1 h]
      exact .inr (.inr (.inr (.call hstage)))
  | lock =>
      obtain ⟨hstage, h⟩ := stepClose_eq_some h
      split at h
      · next hfree =>
          rw [← Option.some_inj.1 h]
          exact .inr (.inr (.inr (.lock hstage hfree)))
      · cases h
  | storeFlag =>
      obtain ⟨hstage, h⟩ := stepClose_eq_some h
      rw [← Option.some_inj.1 h]
      exact .inr (.inr (.inr (.storeFlag hstage)))
  | closeChan =>
      obtain ⟨hstage, h⟩ := stepClose_eq_some h
      split at h
      · next hopen =>
          rw [← Option.some_inj.1 h]
          exact .inr (.inr (.inr (.closeChan hopen hstage)))
      · next hclosed =>
          rw [← Option.some_inj.1 h]
          exact .inr (.inr (.inr (.panic hstage (by simpa using hclosed))))
  | unlock =>
      obtain ⟨hstage, h⟩ := stepClose_eq_some h
      rw [← Option.some_inj.1 h]
      exact .inr (.inr (.inr (.unlock hstage)))
  | wait =>
      obtain ⟨hstage, h⟩ := stepClose_eq_some h
      split at h
      · next hexited =>
          rw [← Option.some_inj.1 h]
          exact .inr (.inr (.inr (.wait hstage hexited)))
      · cases h

/-! ### The mutex -/

/-- The flag and the channel are as far as `Close` is, `Close` and the senders do not have the mutex
at the same time, and a sender that has found the flag down still finds it so. -/
structure Locks (s : State) : Prop where
  panicked : s.panicked = false
  flag : s.isClosed = s.close.isFlagged
  chan : s.storeCh.closed = s.close.isChanClosed
  readers : ∀ send ∈ s.sends, send.stage.reading = true → s.close.writing = false
  sending : ∀ send ∈ s.sends, send.stage = .sending → s.close.isFlagged = false

theorem locks_init (storeSize num : ℕ) : Locks (State.init storeSize num) where
  panicked := rfl
  flag := rfl
  chan := rfl
  readers := by simp [State.init]
  sending := by simp [State.init]

/-- What is closed is flagged. -/
theorem CloseStage.isFlagged_of_isChanClosed {c : CloseStage} (h : c.isChanClosed = true) :
    c.isFlagged = true := by
  cases c with
  | chanClosed => rfl
  | unlocked => rfl
  | returned => rfl
  | idle => cases h
  | called => cases h
  | locked => cases h
  | flagged => cases h

namespace Locks

variable (h : Locks s)

include h

/-- A sender does not find the channel closed. -/
theorem open_of_sending {send : Send} (hsend : send ∈ s.sends) (hstage : send.stage = .sending) :
    s.storeCh.closed = false := by
  have hflag := h.sending send hsend hstage
  rw [h.chan]
  by_contra hclosed
  rw [CloseStage.isFlagged_of_isChanClosed (by simpa using hclosed)] at hflag
  cases hflag

/-- A sender goes on. -/
theorem setSend {k : ℕ} {send : Send} {stage : SendStage}
    (hreading : stage.reading = true → s.close.writing = false)
    (hsending : stage = .sending → s.close.isFlagged = false) :
    Locks (StoreManager.setSend s k send stage) := by
  refine ⟨h.panicked, h.flag, h.chan, ?_, ?_⟩
  · intro send' hsend' hread
    rcases List.mem_or_eq_of_mem_set hsend' with hsend' | rfl
    · exact h.readers send' hsend' hread
    · exact hreading hread
  · intro send' hsend' hstage
    rcases List.mem_or_eq_of_mem_set hsend' with hsend' | rfl
    · exact h.sending send' hsend' hstage
    · exact hsending hstage

/-- The batches and the workers have nothing to do with the mutex. -/
theorem of_eq (hpanicked : s'.panicked = s.panicked) (hisClosed : s'.isClosed = s.isClosed)
    (hclosed : s'.storeCh.closed = s.storeCh.closed) (hsends : s'.sends = s.sends)
    (hclose : s'.close = s.close) : Locks s' where
  panicked := hpanicked.trans h.panicked
  flag := by rw [hisClosed, hclose, h.flag]
  chan := by rw [hclosed, hclose, h.chan]
  readers := by
    rw [hsends, hclose]
    exact h.readers
  sending := by
    rw [hsends, hclose]
    exact h.sending

theorem sendEffect {k : ℕ} {send : Send} (hsend : s.sends[k]? = some send)
    (heffect : SendEffect s k send s') : Locks s' := by
  have hmem := List.mem_of_getElem? hsend
  have hwriting : send.stage.reading = true → s.close.writing = false := h.readers send hmem
  cases heffect with
  | rlock hstage hfree => exact h.setSend (fun _ => hfree) (by simp)
  | refuse hstage hclosed =>
      exact h.setSend (fun _ => hwriting (by rw [hstage]; rfl)) (by simp)
  | observe hstage hclosed =>
      refine h.setSend (fun _ => hwriting (by rw [hstage]; rfl)) (fun _ => ?_)
      rw [← h.flag, hclosed]
  | panic hstage hclosed =>
      rw [h.open_of_sending hmem hstage] at hclosed
      cases hclosed
  | send storeCh hstage hclosed hch =>
      refine Locks.of_eq (h.setSend (fun _ => hwriting (by rw [hstage]; rfl)) (by simp)) rfl rfl
        (Go.Chan.trySend_eq_some hch).2 rfl rfl
  | handoff w hstage hclosed hidle hbuf =>
      exact Locks.of_eq (h.setSend (fun _ => hwriting (by rw [hstage]; rfl)) (by simp)) rfl rfl rfl
        rfl rfl
  | runlock accepted hstage => exact h.setSend (fun hread => by cases hread) (by simp)

theorem workEffect {w : ℕ} (heffect : WorkEffect s w s') : Locks s' := by
  cases heffect with
  | receive k buf send hidle hbuf hsend => exact h.of_eq rfl rfl rfl rfl rfl
  | exit hidle hbuf hclosed => exact h.of_eq rfl rfl rfl rfl rfl
  | put k done item rest hw => exact h.of_eq rfl rfl rfl rfl rfl
  | fail k done item rest err hw => exact h.of_eq rfl rfl rfl rfl rfl
  | finish k done hw => exact h.of_eq rfl rfl rfl rfl rfl

omit h in
/-- Without a sender that has the mutex, only the flag and the channel matter. -/
theorem of_not_reading (hfree : ∀ send ∈ s.sends, send.stage.reading = false)
    (hpanicked : s.panicked = false) (hflag : s.isClosed = s.close.isFlagged)
    (hchan : s.storeCh.closed = s.close.isChanClosed) : Locks s := by
  refine ⟨hpanicked, hflag, hchan, ?_, ?_⟩
  · intro send hsend hread
    rw [hfree send hsend] at hread
    cases hread
  · intro send hsend hstage
    have hread := hfree send hsend
    rw [hstage] at hread
    cases hread

/-- While `Close` has the mutex, no sender has it. -/
theorem not_reading (hwriting : s.close.writing = true) {send : Send} (hsend : send ∈ s.sends) :
    send.stage.reading = false := by
  by_contra hread
  rw [h.readers send hsend (by simpa using hread)] at hwriting
  cases hwriting

theorem closeEffect (heffect : CloseEffect s s') : Locks s' := by
  have hflag := h.flag
  have hchan := h.chan
  cases heffect with
  | call hstage =>
      rw [hstage] at hflag hchan
      exact ⟨h.panicked, hflag, hchan, fun _ _ _ => rfl, fun _ _ _ => rfl⟩
  | lock hstage hfree =>
      rw [hstage] at hflag hchan
      exact of_not_reading hfree h.panicked hflag hchan
  | storeFlag hstage =>
      rw [hstage] at hchan
      exact of_not_reading (fun _ => h.not_reading (by rw [hstage]; rfl)) h.panicked rfl hchan
  | closeChan hopen hstage =>
      rw [hstage] at hflag
      exact of_not_reading (fun _ => h.not_reading (by rw [hstage]; rfl)) h.panicked hflag rfl
  | panic hstage hclosed =>
      rw [hchan, hstage] at hclosed
      cases hclosed
  | unlock hstage =>
      have hsending := h.sending
      rw [hstage] at hflag hchan hsending
      exact ⟨h.panicked, hflag, hchan, fun _ _ _ => rfl, hsending⟩
  | wait hstage hexited =>
      have hsending := h.sending
      rw [hstage] at hflag hchan hsending
      exact ⟨h.panicked, hflag, hchan, fun _ _ _ => rfl, hsending⟩

end Locks

/-- **One step keeps the mutex.** -/
theorem locks_step (h : Locks s) (hs : step s a = some s') : Locks s' := by
  obtain ⟨request, rfl⟩ | ⟨k, send, hsend, heffect⟩ | ⟨w, heffect⟩ | heffect := step_cases hs
  · refine ⟨h.panicked, h.flag, h.chan, ?_, ?_⟩
    · intro send hsend hread
      rcases List.mem_append.1 hsend with hsend | hsend
      · exact h.readers send hsend hread
      · rw [List.mem_singleton.1 hsend] at hread
        cases hread
    · intro send hsend hstage
      rcases List.mem_append.1 hsend with hsend | hsend
      · exact h.sending send hsend hstage
      · rw [List.mem_singleton.1 hsend] at hstage
        cases hstage
  · exact h.sendEffect hsend heffect
  · exact h.workEffect heffect
  · exact h.closeEffect heffect

/-! ### The batches -/

/-- The request of a call. -/
def State.request (s : State) (k : ℕ) : Option StoreReq := s.sends[k]?.map Send.request

/-- The batch of a call is in the channel or has been. -/
def State.Accepted (s : State) (k : ℕ) : Prop :=
  ∃ send, s.sends[k]? = some send ∧ send.stage.accepted = true

/-- The batches in the channel, with a worker, and those that are done. -/
def inHand (s : State) : List ℕ :=
  s.storeCh.buf ++ (s.workers.filterMap Worker.batch ++ s.handled.map Handled.batch)

/-- A batch is done when all its items are stored, or all up to the first one that fails. -/
def Handled.Complete (h : Handled) (request : StoreReq) : Prop :=
  match h.err with
  | none => h.done = request.items
  | some _ => ∃ item rest, h.done ++ item :: rest = request.items

structure Batches (num : ℕ) (s : State) : Prop where
  nodup : (inHand s).Nodup
  mem_iff : ∀ k, k ∈ inHand s ↔ s.Accepted k
  taken : (s.taken.map Prod.fst).Perm
    (s.workers.filterMap Worker.batch ++ s.handled.map Handled.batch)
  storing : ∀ k done rest, .storing k done rest ∈ s.workers →
    ∃ request, s.request k = some request ∧ done ++ rest = request.items
  handled : ∀ h ∈ s.handled, ∃ request, s.request h.batch = some request ∧ h.Complete request
  exited : .exited ∈ s.workers → s.storeCh.buf = [] ∧ s.storeCh.closed = true
  returned : s.close = .returned → ∀ w ∈ s.workers, w = .exited
  length : s.workers.length = num

theorem batches_init (storeSize num : ℕ) : Batches num (State.init storeSize num) := by
  have hnone : (List.replicate num Worker.idle).filterMap Worker.batch = [] := by
    simp [Worker.batch]
  have hhand : inHand (State.init storeSize num) = [] := by
    simp [inHand, State.init, Go.Chan.make, hnone]
  refine ⟨by simp [hhand], ?_, ?_, ?_, ?_, ?_, ?_, by simp [State.init]⟩
  · intro k
    rw [hhand]
    simp [State.Accepted, State.init]
  · simp [State.init, hnone]
  · intro k done rest hmem
    cases List.eq_of_mem_replicate hmem
  · simp [State.init]
  · intro hmem
    cases List.eq_of_mem_replicate hmem
  · intro hclose
    cases hclose

section Send

variable {k : ℕ} {send : Send} (hsend : s.sends[k]? = some send) (stage : SendStage)

include hsend

theorem request_setSend (j : ℕ) : (setSend s k send stage).request j = s.request j := by
  obtain ⟨hk, rfl⟩ := List.getElem?_eq_some_iff.1 hsend
  simp only [State.request, setSend]
  by_cases hj : k = j
  · subst hj
    simp [List.getElem?_set_self hk, List.getElem?_eq_getElem hk]
  · rw [List.getElem?_set_ne hj]

theorem accepted_setSend (j : ℕ) : (setSend s k send stage).Accepted j ↔
    if j = k then stage.accepted = true else s.Accepted j := by
  have hk := (List.getElem?_eq_some_iff.1 hsend).1
  simp only [State.Accepted, setSend]
  by_cases hj : j = k
  · subst hj
    simp [List.getElem?_set_self hk]
  · rw [List.getElem?_set_ne (Ne.symm hj), if_neg hj]

theorem accepted_iff : s.Accepted k ↔ send.stage.accepted = true := by
  simp [State.Accepted, hsend]

/-- The batch of a sender comes into the channel or to a worker. -/
theorem accepted_sent (hstage : send.stage = .sending) : ¬s.Accepted k ∧
    ∀ j, (setSend s k send .sent).Accepted j ↔ j = k ∨ s.Accepted j := by
  refine ⟨?_, ?_⟩
  · rw [accepted_iff hsend, hstage]
    simp [SendStage.accepted]
  · intro j
    rw [accepted_setSend hsend]
    by_cases hj : j = k
    · simp [hj, SendStage.accepted]
    · simp [hj]

end Send

section Workers

variable {workers : List Worker} {w k : ℕ}

/-- A worker that waits gets a batch. -/
theorem filterMap_set_storing (h : workers[w]? = some .idle) (items : List StoreReqItem) :
    ((workers.set w (.storing k [] items)).filterMap Worker.batch).Perm
      (k :: workers.filterMap Worker.batch) := by
  obtain ⟨rest, hold, hnew⟩ := Runs.exists_filterMap_rest Worker.batch h
  exact (hnew _).trans (hold.symm.cons k)

/-- A worker is done with a batch. -/
theorem filterMap_set_idle {done rest : List StoreReqItem}
    (h : workers[w]? = some (.storing k done rest)) :
    (workers.filterMap Worker.batch).Perm
      (k :: (workers.set w .idle).filterMap Worker.batch) := by
  obtain ⟨others, hold, hnew⟩ := Runs.exists_filterMap_rest Worker.batch h
  exact hold.trans ((hnew .idle).symm.cons k)

/-- A worker keeps its batch. -/
theorem filterMap_set_of_batch_eq {worker : Worker} (h : workers[w]? = some worker)
    (worker' : Worker) (hbatch : worker'.batch = worker.batch) :
    ((workers.set w worker').filterMap Worker.batch).Perm (workers.filterMap Worker.batch) := by
  obtain ⟨others, hold, hnew⟩ := Runs.exists_filterMap_rest Worker.batch h
  have hnew' := hnew worker'
  rw [hbatch] at hnew'
  exact hnew'.trans hold.symm

end Workers

namespace Batches

variable {num : ℕ} (h : Batches num s)

include h

/-- What the calls say of the batches in hand. -/
theorem nodup_mem_of_perm (hperm : (inHand s').Perm (inHand s))
    (haccepted : ∀ k, s'.Accepted k ↔ s.Accepted k) :
    (inHand s').Nodup ∧ ∀ k, k ∈ inHand s' ↔ s'.Accepted k := by
  refine ⟨hperm.nodup_iff.2 h.nodup, ?_⟩
  intro k
  rw [hperm.mem_iff, h.mem_iff, haccepted]

/-- One more batch in hand. -/
theorem nodup_mem_of_cons {k : ℕ} (hnew : ¬s.Accepted k)
    (hperm : (inHand s').Perm (k :: inHand s))
    (haccepted : ∀ j, s'.Accepted j ↔ j = k ∨ s.Accepted j) :
    (inHand s').Nodup ∧ ∀ j, j ∈ inHand s' ↔ s'.Accepted j := by
  refine ⟨hperm.nodup_iff.2 (List.nodup_cons.2 ⟨?_, h.nodup⟩), ?_⟩
  · rw [h.mem_iff]
    exact hnew
  · intro j
    rw [hperm.mem_iff, List.mem_cons, h.mem_iff, haccepted]

/-- A sender goes on without sending. -/
theorem setSend {k : ℕ} {send : Send} (hsend : s.sends[k]? = some send) {stage : SendStage}
    (hstage : stage.accepted = send.stage.accepted) :
    Batches num (StoreManager.setSend s k send stage) := by
  have haccepted : ∀ j, (StoreManager.setSend s k send stage).Accepted j ↔ s.Accepted j := by
    intro j
    rw [accepted_setSend hsend]
    split
    · next hj => rw [hj, accepted_iff hsend, hstage]
    · exact Iff.rfl
  have hperm : (inHand (StoreManager.setSend s k send stage)).Perm (inHand s) := List.Perm.refl _
  obtain ⟨hnodup, hmem⟩ := h.nodup_mem_of_perm hperm haccepted
  refine ⟨hnodup, hmem, h.taken, ?_, ?_, h.exited, h.returned, h.length⟩
  · intro j done rest hw
    rw [request_setSend hsend]
    exact h.storing j done rest hw
  · intro x hx
    rw [request_setSend hsend]
    exact h.handled x hx

/-- While a worker waits or stores, `Close` has not returned. -/
theorem not_returned {w : ℕ} {worker : Worker} (hw : s.workers[w]? = some worker)
    (hne : worker ≠ .exited) : s.close ≠ .returned := by
  intro hclose
  exact hne (h.returned hclose worker (List.mem_of_getElem? hw))

theorem sendEffect {k : ℕ} {send : Send} (hlocks : Locks s) (hsend : s.sends[k]? = some send)
    (heffect : SendEffect s k send s') : Batches num s' := by
  cases heffect with
  | rlock hstage hfree => exact h.setSend hsend (by rw [hstage]; rfl)
  | refuse hstage hclosed => exact h.setSend hsend (by rw [hstage]; rfl)
  | observe hstage hclosed => exact h.setSend hsend (by rw [hstage]; rfl)
  | panic hstage hclosed =>
      rw [hlocks.open_of_sending (List.mem_of_getElem? hsend) hstage] at hclosed
      cases hclosed
  | send storeCh hstage hopen hch =>
      obtain ⟨hbuf, hclosed⟩ := Go.Chan.trySend_eq_some hch
      obtain ⟨hnew, haccepted⟩ := accepted_sent hsend hstage
      have hperm : (inHand { StoreManager.setSend s k send .sent with storeCh }).Perm
          (k :: inHand s) := by
        simp only [inHand, hbuf, List.append_assoc, List.singleton_append]
        exact List.perm_middle
      obtain ⟨hnodup, hmem⟩ := h.nodup_mem_of_cons hnew hperm haccepted
      refine ⟨hnodup, hmem, h.taken, ?_, ?_, ?_, h.returned, h.length⟩
      · intro j done rest hw
        obtain ⟨request, hrequest, hitems⟩ := h.storing j done rest hw
        exact ⟨request, (request_setSend hsend .sent j).trans hrequest, hitems⟩
      · intro x hx
        obtain ⟨request, hrequest, hcomplete⟩ := h.handled x hx
        exact ⟨request, (request_setSend hsend .sent _).trans hrequest, hcomplete⟩
      · intro hexited
        rw [(h.exited hexited).2] at hopen
        cases hopen
  | handoff w hstage hopen hidle hbuf =>
      obtain ⟨hnew, haccepted⟩ := accepted_sent hsend hstage
      have hworkers := filterMap_set_storing (k := k) hidle send.request.items
      have hperm : (inHand (take (StoreManager.setSend s k send .sent) w k send.request)).Perm
          (k :: inHand s) := by
        have hdone := hworkers.append_right (s.handled.map Handled.batch)
        simpa [inHand, take, StoreManager.setSend, hbuf] using hdone
      obtain ⟨hnodup, hmem⟩ := h.nodup_mem_of_cons hnew hperm haccepted
      refine ⟨hnodup, hmem, ?_, ?_, ?_, ?_, ?_, ?_⟩
      · have htaken := (List.perm_append_singleton k (s.taken.map Prod.fst)).trans (h.taken.cons k)
        simp only [take, StoreManager.setSend, List.map_append, List.map_cons, List.map_nil]
        exact htaken.trans (hworkers.append_right _).symm
      · intro j done rest hw
        rcases List.mem_or_eq_of_mem_set hw with hw | heq
        · obtain ⟨request, hrequest, hitems⟩ := h.storing j done rest hw
          exact ⟨request, (request_setSend hsend .sent j).trans hrequest, hitems⟩
        · cases heq
          refine ⟨send.request, (request_setSend hsend .sent k).trans ?_, rfl⟩
          simp [State.request, hsend]
      · intro x hx
        obtain ⟨request, hrequest, hcomplete⟩ := h.handled x hx
        exact ⟨request, (request_setSend hsend .sent _).trans hrequest, hcomplete⟩
      · intro hexited
        rcases List.mem_or_eq_of_mem_set hexited with hexited | heq
        · rw [(h.exited hexited).2] at hopen
          cases hopen
        · cases heq
      · intro hclose
        exact absurd hclose (h.not_returned hidle (by simp))
      · simp only [take, StoreManager.setSend, List.length_set]
        exact h.length
  | runlock accepted hstage =>
      refine h.setSend hsend ?_
      cases accepted with
      | true => rw [hstage]; rfl
      | false => rw [hstage]; rfl

/-- A worker goes on, and the batches stay in hand. -/
theorem of_workers {w : ℕ} {worker : Worker} (hw : s.workers[w]? = some worker)
    (hne : worker ≠ .exited) (hsends : s'.sends = s.sends) (hclose : s'.close = s.close)
    (hlength : s'.workers.length = s.workers.length) (hperm : (inHand s').Perm (inHand s))
    (htaken : (s'.taken.map Prod.fst).Perm
      (s'.workers.filterMap Worker.batch ++ s'.handled.map Handled.batch))
    (hstoring : ∀ k done rest, .storing k done rest ∈ s'.workers →
      ∃ request, s.request k = some request ∧ done ++ rest = request.items)
    (hhandled : ∀ x ∈ s'.handled, ∃ request, s.request x.batch = some request ∧ x.Complete request)
    (hexited : .exited ∈ s'.workers → s'.storeCh.buf = [] ∧ s'.storeCh.closed = true) :
    Batches num s' := by
  have haccepted : ∀ k, s'.Accepted k ↔ s.Accepted k := by
    intro k
    simp [State.Accepted, hsends]
  have hrequest : ∀ k, s'.request k = s.request k := by
    intro k
    simp [State.request, hsends]
  obtain ⟨hnodup, hmem⟩ := h.nodup_mem_of_perm hperm haccepted
  refine ⟨hnodup, hmem, htaken, ?_, ?_, hexited, ?_, hlength.trans h.length⟩
  · intro k done rest hk
    rw [hrequest]
    exact hstoring k done rest hk
  · intro x hx
    rw [hrequest]
    exact hhandled x hx
  · intro hreturned
    exact absurd (hclose ▸ hreturned) (h.not_returned hw hne)

/-- A worker is done with its batch. -/
theorem leave {w k : ℕ} {done rest : List StoreReqItem} {err : Option GoError}
    (hw : s.workers[w]? = some (.storing k done rest))
    (hcomplete : ∀ request, done ++ rest = request.items →
      Handled.Complete ⟨k, done, err⟩ request) :
    Batches num (StoreManager.leave s w ⟨k, done, err⟩) := by
  have hworkers := filterMap_set_idle hw
  have hdone : ((s.workers.set w .idle).filterMap Worker.batch ++
      (s.handled ++ [(⟨k, done, err⟩ : Handled)]).map Handled.batch).Perm
      (s.workers.filterMap Worker.batch ++ s.handled.map Handled.batch) := by
    simp only [List.map_append, List.map_cons, List.map_nil]
    refine List.Perm.trans ?_ (hworkers.append_right _).symm
    rw [← List.append_assoc]
    exact List.perm_append_singleton _ _
  refine h.of_workers hw (by simp) rfl rfl (by simp [StoreManager.leave])
    (hdone.append_left s.storeCh.buf) (h.taken.trans hdone.symm) ?_ ?_ ?_
  · intro j done' rest' hj
    rcases List.mem_or_eq_of_mem_set hj with hj | heq
    · exact h.storing j done' rest' hj
    · cases heq
  · intro x hx
    rcases List.mem_append.1 hx with hx | hx
    · exact h.handled x hx
    · obtain ⟨request, hrequest, hitems⟩ := h.storing k done rest (List.mem_of_getElem? hw)
      rw [List.mem_singleton.1 hx]
      exact ⟨request, hrequest, hcomplete request hitems⟩
  · intro hexited
    rcases List.mem_or_eq_of_mem_set hexited with hexited | heq
    · exact h.exited hexited
    · cases heq

theorem workEffect {w : ℕ} (heffect : WorkEffect s w s') : Batches num s' := by
  cases heffect with
  | receive k buf send hidle hbuf hsend =>
      have hworkers := filterMap_set_storing (k := k) hidle send.request.items
      have hdone := hworkers.append_right (s.handled.map Handled.batch)
      refine h.of_workers hidle (by simp) rfl rfl (by simp [take]) ?_ ?_ ?_ h.handled ?_
      · simp only [inHand, take, hbuf, List.cons_append]
        exact (hdone.append_left buf).trans List.perm_middle
      · have htaken := (List.perm_append_singleton k (s.taken.map Prod.fst)).trans (h.taken.cons k)
        simp only [take, List.map_append, List.map_cons, List.map_nil]
        exact htaken.trans hdone.symm
      · intro j done rest hj
        rcases List.mem_or_eq_of_mem_set hj with hj | heq
        · exact h.storing j done rest hj
        · cases heq
          exact ⟨send.request, by simp [State.request, hsend], rfl⟩
      · intro hexited
        rcases List.mem_or_eq_of_mem_set hexited with hexited | heq
        · rw [(h.exited hexited).1] at hbuf
          cases hbuf
        · cases heq
  | exit hidle hbuf hclosed =>
      have hworkers := filterMap_set_of_batch_eq hidle .exited rfl
      have hdone := hworkers.append_right (s.handled.map Handled.batch)
      refine h.of_workers hidle (by simp) rfl rfl (by simp) (hdone.append_left _)
        (h.taken.trans hdone.symm) ?_ h.handled (fun _ => ⟨hbuf, hclosed⟩)
      intro j done rest hj
      rcases List.mem_or_eq_of_mem_set hj with hj | heq
      · exact h.storing j done rest hj
      · cases heq
  | put k done item rest hw =>
      have hworkers := filterMap_set_of_batch_eq hw (.storing k (done ++ [item]) rest) rfl
      have hdone := hworkers.append_right (s.handled.map Handled.batch)
      refine h.of_workers hw (by simp) rfl rfl (by simp) (hdone.append_left _)
        (h.taken.trans hdone.symm) ?_ h.handled ?_
      · intro j done' rest' hj
        rcases List.mem_or_eq_of_mem_set hj with hj | heq
        · exact h.storing j done' rest' hj
        · cases heq
          obtain ⟨request, hrequest, hitems⟩ := h.storing k done (item :: rest)
            (List.mem_of_getElem? hw)
          exact ⟨request, hrequest, by simpa using hitems⟩
      · intro hexited
        rcases List.mem_or_eq_of_mem_set hexited with hexited | heq
        · exact h.exited hexited
        · cases heq
  | fail k done item rest err hw => exact h.leave hw fun request hitems => ⟨item, rest, hitems⟩
  | finish k done hw =>
      exact h.leave hw fun request hitems => by simpa [Handled.Complete] using hitems

theorem closeEffect (heffect : CloseEffect s s') : Batches num s' := by
  obtain ⟨hnodup, hmem, htaken, hstoring, hhandled, hexited, hreturned, hlength⟩ := h
  cases heffect with
  | call hstage =>
      exact ⟨hnodup, hmem, htaken, hstoring, hhandled, hexited, fun hc => (by cases hc), hlength⟩
  | lock hstage hfree =>
      exact ⟨hnodup, hmem, htaken, hstoring, hhandled, hexited, fun hc => (by cases hc), hlength⟩
  | storeFlag hstage =>
      exact ⟨hnodup, hmem, htaken, hstoring, hhandled, hexited, fun hc => (by cases hc), hlength⟩
  | closeChan hopen hstage =>
      exact ⟨hnodup, hmem, htaken, hstoring, hhandled, fun hx => ⟨(hexited hx).1, rfl⟩,
        fun hc => (by cases hc), hlength⟩
  | panic hstage hclosed =>
      exact ⟨hnodup, hmem, htaken, hstoring, hhandled, hexited, hreturned, hlength⟩
  | unlock hstage =>
      exact ⟨hnodup, hmem, htaken, hstoring, hhandled, hexited, fun hc => (by cases hc), hlength⟩
  | wait hstage hall =>
      exact ⟨hnodup, hmem, htaken, hstoring, hhandled, hexited, fun _ => hall, hlength⟩

end Batches

/-- **One step keeps the batches.** -/
theorem batches_step {num : ℕ} (hlocks : Locks s) (h : Batches num s) (hs : step s a = some s') :
    Batches num s' := by
  obtain ⟨request, rfl⟩ | ⟨k, send, hsend, heffect⟩ | ⟨w, heffect⟩ | heffect := step_cases hs
  · have hold : ∀ (j : ℕ) (send : Send), s.sends[j]? = some send →
        (s.sends ++ [⟨request, .called⟩])[j]? = some send := by
      intro j send hsend
      rw [List.getElem?_append_left (List.getElem?_eq_some_iff.1 hsend).1]
      exact hsend
    have hrequest : ∀ (j : ℕ) (r : StoreReq), s.request j = some r →
        State.request { s with sends := s.sends ++ [⟨request, .called⟩] } j = some r := by
      intro j r hr
      obtain ⟨send, hsend, rfl⟩ := Option.map_eq_some_iff.1 hr
      simp [State.request, hold j send hsend]
    have haccepted : ∀ j, State.Accepted { s with sends := s.sends ++ [⟨request, .called⟩] } j ↔
        s.Accepted j := by
      intro j
      constructor
      · rintro ⟨send, hsend, hsent⟩
        rw [List.getElem?_append] at hsend
        split at hsend
        · exact ⟨send, hsend, hsent⟩
        · obtain rfl := List.mem_singleton.1 (List.mem_of_getElem? hsend)
          cases hsent
      · rintro ⟨send, hsend, hsent⟩
        exact ⟨send, hold j send hsend, hsent⟩
    have hperm : (inHand { s with sends := s.sends ++ [⟨request, .called⟩] }).Perm (inHand s) :=
      List.Perm.refl _
    obtain ⟨hnodup, hmem⟩ := h.nodup_mem_of_perm hperm haccepted
    refine ⟨hnodup, hmem, h.taken, ?_, ?_, h.exited, h.returned, h.length⟩
    · intro j done rest hw
      obtain ⟨r, hr, hitems⟩ := h.storing j done rest hw
      exact ⟨r, hrequest j r hr, hitems⟩
    · intro x hx
      obtain ⟨r, hr, hcomplete⟩ := h.handled x hx
      exact ⟨r, hrequest _ r hr, hcomplete⟩
  · exact h.sendEffect hlocks hsend heffect
  · exact h.workEffect heffect
  · exact h.closeEffect heffect

/-! ### Every run -/

/-- Both invariants hold along every run. -/
theorem invariants_of_run {storeSize num : ℕ} {as : List Action}
    (hrun : Runs.run step (State.init storeSize num) as = some s) : Locks s ∧ Batches num s :=
  Runs.run_invariant step (I := fun s => Locks s ∧ Batches num s)
    (fun _ _ _ h hs => ⟨locks_step h.1 hs, batches_step h.1 h.2 hs⟩)
    ⟨locks_init storeSize num, batches_init storeSize num⟩ hrun

/-- A batch that no call has sent is not taken. -/
theorem Batches.not_taken {num : ℕ} (h : Batches num s) {k : ℕ} (hk : ¬s.Accepted k) :
    k ∉ s.taken.map Prod.fst := by
  intro hmem
  apply hk
  rw [← h.mem_iff, inHand]
  exact List.mem_append_right _ (h.taken.mem_iff.1 hmem)

theorem SendStage.observedOpen_of_accepted {stage : SendStage} (h : stage.accepted = true) :
    stage.observedOpen = true := by
  cases stage with
  | sent => rfl
  | returned accepted => exact h
  | called => cases h
  | rlocked => cases h
  | sending => cases h
  | refused => cases h

/-- When `Close` has returned, what a call has found open is done. -/
theorem Batches.done_of_returned {num : ℕ} (hnum : 1 ≤ num) (hlocks : Locks s) (h : Batches num s)
    (hclose : s.close = .returned) {k : ℕ} {send : Send} (hsend : s.sends[k]? = some send)
    (hopen : send.stage.observedOpen = true) : k ∈ s.handled.map Handled.batch := by
  have haccepted : s.Accepted k := by
    refine ⟨send, hsend, ?_⟩
    cases hstage : send.stage with
    | sending =>
        have hflag := hlocks.sending send (List.mem_of_getElem? hsend) hstage
        rw [hclose] at hflag
        cases hflag
    | sent => rfl
    | returned accepted =>
        rw [hstage] at hopen
        exact hopen
    | called => simp [hstage, SendStage.observedOpen] at hopen
    | rlocked => simp [hstage, SendStage.observedOpen] at hopen
    | refused => simp [hstage, SendStage.observedOpen] at hopen
  have hall := h.returned hclose
  -- some worker has ended, so that the channel is empty, and no worker has a batch
  have hexited : .exited ∈ s.workers := by
    have hpos : 0 < s.workers.length := by
      rw [h.length]
      omega
    have hmem := List.getElem_mem hpos
    rw [hall _ hmem] at hmem
    exact hmem
  have hworkers : s.workers.filterMap Worker.batch = [] := by
    rw [List.filterMap_eq_nil_iff]
    intro w hw
    rw [hall w hw]
    rfl
  have hmem := (h.mem_iff k).2 haccepted
  simpa [inHand, (h.exited hexited).1, hworkers] using hmem

/-- **No batch is lost.**  In every run of senders, at least one worker and `Close`, nothing is sent
into the closed channel and no batch is taken twice.  When `Close` has returned, every batch whose
call has found the flag down was taken by exactly one worker and is done; and no other batch is ever
taken. -/
theorem close_after_batches (storeSize num : ℕ) (hnum : 1 ≤ num) (as : List Action) (s : State)
    (hrun : Runs.run step (State.init storeSize num) as = some s) :
    s.panicked = false ∧ (s.taken.map Prod.fst).Nodup ∧
    (s.close = .returned → ∀ k send, s.sends[k]? = some send → send.stage.observedOpen = true →
      (s.taken.map Prod.fst).count k = 1 ∧
        ∃ x ∈ s.handled, x.batch = k ∧ x.Complete send.request) ∧
    ∀ k send, s.sends[k]? = some send → send.stage.observedOpen = false →
      k ∉ s.taken.map Prod.fst ∧ k ∉ s.handled.map Handled.batch := by
  obtain ⟨hlocks, h⟩ := invariants_of_run hrun
  have hnodup : (s.taken.map Prod.fst).Nodup :=
    h.taken.nodup_iff.2 (List.nodup_append.1 h.nodup).2.1
  refine ⟨hlocks.panicked, hnodup, ?_, ?_⟩
  · intro hclose k send hsend hopen
    have hdone := h.done_of_returned hnum hlocks hclose hsend hopen
    refine ⟨?_, ?_⟩
    · exact List.count_eq_one_of_mem hnodup (h.taken.mem_iff.2 (List.mem_append_right _ hdone))
    · obtain ⟨x, hx, rfl⟩ := List.mem_map.1 hdone
      obtain ⟨request, hrequest, hcomplete⟩ := h.handled x hx
      simp only [State.request, hsend, Option.map_some, Option.some.injEq] at hrequest
      exact ⟨x, hx, rfl, hrequest ▸ hcomplete⟩
  · intro k send hsend hopen
    have hnot : ¬s.Accepted k := by
      rw [accepted_iff hsend]
      intro haccepted
      rw [SendStage.observedOpen_of_accepted haccepted] at hopen
      cases hopen
    have htaken := h.not_taken hnot
    refine ⟨htaken, ?_⟩
    intro hmem
    exact htaken (h.taken.mem_iff.2 (List.mem_append_right _ hmem))

/-- A batch that is handed to the only worker before `Close`, and one that comes too late. -/
def handedOver : List Action :=
  [.sendStore ⟨[⟨default, 0⟩]⟩, .rlock 0, .load 0, .close, .handoff 0 0, .runlock 0, .lock,
    .storeFlag, .closeChan, .sendStore ⟨[]⟩, .unlock, .rlock 1, .load 1, .put 0 none, .finish 0,
    .exit 0, .wait, .runlock 1]

theorem close_after_batches_handedOver :
    ∃ s, Runs.run step (State.init 0 1) handedOver = some s ∧ s.close = .returned ∧
      (s.taken.map Prod.fst).count 0 = 1 ∧ 1 ∉ s.taken.map Prod.fst := by
  obtain ⟨s, hrun, hclose, hzero, hone⟩ :
      ∃ s, Runs.run step (State.init 0 1) handedOver = some s ∧ s.close = .returned ∧
        s.sends[0]? = some ⟨⟨[⟨default, 0⟩]⟩, .returned true⟩ ∧
        s.sends[1]? = some ⟨⟨[]⟩, .returned false⟩ :=
    Runs.exists_run_of_any step (by decide +kernel)
  obtain ⟨-, -, hdone, hnot⟩ := close_after_batches 0 1 (by decide) handedOver s hrun
  exact ⟨s, hrun, hclose, (hdone hclose 0 _ hzero rfl).1, (hnot 1 _ hone rfl).1⟩

end StoreManager

end Dreamboat
