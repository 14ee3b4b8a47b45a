/-
**The signature of a published block.**

A proposer signs a blinded block and the relay publishes the block behind it: `ToBeaconBlock` copies
the signature and every part of the body but the header, puts the payload where the header was and
gives pointers and lists that are `nil` a value (`src/structs/forks/capella/capella.go`).  Nobody
signs the block that goes out.  Those who receive it compute its root with the payload in its
place, and the signature verifies only if that root is the one of the blinded block.

`GetPayload` compares roots of headers and never computes the root of the block it publishes.  This
module has the walk over a blinded block, the root of a published block as it is computed by those
who receive it, and what the comparison is worth: whatever calls run at the same time, each block
that is published carries a signature that verifies for it, provided that the relay has prepared the
payloads that are found and that their lists of withdrawals are not `nil`.

Main definitions:

* `Capella.BlindedBeaconBlockBody.hashTreeRootWith`,
  `Capella.SignedBlindedBeaconBlock.computeSigningRoot` — what the proposer signs;
* `Capella.SignedBlindedBeaconBlock.toBeaconBlock` — the block that is published;
* `Capella.BeaconBlockBody.rootWalk`, `Capella.publishedRoot` — the root of a published block;
* `Capella.BlindedBeaconBlock.read` — a request of `Dreamboat/GetPayload.lean` with its parts read.

Main results:

* `Capella.publishedRoot_toBeaconBlock` — **unblinding keeps the signing root**;
* `Delivery.signature_verifies_of_published` — **every block that is published carries a signature
  that verifies for it**.
-/

import Dreamboat.BeaconBlockCodec
import Dreamboat.Delivery
import Dreamboat.PayloadRoot

set_option autoImplicit false

namespace Dreamboat

open Ssz (Hasher Walk Appending container list checked putBytes putUint64)

/-! ### Walks over types that are not part of the repository -/

/-- The walks of `go-boost-utils` over the parts of a body. -/
structure BoostWalks (B : BoostTypes) where
  eth1Data : B.Eth1Data → Walk GoError
  syncAggregate : B.SyncAggregate → Walk GoError
  proposerSlashing : B.ProposerSlashing → Walk GoError
  attesterSlashing : B.AttesterSlashing → Walk GoError
  attestation : B.Attestation → Walk GoError
  deposit : B.Deposit → Walk GoError
  voluntaryExit : B.SignedVoluntaryExit → Walk GoError

/-- A list of a body: the length is checked before the elements are walked over. -/
def listWalk {α : Type} (H : Hasher) (max : ℕ) (walk : α → Walk GoError) (xs : List α) :
    Walk GoError :=
  checked (xs.length ≤ max) errIncorrectListSize
    (list H (UInt64.ofNat xs.length) (UInt64.ofNat max) (xs.map walk))

/-- `types.ComputeSigningRoot`: the root of an object together with the domain. -/
def signingRoot (H : Hasher) (w : Walk GoError) (d : Domain) : Except GoError Hash := do
  let root ← Ssz.hashTreeRoot errHashRoot w
  Ssz.hashTreeRoot errHashRoot (container H [putBytes H root.toList, putBytes H d.toList])

namespace Capella

variable {B : BoostTypes}

/-! ### What the proposer signs -/

/-- `BlindedBeaconBlockBody`; a pointer or a list that is `nil` is `none`. -/
structure BlindedBeaconBlockBody (B : BoostTypes) where
  randaoReveal : Signature
  eth1Data : Option B.Eth1Data
  graffiti : Hash
  proposerSlashings : Option (List B.ProposerSlashing)
  attesterSlashings : Option (List B.AttesterSlashing)
  attestations : Option (List B.Attestation)
  deposits : Option (List B.Deposit)
  voluntaryExits : Option (List B.SignedVoluntaryExit)
  syncAggregate : Option B.SyncAggregate
  executionPayloadHeader : Option ExecutionPayloadHeader
  blsToExecutionChanges : Option (List SignedBLSToExecutionChange)

structure BlindedBeaconBlock (B : BoostTypes) where
  slot : UInt64
  proposerIndex : UInt64
  parentRoot : Root
  stateRoot : Root
  body : Option (BlindedBeaconBlockBody B)

structure SignedBlindedBeaconBlock (B : BoostTypes) where
  message : BlindedBeaconBlock B
  signature : Signature

section

variable (H : Hasher) (W : BoostWalks B)

def BLSToExecutionChange.hashTreeRootWith (b : BLSToExecutionChange) : Walk GoError :=
  container H [putUint64 b.validatorIndex, putBytes H b.fromBLSPubkey.toList,
    putBytes H b.toExecutionAddress.toList]

/-- A message that is `nil` is replaced by a new one. -/
def SignedBLSToExecutionChange.hashTreeRootWith (s : SignedBLSToExecutionChange) : Walk GoError :=
  container H [(s.message.getD default).hashTreeRootWith H, putBytes H s.signature.toList]

/-- `HashTreeRootWith` of a body.  It follows three pointers: what they point to is passed on its
own. -/
def BlindedBeaconBlockBody.hashTreeRootWith (b : BlindedBeaconBlockBody B) (eth1Data : B.Eth1Data)
    (syncAggregate : B.SyncAggregate) (header : ExecutionPayloadHeader) : Walk GoError :=
  container H [
    putBytes H b.randaoReveal.toList,
    W.eth1Data eth1Data,
    putBytes H b.graffiti.toList,
    listWalk H 16 W.proposerSlashing (b.proposerSlashings.getD []),
    listWalk H 2 W.attesterSlashing (b.attesterSlashings.getD []),
    listWalk H 128 W.attestation (b.attestations.getD []),
    listWalk H 16 W.deposit (b.deposits.getD []),
    listWalk H 16 W.voluntaryExit (b.voluntaryExits.getD []),
    W.syncAggregate syncAggregate,
    header.hashTreeRootWith H,
    listWalk H 16 (SignedBLSToExecutionChange.hashTreeRootWith H)
      (b.blsToExecutionChanges.getD [])]

/-- `HashTreeRootWith` of a block around the walk over its body. -/
def BlindedBeaconBlock.hashTreeRootWith (b : BlindedBeaconBlock B) (body : Walk GoError) :
    Walk GoError :=
  container H [putUint64 b.slot, putUint64 b.proposerIndex, putBytes H b.parentRoot.toList,
    putBytes H b.stateRoot.toList, body]

/-- `ComputeSigningRoot`: the walk starts only when all the pointers can be followed. -/
def BlindedBeaconBlock.computeSigningRoot (b : BlindedBeaconBlock B) (d : Domain) :
    Except GoError Hash :=
  match b.body with
  | none => .error (.new "empty block body")
  | some body =>
      match body.eth1Data, body.syncAggregate, body.executionPayloadHeader with
      | some eth1Data, some syncAggregate, some header =>
          signingRoot H
            (b.hashTreeRootWith H (body.hashTreeRootWith H W eth1Data syncAggregate header)) d
      | _, _, _ => .error (.new "empty block body")

end

/-! ### What is published -/

/-- An empty body, `&BlindedBeaconBlockBody{}`. -/
instance : Inhabited (BlindedBeaconBlockBody B) :=
  ⟨⟨default, none, default, none, none, none, none, none, none, none, none⟩⟩

/-- `ToBeaconBlock`.  The extra data and the transactions of a payload are lists here, so that there
is nothing to do for those that are `nil`. -/
def SignedBlindedBeaconBlock.toBeaconBlock (s : SignedBlindedBeaconBlock B) :
    Dreamboat.ExecutionPayload → Except GoError (SignedBlock (BeaconBlockBody B))
  | .bellatrix _ => .error (.new "ExecutionPayload is not Capella")
  | .capella ep =>
      let body := s.message.body.getD default
      .ok {
        signature := s.signature
        message := some {
          slot := s.message.slot
          proposerIndex := s.message.proposerIndex
          parentRoot := s.message.parentRoot
          stateRoot := s.message.stateRoot
          body := some {
            blsToExecutionChanges := body.blsToExecutionChanges.getD []
            randaoReveal := body.randaoReveal
            eth1Data := some (body.eth1Data.getD B.newEth1Data)
            graffiti := body.graffiti
            proposerSlashings := body.proposerSlashings.getD []
            attesterSlashings := body.attesterSlashings.getD []
            attestations := body.attestations.getD []
            deposits := body.deposits.getD []
            voluntaryExits := body.voluntaryExits.getD []
            syncAggregate := some (body.syncAggregate.getD B.newSyncAggregate)
            executionPayload := some ep } } }

section

variable (H : Hasher) (W : BoostWalks B)

/-- The root of a published body as those compute it who receive it: its fields are those of a
blinded body, with the payload in the place of the header. -/
def BeaconBlockBody.rootWalk (b : BeaconBlockBody B) : Walk GoError :=
  container H [
    putBytes H b.randaoReveal.toList,
    W.eth1Data (b.eth1Data.getD B.newEth1Data),
    putBytes H b.graffiti.toList,
    listWalk H 16 W.proposerSlashing b.proposerSlashings,
    listWalk H 2 W.attesterSlashing b.attesterSlashings,
    listWalk H 128 W.attestation b.attestations,
    listWalk H 16 W.deposit b.deposits,
    listWalk H 16 W.voluntaryExit b.voluntaryExits,
    W.syncAggregate (b.syncAggregate.getD B.newSyncAggregate),
    b.payload.hashTreeRootWith H,
    listWalk H 16 (SignedBLSToExecutionChange.hashTreeRootWith H) b.blsToExecutionChanges]

/-- The signing root of a published block. -/
def publishedRoot (s : SignedBlock (BeaconBlockBody B)) (d : Domain) : Except GoError Hash :=
  let block := s.getMessage
  signingRoot H (container H [putUint64 block.slot, putUint64 block.proposerIndex,
    putBytes H block.parentRoot.toList, putBytes H block.stateRoot.toList,
    block.getBody.rootWalk H W]) d

end

/-! ### Unblinding keeps the signing root -/

variable {H : Hasher} {W : BoostWalks B}

theorem appending_hashTreeRootWith (p : ExecutionPayload) : Appending (p.hashTreeRootWith H) := by
  rw [hashTreeRootWith_eq]
  exact Appending.container (List.forall_mem_append.2
    ⟨appending_fields p, appending_singleton (appending_withdrawalsWalk H _)⟩)

theorem appending_header (e : ExecutionPayloadHeader) : Appending (e.hashTreeRootWith H) := by
  refine Appending.container ?_
  simp only [List.forall_mem_cons, Ssz.appending_putBytes, appending_extraDataWalk, putUint64,
    Ssz.appending_appendBytes32, List.not_mem_nil, false_imp_iff, implies_true, and_self]

/-- **Unblinding keeps the signing root** when the payload has the root of the header. -/
theorem publishedRoot_toBeaconBlock {s : SignedBlindedBeaconBlock B} {p : ExecutionPayload}
    {root : Root} {d : Domain} {msg : Hash}
    (hroot : ∀ body ∈ s.message.body, ∀ header ∈ body.executionPayloadHeader,
      header.hashTreeRoot H = .ok root)
    (hp : p.hashTreeRoot H = .ok root) (hmsg : s.message.computeSigningRoot H W d = .ok msg) :
    ∃ block, s.toBeaconBlock (.capella p) = .ok block ∧ block.signature = s.signature ∧
      publishedRoot H W block d = .ok msg := by
  refine ⟨_, rfl, rfl, ?_⟩
  unfold BlindedBeaconBlock.computeSigningRoot at hmsg
  cases hbody : s.message.body with
  | none =>
      rw [hbody] at hmsg
      cases hmsg
  | some body =>
      simp only [hbody] at hmsg
      split at hmsg
      · next eth1Data syncAggregate header heth1 hsync hheader =>
          -- where the header is walked over, the payload may be
          have hwalk : header.hashTreeRootWith H = p.hashTreeRootWith H :=
            Ssz.eq_of_hashTreeRoot (appending_header header) (appending_hashTreeRootWith p)
              (hroot body hbody header hheader) hp
          rw [← hmsg]
          simp only [publishedRoot, SignedBlock.getMessage, BeaconBlock.getBody, heth1, hsync,
            BeaconBlockBody.rootWalk, BeaconBlockBody.payload, BlindedBeaconBlock.hashTreeRootWith,
            BlindedBeaconBlockBody.hashTreeRootWith, hwalk, Option.getD_some]
      · cases hmsg

/-! ### Requests with their parts read -/

/-- The parts of a body that a request keeps as they are encoded. -/
structure BodyParts (B : BoostTypes) where
  randaoReveal : Signature
  eth1Data : B.Eth1Data
  graffiti : Hash
  proposerSlashings : Option (List B.ProposerSlashing)
  attesterSlashings : Option (List B.AttesterSlashing)
  attestations : Option (List B.Attestation)
  deposits : Option (List B.Deposit)
  voluntaryExits : Option (List B.SignedVoluntaryExit)
  syncAggregate : B.SyncAggregate
  blsToExecutionChanges : Option (List SignedBLSToExecutionChange)

def BlindedBeaconBlockBody.read (parts : List UInt8 → BodyParts B)
    (b : Dreamboat.BlindedBeaconBlockBody ExecutionPayloadHeader) : BlindedBeaconBlockBody B :=
  let p := parts b.rest
  { randaoReveal := p.randaoReveal
    eth1Data := if b.hasEth1Data then some p.eth1Data else none
    graffiti := p.graffiti
    proposerSlashings := p.proposerSlashings
    attesterSlashings := p.attesterSlashings
    attestations := p.attestations
    deposits := p.deposits
    voluntaryExits := p.voluntaryExits
    syncAggregate := if b.hasSyncAggregate then some p.syncAggregate else none
    executionPayloadHeader := b.executionPayloadHeader
    blsToExecutionChanges := p.blsToExecutionChanges }

def BlindedBeaconBlock.read (parts : List UInt8 → BodyParts B)
    (b : Dreamboat.BlindedBeaconBlock ExecutionPayloadHeader) : BlindedBeaconBlock B where
  slot := b.slot
  proposerIndex := b.proposerIndex
  parentRoot := b.parentRoot
  stateRoot := b.stateRoot
  body := b.body.map (BlindedBeaconBlockBody.read parts)

end Capella

/-- The signing roots of a view are those of the hasher. -/
def PayloadView.SignsWith (v : PayloadView) {B : BoostTypes} (H : Hasher) (W : BoostWalks B)
    (parts : List UInt8 → Capella.BodyParts B) : Prop :=
  ∀ signature message d, v.computeSigningRoot (.capella signature message) d =
    (Capella.BlindedBeaconBlock.read parts message).computeSigningRoot H W d

/-! ### Payloads that the relay has prepared -/

/-- The relay has prepared a payload from a submission, and its list of withdrawals is not `nil`. -/
def Prepared (P : Primitives) (payload : BlockAndTraceExtended) : Prop :=
  ∃ cfg sbr header, preparePayloadContents P cfg sbr = .ok (payload, header) ∧
    ∀ p, payload.executionPayload = .capella p → p.epWithdrawals ≠ none

/-- The header of the bid is that of the submitted payload. -/
theorem payloadToPayloadHeader_of_prepare {P : Primitives} {cfg : RelayConfig}
    {sbr : SubmitBlockRequest} {bbt : BlockAndTraceExtended} {header : ExecutionPayloadHeader}
    (h : preparePayloadContents P cfg sbr = .ok (bbt, header)) :
    payloadToPayloadHeader P sbr.executionPayload = .ok header := by
  obtain ⟨signed, hsigned, h⟩ := exists_of_bind_eq_ok h
  obtain ⟨header', hheader, hsigned⟩ := exists_of_bind_eq_ok hsigned
  obtain ⟨signature, -, hsigned⟩ := exists_of_bind_eq_ok hsigned
  cases hsigned
  split at h
  · cases h
    exact hheader
  · split at h
    · cases h
    · cases h
      exact hheader

variable {P : Primitives} {H : Hasher} {cfg : RelayConfig}

/-- A prepared payload answers with its own root. -/
theorem Prepared.executionHeaderHash {payload : BlockAndTraceExtended}
    {p : Capella.ExecutionPayload} (h : Prepared (P.hashedBy H) payload)
    (hp : payload.executionPayload = .capella p) :
    payload.executionHeaderHash (P.hashedBy H) = p.hashTreeRoot H := by
  obtain ⟨cfg, sbr, header, hprep, hws⟩ := h
  obtain ⟨hhash, -, -, hpayload⟩ := executionHeaderHash_of_prepare hprep
  have hheader := payloadToPayloadHeader_of_prepare hprep
  rw [← hpayload, hp] at hheader
  obtain ⟨ws, hsome⟩ := Option.ne_none_iff_exists'.1 (hws p hp)
  rw [hhash, hashTreeRoot_eq_of_some hsome hheader]

namespace Delivery

/-! ### What a published call has behind it -/

variable {v : PayloadView} {request : SignedBlindedBeaconBlock}
  {find : PayloadKey → Except GoError BlockAndTraceExtended} {payload : BlockAndTraceExtended}

/-- What is behind the key of a request. -/
theorem payloadRequestKey_eq_ok {key : PayloadKey} (h : payloadRequestKey cfg v request = .ok key) :
    ∃ pk msg, v.knownValidator request.proposerIndex = some (.ok pk) ∧
      v.computeSigningRoot request
        (v.proposerSigningDomain (v.beacon.fork.version request.slot)) = .ok msg ∧
      v.verifySignatureBytes msg request.signature pk = (true, none) := by
  unfold payloadRequestKey at h
  dsimp only at h
  by_cases hlate : v.beacon.msIntoSlot request.slot > cfg.getPayloadRequestTimeLimit
  · rw [if_pos hlate] at h
    cases h
  · rw [if_neg hlate] at h
    split at h
    · cases h
    · next parsed hparsed =>
        obtain ⟨pk, rfl, hkey⟩ := exists_of_bind_eq_ok h
        split at hkey
        · cases hkey
        · next msg hmsg =>
            split at hkey
            · next hverify => exact ⟨pk, msg, hparsed, hmsg, hverify⟩
            · cases hkey

/-- What is behind a payload that was accepted. -/
theorem accept_eq_ok {P : Primitives} (h : accept P cfg v request find = .ok payload) :
    ∃ key, payloadRequestKey cfg v request = .ok key ∧ find key = .ok payload ∧
      validatePayload P payload request = none := by
  obtain ⟨key, hkey, h⟩ := exists_of_bind_eq_ok h
  obtain ⟨payload', hfind, h⟩ := exists_of_bind_eq_ok h
  split at h
  · cases h
  · next hvalid =>
      cases h
      exact ⟨key, hkey, hfind, hvalid⟩

/-- The comparison of the roots, when it passes. -/
theorem exists_of_validatePayload {P : Primitives}
    (h : validatePayload P payload request = none) :
    ∃ root, payload.executionHeaderHash P = .ok root ∧
      request.executionHeaderHash P = .ok root := by
  unfold validatePayload at h
  split at h
  · cases h
  · next have' hhave =>
      split at h
      · cases h
      · next got hgot =>
          split at h
          · cases h
          · next heq => exact ⟨have', hhave, by rw [hgot, not_not.1 heq]⟩

/-- The call is one of the run's, and its payload was accepted. -/
def Accepted (P : Primitives) (cfg : RelayConfig) (as : List Action) (c : Call) : Prop :=
  ∃ v find, Action.call v c.request find ∈ as ∧ accept P cfg v c.request find = .ok c.payload

/-- What a call has behind it, stage by stage. -/
structure Backed (P : Primitives) (cfg : RelayConfig) (as : List Action) (c : Call) : Prop where
  validated : c.stage = .validated → Accepted P cfg as c
  retrying : c.stage = .retrying → 0 < c.invocations
  published : 0 < c.invocations → Accepted P cfg as c ∧
    (c.request.toBeaconBlock c.payload.executionPayload).isOk = true

variable {as : List Action} {s s' : State} {c c' : Call}

theorem backed_newCall {P : Primitives} (ha : Action.call v request find ∈ as) :
    Backed P cfg as (newCall P cfg v request find) := by
  refine ⟨fun hstage => ⟨v, find, ha, ?_⟩, fun hstage => ?_, fun h => absurd h (Nat.lt_irrefl 0)⟩
  · cases hacc : accept P cfg v request find with
    | error err =>
        rw [newCall, hacc] at hstage
        cases hstage
    | ok payload => simp [newCall, hacc, Except.toOption]
  · unfold newCall at hstage
    split at hstage <;> cases hstage

theorem Backed.publish {P : Primitives} {ok : Bool} (h : Backed P cfg as c)
    (hc : c.publish cfg ok = some c') : Backed P cfg as c' := by
  have hpub : c.Publishes cfg ∨ c.stage = .retrying → Accepted P cfg as c ∧
      (c.request.toBeaconBlock c.payload.executionPayload).isOk = true := by
    rintro (⟨-, hstage, hok⟩ | hstage)
    · refine ⟨h.validated ?_, hok⟩
      cases hs : c.stage <;> simp_all [Stage.isValidated]
    · exact h.published (h.retrying hstage)
  rcases publish_eq_some hc with ⟨-, -, rfl⟩ | ⟨-, rfl⟩ | ⟨hwhen, -, rfl⟩ | ⟨hwhen, -, rfl⟩ |
    ⟨hwhen, -, rfl⟩
  · exact ⟨nofun, nofun, h.published⟩
  · exact ⟨nofun, nofun, h.published⟩
  · exact ⟨nofun, nofun, fun _ => hpub hwhen⟩
  · exact ⟨nofun, fun _ => Nat.succ_pos _, fun _ => hpub (.inl hwhen)⟩
  · exact ⟨nofun, nofun, fun _ => hpub (.inr hwhen)⟩

theorem Backed.resolve {P : Primitives} {stored : Option LastDelivered} (h : Backed P cfg as c)
    (hc : c.resolve = some (stored, c')) : Backed P cfg as c' := by
  obtain ⟨last, -, ⟨-, -, rfl⟩ | ⟨-, -, rfl⟩ | ⟨err, -, -, rfl⟩⟩ := resolve_eq_some hc
  · exact ⟨nofun, nofun, h.published⟩
  · exact ⟨nofun, nofun, h.published⟩
  · exact ⟨nofun, nofun, h.published⟩

theorem forall_mem_set {Q : Call → Prop} (h : ∀ c ∈ s.calls, Q c) (k : ℕ) (hc' : Q c') :
    ∀ c ∈ s.calls.set k c', Q c := by
  intro c hc
  rcases List.mem_or_eq_of_mem_set hc with hc | rfl
  · exact h c hc
  · exact hc'

/-- One step keeps what the calls have behind them. -/
theorem backed_step {P : Primitives} {a : Action} (ha : a ∈ as)
    (h : ∀ c ∈ s.calls, Backed P cfg as c) (hs : step P cfg s a = some s') :
    ∀ c ∈ s'.calls, Backed P cfg as c := by
  cases a with
  | call v request find =>
      cases hs
      intro c hc
      rcases List.mem_append.1 hc with hc | hc
      · exact h c hc
      · rw [List.mem_singleton.1 hc]
        exact backed_newCall ha
  | publish k ok =>
      obtain ⟨c, hc, hs⟩ := Option.bind_eq_some_iff.1 hs
      obtain ⟨c', hpub, hs⟩ := Option.bind_eq_some_iff.1 hs
      cases hs
      exact forall_mem_set h k ((h c (List.mem_of_getElem? hc)).publish hpub)
  | load k =>
      obtain ⟨c, hc, hs⟩ := Option.bind_eq_some_iff.1 hs
      split at hs
      · cases hs
        exact forall_mem_set h k ⟨nofun, nofun, (h c (List.mem_of_getElem? hc)).published⟩
      · cases hs
  | resolve k =>
      obtain ⟨c, hc, hs⟩ := Option.bind_eq_some_iff.1 hs
      obtain ⟨⟨stored, c'⟩, hres, hs⟩ := Option.bind_eq_some_iff.1 hs
      have hc' := (h c (List.mem_of_getElem? hc)).resolve hres
      cases stored with
      | some last =>
          cases hs
          exact forall_mem_set h k hc'
      | none =>
          cases hs
          exact forall_mem_set h k hc'

theorem backed_run {P : Primitives} (hrun : Runs.run (step P cfg) State.init as = some s) :
    ∀ c ∈ s.calls, Backed P cfg as c := by
  exact Runs.run_invariant_of_forall (step P cfg) (D := (· ∈ as))
    (I := fun s => ∀ c ∈ s.calls, Backed P cfg as c) (fun _ _ _ h ha hs => backed_step ha h hs)
    (fun c hc => absurd hc List.not_mem_nil) (fun _ ha => ha) hrun

/-! ### The signature of a published block -/

/-- A call finds only what the relay has prepared, and signing roots are computed by the hasher. -/
def Sound {B : BoostTypes} (P : Primitives) (H : Hasher) (W : BoostWalks B)
    (parts : List UInt8 → Capella.BodyParts B) : Action → Prop
  | .call v _ find => v.SignsWith H W parts ∧
      ∀ key payload, find key = .ok payload → Prepared (P.hashedBy H) payload
  | _ => True

variable {B : BoostTypes} {W : BoostWalks B} {parts : List UInt8 → Capella.BodyParts B}

/-- **Every block that is published carries a signature that verifies for it**, whatever calls run
at the same time. -/
theorem signature_verifies_of_published (hsound : ∀ a ∈ as, Sound P H W parts a)
    (hrun : Runs.run (step (P.hashedBy H) cfg) State.init as = some s) (hc : c ∈ s.calls)
    (hpublished : 0 < c.invocations) {signature : Signature}
    {message : BlindedBeaconBlock Capella.ExecutionPayloadHeader}
    (hrequest : c.request = .capella signature message) :
    ∃ v find block pk root, Action.call v c.request find ∈ as ∧
      Capella.SignedBlindedBeaconBlock.toBeaconBlock ⟨.read parts message, signature⟩
        c.payload.executionPayload = .ok block ∧
      v.knownValidator message.proposerIndex = some (.ok pk) ∧
      Capella.publishedRoot H W block
        (v.proposerSigningDomain (v.beacon.fork.version message.slot)) = .ok root ∧
      v.verifySignatureBytes root block.signature pk = (true, none) := by
  obtain ⟨⟨v, find, hmem, haccept⟩, hok⟩ := (backed_run hrun c hc).published hpublished
  obtain ⟨hsigns, hprepared⟩ := hsound _ hmem
  obtain ⟨key, hkey, hfind, hvalid⟩ := accept_eq_ok haccept
  obtain ⟨pk, msg, hpk, hmsg, hverify⟩ := payloadRequestKey_eq_ok hkey
  obtain ⟨root, hexpected, hrequested⟩ := exists_of_validatePayload hvalid
  rw [hrequest] at hok hpk hmsg hverify hrequested
  -- the payload is of the fork of the request, or there would be no block
  obtain ⟨p, hp⟩ : ∃ p, c.payload.executionPayload = .capella p := by
    cases hpayload : c.payload.executionPayload with
    | bellatrix p =>
        rw [hpayload] at hok
        cases hok
    | capella p => exact ⟨p, rfl⟩
  rw [(hprepared key _ hfind).executionHeaderHash hp] at hexpected
  rw [hsigns] at hmsg
  have hroot : ∀ body ∈ (Capella.BlindedBeaconBlock.read parts message).body,
      ∀ header ∈ body.executionPayloadHeader, header.hashTreeRoot H = .ok root := by
    intro body hbody header hheader
    obtain ⟨body', hbody', rfl⟩ := Option.map_eq_some_iff.1 hbody
    rw [SignedBlindedBeaconBlock.executionHeaderHash, SignedBlindedBeaconBlock.header, hbody',
      Option.bind_some, show body'.executionPayloadHeader = some header from hheader] at hrequested
    exact hrequested
  obtain ⟨block, hblock, hsignature, hpublished⟩ := Capella.publishedRoot_toBeaconBlock
    (s := ⟨.read parts message, signature⟩) hroot hexpected hmsg
  rw [← hp] at hblock
  exact ⟨v, find, block, pk, msg, hmem, hblock, hpk, hpublished, by rw [hsignature]; exact hverify⟩

/-! ### A submission and its proposal -/

def plainWalks : BoostWalks SignedBeaconBlock.zeroTypes :=
  ⟨fun _ => putUint64 0, fun _ => putUint64 0, fun _ => putUint64 0, fun _ => putUint64 0,
    fun _ => putUint64 0, fun _ => putUint64 0, fun _ => putUint64 0⟩

def plainParts (_ : List UInt8) : Capella.BodyParts SignedBeaconBlock.zeroTypes :=
  ⟨default, (), default, none, none, none, none, none, (), none⟩

/-- A submission with an empty list of withdrawals. -/
def submission : SubmitBlockRequest where
  signature := default
  message := default
  executionPayload := .capella
    { (default : Capella.ExecutionPayload) with epWithdrawals := some [] }

/-- What the relay has stored for it. -/
def stored : BlockAndTraceExtended :=
  .capella { (default : Capella.ExecutionPayload) with epWithdrawals := some [] } default onesRoot

/-- The hasher of the example. -/
abbrev ones : Hasher := Ssz.lastChunk onesRoot

/-- The blinded block around the header of the bid. -/
def proposal : BlindedBeaconBlock Capella.ExecutionPayloadHeader where
  slot := 32
  proposerIndex := 0
  parentRoot := default
  stateRoot := default
  body := some
    { hasEth1Data := true
      hasSyncAggregate := true
      executionPayloadHeader := some ⟨Bellatrix.header default onesRoot, onesRoot⟩
      rest := [] }

/-- A view in which every signature is valid and signing roots are computed by the hasher. -/
def hashingView : PayloadView where
  beacon := openView.beacon
  knownValidator := openView.knownValidator
  proposerSigningDomain := openView.proposerSigningDomain
  signingRoot
    | .bellatrix _ _, _ => .ok default
    | .capella _ message, d =>
        (Capella.BlindedBeaconBlock.read plainParts message).computeSigningRoot ones plainWalks d
  verifySignatureBytes := openView.verifySignatureBytes

theorem signsWith_hashingView : hashingView.SignsWith ones plainWalks plainParts := by
  intro signature message d
  unfold PayloadView.computeSigningRoot
  split
  · rfl
  · next hcomplete =>
      -- a pointer that is `nil` is one in both forms of the block
      obtain ⟨slot, index, parent, state, body⟩ := message
      rcases body with _ | ⟨heth1, hsync, header, rest⟩
      · rfl
      · rcases heth1 with _ | _ <;> rcases hsync with _ | _ <;> rcases header with _ | header <;>
          first | rfl | exact absurd rfl hcomplete

theorem prepared_stored : Prepared (Primitives.hashedBy ones default) stored := by
  refine ⟨default, submission, .capella ⟨Bellatrix.header default onesRoot, onesRoot⟩,
    by decide +kernel, ?_⟩
  intro p hp
  cases hp
  exact nofun

/-- The proposal comes in and its block is published. -/
def proposing : List Action :=
  [.call hashingView (.capella default proposal) fun _ => .ok stored, .publish 0 true]

theorem signature_verifies_of_published_proposing :
    ∃ s, Runs.run (step (Primitives.hashedBy ones default)
        { (default : RelayConfig) with publishBlock := true }) State.init proposing = some s ∧
      ∃ c ∈ s.calls, 0 < c.invocations ∧ ∃ block root,
        Capella.SignedBlindedBeaconBlock.toBeaconBlock
          ⟨.read plainParts proposal, default⟩ c.payload.executionPayload = .ok block ∧
        Capella.publishedRoot ones plainWalks block default = .ok root ∧
        hashingView.verifySignatureBytes root block.signature default = (true, none) := by
  obtain ⟨s, hrun, c, hc, hpublished, hrequest⟩ :
      ∃ s, Runs.run (step (Primitives.hashedBy ones default)
          { (default : RelayConfig) with publishBlock := true }) State.init proposing = some s ∧
        ∃ c ∈ s.calls, 0 < c.invocations ∧ c.request = .capella default proposal :=
    Runs.exists_run_of_any _ (by decide +kernel)
  have hsound : ∀ a ∈ proposing, Sound default ones plainWalks plainParts a := by
    intro a ha
    simp only [proposing, List.mem_cons, List.not_mem_nil, or_false] at ha
    rcases ha with rfl | rfl
    · refine ⟨signsWith_hashingView, fun key payload hfind => ?_⟩
      cases hfind
      exact prepared_stored
    · trivial
  obtain ⟨v, find, block, pk, root, hmem, hblock, -, hroot, -⟩ :=
    signature_verifies_of_published hsound hrun hc hpublished hrequest
  simp only [proposing, List.mem_cons, List.not_mem_nil, or_false, reduceCtorEq] at hmem
  obtain ⟨rfl, -, -⟩ := Action.call.inj hmem
  exact ⟨s, hrun, c, hc, hpublished, block, root, hblock, hroot, rfl⟩

end Delivery

end Dreamboat
