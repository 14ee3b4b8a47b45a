/-
**The root of a payload and the root of its header.**

A proposer signs a blinded block: the header of a payload, in which two lists are replaced by their
roots.  The block it stands for has the same root only if the walk over the header computes what the
walk over the payload computes.  The two walks of `src/structs/forks/capella/capella.go` have
fifteen fields each; thirteen of them are the same bytes, and the roots of the other two come from
containers with one field, `types.Transactions` and `structs.HashWithdrawals`.

`PayloadToPayloadHeader` skips the root of a list of withdrawals that is `nil`, while the walk over
the payload hashes such a list as an empty one.  So the two roots agree for every hash exactly when
the list is not `nil`.

Main definitions:

* `withdrawalsWalk`, `transactionsWalk` — the walks over the two lists;
* `Capella.ExecutionPayload.hashTreeRoot`, `Capella.ExecutionPayloadHeader.hashTreeRoot` — the two
  roots;
* `Primitives.hashedBy` — the primitives of the relay with the roots computed by a hasher;
* `RootKept`, `Hashable` — blinding keeps the root; both roots can be computed.

Main results:

* `hashTreeRoot_eq_of_some` — the roots agree for a list that is not `nil`;
* `hashTreeRoot_lastChunk_of_nil` — a hash for which they differ otherwise;
* `rootKept_iff` — **when blinding keeps the root**.
-/

import Dreamboat.Ssz
import Dreamboat.SubmitBlock

set_option autoImplicit false

namespace Dreamboat

open Ssz

/-! ### The walks -/

/-- `ssz.ErrIncorrectListSize`. -/
def errIncorrectListSize : GoError := .new "incorrect list size"

/-- The error of a hasher whose buffer is not one chunk in the end. -/
def errHashRoot : GoError := .new "expected 32 byte size"

variable (H : Hasher)

def Withdrawal.hashTreeRootWith (w : Withdrawal) : Walk GoError :=
  container H [putUint64 w.index, putUint64 w.validatorIndex, putBytes H w.address.toList,
    putUint64 w.amount]

/-- The field with the withdrawals. -/
def withdrawalsWalk (ws : List Withdrawal) : Walk GoError :=
  checked (ws.length ≤ 16) errIncorrectListSize
    (list H (UInt64.ofNat ws.length) 16 (ws.map (Withdrawal.hashTreeRootWith H)))

/-- The field with the transactions. -/
def transactionsWalk (txs : List (List UInt8)) : Walk GoError :=
  checked (txs.length ≤ 1048576) errIncorrectListSize
    (list H (UInt64.ofNat txs.length) 1048576 (txs.map fun elem =>
      checked (elem.length ≤ 1073741824) errIncorrectListSize
        (list H (UInt64.ofNat elem.length) ((1073741824 + 31) / 32) [appendBytes32 elem])))

/-- The field with the extra data. -/
def extraDataWalk (extraData : List UInt8) : Walk GoError :=
  checked (extraData.length ≤ 32) errIncorrectListSize
    (list H (UInt64.ofNat extraData.length) ((32 + 31) / 32) [putBytes H extraData])

/-- `HashTreeRoot` of `structs.HashWithdrawals`. -/
def hashWithdrawalsRoot (ws : List Withdrawal) : Except GoError Root :=
  hashTreeRoot errHashRoot (container H [withdrawalsWalk H ws])

/-- `HashTreeRoot` of `types.Transactions`. -/
def hashTransactionsRoot (txs : List (List UInt8)) : Except GoError Root :=
  hashTreeRoot errHashRoot (container H [transactionsWalk H txs])

/-- `HashTreeRootWith` of a payload; a list that is `nil` has no elements. -/
def Capella.ExecutionPayload.hashTreeRootWith (e : Capella.ExecutionPayload) : Walk GoError :=
  container H [
    putBytes H e.epParentHash.toList,
    putBytes H e.epFeeRecipient.toList,
    putBytes H e.epStateRoot.toList,
    putBytes H e.epReceiptsRoot.toList,
    putBytes H e.epLogsBloom.toList,
    putBytes H e.epRandom.toList,
    putUint64 e.epBlockNumber,
    putUint64 e.epGasLimit,
    putUint64 e.epGasUsed,
    putUint64 e.epTimestamp,
    extraDataWalk H e.epExtraData,
    putBytes H e.epBaseFeePerGas.bytes.toList,
    putBytes H e.epBlockHash.toList,
    transactionsWalk H e.epTransactions,
    withdrawalsWalk H (e.epWithdrawals.getD [])]

def Capella.ExecutionPayload.hashTreeRoot (e : Capella.ExecutionPayload) : Except GoError Root :=
  Ssz.hashTreeRoot errHashRoot (e.hashTreeRootWith H)

/-- `HashTreeRootWith` of a header. -/
def Capella.ExecutionPayloadHeader.hashTreeRootWith (e : Capella.ExecutionPayloadHeader) :
    Walk GoError :=
  container H [
    putBytes H e.parentHash.toList,
    putBytes H e.feeRecipient.toList,
    putBytes H e.stateRoot.toList,
    putBytes H e.receiptsRoot.toList,
    putBytes H e.logsBloom.toList,
    putBytes H e.random.toList,
    putUint64 e.blockNumber,
    putUint64 e.gasLimit,
    putUint64 e.gasUsed,
    putUint64 e.timestamp,
    extraDataWalk H e.extraData,
    putBytes H e.baseFeePerGas.bytes.toList,
    putBytes H e.blockHash.toList,
    putBytes H e.transactionsRoot.toList,
    putBytes H e.withdrawalsRoot.toList]

def Capella.ExecutionPayloadHeader.hashTreeRoot (e : Capella.ExecutionPayloadHeader) :
    Except GoError Root :=
  Ssz.hashTreeRoot errHashRoot (e.hashTreeRootWith H)

/-- The primitives of the relay with the roots of lists and of the later fork's headers computed by
a hasher. -/
def Primitives.hashedBy (P : Primitives) : Primitives where
  signMessage := P.signMessage
  traceSigningRoot := P.traceSigningRoot
  transactionsRoot := hashTransactionsRoot H
  withdrawalsRoot := hashWithdrawalsRoot H
  headerRoot
    | .bellatrix h => P.headerRoot (.bellatrix h)
    | .capella h => h.hashTreeRoot H

/-! ### The fields that are lists -/

theorem appending_withdrawal (w : Withdrawal) : Appending (w.hashTreeRootWith H) := by
  refine Appending.container fun f hf => ?_
  simp only [List.mem_cons, List.not_mem_nil, or_false] at hf
  rcases hf with rfl | rfl | rfl | rfl
  · exact appending_appendBytes32 _
  · exact appending_appendBytes32 _
  · exact appending_putBytes _
  · exact appending_appendBytes32 _

theorem appending_withdrawalsWalk (ws : List Withdrawal) : Appending (withdrawalsWalk H ws) := by
  refine Appending.checked (Appending.list fun f hf => ?_)
  obtain ⟨w, -, rfl⟩ := List.mem_map.1 hf
  exact appending_withdrawal H w

theorem appending_singleton {w : Walk GoError} (h : Appending w) : ∀ f ∈ [w], Appending f := by
  intro f hf
  rw [List.mem_singleton.1 hf]
  exact h

theorem appending_transactionsWalk (txs : List (List UInt8)) :
    Appending (transactionsWalk H txs) := by
  refine Appending.checked (Appending.list fun f hf => ?_)
  obtain ⟨elem, -, rfl⟩ := List.mem_map.1 hf
  exact Appending.checked (Appending.list (appending_singleton (appending_appendBytes32 _)))

theorem appending_extraDataWalk (extraData : List UInt8) : Appending (extraDataWalk H extraData) :=
  Appending.checked (Appending.list (appending_singleton (appending_putBytes _)))

/-- Which transactions can be hashed does not depend on the hash. -/
theorem succeeds_transactionsWalk_iff (txs : List (List UInt8)) :
    Succeeds (transactionsWalk H txs) ↔
      txs.length ≤ 1048576 ∧ ∀ elem ∈ txs, elem.length ≤ 1073741824 := by
  unfold transactionsWalk
  rw [succeeds_checked_iff, succeeds_list_iff]
  · refine and_congr_right fun _ => ?_
    simp only [List.forall_mem_map, succeeds_checked_iff]
    refine forall₂_congr fun elem _ => and_iff_left ?_
    rw [succeeds_list_iff (appending_singleton (appending_appendBytes32 _))]
    intro f hf
    rw [List.mem_singleton.1 hf]
    exact succeeds_appendBytes32 _
  · intro f hf
    obtain ⟨elem, -, rfl⟩ := List.mem_map.1 hf
    exact Appending.checked (Appending.list (appending_singleton (appending_appendBytes32 _)))

theorem succeeds_extraDataWalk_iff (extraData : List UInt8) :
    Succeeds (extraDataWalk H extraData) ↔ extraData.length ≤ 32 := by
  unfold extraDataWalk
  rw [succeeds_checked_iff, succeeds_list_iff (appending_singleton (appending_putBytes _))]
  refine and_iff_left fun f hf => ?_
  rw [List.mem_singleton.1 hf]
  exact succeeds_putBytes _

variable {H}

/-- Where the header has the root of the withdrawals, the payload has the withdrawals. -/
theorem withdrawalsWalk_eq_putBytes {ws : List Withdrawal} {root : Root}
    (h : hashWithdrawalsRoot H ws = .ok root) : withdrawalsWalk H ws = putBytes H root.toList :=
  eq_putBytes_of_hashTreeRoot (appending_withdrawalsWalk H ws)
    (LeavesOne.checked (leavesOne_list _ _ _)) h

theorem transactionsWalk_eq_putBytes {txs : List (List UInt8)} {root : Root}
    (h : hashTransactionsRoot H txs = .ok root) : transactionsWalk H txs = putBytes H root.toList :=
  eq_putBytes_of_hashTreeRoot (appending_transactionsWalk H txs)
    (LeavesOne.checked (leavesOne_list _ _ _)) h

/-! ### The fields that come before the withdrawals -/

/-- The bounds under which the roots of a payload without withdrawals can be computed. -/
structure Sized (p : Capella.ExecutionPayload) : Prop where
  extraData : p.epExtraData.length ≤ 32
  transactions : p.epTransactions.length ≤ 1048576
  elems : ∀ elem ∈ p.epTransactions, elem.length ≤ 1073741824

/-- The fields of a payload before its withdrawals. -/
def Capella.ExecutionPayload.fields (H : Hasher) (e : Capella.ExecutionPayload) :
    List (Walk GoError) :=
  [putBytes H e.epParentHash.toList, putBytes H e.epFeeRecipient.toList,
    putBytes H e.epStateRoot.toList, putBytes H e.epReceiptsRoot.toList,
    putBytes H e.epLogsBloom.toList, putBytes H e.epRandom.toList, putUint64 e.epBlockNumber,
    putUint64 e.epGasLimit, putUint64 e.epGasUsed, putUint64 e.epTimestamp,
    extraDataWalk H e.epExtraData, putBytes H e.epBaseFeePerGas.bytes.toList,
    putBytes H e.epBlockHash.toList, transactionsWalk H e.epTransactions]

theorem hashTreeRootWith_eq (e : Capella.ExecutionPayload) :
    e.hashTreeRootWith H =
      container H (e.fields H ++ [withdrawalsWalk H (e.epWithdrawals.getD [])]) := rfl

theorem appending_fields (e : Capella.ExecutionPayload) : ∀ w ∈ e.fields H, Appending w := by
  simp only [Capella.ExecutionPayload.fields, List.forall_mem_cons, appending_putBytes,
    appending_extraDataWalk, appending_transactionsWalk, putUint64, appending_appendBytes32,
    List.not_mem_nil, false_imp_iff, implies_true, and_self]

theorem succeeds_fields_iff (e : Capella.ExecutionPayload) :
    (∀ w ∈ e.fields H, Succeeds w) ↔ Sized e := by
  simp only [Capella.ExecutionPayload.fields, List.forall_mem_cons, succeeds_putBytes,
    succeeds_extraDataWalk_iff, succeeds_transactionsWalk_iff, putUint64, succeeds_appendBytes32,
    List.not_mem_nil, false_imp_iff, implies_true, true_and, and_true]
  exact ⟨fun ⟨h₁, h₂, h₃⟩ => ⟨h₁, h₂, h₃⟩, fun ⟨h₁, h₂, h₃⟩ => ⟨h₁, h₂, h₃⟩⟩

variable {P : Primitives} {p : Capella.ExecutionPayload} {header : ExecutionPayloadHeader}

/-- The header of a payload, field by field. -/
theorem payloadToPayloadHeader_hashedBy
    (h : payloadToPayloadHeader (P.hashedBy H) (.capella p) = .ok header) :
    ∃ txroot withdrawalsRoot, hashTransactionsRoot H p.epTransactions = .ok txroot ∧
      headerWithdrawalsRoot (P.hashedBy H) p.epWithdrawals = .ok withdrawalsRoot ∧
      header = .capella ⟨Bellatrix.header p.toExecutionPayload txroot, withdrawalsRoot⟩ := by
  obtain ⟨txroot, htx, h⟩ := exists_of_bind_eq_ok h
  obtain ⟨withdrawalsRoot, hw, h⟩ := exists_of_bind_eq_ok h
  exact ⟨txroot, withdrawalsRoot, htx, hw, (Except.ok.inj h).symm⟩

/-- The root of a header, in terms of the fields of the payload. -/
theorem headerRoot_hashedBy {txroot : Root}
    (htx : hashTransactionsRoot H p.epTransactions = .ok txroot)
    (withdrawalsRoot : Root) :
    (P.hashedBy H).headerRoot
        (.capella ⟨Bellatrix.header p.toExecutionPayload txroot, withdrawalsRoot⟩) =
      hashTreeRoot errHashRoot
        (container H (p.fields H ++ [putBytes H withdrawalsRoot.toList])) := by
  simp only [Primitives.hashedBy, Capella.ExecutionPayloadHeader.hashTreeRoot,
    Capella.ExecutionPayloadHeader.hashTreeRootWith, Bellatrix.header,
    Capella.ExecutionPayload.fields, transactionsWalk_eq_putBytes htx, List.cons_append,
    List.nil_append]

/-- **The walks compute the same root** for a list of withdrawals that is not `nil`. -/
theorem hashTreeRoot_eq_of_some {ws : List Withdrawal} (hws : p.epWithdrawals = some ws)
    (h : payloadToPayloadHeader (P.hashedBy H) (.capella p) = .ok header) :
    (P.hashedBy H).headerRoot header = p.hashTreeRoot H := by
  obtain ⟨txroot, withdrawalsRoot, htx, hw, rfl⟩ := payloadToPayloadHeader_hashedBy h
  rw [hws] at hw
  rw [headerRoot_hashedBy htx, Capella.ExecutionPayload.hashTreeRoot, hashTreeRootWith_eq, hws,
    Option.getD_some, withdrawalsWalk_eq_putBytes hw]

/-! ### A list that is `nil` -/

/-- A payload whose root can be computed keeps the bounds. -/
theorem sized_of_hashTreeRoot {root : Root} (h : p.hashTreeRoot H = .ok root) : Sized p := by
  rw [Capella.ExecutionPayload.hashTreeRoot, hashTreeRootWith_eq] at h
  have hok := (exists_hashTreeRoot_iff errHashRoot (List.forall_mem_append.2
    ⟨appending_fields p, appending_singleton (appending_withdrawalsWalk H _)⟩)).1 ⟨root, h⟩
  exact (succeeds_fields_iff (H := H) p).1 fun w hw => hok w (List.mem_append_left _ hw)

/-- The root that stands for a list in `lastChunk`. -/
def onesRoot : Root := Vector.replicate 32 1

theorem onesRoot_ne_default : onesRoot ≠ default := by
  intro h
  have h₀ := congrArg (fun r : Root => r[0]) h
  cases h₀

/-- Under a hash that keeps the last field, **the two roots differ** for a list that is `nil`. -/
theorem hashTreeRoot_lastChunk_of_nil (P : Primitives) (hp : Sized p)
    (hnil : p.epWithdrawals = none) :
    ∃ header, payloadToPayloadHeader (P.hashedBy (lastChunk onesRoot)) (.capella p) = .ok header ∧
      (P.hashedBy (lastChunk onesRoot)).headerRoot header = .ok default ∧
      p.hashTreeRoot (lastChunk onesRoot) = .ok onesRoot := by
  have hfields := (succeeds_fields_iff (H := lastChunk onesRoot) p).2 hp
  obtain ⟨txroot, htx⟩ : ∃ txroot, hashTransactionsRoot (lastChunk onesRoot) p.epTransactions =
      .ok txroot := by
    refine (exists_hashTreeRoot_iff errHashRoot
      (appending_singleton (appending_transactionsWalk _ _))).2 fun w hw => ?_
    rw [List.mem_singleton.1 hw]
    exact (succeeds_transactionsWalk_iff _ _).2 ⟨hp.transactions, hp.elems⟩
  refine ⟨.capella ⟨Bellatrix.header p.toExecutionPayload txroot, default⟩, ?_, ?_, ?_⟩
  · rw [payloadToPayloadHeader, hnil]
    simp only [headerWithdrawalsRoot, Primitives.hashedBy, htx]
    rfl
  · rw [headerRoot_hashedBy htx]
    exact hashTreeRoot_lastChunk _ (appending_fields p) hfields (appending_putBytes _)
      (putBytes_toList _ [])
  · rw [Capella.ExecutionPayload.hashTreeRoot, hashTreeRootWith_eq, hnil, Option.getD_none]
    exact hashTreeRoot_lastChunk _ (appending_fields p) hfields (appending_withdrawalsWalk _ _) rfl

/-! ### When blinding keeps the root -/

/-- Both roots of a payload can be computed. -/
def Hashable (p : Capella.ExecutionPayload) : Prop :=
  ∃ (H : Hasher) (P : Primitives) (header : ExecutionPayloadHeader) (root root' : Root),
    payloadToPayloadHeader (P.hashedBy H) (.capella p) = .ok header ∧
      (P.hashedBy H).headerRoot header = .ok root ∧ p.hashTreeRoot H = .ok root'

/-- Whatever the hash, the root of the header of `p` is the root of `p` when both exist. -/
def RootKept (p : Capella.ExecutionPayload) : Prop :=
  ∀ (H : Hasher) (P : Primitives) (header : ExecutionPayloadHeader) (root root' : Root),
    payloadToPayloadHeader (P.hashedBy H) (.capella p) = .ok header →
      (P.hashedBy H).headerRoot header = .ok root → p.hashTreeRoot H = .ok root' → root = root'

/-- **Blinding keeps the root of a payload exactly when its list of withdrawals is not `nil`.** -/
theorem rootKept_iff (p : Capella.ExecutionPayload) :
    RootKept p ↔ (Hashable p → p.epWithdrawals ≠ none) := by
  constructor
  · rintro hkept ⟨H, P, header, root, root', -, -, hroot'⟩ hnil
    obtain ⟨header', h₁, h₂, h₃⟩ :=
      hashTreeRoot_lastChunk_of_nil P (sized_of_hashTreeRoot hroot') hnil
    exact onesRoot_ne_default (hkept _ P header' _ _ h₁ h₂ h₃).symm
  · intro hcond H P header root root' hheader hroot hroot'
    cases hw : p.epWithdrawals with
    | none => exact absurd hw (hcond ⟨H, P, header, root, root', hheader, hroot, hroot'⟩)
    | some ws =>
        rw [hashTreeRoot_eq_of_some hw hheader, hroot'] at hroot
        exact (Except.ok.inj hroot).symm

/-- A payload without transactions whose list of withdrawals is `nil`: the header has another root
than the payload. -/
theorem not_rootKept_nil :
    (default : Capella.ExecutionPayload).epWithdrawals = none ∧
    ∃ (H : Hasher) (header : ExecutionPayloadHeader) (root root' : Root),
      payloadToPayloadHeader (Primitives.hashedBy H default) (.capella default) = .ok header ∧
      (Primitives.hashedBy H default).headerRoot header = .ok root ∧
      (default : Capella.ExecutionPayload).hashTreeRoot H = .ok root' ∧ root ≠ root' := by
  have hsized : Sized default :=
    ⟨Nat.zero_le _, Nat.zero_le _, fun elem helem => absurd helem List.not_mem_nil⟩
  obtain ⟨header, h₁, h₂, h₃⟩ := hashTreeRoot_lastChunk_of_nil default hsized rfl
  exact ⟨rfl, _, header, _, _, h₁, h₂, h₃, onesRoot_ne_default.symm⟩

end Dreamboat
