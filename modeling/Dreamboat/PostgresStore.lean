/-
**The registrations of the validators in two stores.**

`src/datastore/validator/postgres/postgres.go` keeps the registrations as rows of texts and
numbers, one for each public key.  Its `PutNewerRegistration` is an upsert: a row is inserted, or,
if there is one, it is updated where its time is earlier than the new one.  The store over
key-value pairs, in `ValidatorStore`, keeps the stored registration only if that is
strictly newer.

Both stores keep a newest registration.  They differ in which one of several that are equally new,
in how the times compare, and in the key: the row has the public key of the registration.

Main definitions:

* `Postgres.Row`, `Postgres.Datastore` — the table;
* `Postgres.Datastore.putNewerRegistration`, `Postgres.Datastore.getRegistration` — the upsert and
  the query;
* `PutCall` — a call, which both stores get;
* `lastNewest`, `firstNewest` — the registrations that the stores are left with.

Main results:

* `Postgres.registration_rowOf` — what a row says is what it was made of;
* `getRegistration_badgerPuts`, `Postgres.getRegistration_puts` — what either store holds after any
  calls;
* `stores_agree_iff` — **when the stores hold the same**.
-/

import Dreamboat.Hex
import Dreamboat.ValidatorStore
import Mathlib.Data.List.MinMax

set_option autoImplicit false

namespace Dreamboat

/-! ### Texts of bytes -/

theorem hexString_eq {n : ℕ} (v : Vector UInt8 n) :
    hexString v = "0x" ++ String.ofList (Hex.digits v.toList) := rfl

/-- `hexutil.Decode`. -/
def hexDecode (input : String) : Except GoError (List UInt8) :=
  match input.toList with
  | [] => .error (.new "empty hex string")
  | '0' :: 'x' :: cs | '0' :: 'X' :: cs =>
      if cs.length % 2 = 1 then .error (.new "hex string of odd length")
      else
        match Hex.bytes cs with
        | some bs => .ok bs
        | none => .error (.new "invalid hex string")
  | _ => .error (.new "hex string without 0x prefix")

/-- `FromSlice` of the byte arrays. -/
def fromSlice (n : ℕ) (x : List UInt8) : Except GoError (Vector UInt8 n) :=
  if h : x.length = n then .ok ⟨x.toArray, by simpa using h⟩
  else .error (.new "incorrect byte length")

theorem hexDecode_hexString {n : ℕ} (v : Vector UInt8 n) :
    hexDecode (hexString v) = .ok v.toList := by
  have hlist : (hexString v).toList = '0' :: 'x' :: Hex.digits v.toList := by
    simp [hexString_eq]
  have heven : (Hex.digits v.toList).length % 2 ≠ 1 := by
    rw [Hex.length_digits]
    omega
  simp only [hexDecode, hlist, heven, if_false, Hex.bytes_digits]

theorem fromSlice_toList {n : ℕ} (v : Vector UInt8 n) : fromSlice n v.toList = .ok v := by
  simp [fromSlice, Vector.toList]

/-- Different byte arrays of one length have different texts. -/
theorem hexString_inj {n : ℕ} {v w : Vector UInt8 n} : hexString v = hexString w ↔ v = w := by
  constructor
  · intro h
    have hlist : Except.ok (ε := GoError) v.toList = .ok w.toList := by
      rw [← hexDecode_hexString v, h, hexDecode_hexString w]
    exact Vector.toList_inj.1 (Except.ok.inj hlist)
  · rintro rfl
    rfl

/-! ### The table -/

namespace Postgres

/-- A row of `validator_registrations`, without the time of the last change. -/
structure Row where
  signature : String
  feeRecipient : String
  gasLimit : UInt64
  /-- In seconds since the beginning of 1970. -/
  regTime : ℤ

/-- The rows by the texts of their public keys. -/
structure Datastore where
  rows : Go.Map String Row

/-- `time.Unix(int64(timestamp), 0)`. -/
def regTime (timestamp : UInt64) : ℤ := timestamp.toInt64.toInt

/-- The times that a column of type `timestamp` can hold: from 4714 BC to 294276 AD. -/
def InTimestampRange (t : ℤ) : Prop := -210866803200 ≤ t ∧ t < 9224318016000

instance (t : ℤ) : Decidable (InTimestampRange t) := inferInstanceAs (Decidable (_ ∧ _))

def rowOf (reg : SignedValidatorRegistration) : Row where
  signature := hexString reg.signature
  feeRecipient := hexString reg.message.feeRecipient
  gasLimit := reg.message.gasLimit
  regTime := regTime reg.timestamp

/-- The registration that a row has for a validator. -/
def registration (pk : PublicKey) (row : Row) : Except GoError SignedValidatorRegistration := do
  let decsig ← hexDecode row.signature
  let signature ← fromSlice 96 decsig
  let decRecip ← hexDecode row.feeRecipient
  let feeRecipient ← fromSlice 20 decRecip
  return {
    message := {
      feeRecipient
      gasLimit := row.gasLimit
      timestamp := (Int64.ofInt row.regTime).toUInt64
      pubkey := pk }
    signature }

namespace Datastore

def empty : Datastore := ⟨∅⟩

/-- `INSERT .. ON CONFLICT (pubkey) DO UPDATE .. WHERE validator_registrations.reg_time <
EXCLUDED.reg_time`. -/
def upsert (d : Datastore) (pubkey : String) (excluded : Row) : Datastore :=
  match d.rows.lookup pubkey with
  | none => ⟨d.rows.insert pubkey excluded⟩
  | some row => if row.regTime < excluded.regTime then ⟨d.rows.insert pubkey excluded⟩ else d

/-- The driver takes no number from `2 ^ 63` on, and the column takes no time out of its range. -/
def putNewerRegistration (d : Datastore) (_pk : PublicKey) (reg : SignedValidatorRegistration) :
    Except GoError Datastore :=
  if 2 ^ 63 ≤ reg.message.gasLimit.toNat then
    .error (.new ("sql: converting argument $4 type: " ++
      "uint64 values with high bit set are not supported"))
  else if ¬InTimestampRange (regTime reg.timestamp) then
    .error (.new "pq: timestamp out of range")
  else .ok (d.upsert (hexString reg.pubkey) (rowOf reg))

def getRegistration (d : Datastore) (pk : PublicKey) :
    Except GoError SignedValidatorRegistration :=
  match d.rows.lookup (hexString pk) with
  | none => .error (.sentinel .errNotFound)
  | some row => registration pk row

end Datastore

/-- **What a row says is what it was made of.** -/
theorem registration_rowOf (reg : SignedValidatorRegistration) :
    registration reg.pubkey (rowOf reg) = .ok reg := by
  have htime : (Int64.ofInt (regTime reg.timestamp)).toUInt64 = reg.timestamp := by
    rw [regTime, Int64.ofInt_toInt, UInt64.toUInt64_toInt64]
  simp only [registration, rowOf, hexDecode_hexString, htime, bind, Except.bind, fromSlice_toList]
  rfl

end Postgres

/-! ### The calls -/

/-- A call of `PutNewerRegistration`. -/
structure PutCall where
  pk : PublicKey
  reg : SignedValidatorRegistration

/-- The key-value store after a list of calls. -/
def badgerPuts (calls : List PutCall) : Datastore :=
  calls.foldl (fun d call => d.putNewerRegistration call.pk call.reg) Datastore.empty

/-- The table after a list of calls, none of which fails. -/
def Postgres.puts (calls : List PutCall) : Except GoError Postgres.Datastore :=
  calls.foldlM (fun d call => d.putNewerRegistration call.pk call.reg) Postgres.Datastore.empty

/-! ### What the stores are left with -/

/-- The order of the times, the one that is computed with. -/
local instance timeOrder : Preorder ℤ := Int.instLinearOrder.toPreorder

/-- Of the registrations that were put under a key, the last one of the newest. -/
def lastNewest (calls : List PutCall) (pk : PublicKey) : Option SignedValidatorRegistration :=
  ((calls.filter fun call => call.pk = pk).map PutCall.reg).reverse.argmax
    fun reg => reg.timestamp.toNat

/-- Of the registrations of a validator, the first one of the newest, by their times. -/
def firstNewest (calls : List PutCall) (pk : PublicKey) : Option SignedValidatorRegistration :=
  ((calls.map PutCall.reg).filter fun reg => reg.pubkey = pk).argmax
    fun reg => Postgres.regTime reg.timestamp

/-- One more call, for the last one of the newest. -/
theorem lastNewest_concat (calls : List PutCall) (call : PutCall) (pk : PublicKey) :
    lastNewest (calls ++ [call]) pk =
      if call.pk = pk then
        match lastNewest calls pk with
        | none => some call.reg
        | some reg =>
            if call.reg.timestamp.toNat < reg.timestamp.toNat then some reg else some call.reg
      else lastNewest calls pk := by
  by_cases hpk : call.pk = pk
  · simp only [lastNewest, List.filter_append, List.map_append, List.reverse_append, hpk,
      decide_true, List.filter_cons_of_pos, List.filter_nil, List.map_cons, List.map_nil,
      List.reverse_cons, List.reverse_nil, List.nil_append, List.singleton_append,
      List.argmax_cons, if_true]
    cases List.argmax (fun reg : SignedValidatorRegistration => reg.timestamp.toNat)
        ((calls.filter fun call => call.pk = pk).map PutCall.reg).reverse with
    | none => rfl
    | some reg => rfl
  · simp [lastNewest, hpk]

/-- One more call, for the first one of the newest. -/
theorem firstNewest_concat (calls : List PutCall) (call : PutCall) (pk : PublicKey) :
    firstNewest (calls ++ [call]) pk =
      if call.reg.pubkey = pk then
        match firstNewest calls pk with
        | none => some call.reg
        | some reg =>
            if Postgres.regTime reg.timestamp < Postgres.regTime call.reg.timestamp then
              some call.reg
            else some reg
      else firstNewest calls pk := by
  by_cases hpk : call.reg.pubkey = pk
  · simp only [firstNewest, List.map_append, List.map_cons, List.map_nil, List.filter_append, hpk,
      decide_true, List.filter_cons_of_pos, List.filter_nil, List.argmax_concat, if_true]
    cases List.argmax (fun reg => Postgres.regTime reg.timestamp)
        ((calls.map PutCall.reg).filter fun reg => reg.pubkey = pk) with
    | none => rfl
    | some reg => rfl
  · simp [firstNewest, hpk]

/-! ### The key-value store -/

/-- What the key-value store holds: the last one of the newest, and its timestamp. -/
theorem lookup_badgerPuts (calls : List PutCall) (pk : PublicKey) :
    (badgerPuts calls).registrations.lookup pk = lastNewest calls pk ∧
      (badgerPuts calls).times.lookup pk = (lastNewest calls pk).map fun reg => reg.timestamp := by
  induction calls using List.reverseRecOn generalizing pk with
  | nil => exact ⟨rfl, rfl⟩
  | append_singleton calls call ih =>
      obtain ⟨hreg, htime⟩ := ih call.pk
      have hlast : badgerPuts (calls ++ [call]) =
          (badgerPuts calls).putNewerRegistration call.pk call.reg := by
        simp [badgerPuts, List.foldl_append]
      have hnewer : (badgerPuts calls).hasNewer call.pk call.reg =
          match lastNewest calls call.pk with
          | none => false
          | some reg => decide (call.reg.timestamp.toNat < reg.timestamp.toNat) := by
        rw [Datastore.hasNewer, htime]
        cases lastNewest calls call.pk with
        | none => rfl
        | some reg => rfl
      rw [hlast, lastNewest_concat, Datastore.lookup_putNewerRegistration,
        Datastore.lookup_times_putNewerRegistration, hnewer]
      by_cases hpk : call.pk = pk
      · subst hpk
        cases hnewest : lastNewest calls call.pk with
        | none => simp
        | some reg =>
            simp only [hnewest] at hreg htime
            by_cases hlt : call.reg.timestamp.toNat < reg.timestamp.toNat
            · simp [hlt, hreg, htime]
            · simp [hlt]
      · simp [hpk, Ne.symm hpk, ih pk]

/-- What a store returns that holds a registration or none. -/
def found : Option SignedValidatorRegistration → Except GoError SignedValidatorRegistration
  | some reg => .ok reg
  | none => .error (.sentinel .errNotFound)

theorem found_inj {x y : Option SignedValidatorRegistration} : found x = found y ↔ x = y := by
  cases x with
  | none =>
      cases y with
      | none => simp [found]
      | some reg => simp [found]
  | some reg =>
      cases y with
      | none => simp [found]
      | some reg' => simp [found]

/-- **The key-value store holds the last one of the newest.** -/
theorem getRegistration_badgerPuts (calls : List PutCall) (pk : PublicKey) :
    (badgerPuts calls).getRegistration pk = found (lastNewest calls pk) := by
  rw [Datastore.getRegistration, (lookup_badgerPuts calls pk).1]
  cases lastNewest calls pk with
  | none => rfl
  | some reg => rfl

/-! ### The table -/

namespace Postgres

theorem firstNewest_pubkey {calls : List PutCall} {pk : PublicKey}
    {reg : SignedValidatorRegistration} (h : firstNewest calls pk = some reg) :
    reg.pubkey = pk := by
  have hmem := List.argmax_mem h
  exact of_decide_eq_true (List.mem_filter.1 hmem).2

/-- One more call. -/
theorem puts_concat (calls : List PutCall) (call : PutCall) :
    puts (calls ++ [call]) =
      (puts calls).bind fun d => d.putNewerRegistration call.pk call.reg := by
  rw [puts, List.foldlM_append, puts]
  refine congrArg _ (funext fun d => ?_)
  rw [List.foldlM_cons]
  cases d.putNewerRegistration call.pk call.reg with
  | error err => rfl
  | ok d' => rfl

/-- A call that does not fail is an upsert. -/
theorem eq_upsert_of_put {d d' : Datastore} {call : PutCall}
    (h : d.putNewerRegistration call.pk call.reg = .ok d') :
    d' = d.upsert (hexString call.reg.pubkey) (rowOf call.reg) := by
  simp only [Datastore.putNewerRegistration] at h
  split at h
  · cases h
  · split at h
    · cases h
    · exact (Except.ok.inj h).symm

/-- The rows of the table: that of the first one of the newest. -/
theorem lookup_puts {calls : List PutCall} {d : Datastore} (h : puts calls = .ok d)
    (pk : PublicKey) : d.rows.lookup (hexString pk) = (firstNewest calls pk).map rowOf := by
  induction calls using List.reverseRecOn generalizing d pk with
  | nil =>
      obtain rfl : Datastore.empty = d := Except.ok.inj h
      rfl
  | append_singleton calls call ih =>
      rw [puts_concat] at h
      obtain ⟨d', hd', hput⟩ := exists_of_bind_eq_ok h
      obtain rfl := eq_upsert_of_put hput
      rw [firstNewest_concat, Datastore.upsert, ih hd' call.reg.pubkey]
      by_cases hpk : call.reg.pubkey = pk
      · subst hpk
        rw [if_pos rfl]
        cases hnewest : firstNewest calls call.reg.pubkey with
        | none => simp
        | some reg =>
            have htime : (rowOf reg).regTime < (rowOf call.reg).regTime ↔
                regTime reg.timestamp < regTime call.reg.timestamp := Iff.rfl
            simp only [Option.map_some, htime]
            split
            · simp
            · rw [ih hd', hnewest, Option.map_some]
      · rw [if_neg hpk, ← ih hd' pk]
        have hne : hexString pk ≠ hexString call.reg.pubkey := by
          rw [Ne, hexString_inj]
          exact Ne.symm hpk
        cases (firstNewest calls call.reg.pubkey).map rowOf with
        | none => simp [hne]
        | some row =>
            simp only
            split
            · simp [hne]
            · rfl

/-- **The table holds the first one of the newest.** -/
theorem getRegistration_puts {calls : List PutCall} {d : Datastore} (h : puts calls = .ok d)
    (pk : PublicKey) : d.getRegistration pk = found (firstNewest calls pk) := by
  rw [Datastore.getRegistration, lookup_puts h]
  cases hnewest : firstNewest calls pk with
  | none => rfl
  | some reg =>
      rw [← firstNewest_pubkey hnewest]
      exact registration_rowOf reg

/-- Calls with gas limits and times that the database takes do not fail. -/
theorem exists_puts {calls : List PutCall}
    (h : ∀ call ∈ calls, call.reg.message.gasLimit.toNat < 2 ^ 63 ∧
      InTimestampRange (regTime call.reg.timestamp)) : ∃ d, puts calls = .ok d := by
  induction calls using List.reverseRecOn with
  | nil => exact ⟨Datastore.empty, rfl⟩
  | append_singleton calls call ih =>
      obtain ⟨d, hd⟩ := ih fun call hcall => h call (List.mem_append_left _ hcall)
      obtain ⟨hgas, htime⟩ := h call (by simp)
      refine ⟨d.upsert (hexString call.reg.pubkey) (rowOf call.reg), ?_⟩
      rw [puts_concat, hd]
      simp only [Except.bind, Datastore.putNewerRegistration, htime, not_true_eq_false, if_false,
        if_neg (Nat.not_le.2 hgas)]

end Postgres

/-- **When the stores hold the same.**  After any calls that the database takes, both stores return
the same for every public key exactly when for every public key, the last one of the newest
registrations put under it is the first one of the newest registrations of the validator, as signed
times, or there is neither. -/
theorem stores_agree_iff (calls : List PutCall) (d : Postgres.Datastore)
    (h : Postgres.puts calls = .ok d) :
    (∀ pk, (badgerPuts calls).getRegistration pk = d.getRegistration pk) ↔
      ∀ pk, lastNewest calls pk = firstNewest calls pk := by
  simp only [getRegistration_badgerPuts, Postgres.getRegistration_puts h, found_inj]

/-- A registration of one validator. -/
def registrationAt (timestamp gasLimit : UInt64) : SignedValidatorRegistration :=
  ⟨⟨default, gasLimit, timestamp, default⟩, default⟩

/-- A call for that validator. -/
def putCallAt (timestamp gasLimit : UInt64) : PutCall :=
  ⟨default, registrationAt timestamp gasLimit⟩

theorem exists_puts_pair (timestamp timestamp' : UInt64)
    (h : Postgres.InTimestampRange (Postgres.regTime timestamp))
    (h' : Postgres.InTimestampRange (Postgres.regTime timestamp')) :
    ∃ d, Postgres.puts [putCallAt timestamp 30000000, putCallAt timestamp' 36000000] = .ok d := by
  apply Postgres.exists_puts
  intro call hcall
  rcases List.mem_cons.1 hcall with rfl | hcall
  · exact ⟨by simp [putCallAt, registrationAt], h⟩
  · obtain rfl := List.mem_singleton.1 hcall
    exact ⟨by simp [putCallAt, registrationAt], h'⟩

/-- An older registration and a newer one. -/
theorem stores_agree_iff_newer :
    ∃ d, Postgres.puts [putCallAt 1 30000000, putCallAt 2 36000000] = .ok d ∧
      ∀ pk, (badgerPuts [putCallAt 1 30000000, putCallAt 2 36000000]).getRegistration pk =
        d.getRegistration pk := by
  obtain ⟨d, hd⟩ := exists_puts_pair 1 2 (by decide) (by decide)
  refine ⟨d, hd, (stores_agree_iff _ d hd).2 ?_⟩
  intro pk
  by_cases hpk : pk = default
  · subst hpk
    rfl
  · have hne : default ≠ pk := Ne.symm hpk
    simp [lastNewest, firstNewest, putCallAt, registrationAt, SignedValidatorRegistration.pubkey,
      hne]

/-- Two registrations with one timestamp: the key-value store is left with the second one, the table
with the first one. -/
theorem stores_differ_on_tie :
    ∃ d, Postgres.puts [putCallAt 1 30000000, putCallAt 1 36000000] = .ok d ∧
      (badgerPuts [putCallAt 1 30000000, putCallAt 1 36000000]).getRegistration default =
        .ok (registrationAt 1 36000000) ∧
      d.getRegistration default = .ok (registrationAt 1 30000000) ∧
      registrationAt 1 36000000 ≠ registrationAt 1 30000000 := by
  obtain ⟨d, hd⟩ := exists_puts_pair 1 1 (by decide) (by decide)
  refine ⟨d, hd, ?_, ?_, by simp [registrationAt]⟩
  · rw [getRegistration_badgerPuts]
    rfl
  · rw [Postgres.getRegistration_puts hd]
    rfl

end Dreamboat
