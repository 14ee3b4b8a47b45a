/-
**The registrations of the validators in the key-value store.**

Under two keys for each validator the store has its registration and, once more, the timestamp of
that registration.  `PutNewerRegistration` compares with the timestamp and keeps the stored
registration if it is newer.  Each key is given up after a time.

Main definitions:

* `SignedValidatorRegistration`, `ValidatorCacheEntry` — registrations;
* `Datastore`, `Datastore.putNewerRegistration`, `Datastore.getRegistration` — the store.

Main results:

* `Datastore.lookup_putNewerRegistration` — what the store has for a validator after a put.
-/

import Dreamboat.GoMap
import Dreamboat.Structs

set_option autoImplicit false

namespace Dreamboat

structure RegisterValidatorRequestMessage where
  feeRecipient : Address
  gasLimit : UInt64
  timestamp : UInt64
  pubkey : PublicKey
  deriving DecidableEq, Inhabited, Repr

structure SignedValidatorRegistration where
  message : RegisterValidatorRequestMessage
  signature : Signature
  deriving DecidableEq, Inhabited, Repr

namespace SignedValidatorRegistration

def pubkey (reg : SignedValidatorRegistration) : PublicKey := reg.message.pubkey

def timestamp (reg : SignedValidatorRegistration) : UInt64 := reg.message.timestamp

end SignedValidatorRegistration

/-- An entry of the cache, with the time it was made, in nanoseconds. -/
structure ValidatorCacheEntry where
  time : ℤ
  entry : SignedValidatorRegistration
  deriving DecidableEq, Inhabited, Repr

/-- What is stored under `RegistrationTimeKey` and under `RegistrationKey`. -/
structure Datastore where
  times : Go.Map PublicKey UInt64
  registrations : Go.Map PublicKey SignedValidatorRegistration

namespace Datastore

def empty : Datastore := ⟨∅, ∅⟩

def putTime (d : Datastore) (pk : PublicKey) (time : UInt64) : Datastore :=
  { d with times := d.times.insert pk time }

def putRegistration (d : Datastore) (pk : PublicKey) (reg : SignedValidatorRegistration) :
    Datastore :=
  { d with registrations := d.registrations.insert pk reg }

/-- The store has a newer registration. -/
def hasNewer (d : Datastore) (pk : PublicKey) (reg : SignedValidatorRegistration) : Bool :=
  match d.times.lookup pk with
  | some time => reg.timestamp < time
  | none => false

def putNewerRegistration (d : Datastore) (pk : PublicKey) (reg : SignedValidatorRegistration) :
    Datastore :=
  if d.hasNewer pk reg then d
  else (d.putTime pk reg.timestamp).putRegistration pk reg

def getRegistration (d : Datastore) (pk : PublicKey) : Except GoError SignedValidatorRegistration :=
  match d.registrations.lookup pk with
  | some reg => .ok reg
  | none => .error (.sentinel .errNotFound)

/-- The time of a key is over. -/
def expireTime (d : Datastore) (pk : PublicKey) : Datastore := { d with times := d.times.erase pk }

def expireRegistration (d : Datastore) (pk : PublicKey) : Datastore :=
  { d with registrations := d.registrations.erase pk }

/-- What the store has for a validator after a put. -/
theorem lookup_putNewerRegistration (d : Datastore) (pk pk' : PublicKey)
    (reg : SignedValidatorRegistration) :
    (d.putNewerRegistration pk reg).registrations.lookup pk' =
      if pk' = pk ∧ d.hasNewer pk reg = false then some reg else d.registrations.lookup pk' := by
  unfold putNewerRegistration
  cases hnewer : d.hasNewer pk reg with
  | true => simp
  | false =>
      rw [if_neg Bool.false_ne_true, putRegistration, putTime]
      simp only [Go.lookup_insert_eq, and_true]

/-- And what it has for its timestamp. -/
theorem lookup_times_putNewerRegistration (d : Datastore) (pk pk' : PublicKey)
    (reg : SignedValidatorRegistration) :
    (d.putNewerRegistration pk reg).times.lookup pk' =
      if pk' = pk ∧ d.hasNewer pk reg = false then some reg.timestamp else d.times.lookup pk' := by
  unfold putNewerRegistration
  cases hnewer : d.hasNewer pk reg with
  | true => simp
  | false =>
      rw [if_neg Bool.false_ne_true, putRegistration, putTime]
      simp only [Go.lookup_insert_eq, and_true]

theorem getRegistration_eq_ok_iff {d : Datastore} {pk : PublicKey}
    {reg : SignedValidatorRegistration} :
    d.getRegistration pk = .ok reg ↔ d.registrations.lookup pk = some reg := by
  unfold getRegistration
  cases d.registrations.lookup pk with
  | none => simp
  | some reg' => simp

end Datastore

end Dreamboat
