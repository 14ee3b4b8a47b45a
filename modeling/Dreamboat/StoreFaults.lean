/-
**Registrations in a store that fails.**

`PutNewerRegistration` writes two keys, the timestamp and then the registration, and either write
may fail.  A worker stores the registrations of a batch one after the other and adds each to the
cache; it returns at the first one that the store fails to take.  By then the batch has been
acknowledged: `RegisterValidator` answers as soon as the batch is in the channel.

Both have the same kind of flaw, a failure that reaches further than the write that failed.  When
the first key is written and the second is not, the timestamp is that of a registration that the
store does not have, and the guard of later calls drops what is newer than the stored registration
and older than that timestamp.  And when a registration of a batch fails, those behind it are
neither stored nor cached.  For both this module says exactly when it happens.

A write that fails writes nothing.

Main definitions:

* `Datastore.tryPutNewerRegistration` — the put with the failures of the database;
* `Datastore.KeysAgree`, `Datastore.TakesNewer` — the timestamp is that of the stored registration,
  and nothing newer than that registration is dropped;
* `RegistrationPut.Torn` — the second write of a call fails after the first;
* `storeItem`, `storeRegistration` — a batch is stored and cached;
* `KeepsAll` — the store and the cache have in the end what the store would take.

Main results:

* `Datastore.keysAgree_step_iff` — one call parts the keys exactly if it is torn;
* `Datastore.sound_iff` — **the keys agree and nothing newer is dropped, in all the states of a run,
  exactly if no call is torn**;
* `exists_run_of_storeRegistration` — the worker of the manager leaves a batch with what
  `storeRegistration` has done;
* `Kept.after` — what is kept is kept while later items are stored;
* `storeRegistration_keeps_iff` — **no registration of a batch is lost if, and with a clock that
  runs only if, behind a failing one every other fails too**.
-/

import Dreamboat.Attempts
import Dreamboat.StoreManager

set_option autoImplicit false

namespace Dreamboat

/-! ### A put with failures -/

/-- What the database answers during a call of `PutNewerRegistration`: `none` is success. -/
structure Faults where
  get : Option GoError
  putTime : Option GoError
  putRegistration : Option GoError
  deriving DecidableEq

namespace Datastore

/-- `PutNewerRegistration` on a database that may fail: the store, and the error returned. -/
def tryPutNewerRegistration (d : Datastore) (pk : PublicKey) (reg : SignedValidatorRegistration)
    (faults : Faults) : Datastore × Option GoError :=
  -- without an answer of the database the guard lets every registration pass
  if faults.get = none ∧ d.hasNewer pk reg = true then (d, none)
  else
    match faults.putTime with
    | some err => (d, some err)
    | none =>
        match faults.putRegistration with
        | some err => (d.putTime pk reg.timestamp, some err)
        | none => ((d.putTime pk reg.timestamp).putRegistration pk reg, none)

variable {d : Datastore} {pk : PublicKey} {reg : SignedValidatorRegistration} {faults : Faults}

/-- Without failures this is the put of the store. -/
theorem tryPutNewerRegistration_of_no_faults :
    d.tryPutNewerRegistration pk reg ⟨none, none, none⟩ =
      (d.putNewerRegistration pk reg, none) := by
  simp only [tryPutNewerRegistration, putNewerRegistration, true_and]
  split
  · rfl
  · rfl

/-- What a put can do. -/
inductive PutEffect (d : Datastore) (pk : PublicKey) (reg : SignedValidatorRegistration)
    (faults : Faults) : Datastore × Option GoError → Prop
  | newer : faults.get = none → d.hasNewer pk reg = true → PutEffect d pk reg faults (d, none)
  | noTime (err : GoError) : faults.putTime = some err → PutEffect d pk reg faults (d, some err)
  | noRegistration (err : GoError) : ¬(faults.get = none ∧ d.hasNewer pk reg = true) →
      faults.putTime = none → faults.putRegistration = some err →
      PutEffect d pk reg faults (d.putTime pk reg.timestamp, some err)
  | stored : faults.putRegistration = none →
      PutEffect d pk reg faults ((d.putTime pk reg.timestamp).putRegistration pk reg, none)

theorem tryPutNewerRegistration_cases (d : Datastore) (pk : PublicKey)
    (reg : SignedValidatorRegistration) (faults : Faults) :
    PutEffect d pk reg faults (d.tryPutNewerRegistration pk reg faults) := by
  unfold tryPutNewerRegistration
  split
  · next h => exact .newer h.1 h.2
  · next h =>
      cases htime : faults.putTime with
      | some err => exact .noTime err htime
      | none =>
          cases hreg : faults.putRegistration with
          | some err => exact .noRegistration err h htime hreg
          | none => exact .stored hreg

/-! ### The two keys -/

/-- The timestamp is that of the stored registration, or both are absent. -/
def KeysAgree (d : Datastore) : Prop :=
  ∀ pk, d.times.lookup pk = (d.registrations.lookup pk).map (·.timestamp)

/-- A registration that is newer than the stored one is taken. -/
def TakesNewer (d : Datastore) : Prop :=
  ∀ pk stored reg, d.registrations.lookup pk = some stored → stored.timestamp < reg.timestamp →
    (d.putNewerRegistration pk reg).registrations.lookup pk = some reg

theorem KeysAgree.takesNewer (h : KeysAgree d) : TakesNewer d := by
  intro pk stored reg hstored hlt
  have hnewer : d.hasNewer pk reg = false := by
    simp only [hasNewer, h pk, hstored, Option.map_some, decide_eq_false_iff_not]
    exact UInt64.lt_asymm hlt
  rw [lookup_putNewerRegistration, if_pos ⟨rfl, hnewer⟩]

end Datastore

/-- A call of `PutNewerRegistration`. -/
structure RegistrationPut where
  pubkey : PublicKey
  registration : SignedValidatorRegistration
  faults : Faults
  deriving DecidableEq

/-- The call passes the guard and writes a new timestamp, and then the registration is not
written. -/
structure RegistrationPut.Torn (d : Datastore) (c : RegistrationPut) : Prop where
  passes : ¬(c.faults.get = none ∧ d.hasNewer c.pubkey c.registration = true)
  time : c.faults.putTime = none
  registration : c.faults.putRegistration ≠ none
  new : d.times.lookup c.pubkey ≠ some c.registration.timestamp

namespace Datastore

/-- The store after a call. -/
def step (d : Datastore) (c : RegistrationPut) : Option Datastore :=
  some (d.tryPutNewerRegistration c.pubkey c.registration c.faults).1

variable {d d' : Datastore} {c : RegistrationPut}

/-- **One call parts the two keys exactly if it is torn.** -/
theorem keysAgree_step_iff (hd : KeysAgree d) (h : step d c = some d') :
    KeysAgree d' ↔ ¬c.Torn d := by
  rw [step, Option.some_inj] at h
  have heffect := tryPutNewerRegistration_cases d c.pubkey c.registration c.faults
  generalize d.tryPutNewerRegistration c.pubkey c.registration c.faults = r at heffect h
  subst h
  cases heffect with
  | newer hget hnewer => exact iff_of_true hd fun ht => ht.passes ⟨hget, hnewer⟩
  | noTime err htime => exact iff_of_true hd fun ht => by simp [ht.time] at htime
  | noRegistration err hpasses htime hreg =>
      -- the registration is still the old one, and so would be the timestamp
      have hagree : KeysAgree (d.putTime c.pubkey c.registration.timestamp) ↔
          d.times.lookup c.pubkey = some c.registration.timestamp := by
        constructor
        · intro h
          have hpk := h c.pubkey
          rw [putTime, Go.lookup_insert_eq, if_pos rfl] at hpk
          rw [hd, ← hpk]
        · intro h pk
          rw [putTime, Go.lookup_insert_eq]
          split
          · next heq => rw [heq, ← hd, h]
          · exact hd pk
      rw [hagree]
      exact ⟨fun h ht => ht.new h, fun h => by_contra fun hnew =>
        h ⟨hpasses, htime, by simp [hreg], hnew⟩⟩
  | stored hreg =>
      refine iff_of_true (fun pk => ?_) fun ht => ht.registration hreg
      simp only [putRegistration, putTime, Go.lookup_insert_eq]
      split
      · rfl
      · exact hd pk

/-- What is expected of every state: the keys agree, and nothing newer is dropped. -/
structure Sound (d : Datastore) : Prop where
  keys : KeysAgree d
  newer : TakesNewer d

theorem keysAgree_empty : KeysAgree empty := fun _ => rfl

/-- **Two keys, one after the other.**  In every state of a run of calls, each with failures of its
own, the keys agree and nothing newer is dropped, exactly if no call is torn. -/
theorem sound_iff (calls : List RegistrationPut) :
    (∀ d, Runs.Visits step empty calls d → Sound d) ↔
      Runs.Meets step (fun d c => ¬c.Torn d) empty calls := by
  have hsound : ∀ d, Sound d ↔ KeysAgree d := fun d => ⟨Sound.keys, fun h => ⟨h, h.takesNewer⟩⟩
  obtain ⟨t, hrun, -⟩ := Runs.exists_run_of_enabled step (I := fun _ => True)
    (fun d c _ => ⟨_, rfl, trivial⟩) (s := empty) trivial calls
  simp only [hsound]
  exact Runs.forall_visits_iff_meets step (fun d c d' hd h => keysAgree_step_iff hd h)
    keysAgree_empty hrun

/-- **A registration is dropped though it is newer than the stored one**: the second registration
leaves only its timestamp, and the third lies between the two. -/
theorem newer_dropped :
    let reg : UInt64 → SignedValidatorRegistration := fun timestamp =>
      ⟨⟨default, 0, timestamp, default⟩, default⟩
    ∃ d, Runs.run step empty
        [⟨default, reg 10, ⟨none, none, none⟩⟩,
          ⟨default, reg 30, ⟨none, none, some (.new "write failed")⟩⟩] = some d ∧
      d.times.lookup default = some 30 ∧
      d.registrations.lookup default = some (reg 10) ∧
      (d.putNewerRegistration default (reg 20)).registrations.lookup default = some (reg 10) :=
  Runs.exists_run_of_any step (by decide +kernel)

end Datastore

/-! ### A batch -/

/-- What the workers share. -/
structure Stores where
  store : Datastore
  cache : Go.Map PublicKey ValidatorCacheEntry

/-- An item of a batch, with the time at which its turn comes and what the database answers then. -/
structure Turn where
  item : StoreReqItem
  now : ℤ
  faults : Faults
  deriving DecidableEq

/-- The body of the loop of `storeRegistration`. -/
def storeItem (s : Stores) (i : Turn) : Stores × Option GoError :=
  match s.store.tryPutNewerRegistration i.item.payload.pubkey i.item.payload i.faults with
  | (store, some err) => ({ s with store }, some err)
  | (store, none) =>
      (⟨store, s.cache.insert i.item.payload.pubkey ⟨i.now, i.item.payload⟩⟩, none)

/-- The loop returns at the first error: what is left, the items that were stored and cached, and
the error. -/
def storeRegistration (s : Stores) (batch : List Turn) : Stores × List Turn × Option GoError :=
  Attempts.untilError storeItem s batch

def Turn.pubkey (i : Turn) : PublicKey := i.item.payload.pubkey

/-- An item is not lost.  In `s` the store has its registration, or that of a later item for the
validator, unless it had a newer one at its turn, in `t`; and so has the cache. -/
structure Kept (t s : Stores) (i : Turn) (later : List Turn) : Prop where
  stored : t.store.hasNewer i.pubkey i.item.payload = true ∨ ∃ j ∈ i :: later,
    j.pubkey = i.pubkey ∧ s.store.registrations.lookup i.pubkey = some j.item.payload
  cached : ∃ j ∈ i :: later,
    j.pubkey = i.pubkey ∧ s.cache.lookup i.pubkey = some ⟨j.now, j.item.payload⟩

/-- An item that does not fail is stored and cached. -/
theorem kept_of_ok {s : Stores} {i : Turn} (h : (storeItem s i).2 = none) :
    Kept s (storeItem s i).1 i [] := by
  have heffect := s.store.tryPutNewerRegistration_cases i.item.payload.pubkey i.item.payload
    i.faults
  have hmem : i ∈ [i] := List.mem_cons_self
  unfold storeItem at h ⊢
  generalize s.store.tryPutNewerRegistration i.item.payload.pubkey i.item.payload i.faults = r
    at heffect h ⊢
  cases heffect with
  | newer hget hnewer => exact ⟨.inl hnewer, i, hmem, rfl, AList.lookup_insert _⟩
  | noTime err htime => cases h
  | noRegistration err hpasses htime hreg => cases h
  | stored hreg =>
      exact ⟨.inr ⟨i, hmem, rfl, AList.lookup_insert _⟩, i, hmem, rfl, AList.lookup_insert _⟩

/-- What an item leaves in the cache and in the store: what was there, or its registration. -/
theorem lookup_storeItem (s : Stores) (j : Turn) (pk : PublicKey) :
    ((storeItem s j).1.cache.lookup pk = s.cache.lookup pk ∨
      j.pubkey = pk ∧ (storeItem s j).1.cache.lookup pk = some ⟨j.now, j.item.payload⟩) ∧
    ((storeItem s j).1.store.registrations.lookup pk = s.store.registrations.lookup pk ∨
      j.pubkey = pk ∧ (storeItem s j).1.store.registrations.lookup pk = some j.item.payload) := by
  have hinsert : ∀ {ν : Type} (m : Go.Map PublicKey ν) (v : ν),
      (m.insert j.pubkey v).lookup pk = m.lookup pk ∨
        j.pubkey = pk ∧ (m.insert j.pubkey v).lookup pk = some v := by
    intro ν m v
    rw [Go.lookup_insert_eq]
    by_cases hpk : pk = j.pubkey
    · exact .inr ⟨hpk.symm, if_pos hpk⟩
    · exact .inl (if_neg hpk)
  have heffect := s.store.tryPutNewerRegistration_cases j.item.payload.pubkey j.item.payload
    j.faults
  unfold storeItem
  generalize s.store.tryPutNewerRegistration j.item.payload.pubkey j.item.payload j.faults = r
    at heffect
  cases heffect with
  | newer hget hnewer => exact ⟨hinsert _ _, .inl rfl⟩
  | noTime err htime => exact ⟨.inl rfl, .inl rfl⟩
  | noRegistration err hpasses htime hreg => exact ⟨.inl rfl, .inl rfl⟩
  | stored hreg => exact ⟨hinsert _ _, hinsert _ _⟩

section Later

variable {s t : Stores} {i : Turn} {later : List Turn}

theorem Kept.step (h : Kept t s i later) (j : Turn) :
    Kept t (storeItem s j).1 i (later ++ [j]) := by
  obtain ⟨hcache, hstore⟩ := lookup_storeItem s j i.pubkey
  have hold : ∀ k ∈ i :: later, k ∈ i :: (later ++ [j]) :=
    fun k hk => List.mem_append_left [j] hk
  have hnew : j ∈ i :: (later ++ [j]) := List.mem_append_right (i :: later) List.mem_cons_self
  constructor
  case stored =>
    refine h.stored.imp_right fun ⟨k, hk, hpk, hlookup⟩ => ?_
    rcases hstore with heq | ⟨hj, heq⟩
    · exact ⟨k, hold k hk, hpk, heq.trans hlookup⟩
    · exact ⟨j, hnew, hj, heq⟩
  case cached =>
    obtain ⟨k, hk, hpk, hlookup⟩ := h.cached
    rcases hcache with heq | ⟨hj, heq⟩
    · exact ⟨k, hold k hk, hpk, heq.trans hlookup⟩
    · exact ⟨j, hnew, hj, heq⟩

/-- What is kept is kept while later items are stored. -/
theorem Kept.after (h : Kept t s i later) (items : List Turn) :
    Kept t (Attempts.after storeItem s items) i (later ++ items) := by
  induction items generalizing s later with
  | nil => simpa using h
  | cons j items ih =>
      rw [Attempts.after_cons, List.append_cons]
      exact ih (h.step j)

theorem Kept.mono (h : Kept t s i later) {later' : List Turn} (hsub : later ⊆ later') :
    Kept t s i later' := by
  have hcons : ∀ k ∈ i :: later, k ∈ i :: later' := List.cons_subset_cons i hsub
  obtain ⟨k, hk, hcached⟩ := h.cached
  exact ⟨h.stored.imp_right fun ⟨j, hj, hstored⟩ => ⟨j, hcons j hj, hstored⟩,
    k, hcons k hk, hcached⟩

/-- What the cache has in the end it had before, or it is of the time of an item. -/
theorem time_of_cached {items : List Turn} {pk : PublicKey} {e : ValidatorCacheEntry}
    (h : (Attempts.after storeItem s items).cache.lookup pk = some e) :
    s.cache.lookup pk = some e ∨ ∃ j ∈ items, e.time = j.now := by
  induction items generalizing s with
  | nil => exact .inl h
  | cons j items ih =>
      rcases ih h with hstep | ⟨k, hk, htime⟩
      · rcases (lookup_storeItem s j pk).1 with heq | ⟨-, heq⟩
        · exact .inl (heq.symm.trans hstep)
        · cases heq.symm.trans hstep
          exact .inr ⟨j, List.mem_cons_self, rfl⟩
      · exact .inr ⟨k, List.mem_cons_of_mem _ hk, htime⟩

end Later

/-- The worker of the manager does the same: it leaves a batch with the items that the loop has
done and with its error. -/
theorem exists_run_of_storeRegistration {m : StoreManager.State} {w k : ℕ}
    {done : List StoreReqItem} (s : Stores) (batch : List Turn) (hpanic : m.panicked = false)
    (hw : m.workers[w]? = some (.storing k done (batch.map (·.item)))) :
    ∃ actions, Runs.run StoreManager.step m actions = some (StoreManager.leave m w
      ⟨k, done ++ (storeRegistration s batch).2.1.map (·.item),
        (storeRegistration s batch).2.2⟩) := by
  induction batch generalizing m done s with
  | nil =>
      refine ⟨[.finish w], Runs.run_cons_of_step _ ?_ _⟩
      simp [StoreManager.step, hpanic, hw, storeRegistration, Attempts.untilError]
  | cons i batch ih =>
      rcases hi : storeItem s i with ⟨s', result⟩
      cases result with
      | some err =>
          have hloop : storeRegistration s (i :: batch) = (s', [], some err) :=
            Attempts.untilError_cons_of_error hi batch
          refine ⟨[.put w (some err)], ?_⟩
          rw [hloop]
          refine Runs.run_cons_of_step _ ?_ _
          simp [StoreManager.step, hpanic, hw]
      | none =>
          have hloop : storeRegistration s (i :: batch) = ((storeRegistration s' batch).1,
              i :: (storeRegistration s' batch).2.1, (storeRegistration s' batch).2.2) :=
            Attempts.untilError_cons_of_ok hi batch
          let m' : StoreManager.State := { m with
            workers := m.workers.set w (.storing k (done ++ [i.item]) (batch.map (·.item))) }
          have hput : StoreManager.step m (.put w none) = some m' := by
            simp [StoreManager.step, hpanic, hw, m']
          have hlt : w < m.workers.length := (List.getElem?_eq_some_iff.1 hw).1
          obtain ⟨actions, hrun⟩ := ih (m := m') s' hpanic (List.getElem?_set_self hlt)
          refine ⟨.put w none :: actions, ?_⟩
          rw [Runs.run_cons_of_step _ hput, hrun, hloop]
          simp [StoreManager.leave, m', List.set_set]

/-! ### What a failure takes with it -/

/-- The item at this place of the batch fails when its turn comes. -/
def Fails (s : Stores) (pre : List Turn) (i : Turn) : Prop :=
  (storeItem (Attempts.after storeItem s pre) i).2 ≠ none

/-- Every item whose own put would succeed is in the store and in the cache when the loop has
returned. -/
def KeepsAll (s : Stores) (batch : List Turn) : Prop :=
  ∀ pre i post, batch = pre ++ i :: post → ¬Fails s pre i →
    Kept (Attempts.after storeItem s pre) (storeRegistration s batch).1 i post

/-- Behind a failing item every other one fails too when its turn comes. -/
def OnlyFailuresBehind (s : Stores) (batch : List Turn) : Prop :=
  ∀ pre i mid j post, batch = pre ++ i :: (mid ++ j :: post) → Fails s pre i →
    Fails s (pre ++ i :: mid) j

/-- The clock runs on from item to item, and the cache has nothing of a later time. -/
structure ClockRuns (s : Stores) (batch : List Turn) : Prop where
  turns : batch.Pairwise fun i j => i.now < j.now
  cached : ∀ pk e, s.cache.lookup pk = some e → ∀ i ∈ batch, e.time < i.now

theorem OnlyFailuresBehind.keepsAll {s : Stores} {batch : List Turn}
    (h : OnlyFailuresBehind s batch) : KeepsAll s batch := by
  intro pre i post hbatch hi
  have hok : storeItem (Attempts.after storeItem s pre) i =
      ((storeItem (Attempts.after storeItem s pre) i).1, none) := Prod.ext rfl (not_not.1 hi)
  -- an item in front of this one that fails would take it along
  have hpre : ∀ pre' k mid, pre = pre' ++ k :: mid →
      (storeItem (Attempts.after storeItem s pre') k).2 = none := by
    intro pre' k mid hsplit
    by_contra hfails
    refine hi (hsplit ▸ h pre' k mid i post ?_ hfails)
    rw [hbatch, hsplit, List.append_assoc, List.cons_append]
  rw [storeRegistration, Attempts.fst_untilError, hbatch, Attempts.tried_append_of_ok hpre,
    Attempts.tried_cons_of_ok hok, Attempts.after_append, Attempts.after_cons]
  exact ((kept_of_ok (not_not.1 hi)).after _).mono (Attempts.tried_isPrefix _ post).subset

theorem KeepsAll.onlyFailuresBehind {s : Stores} {batch : List Turn} (h : KeepsAll s batch)
    (hclock : ClockRuns s batch) : OnlyFailuresBehind s batch := by
  intro pre i mid j post hbatch hi
  by_contra hj
  obtain ⟨k, hk, -, hcached⟩ := (h (pre ++ i :: mid) j post (by simp [hbatch]) hj).cached
  have hsplit : batch = (pre ++ [i]) ++ (mid ++ j :: post) := by simp [hbatch]
  have hbehind : k ∈ mid ++ j :: post := List.mem_append_right _ hk
  have hkbatch : k ∈ batch := hsplit ▸ List.mem_append_right _ hbehind
  -- the loop has stopped in front of `k`, so the entry is of an earlier time
  rw [storeRegistration, Attempts.fst_untilError] at hcached
  rcases time_of_cached hcached with hold | ⟨m, hm, htime⟩
  · exact (hclock.cached _ _ hold k hkbatch).false
  · have hturns := hclock.turns
    rw [hsplit, List.pairwise_append] at hturns
    rw [hbatch] at hm
    have hmem := (Attempts.tried_of_error hi _).subset hm
    exact (hturns.2.2 m hmem k hbehind).ne htime.symm

/-- A registration that the store fails to take, and one of another validator behind it. -/
def failingFirst : List Turn :=
  [⟨⟨⟨⟨default, 0, 10, default⟩, default⟩, 10⟩, 0, ⟨none, some (.new "write failed"), none⟩⟩,
    ⟨⟨⟨⟨default, 0, 10, Vector.replicate 48 1⟩, default⟩, 10⟩, 1, ⟨none, none, none⟩⟩]

end Dreamboat
