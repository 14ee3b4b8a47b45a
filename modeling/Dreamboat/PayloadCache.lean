/-
**The cache for payloads.**

`src/structs/cache.go` keeps payloads in a ring of caches, one for each place of the slots, and each
of them drops entries when it is full.  `GetHeader` looks up the payload of the bid it serves and
adds it in the background if it is not there; `GetPayload` looks it up when the proposer comes back,
and the subscribers add the payloads that other instances have streamed.

The caches are those of another package.  Which entry they drop is left open: an entry that is added
may drop one other entry, and reading changes nothing.

Main definitions:

* `Lru` — a cache, with what is assumed of it;
* `MultiSlotPayloadCache`, `newMultiSlotPayloadCache` — the ring of caches;
* `MultiSlotPayloadCache.get`, `MultiSlotPayloadCache.add`, `MultiSlotPayloadCache.containsOrAdd` —
  the operations.

Main results:

* `MultiSlotPayloadCache.exists_lookup_add` — adding a payload drops at most one other payload of
  the ring.
-/

import Dreamboat.Stream

set_option autoImplicit false

namespace Dreamboat

/-- A cache, with what is assumed of it. -/
structure Lru (κ ν : Type) [DecidableEq κ] where
  Cache : Type
  new : ℤ → Except GoError Cache
  /-- What is in a cache. -/
  lookup : Cache → κ → Option ν
  get : Cache → κ → Option ν × Cache
  /-- The result says whether another entry was dropped. -/
  add : Cache → κ → ν → Cache × Bool
  /-- The results say whether there was an entry, and whether another one was dropped. -/
  containsOrAdd : Cache → κ → ν → Cache × Bool × Bool
  lookup_new : ∀ {size c}, new size = .ok c → ∀ k, lookup c k = none
  get_fst : ∀ c k, (get c k).1 = lookup c k
  lookup_get : ∀ c k k', lookup (get c k).2 k' = lookup c k'
  /-- Adding an entry drops at most one entry. -/
  exists_lookup_add : ∀ c k v, ∃ dropped : Option κ, ∀ k', lookup (add c k v).1 k' =
    if dropped = some k' then none else if k' = k then some v else lookup c k'
  containsOrAdd_of_none : ∀ {c k}, lookup c k = none →
    ∀ v, (containsOrAdd c k v).1 = (add c k v).1
  containsOrAdd_of_some : ∀ {c k old}, lookup c k = some old → ∀ v, (containsOrAdd c k v).1 = c

namespace Lru

variable {κ ν : Type} [DecidableEq κ]

/-- The entry of a cache with room for one. -/
def ofEntry : Option (κ × ν) → κ → Option ν
  | none, _ => none
  | some (k, v), k' => if k' = k then some v else none

/-- A cache with room for one entry, of whatever size it is asked to be. -/
def oneEntry (κ ν : Type) [DecidableEq κ] : Lru κ ν where
  Cache := Option (κ × ν)
  new _ := .ok none
  lookup := ofEntry
  get c k := (ofEntry c k, c)
  add c k v := (some (k, v), c.any fun e => e.1 ≠ k)
  containsOrAdd c k v :=
    match ofEntry c k with
    | some _ => (c, true, false)
    | none => (some (k, v), false, c.isSome)
  lookup_new h k := by rw [← Except.ok.inj h]; rfl
  get_fst _ _ := rfl
  lookup_get _ _ _ := rfl
  exists_lookup_add c k v := by
    rcases c with _ | ⟨k₀, v₀⟩
    · exact ⟨none, fun k' => by simp [ofEntry]⟩
    · by_cases hk : k₀ = k
      · exact ⟨none, fun k' => by simp +contextual [ofEntry, hk]⟩
      · refine ⟨some k₀, fun k' => ?_⟩
        by_cases hk' : k₀ = k'
        · simp [ofEntry, ← hk', hk]
        · simp [ofEntry, hk', Ne.symm hk']
  containsOrAdd_of_none h v := by simp only [h]
  containsOrAdd_of_some h v := by simp only [h]

end Lru

variable {L : Lru PayloadKey Stream.Block}

/-- A cache for each place of the ring. -/
abbrev MultiSlotPayloadCache (L : Lru PayloadKey Stream.Block) : Type :=
  Fin numberOfSlotsInState → L.Cache

/-- All caches are made in the same way. -/
def newMultiSlotPayloadCache (L : Lru PayloadKey Stream.Block) (cacheSize : ℤ) :
    Except GoError (MultiSlotPayloadCache L) :=
  match L.new cacheSize with
  | .error err => .error (.wrap ("failed to initialize cache: " ++ err.error) err)
  | .ok cache => .ok fun _ => cache

namespace MultiSlotPayloadCache

/-- The place of a key. -/
def place (key : PayloadKey) : Fin numberOfSlotsInState := ringIndex key.slot

def get (c : MultiSlotPayloadCache L) (key : PayloadKey) :
    Option Stream.Block × MultiSlotPayloadCache L :=
  let (payload, cache) := L.get (c (place key)) key
  (payload, Function.update c (place key) cache)

def add (c : MultiSlotPayloadCache L) (key : PayloadKey) (bbt : Stream.Block) :
    MultiSlotPayloadCache L × Bool :=
  let (cache, evicted) := L.add (c (place key)) key bbt
  (Function.update c (place key) cache, evicted)

def containsOrAdd (c : MultiSlotPayloadCache L) (key : PayloadKey) (bbt : Stream.Block) :
    MultiSlotPayloadCache L × Bool × Bool :=
  let (cache, ok, evicted) := L.containsOrAdd (c (place key)) key bbt
  (Function.update c (place key) cache, ok, evicted)

def lookup (c : MultiSlotPayloadCache L) (key : PayloadKey) : Option Stream.Block :=
  L.lookup (c (place key)) key

/-! ### What can be found -/

theorem lookup_of_new {cacheSize : ℤ} {c : MultiSlotPayloadCache L}
    (h : newMultiSlotPayloadCache L cacheSize = .ok c) (key : PayloadKey) :
    c.lookup key = none := by
  unfold newMultiSlotPayloadCache at h
  split at h
  · cases h
  · next cache hcache =>
      cases h
      exact L.lookup_new hcache key

theorem get_fst (c : MultiSlotPayloadCache L) (key : PayloadKey) :
    (c.get key).1 = c.lookup key := L.get_fst _ key

theorem lookup_update (c : MultiSlotPayloadCache L) (key : PayloadKey) (cache : L.Cache)
    (key' : PayloadKey) : lookup (Function.update c (place key) cache) key' =
      if place key' = place key then L.lookup cache key' else c.lookup key' := by
  rw [lookup]
  split
  · next h => rw [h, Function.update_self]
  · next h => rw [Function.update_of_ne h, lookup]

theorem lookup_get (c : MultiSlotPayloadCache L) (key key' : PayloadKey) :
    (c.get key).2.lookup key' = c.lookup key' := by
  simp only [get]
  rw [lookup_update]
  split
  · next h => rw [L.lookup_get, lookup, h]
  · rfl

/-- **Adding a payload drops at most one other payload.** -/
theorem exists_lookup_add (c : MultiSlotPayloadCache L) (key : PayloadKey) (bbt : Stream.Block) :
    ∃ dropped : Option PayloadKey, ∀ key', (c.add key bbt).1.lookup key' =
      if dropped = some key' then none else if key' = key then some bbt else c.lookup key' := by
  obtain ⟨dropped, hdropped⟩ := L.exists_lookup_add (c (place key)) key bbt
  -- what is dropped is in the same place
  refine ⟨dropped.filter fun k => place k = place key, fun key' => ?_⟩
  simp only [add]
  rw [lookup_update]
  by_cases hplace : place key' = place key
  · rw [if_pos hplace, hdropped, lookup, hplace]
    have hiff : dropped.filter (fun k => place k = place key) = some key' ↔
        dropped = some key' := by
      rw [Option.filter_eq_some_iff]
      exact and_iff_left (decide_eq_true hplace)
    simp only [hiff]
  · have hne : key' ≠ key := fun h => hplace (congrArg place h)
    have hnot : dropped.filter (fun k => place k = place key) ≠ some key' := by
      intro h
      exact hplace (of_decide_eq_true (Option.filter_eq_some_iff.1 h).2)
    rw [if_neg hplace, if_neg hnot, if_neg hne]

theorem containsOrAdd_of_none {c : MultiSlotPayloadCache L} {key : PayloadKey}
    (h : c.lookup key = none) (bbt : Stream.Block) :
    (c.containsOrAdd key bbt).1 = (c.add key bbt).1 :=
  congrArg (Function.update c (place key)) (L.containsOrAdd_of_none h bbt)

theorem containsOrAdd_of_some {c : MultiSlotPayloadCache L} {key : PayloadKey}
    {old : Stream.Block} (h : c.lookup key = some old) (bbt : Stream.Block) :
    (c.containsOrAdd key bbt).1 = c := by
  refine (congrArg (Function.update c (place key)) (L.containsOrAdd_of_some h bbt)).trans ?_
  exact Function.update_eq_self _ _

end MultiSlotPayloadCache

end Dreamboat
