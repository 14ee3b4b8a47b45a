/-
**Hash walks over a buffer of chunks.**

The code that computes an SSZ hash tree root is generated: it walks over the fields of an object and
drives a hasher, which keeps a buffer of 32-byte chunks.  Each field appends to the buffer; a
container or a list remembers the length of the buffer when it begins and in the end replaces
everything behind that place by one chunk.

This module has the operations of such a hasher and what can be said about walks built from them,
for an arbitrary hash: the two functions that turn chunks into one chunk are parameters, and of
them only that a single chunk is its own root is assumed.

Main definitions:

* `Ssz.chunks` — the bytes of a field, padded and cut into chunks;
* `Ssz.Hasher` — the two functions of the hasher;
* `Ssz.Walk`, `Ssz.putBytes`, `Ssz.container`, `Ssz.list` — walks, and how they are built;
* `Ssz.hashTreeRoot` — the root a walk computes.

Main results:

* `Ssz.Appending.seq`, `Ssz.Appending.container`, `Ssz.Appending.list` — a walk only appends to the
  buffer it is started on;
* `Ssz.eq_putBytes_of_hashTreeRoot` — **a field may be replaced by its root**: a walk that leaves
  one chunk is the walk that puts the root of its one-field container.
* `Ssz.eq_of_hashTreeRoot` — walks that compute one root are interchangeable.
-/

import Mathlib.Algebra.Group.Nat.Defs
import Mathlib.Data.List.Basic

set_option autoImplicit false

namespace Ssz

/-! ### Chunks -/

abbrev Chunk := Vector UInt8 32

/-- The first bytes of a list, padded with zeros. -/
def chunk (b : List UInt8) : Chunk := Vector.ofFn fun i => b.getD i 0

/-- The chunks of a list of bytes, the last one padded with zeros. -/
def chunks (b : List UInt8) : List Chunk :=
  (List.range ((b.length + 31) / 32)).map fun k => chunk (b.drop (32 * k))

/-- The bytes of a number, the lowest first. -/
def uint64Bytes (v : UInt64) : List UInt8 :=
  (List.range 8).map fun i => UInt8.ofNat (v.toNat / 256 ^ i)

@[simp] theorem chunk_toList (c : Chunk) : chunk c.toList = c := by
  refine Vector.ext fun i hi => ?_
  simp [chunk]

/-- A chunk is cut into itself. -/
@[simp] theorem chunks_toList (c : Chunk) : chunks c.toList = [c] := by
  have hcount : (c.toList.length + 31) / 32 = 1 := by simp
  rw [chunks, hcount]
  simp

/-! ### Walks -/

/-- The functions by which a hasher turns the chunks behind a place of its buffer into one. -/
structure Hasher where
  merkleize : List Chunk → Chunk
  /-- The number of elements is mixed into the root; the limit gives the depth of the tree. -/
  merkleizeWithMixin : List Chunk → UInt64 → UInt64 → Chunk
  merkleize_singleton : ∀ c, merkleize [c] = c

/-- A walk takes the buffer of the hasher to the buffer it leaves, or fails. -/
abbrev Walk (ε : Type) := List Chunk → Except ε (List Chunk)

variable {ε : Type} (H : Hasher)

def appendBytes32 (b : List UInt8) : Walk ε := fun buf => .ok (buf ++ chunks b)

def putUint64 (v : UInt64) : Walk ε := appendBytes32 (uint64Bytes v)

/-- Replaces what stands in the buffer from `indx` on. -/
def merkleize (indx : ℕ) : Walk ε := fun buf =>
  .ok (buf.take indx ++ [H.merkleize (buf.drop indx)])

def merkleizeWithMixin (indx : ℕ) (num limit : UInt64) : Walk ε := fun buf =>
  .ok (buf.take indx ++ [H.merkleizeWithMixin (buf.drop indx) num limit])

/-- Bytes that do not fit into one chunk are merkleized at once. -/
def putBytes (b : List UInt8) : Walk ε := fun buf =>
  if b.length ≤ 32 then appendBytes32 b buf
  else (appendBytes32 b buf).bind (merkleize H buf.length)

/-- Walks one after the other. -/
def seq : List (Walk ε) → Walk ε
  | [], buf => .ok buf
  | w :: ws, buf => (w buf).bind (seq ws)

/-- The fields of a container between `Index` and `Merkleize`. -/
def container (fields : List (Walk ε)) : Walk ε := fun buf =>
  (seq fields buf).bind (merkleize H buf.length)

/-- The elements of a list between `Index` and `MerkleizeWithMixin`. -/
def list (num limit : UInt64) (elems : List (Walk ε)) : Walk ε := fun buf =>
  (seq elems buf).bind (merkleizeWithMixin H buf.length num limit)

/-- A walk behind a check. -/
def checked (c : Prop) [Decidable c] (err : ε) (w : Walk ε) : Walk ε := fun buf =>
  if c then w buf else .error err

/-- The root a walk computes on an empty buffer; `err` is the error for a buffer that is not one
chunk in the end. -/
def hashTreeRoot (err : ε) (w : Walk ε) : Except ε Chunk :=
  match w [] with
  | .error e => .error e
  | .ok [c] => .ok c
  | .ok _ => .error err

/-! ### Walks append -/

/-- A walk appends to the buffer what it leaves in an empty one. -/
def Appending (w : Walk ε) : Prop := ∀ buf, w buf = (w []).map (buf ++ ·)

variable {H} {w : Walk ε} {ws : List (Walk ε)}

theorem Appending.apply {cs : List Chunk} (h : Appending w) (hw : w [] = .ok cs)
    (buf : List Chunk) : w buf = .ok (buf ++ cs) := by
  rw [h buf, hw, Except.map]

theorem Appending.apply_error {e : ε} (h : Appending w) (hw : w [] = .error e)
    (buf : List Chunk) : w buf = .error e := by
  rw [h buf, hw, Except.map]

theorem appending_appendBytes32 (b : List UInt8) : Appending (appendBytes32 (ε := ε) b) := by
  intro buf
  simp [appendBytes32, Except.map]

theorem appending_putBytes (b : List UInt8) : Appending (putBytes (ε := ε) H b) := by
  intro buf
  unfold putBytes
  split
  · exact appending_appendBytes32 b buf
  · simp [appendBytes32, merkleize, Except.map, Except.bind]

theorem Appending.seq (h : ∀ w ∈ ws, Appending w) : Appending (Ssz.seq ws) := by
  induction ws with
  | nil =>
      intro buf
      simp [Ssz.seq, Except.map]
  | cons w ws ih =>
      intro buf
      have hw : Appending w := h w List.mem_cons_self
      have hws : Appending (Ssz.seq ws) := ih fun w' hw' => h w' (List.mem_cons_of_mem _ hw')
      simp only [Ssz.seq]
      cases hout : w [] with
      | error e =>
          rw [hw.apply_error hout]
          rfl
      | ok cs =>
          -- the rest is started on what the first walk leaves
          rw [hw.apply hout]
          simp only [Except.bind]
          rw [hws (buf ++ cs), hws cs]
          cases Ssz.seq ws [] with
          | error e => rfl
          | ok ds => simp [Except.map]

/-- What a walk that begins by remembering the length of the buffer works on. -/
theorem Appending.replaced (h : Appending w) (f : List Chunk → Chunk) (buf : List Chunk) :
    ((w buf).bind fun out => Except.ok (ε := ε)
        (out.take buf.length ++ [f (out.drop buf.length)])) =
      ((w []).map fun cs => [f cs]).map (buf ++ ·) := by
  cases hout : w [] with
  | error e =>
      rw [h.apply_error hout]
      rfl
  | ok cs =>
      rw [h.apply hout]
      simp [Except.bind, Except.map]

theorem container_nil (fields : List (Walk ε)) :
    container H fields [] = (Ssz.seq fields []).map fun cs => [H.merkleize cs] := by
  unfold container merkleize
  cases Ssz.seq fields [] with
  | error e => rfl
  | ok cs => simp [Except.bind, Except.map]

theorem list_nil (num limit : UInt64) (elems : List (Walk ε)) :
    list H num limit elems [] =
      (Ssz.seq elems []).map fun cs => [H.merkleizeWithMixin cs num limit] := by
  unfold list merkleizeWithMixin
  cases Ssz.seq elems [] with
  | error e => rfl
  | ok cs => simp [Except.bind, Except.map]

theorem Appending.container (h : ∀ w ∈ ws, Appending w) : Appending (container H ws) := by
  intro buf
  rw [container_nil]
  exact (Appending.seq h).replaced H.merkleize buf

theorem Appending.list {num limit : UInt64} (h : ∀ w ∈ ws, Appending w) :
    Appending (list H num limit ws) := by
  intro buf
  rw [list_nil]
  exact (Appending.seq h).replaced (H.merkleizeWithMixin · num limit) buf

theorem Appending.checked {c : Prop} [Decidable c] {err : ε} (h : Appending w) :
    Appending (checked c err w) := by
  intro buf
  unfold Ssz.checked
  split
  · exact h buf
  · rfl

/-! ### Walks that succeed -/

/-- A walk that does not fail. -/
def Succeeds (w : Walk ε) : Prop := ∃ cs, w [] = .ok cs

theorem succeeds_appendBytes32 (b : List UInt8) : Succeeds (appendBytes32 (ε := ε) b) :=
  ⟨_, rfl⟩

theorem succeeds_putBytes (b : List UInt8) : Succeeds (putBytes (ε := ε) H b) := by
  unfold Succeeds putBytes
  split
  · exact ⟨_, rfl⟩
  · exact ⟨_, rfl⟩

/-- Walks one after the other succeed exactly when each of them does. -/
theorem succeeds_seq_iff (h : ∀ w ∈ ws, Appending w) :
    Succeeds (Ssz.seq ws) ↔ ∀ w ∈ ws, Succeeds w := by
  induction ws with
  | nil =>
      refine ⟨fun _ w hw => ?_, fun _ => ⟨[], rfl⟩⟩
      cases hw
  | cons w ws ih =>
      have hws : ∀ w' ∈ ws, Appending w' := fun w' hw' => h w' (List.mem_cons_of_mem _ hw')
      rw [List.forall_mem_cons, ← ih hws]
      unfold Succeeds
      simp only [Ssz.seq]
      cases w [] with
      | error e => simp [Except.bind]
      | ok cs =>
          rw [Except.bind, Appending.seq hws cs]
          cases Ssz.seq ws [] with
          | error e => simp [Except.map]
          | ok ds => simp [Except.map]

theorem succeeds_list_iff {num limit : UInt64} (h : ∀ w ∈ ws, Appending w) :
    Succeeds (list H num limit ws) ↔ ∀ w ∈ ws, Succeeds w := by
  rw [← succeeds_seq_iff h]
  unfold Succeeds
  rw [list_nil]
  cases Ssz.seq ws [] with
  | error e => simp [Except.map]
  | ok cs => simp [Except.map]

theorem succeeds_checked_iff {c : Prop} [Decidable c] {err : ε} :
    Succeeds (checked c err w) ↔ c ∧ Succeeds w := by
  unfold Succeeds Ssz.checked
  by_cases hc : c
  · simp [hc]
  · simp [hc]

theorem seq_concat (w : Walk ε) (ws : List (Walk ε)) (buf : List Chunk) :
    Ssz.seq (ws ++ [w]) buf = (Ssz.seq ws buf).bind w := by
  induction ws generalizing buf with
  | nil =>
      simp only [List.nil_append, Ssz.seq, Except.bind]
      cases w buf with
      | error e => rfl
      | ok cs => rfl
  | cons w' ws ih =>
      simp only [List.cons_append, Ssz.seq]
      cases w' buf with
      | error e => rfl
      | ok cs => exact ih cs

/-! ### Fields and their roots -/

/-- A chunk is put as it is. -/
theorem putBytes_toList (c : Chunk) (buf : List Chunk) :
    putBytes (ε := ε) H c.toList buf = .ok (buf ++ [c]) := by
  rw [putBytes, if_pos (by simp), appendBytes32, chunks_toList]

/-- A walk that leaves one chunk. -/
def LeavesOne (w : Walk ε) : Prop := ∀ cs, w [] = .ok cs → ∃ c, cs = [c]

theorem leavesOne_list (num limit : UInt64) (elems : List (Walk ε)) :
    LeavesOne (list H num limit elems) := by
  intro cs hcs
  rw [list_nil] at hcs
  cases hout : Ssz.seq elems [] with
  | error e =>
      rw [hout] at hcs
      cases hcs
  | ok ds =>
      rw [hout] at hcs
      exact ⟨_, (Except.ok.inj hcs).symm⟩

theorem LeavesOne.checked {c : Prop} [Decidable c] {err : ε} (h : LeavesOne w) :
    LeavesOne (checked c err w) := by
  intro cs hcs
  unfold Ssz.checked at hcs
  split at hcs
  · exact h cs hcs
  · cases hcs

/-- The root of a container. -/
theorem hashTreeRoot_container (err : ε) (fields : List (Walk ε)) :
    hashTreeRoot err (container H fields) = (Ssz.seq fields []).map H.merkleize := by
  unfold hashTreeRoot
  rw [container_nil]
  cases Ssz.seq fields [] with
  | error e => rfl
  | ok cs => rfl

/-- A root exists exactly when every field can be walked over. -/
theorem exists_hashTreeRoot_iff (err : ε) (h : ∀ w ∈ ws, Appending w) :
    (∃ root, hashTreeRoot err (container H ws) = .ok root) ↔ ∀ w ∈ ws, Succeeds w := by
  rw [hashTreeRoot_container, ← succeeds_seq_iff h]
  unfold Succeeds
  cases Ssz.seq ws [] with
  | error e => simp [Except.map]
  | ok cs => simp [Except.map]

/-- **A field may be replaced by its root**: a walk that leaves one chunk is the walk that puts the
root of the container with that field alone. -/
theorem eq_putBytes_of_hashTreeRoot (happ : Appending w) (hone : LeavesOne w) {err : ε}
    {root : Chunk} (h : hashTreeRoot err (container H [w]) = .ok root) :
    w = putBytes H root.toList := by
  rw [hashTreeRoot_container] at h
  cases hout : w [] with
  | error e => simp [Ssz.seq, hout, Except.bind, Except.map] at h
  | ok cs =>
      obtain ⟨c, rfl⟩ := hone cs hout
      have hroot : c = root := by
        simpa [Ssz.seq, hout, Except.bind, Except.map, H.merkleize_singleton] using h
      subst hroot
      funext buf
      rw [happ.apply hout, putBytes_toList]

/-- Walks with the same root are the same walk. -/
theorem eq_of_hashTreeRoot {w' : Walk ε} (hw : Appending w) (hw' : Appending w') {err err' : ε}
    {root : Chunk} (h : hashTreeRoot err w = .ok root) (h' : hashTreeRoot err' w' = .ok root) :
    w = w' := by
  have hout : ∀ {w : Walk ε} {err : ε}, hashTreeRoot err w = .ok root → w [] = .ok [root] := by
    intro w err h
    unfold hashTreeRoot at h
    split at h
    · cases h
    · next hc =>
        cases h
        exact hc
    · cases h
  funext buf
  rw [hw.apply (hout h), hw'.apply (hout h')]

/-! ### A hasher that keeps the last field -/

/-- The root of a container is its last chunk, and every list has the same root. -/
def lastChunk (root : Chunk) : Hasher where
  merkleize cs := cs.getLastD default
  merkleizeWithMixin _ _ _ := root
  merkleize_singleton _ := rfl

/-- The root of a container under that hasher is the chunk of its last field. -/
theorem hashTreeRoot_lastChunk (err : ε) {root c : Chunk} (happ : ∀ w' ∈ ws, Appending w')
    (hok : ∀ w' ∈ ws, Succeeds w') (hw : Appending w) (hc : w [] = .ok [c]) :
    hashTreeRoot err (container (lastChunk root) (ws ++ [w])) = .ok c := by
  obtain ⟨cs, hcs⟩ := (succeeds_seq_iff happ).2 hok
  rw [hashTreeRoot_container, seq_concat, hcs, Except.bind, hw.apply hc]
  simp [Except.map, lastChunk]

end Ssz
