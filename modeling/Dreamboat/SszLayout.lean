/-
**The layout of an SSZ container.**

A field of a container stands in the fixed part, or it stands behind it and has an offset in the
fixed part.  The offset is the distance from the first byte of the container to the first byte of
the field.  `Ssz.layOut` puts fields together in this way, and a list of variable elements is the
container that has nothing else.

Main definitions:

* `Ssz.Field`, `Ssz.fixedSize`, `Ssz.behind` — fields, and what they take in and behind the fixed
  part;
* `Ssz.start` — where the bytes of a field begin;
* `Ssz.layOut` — the bytes of a container;
* `Ssz.OffsetsPoint` — the offsets in some bytes are those of the fields, which stand there.

Main results:

* `Ssz.length_layOut` — its size;
* `Ssz.offsetsPoint_layOut` — **the offsets of a container point to its fields**;
* `Ssz.writeList_eq_layOut` — a list of variable elements is a container.
-/

import Dreamboat.SszDecode

set_option autoImplicit false

namespace Ssz

/-- A field: bytes that stand in the fixed part, or bytes behind it. -/
inductive Field where
  | fixed (bytes : List UInt8)
  | dynamic (bytes : List UInt8)
  deriving DecidableEq, Repr

namespace Field

/-- What a field takes in the fixed part. -/
def width : Field → ℕ
  | fixed bytes => bytes.length
  | dynamic _ => 4

/-- What a field puts behind the fixed part. -/
def tail : Field → List UInt8
  | fixed _ => []
  | dynamic bytes => bytes

end Field

def fixedSize (fields : List Field) : ℕ := (fields.map Field.width).sum

def behind (fields : List Field) : List UInt8 := fields.flatMap Field.tail

/-- Where the bytes of the field with the given number begin. -/
def start (fields : List Field) (i : ℕ) : ℕ := fixedSize fields + (behind (fields.take i)).length

/-- The fixed part, if the first field behind it stands at `n`. -/
def head : ℕ → List Field → List UInt8
  | _, [] => []
  | n, .fixed bytes :: fields => bytes ++ head n fields
  | n, .dynamic bytes :: fields => writeOffset n ++ head (n + bytes.length) fields

/-- The bytes of a container. -/
def layOut (fields : List Field) : List UInt8 := head (fixedSize fields) fields ++ behind fields

/-- Each offset in the bytes is the distance to the first byte of its field, which stands there. -/
def OffsetsPoint (fields : List Field) (out : List UInt8) : Prop :=
  ∀ i bytes, fields[i]? = some (.dynamic bytes) →
    offsetAt out (fixedSize (fields.take i)) = start fields i ∧
      part out (start fields i) (start fields i + bytes.length) = bytes

theorem length_head (n : ℕ) (fields : List Field) : (head n fields).length = fixedSize fields := by
  induction fields generalizing n with
  | nil => rfl
  | cons field fields ih =>
      cases field with
      | fixed bytes =>
          rw [head, List.length_append, ih, fixedSize, fixedSize, List.map_cons, List.sum_cons,
            Field.width]
      | dynamic bytes =>
          rw [head, List.length_append, ih, length_writeOffset, fixedSize, fixedSize, List.map_cons,
            List.sum_cons, Field.width]

theorem length_layOut (fields : List Field) :
    (layOut fields).length = fixedSize fields + (behind fields).length := by
  rw [layOut, List.length_append, length_head]

/-- The fixed part goes on behind some fields with the offset behind their bytes. -/
theorem head_append (n : ℕ) (fields fields' : List Field) :
    head n (fields ++ fields') = head n fields ++ head (n + (behind fields).length) fields' := by
  induction fields generalizing n with
  | nil => rfl
  | cons field fields ih =>
      cases field with
      | fixed bytes =>
          rw [List.cons_append, head, head, ih, List.append_assoc]
          rfl
      | dynamic bytes =>
          have hlen : (behind (.dynamic bytes :: fields)).length =
              bytes.length + (behind fields).length := by
            rw [behind, List.flatMap_cons, List.length_append, Field.tail, behind]
          rw [List.cons_append, head, head, ih, List.append_assoc, hlen, Nat.add_assoc]

/-- **The offsets of a container point to its fields.** -/
theorem offsetsPoint_layOut {fields : List Field} (h : (layOut fields).length < 2 ^ 32) :
    OffsetsPoint fields (layOut fields) := by
  intro i bytes hi
  obtain ⟨hlt, hget⟩ := List.getElem?_eq_some_iff.1 hi
  -- the fields before this one, and those behind it
  have hsplit : fields = fields.take i ++ .dynamic bytes :: fields.drop (i + 1) := by
    rw [← hget, ← List.drop_eq_getElem_cons hlt, List.take_append_drop]
  have hbehind : behind fields =
      behind (fields.take i) ++ (bytes ++ behind (fields.drop (i + 1))) := by
    nth_rewrite 1 [hsplit]
    rw [behind, List.flatMap_append, List.flatMap_cons]
    rfl
  have hhead : head (fixedSize fields) fields = head (fixedSize fields) (fields.take i) ++
      (writeOffset (start fields i) ++
        head (start fields i + bytes.length) (fields.drop (i + 1))) := by
    nth_rewrite 2 [hsplit]
    rw [head_append, head, start]
  have hfits : start fields i < 2 ^ 32 := by
    rw [length_layOut, hbehind, List.length_append] at h
    rw [start]
    omega
  constructor
  · have hbuf : layOut fields = head (fixedSize fields) (fields.take i) ++
        (writeOffset (start fields i) ++
          (head (start fields i + bytes.length) (fields.drop (i + 1)) ++ behind fields)) := by
      rw [layOut, hhead, List.append_assoc, List.append_assoc]
    rw [offsetAt, part_of_eq hbuf (length_head _ _) (by rw [length_writeOffset]), writeOffset,
      leNat_leBytes]
    exact Nat.mod_eq_of_lt hfits
  · have hbuf : layOut fields = head (fixedSize fields) fields ++ behind (fields.take i) ++
        (bytes ++ behind (fields.drop (i + 1))) := by
      rw [layOut, hbehind, List.append_assoc]
    refine part_of_eq hbuf ?_ rfl
    rw [List.length_append, length_head, start]

/-- A list of variable elements is a container. -/
theorem writeList_eq_layOut (items : List (List UInt8)) :
    writeList items = layOut (items.map .dynamic) := by
  have hsize : fixedSize (items.map .dynamic) = 4 * items.length := by
    induction items with
    | nil => rfl
    | cons item items ih =>
        rw [fixedSize, List.map_cons, List.map_cons, List.sum_cons, List.length_cons, Field.width]
        rw [fixedSize] at ih
        omega
  have hbehind : behind (items.map .dynamic) = items.flatten := by
    rw [behind, List.flatMap_map, List.flatMap_def]
    exact congrArg List.flatten (List.map_id items)
  have hhead : ∀ n, head n (items.map .dynamic) = writeOffsets n items := by
    clear hsize hbehind
    induction items with
    | nil => exact fun _ => rfl
    | cons item items ih =>
        intro n
        rw [List.map_cons, head, writeOffsets, ih]
  rw [writeList, layOut, hsize, hbehind, hhead]

end Ssz
