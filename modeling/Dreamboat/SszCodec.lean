/-
**Writing and reading SSZ.**

An SSZ container is written as its fixed part and behind it the fields of variable size; a field of
variable size has an offset in the fixed part.  A list of variable elements is written in the same
way: first the offsets of the elements, then the elements.  All numbers are little-endian.

A decoder takes the bytes apart by slicing.  A slice out of range is a panic, which is told apart
from an error.  What is proved here is that slices and offsets give back what was written there.

Main definitions:

* `Ssz.leBytes`, `Ssz.leNat` — the bytes of a number, and the number of bytes;
* `Ssz.Decoder`, `Ssz.slice` — decoders, and the slices of a buffer;
* `Ssz.writeOffset`, `Ssz.readOffset`, `Ssz.writeOffsets` — offsets;
* `Ssz.decodeDynamicLength`, `Ssz.unmarshalDynamic`, `Ssz.divideInt2` — the lists.

Main results:

* `Ssz.leNat_leBytes`, `Ssz.readOffset_writeOffset` — numbers and offsets are read back;
* `Ssz.slice_of_eq`, `Ssz.slice_field`, `Ssz.slice_flatten` — a slice of what was put together is
  the part;
* `Ssz.decodeDynamicLength_write`, `Ssz.unmarshalDynamic_write` — **a list of variable elements is
  read back**;
* `Ssz.slice_flatMap` — an element of a list of elements of one size is read back.
-/

import Dreamboat.Ssz
import Mathlib.Data.Nat.Digits.Defs

set_option autoImplicit false

namespace Ssz

/-! ### Numbers -/

/-- The bytes of a number in a given width, the lowest first. -/
def leBytes (w n : ℕ) : List UInt8 := (List.range w).map fun i => UInt8.ofNat (n / 256 ^ i)

/-- The number with the given bytes, the lowest first. -/
def leNat (b : List UInt8) : ℕ := Nat.ofDigits 256 (b.map UInt8.toNat)

@[simp] theorem length_leBytes (w n : ℕ) : (leBytes w n).length = w := by simp [leBytes]

theorem leBytes_succ (w n : ℕ) : leBytes (w + 1) n = UInt8.ofNat n :: leBytes w (n / 256) := by
  simp only [leBytes, List.range_succ_eq_map, List.map_cons, List.map_map, pow_zero, Nat.div_one]
  congr 1
  refine List.map_congr_left fun i _ => ?_
  simp only [Function.comp, Nat.pow_succ', Nat.div_div_eq_div_mul]

theorem leNat_cons (b : UInt8) (bs : List UInt8) : leNat (b :: bs) = b.toNat + 256 * leNat bs := by
  simp [leNat, Nat.ofDigits_cons]

/-- A number is read back as far as it fits. -/
theorem leNat_leBytes (w n : ℕ) : leNat (leBytes w n) = n % 256 ^ w := by
  induction w generalizing n with
  | zero => simp [leBytes, leNat, Nat.mod_one]
  | succ w ih =>
      have hlow : (UInt8.ofNat n).toNat = n % 256 := UInt8.toNat_ofNat'
      rw [leBytes_succ, leNat_cons, ih, hlow, pow_succ', Nat.mod_mul]

theorem uint64Bytes_eq (v : UInt64) : uint64Bytes v = leBytes 8 v.toNat := rfl

@[simp] theorem length_uint64Bytes (v : UInt64) : (uint64Bytes v).length = 8 := length_leBytes 8 _

/-! ### Slices -/

/-- A decoder gives a value or an error, or it panics. -/
abbrev Decoder (ε : Type) := ExceptT ε Option

variable {ε : Type}

/-- `buf[lo:hi]`. -/
def slice (buf : List UInt8) (lo hi : ℕ) : Decoder ε (List UInt8) :=
  if lo ≤ hi ∧ hi ≤ buf.length then pure ((buf.take hi).drop lo) else ExceptT.mk none

/-- `buf[lo:]`. -/
def sliceFrom (buf : List UInt8) (lo : ℕ) : Decoder ε (List UInt8) := slice buf lo buf.length

/-- The bytes of an array of a fixed size. -/
def copyBytes (n : ℕ) (b : List UInt8) : Vector UInt8 n := Vector.ofFn fun i => b.getD i 0

@[simp] theorem copyBytes_toList {n : ℕ} (v : Vector UInt8 n) : copyBytes n v.toList = v := by
  refine Vector.ext fun i hi => ?_
  simp [copyBytes]

/-- A slice gives the part that stands there. -/
theorem slice_of_eq {buf pre mid post : List UInt8} {lo hi : ℕ} (hbuf : buf = pre ++ (mid ++ post))
    (hlo : pre.length = lo) (hhi : lo + mid.length = hi) :
    (slice buf lo hi : Decoder ε (List UInt8)) = pure mid := by
  subst hbuf hlo hhi
  have htake : (pre ++ (mid ++ post)).take (pre.length + mid.length) = pre ++ mid := by
    rw [← List.append_assoc, ← List.length_append, List.take_left]
  rw [slice, if_pos (by simp), htake, List.drop_left]

theorem sliceFrom_of_eq {buf pre mid : List UInt8} {lo : ℕ} (hbuf : buf = pre ++ mid)
    (hlo : pre.length = lo) : (sliceFrom buf lo : Decoder ε (List UInt8)) = pure mid := by
  refine slice_of_eq (by rw [hbuf, List.append_nil]) hlo ?_
  rw [hbuf, List.length_append, hlo]

/-- A slice of the fixed part gives the field that stands there. -/
theorem slice_field {pieces : List (List UInt8)} {rest piece : List UInt8} {lo hi : ℕ} (k : ℕ)
    (hk : pieces[k]? = some piece) (hlo : (pieces.take k).flatten.length = lo)
    (hhi : lo + piece.length = hi) :
    (slice (pieces.flatten ++ rest) lo hi : Decoder ε (List UInt8)) = pure piece := by
  obtain ⟨hlt, rfl⟩ := List.getElem?_eq_some_iff.1 hk
  have hsplit : pieces.flatten =
      (pieces.take k).flatten ++ (pieces[k] ++ (pieces.drop (k + 1)).flatten) := by
    rw [← List.flatten_cons, ← List.drop_eq_getElem_cons hlt, ← List.flatten_append,
      List.take_append_drop]
  have hbuf : pieces.flatten ++ rest =
      (pieces.take k).flatten ++ (pieces[k] ++ ((pieces.drop (k + 1)).flatten ++ rest)) := by
    rw [hsplit, List.append_assoc, List.append_assoc]
  exact slice_of_eq hbuf hlo hhi

/-- The same for parts with nothing behind them. -/
theorem slice_flatten {pieces : List (List UInt8)} {piece : List UInt8} {lo hi : ℕ} (k : ℕ)
    (hk : pieces[k]? = some piece) (hlo : (pieces.take k).flatten.length = lo)
    (hhi : lo + piece.length = hi) :
    (slice pieces.flatten lo hi : Decoder ε (List UInt8)) = pure piece := by
  have hslice : (slice (pieces.flatten ++ []) lo hi : Decoder ε (List UInt8)) = pure piece :=
    slice_field k hk hlo hhi
  rwa [List.append_nil] at hslice

/-! ### Offsets -/

def writeOffset (n : ℕ) : List UInt8 := leBytes 4 n

/-- The number in the first four bytes. -/
def readOffset (buf : List UInt8) : Decoder ε ℕ :=
  if 4 ≤ buf.length then pure (leNat (buf.take 4)) else ExceptT.mk none

@[simp] theorem length_writeOffset (n : ℕ) : (writeOffset n).length = 4 := length_leBytes 4 n

theorem readOffset_writeOffset {n : ℕ} (h : n < 2 ^ 32) (rest : List UInt8) :
    (readOffset (writeOffset n ++ rest) : Decoder ε ℕ) = pure n := by
  have htake : (writeOffset n ++ rest).take 4 = writeOffset n := by
    rw [← length_writeOffset n, List.take_left]
  have hfits : n % 256 ^ 4 = n := Nat.mod_eq_of_lt h
  rw [readOffset, if_pos (by simp), htake, writeOffset, leNat_leBytes, hfits]

theorem readOffset_writeOffset_self {n : ℕ} (h : n < 2 ^ 32) :
    (readOffset (writeOffset n) : Decoder ε ℕ) = pure n := by
  have hread : (readOffset (writeOffset n ++ []) : Decoder ε ℕ) = pure n :=
    readOffset_writeOffset h []
  rwa [List.append_nil] at hread

/-- The offsets of parts that stand one behind the other, the first one at `n`. -/
def writeOffsets : ℕ → List (List UInt8) → List UInt8
  | _, [] => []
  | n, item :: items => writeOffset n ++ writeOffsets (n + item.length) items

@[simp] theorem length_writeOffsets (n : ℕ) (items : List (List UInt8)) :
    (writeOffsets n items).length = 4 * items.length := by
  induction items generalizing n with
  | nil => rfl
  | cons item items ih =>
      rw [writeOffsets, List.length_append, length_writeOffset, ih, List.length_cons]
      omega

/-! ### Lists -/

variable (err : String → ε)

/-- The number of elements of a list of variable elements. -/
def decodeDynamicLength (buf : List UInt8) (maxSize : ℕ) : Decoder ε ℕ :=
  if buf.length = 0 then pure 0
  else if buf.length < 4 then throw (err "not enough data")
  else do
    let offset ← readOffset buf
    if offset % 4 ≠ 0 then throw (err "bad")
    else if offset / 4 > maxSize then throw (err "too big for the list")
    else return offset / 4

def safeReadOffset (buf : List UInt8) : Decoder ε (ℕ × List UInt8) :=
  if buf.length < 4 then throw (err "")
  else do
    let offset ← readOffset buf
    let rest ← sliceFrom buf 4
    return (offset, rest)

/-- The elements from an offset on; their ends are read from `dst`, but for the last one. -/
def unmarshalDynamicFrom {β : Type} (src : List UInt8) (f : List UInt8 → Decoder ε β) :
    ℕ → ℕ → List UInt8 → Decoder ε (List β)
  | 0, _, _ => pure []
  | length + 1, offset, dst => do
      -- the last element ends where the bytes end
      let (endOffset, dst) ←
        if length = 0 then pure (src.length, dst) else safeReadOffset err dst
      if offset > endOffset then throw (err "four")
      else if endOffset > src.length then throw (err "five")
      else do
        let b ← slice src offset endOffset
        let x ← f b
        let xs ← unmarshalDynamicFrom src f length endOffset dst
        return x :: xs

/-- The elements of a list of variable elements. -/
def unmarshalDynamic {β : Type} (src : List UInt8) (length : ℕ) (f : List UInt8 → Decoder ε β) :
    Decoder ε (List β) :=
  if length = 0 then pure []
  else do
    let offset ← readOffset src
    let dst ← sliceFrom src 4
    unmarshalDynamicFrom err src f length offset dst

/-- The number of elements of a list of elements of one size. -/
def divideInt2 (a b max : ℕ) : Decoder ε ℕ :=
  if a % b ≠ 0 then throw (err "xx")
  else if a / b > max then throw (err "yy")
  else pure (a / b)

/-- How a list of variable elements is written. -/
def writeList (items : List (List UInt8)) : List UInt8 :=
  writeOffsets (4 * items.length) items ++ items.flatten

theorem length_writeList (items : List (List UInt8)) :
    (writeList items).length = 4 * items.length + items.flatten.length := by
  rw [writeList, List.length_append, length_writeOffsets]

theorem decodeDynamicLength_write {items : List (List UInt8)} {maxSize : ℕ}
    (hmax : items.length ≤ maxSize) (hlen : (writeList items).length < 2 ^ 32) :
    decodeDynamicLength err (writeList items) maxSize = pure items.length := by
  rw [length_writeList] at hlen
  cases items with
  | nil => rfl
  | cons item items =>
      have hread : (readOffset (writeList (item :: items)) : Decoder ε ℕ) =
          pure (4 * (item :: items).length) := by
        rw [writeList, writeOffsets, List.append_assoc]
        exact readOffset_writeOffset (by omega) _
      have hlong : 4 ≤ (writeList (item :: items)).length := by
        rw [length_writeList, List.length_cons]
        omega
      rw [decodeDynamicLength, if_neg (by omega), if_neg (by omega), hread, pure_bind,
        if_neg (by omega), if_neg (by omega), Nat.mul_div_cancel_left _ (by decide)]

variable {err}

theorem safeReadOffset_writeOffset {n : ℕ} (h : n < 2 ^ 32) (rest : List UInt8) :
    safeReadOffset err (writeOffset n ++ rest) = pure (n, rest) := by
  rw [safeReadOffset, if_neg (by simp), readOffset_writeOffset h, pure_bind,
    sliceFrom_of_eq rfl (length_writeOffset n), pure_bind]

/-- **The elements from an offset on are read back.** -/
theorem unmarshalDynamicFrom_write {β : Type} {src : List UInt8} {f : List UInt8 → Decoder ε β}
    {g : List UInt8 → β} (hlen : src.length < 2 ^ 32) :
    ∀ (items : List (List UInt8)) (item pre rest : List UInt8) (offset : ℕ),
      (∀ x ∈ item :: items, f x = pure (g x)) → src = pre ++ (item :: items).flatten →
      pre.length = offset →
      unmarshalDynamicFrom err src f (items.length + 1) offset
        (writeOffsets (offset + item.length) items ++ rest) = pure ((item :: items).map g) := by
  -- induction on the elements behind the first one, whose end is the next offset or the end of all
  intro items
  induction items with
  | nil =>
      intro item pre rest offset hf hsrc hpre
      have hend : src.length = offset + item.length := by simp [hsrc, hpre]
      have hbuf : src = pre ++ (item ++ []) := by simpa using hsrc
      have hslice : (slice src offset src.length : Decoder ε (List UInt8)) = pure item :=
        slice_of_eq hbuf hpre hend.symm
      simp only [unmarshalDynamicFrom, List.length_nil, if_true, pure_bind]
      rw [if_neg (by omega), if_neg (by omega), hslice, pure_bind, hf item (by simp), pure_bind]
      rfl
  | cons next items ih =>
      intro item pre rest offset hf hsrc hpre
      have hsum : src.length = offset + (item.length + (next :: items).flatten.length) := by
        rw [hsrc, List.length_append, hpre, List.flatten_cons, List.length_append]
      have hread : safeReadOffset err
          (writeOffsets (offset + item.length) (next :: items) ++ rest) =
            pure (offset + item.length,
              writeOffsets (offset + item.length + next.length) items ++ rest) := by
        rw [writeOffsets, List.append_assoc]
        exact safeReadOffset_writeOffset (by omega) _
      have hslice : (slice src offset (offset + item.length) : Decoder ε _) = pure item :=
        slice_of_eq hsrc hpre rfl
      have hrest := ih next (pre ++ item) rest (offset + item.length)
        (fun x hx => hf x (List.mem_cons_of_mem _ hx)) (by rw [hsrc]; simp) (by simp [hpre])
      rw [unmarshalDynamicFrom, List.length_cons, if_neg (by omega), hread, pure_bind]
      dsimp only
      rw [if_neg (by omega), if_neg (by omega), hslice, pure_bind, hf item (by simp), pure_bind,
        hrest, pure_bind]
      rfl

/-- **A list of variable elements is read back.** -/
theorem unmarshalDynamic_write {β : Type} {items : List (List UInt8)}
    {f : List UInt8 → Decoder ε β} {g : List UInt8 → β} (hlen : (writeList items).length < 2 ^ 32)
    (hf : ∀ x ∈ items, f x = pure (g x)) :
    unmarshalDynamic err (writeList items) items.length f = pure (items.map g) := by
  cases items with
  | nil => rfl
  | cons item items =>
      have hoffset := hlen
      rw [length_writeList] at hoffset
      have hwrite : writeList (item :: items) = writeOffset (4 * (item :: items).length) ++
          (writeOffsets (4 * (item :: items).length + item.length) items ++
            (item :: items).flatten) := by
        rw [writeList, writeOffsets, List.append_assoc]
      have hread : (readOffset (writeList (item :: items)) : Decoder ε ℕ) =
          pure (4 * (item :: items).length) := by
        rw [hwrite]
        exact readOffset_writeOffset (by omega) _
      rw [unmarshalDynamic, if_neg (by simp), hread, pure_bind,
        sliceFrom_of_eq hwrite (length_writeOffset _), pure_bind]
      exact unmarshalDynamicFrom_write hlen items item _ _ _ hf rfl (length_writeOffsets _ _)

/-- An element of a list of elements of one size is read back. -/
theorem slice_flatMap {α : Type} {enc : α → List UInt8} {w : ℕ} (hw : ∀ x, (enc x).length = w)
    {xs : List α} {i : ℕ} {x : α} (hx : xs[i]? = some x) :
    (slice (xs.flatMap enc) (i * w) ((i + 1) * w) : Decoder ε (List UInt8)) = pure (enc x) := by
  have hlength : ∀ k, k ≤ xs.length → ((xs.map enc).take k).flatten.length = k * w := by
    intro k hk
    rw [List.length_flatten, ← List.map_take, List.map_map]
    have hconst : (List.length ∘ enc) = fun _ => w := funext hw
    rw [hconst, List.map_const', List.sum_replicate_nat, List.length_take, Nat.min_eq_left hk]
  have hlt := (List.getElem?_eq_some_iff.1 hx).1
  have hpiece : (xs.map enc)[i]? = some (enc x) := by rw [List.getElem?_map, hx, Option.map_some]
  have hend : i * w + (enc x).length = (i + 1) * w := by rw [hw, Nat.succ_mul]
  exact slice_flatten i hpiece (hlength i hlt.le) hend

end Ssz
