/-
**Hexadecimal texts.**

Bytes as pairs of lower-case digits, and the reading of such texts, which takes upper-case digits as
well.  Reading undoes writing.

Main definitions:

* `Hex.digits` — the digits of bytes;
* `Hex.value`, `Hex.bytes` — the value of a digit, and the bytes of digits.

Main results:

* `Hex.bytes_digits` — **reading undoes writing**.
-/

import Mathlib.Algebra.Group.Nat.Defs
import Mathlib.Data.Nat.Basic

set_option autoImplicit false

namespace Hex

/-- Two digits for each byte, the higher one first. -/
def digits (bs : List UInt8) : List Char :=
  bs.flatMap fun b => [Nat.digitChar (b.toNat / 16), Nat.digitChar (b.toNat % 16)]

/-- The value of a digit. -/
def value (c : Char) : Option ℕ :=
  if '0' ≤ c ∧ c ≤ '9' then some (c.toNat - '0'.toNat)
  else if 'a' ≤ c ∧ c ≤ 'f' then some (c.toNat - 'a'.toNat + 10)
  else if 'A' ≤ c ∧ c ≤ 'F' then some (c.toNat - 'A'.toNat + 10)
  else none

/-- The bytes of pairs of digits. -/
def bytes : List Char → Option (List UInt8)
  | [] => some []
  | [_] => none
  | hi :: lo :: cs => do
      let h ← value hi
      let l ← value lo
      let bs ← bytes cs
      return UInt8.ofNat (16 * h + l) :: bs

theorem value_digitChar {n : ℕ} (h : n < 16) : value (Nat.digitChar n) = some n := by
  revert n
  decide

theorem length_digits (bs : List UInt8) : (digits bs).length = 2 * bs.length := by
  induction bs with
  | nil => rfl
  | cons b bs ih =>
      have hcons : digits (b :: bs) =
          Nat.digitChar (b.toNat / 16) :: Nat.digitChar (b.toNat % 16) :: digits bs := rfl
      rw [hcons, List.length_cons, List.length_cons, ih, List.length_cons]
      omega

/-- **Reading undoes writing.** -/
theorem bytes_digits (bs : List UInt8) : bytes (digits bs) = some bs := by
  induction bs with
  | nil => rfl
  | cons b bs ih =>
      have hb : b.toNat < 256 := b.toNat_lt
      have hhigh : value (Nat.digitChar (b.toNat / 16)) = some (b.toNat / 16) :=
        value_digitChar (by omega)
      have hlow : value (Nat.digitChar (b.toNat % 16)) = some (b.toNat % 16) :=
        value_digitChar (by omega)
      have hbyte : UInt8.ofNat (16 * (b.toNat / 16) + b.toNat % 16) = b := by
        rw [Nat.div_add_mod]
        exact UInt8.ofNat_toNat
      have hcons : digits (b :: bs) =
          Nat.digitChar (b.toNat / 16) :: Nat.digitChar (b.toNat % 16) :: digits bs := rfl
      rw [hcons, bytes, hhigh, hlow, ih]
      exact congrArg (fun b' => some (b' :: bs)) hbyte

end Hex
