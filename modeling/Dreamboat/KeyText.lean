/-
**Keys that are texts.**

A store with textual keys finds records by a key, or by the beginning or the end of one.  Keys are
put together from parts with a separator between them; parts without the separator can be read back,
and a beginning that ends inside a part, or an end that begins inside one, says something about that
part only.

Main definitions:

* `KeyText.decimal` — the decimal digits of a number.

Main results:

* `KeyText.append_cons_inj` — the parts of a key are determined by the key;
* `KeyText.prefix_append_cons_iff` — **a beginning without the separator is one of the first part**;
* `KeyText.append_cons_prefix_iff` — a beginning with the separator has the whole first part;
* `KeyText.suffix_append_cons_iff`, `KeyText.append_cons_suffix_iff` — the same for ends.
-/

import Mathlib.Data.List.Infix
import Dreamboat.Hex

set_option autoImplicit false

namespace KeyText

/-! ### Separators -/

section

variable {α : Type*} {sep : α} {a a' b b' p : List α}

/-- A beginning with the separator has the whole first part. -/
theorem append_cons_prefix_iff (ha : sep ∉ a) (ha' : sep ∉ a') :
    a ++ sep :: b <+: a' ++ sep :: b' ↔ a = a' ∧ b <+: b' := by
  induction a generalizing a' with
  | nil =>
      cases a' with
      | nil => simp
      | cons x a' =>
          have hx : sep ≠ x := fun h => ha' (h ▸ List.mem_cons_self)
          simp [hx]
  | cons x a ih =>
      rw [List.mem_cons, not_or] at ha
      cases a' with
      | nil =>
          have hx : x ≠ sep := fun h => ha.1 h.symm
          simp [hx]
      | cons y a' =>
          rw [List.mem_cons, not_or] at ha'
          simp only [List.cons_append, List.cons_prefix_cons, List.cons.injEq]
          rw [ih ha.2 ha'.2, and_assoc]

/-- The parts of a key are determined by the key. -/
theorem append_cons_inj (ha : sep ∉ a) (ha' : sep ∉ a') (h : a ++ sep :: b = a' ++ sep :: b') :
    a = a' ∧ b = b' := by
  have hprefix : a ++ sep :: b <+: a' ++ sep :: b' := h ▸ List.prefix_refl _
  obtain ⟨rfl, -⟩ := (append_cons_prefix_iff ha ha').1 hprefix
  exact ⟨rfl, (List.cons.inj (List.append_cancel_left h)).2⟩

/-- A beginning without the separator is a beginning of the first part. -/
theorem prefix_append_cons_iff (hp : sep ∉ p) : p <+: a ++ sep :: b ↔ p <+: a := by
  induction p generalizing a with
  | nil => simp
  | cons x p ih =>
      rw [List.mem_cons, not_or] at hp
      cases a with
      | nil =>
          have hx : x ≠ sep := fun h => hp.1 h.symm
          simp [hx]
      | cons y a =>
          simp only [List.cons_append, List.cons_prefix_cons]
          rw [ih hp.2]

/-- An end without the separator is an end of the last part. -/
theorem suffix_append_cons_iff (hp : sep ∉ p) : p <:+ a ++ sep :: b ↔ p <:+ b := by
  rw [← List.reverse_prefix, ← List.reverse_prefix, List.reverse_append, List.reverse_cons,
    List.append_assoc, List.singleton_append]
  exact prefix_append_cons_iff (by simpa using hp)

/-- An end with the separator has the whole last part. -/
theorem append_cons_suffix_iff (hb : sep ∉ b) (hb' : sep ∉ b') :
    a ++ sep :: b <:+ a' ++ sep :: b' ↔ b = b' ∧ a <:+ a' := by
  rw [← List.reverse_prefix, ← List.reverse_prefix]
  simp only [List.reverse_append, List.reverse_cons, List.append_assoc, List.singleton_append]
  rw [append_cons_prefix_iff (by simpa using hb) (by simpa using hb'), List.reverse_inj]

end

/-! ### Numbers and bytes -/

def decimal (n : ℕ) : List Char := Nat.toDigits 10 n

theorem decimal_injective : Function.Injective decimal := by
  intro m n h
  have hvalue := congrArg (fun l => Nat.ofDigitChars 10 l 0) h
  simpa only [decimal, Nat.ofDigitChars_ten_toDigits] using hvalue

theorem isDigit_of_mem_decimal {n : ℕ} {c : Char} (h : c ∈ decimal n) : c.isDigit = true :=
  Nat.isDigit_of_mem_toDigits (by decide) (by decide) h

theorem slash_not_mem_decimal (n : ℕ) : '/' ∉ decimal n :=
  fun h => absurd (isDigit_of_mem_decimal h) (by decide)

theorem dash_not_mem_decimal (n : ℕ) : '-' ∉ decimal n :=
  fun h => absurd (isDigit_of_mem_decimal h) (by decide)

theorem digits_injective : Function.Injective Hex.digits := by
  intro bs bs' h
  have hbytes := congrArg Hex.bytes h
  rw [Hex.bytes_digits, Hex.bytes_digits] at hbytes
  exact Option.some_inj.1 hbytes

/-- What is not a digit is not in the digits of bytes. -/
theorem not_mem_digits {c : Char} (hc : ∀ n < 16, c ≠ Nat.digitChar n) (bs : List UInt8) :
    c ∉ Hex.digits bs := by
  intro h
  obtain ⟨b, -, hb⟩ := List.mem_flatMap.1 h
  have hlt : b.toNat < 256 := b.toNat_lt
  simp only [List.mem_cons, List.not_mem_nil, or_false] at hb
  rcases hb with hb | hb
  · exact hc _ (by omega) hb
  · exact hc _ (by omega) hb

theorem slash_not_mem_digits (bs : List UInt8) : '/' ∉ Hex.digits bs :=
  not_mem_digits (by decide) bs

theorem dash_not_mem_digits (bs : List UInt8) : '-' ∉ Hex.digits bs := not_mem_digits (by decide) bs

end KeyText
