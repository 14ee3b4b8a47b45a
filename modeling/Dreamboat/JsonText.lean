/-
**Writing JSON texts.**

An object is written as its members, each a name and the text of a value.  The scanner knows that a
number has ended only by the character behind it, so what it makes of the text of a value is said
for any delimiter behind: inside whatever is open, the text of a value leads to the state in which
the value has ended and the delimiter is still to be read.

Main definitions:

* `Go.Json.Reads` — a text is read as a value, wherever it stands in an object or array;
* `Go.Json.writtenObject` — an object whose values are given by their texts.

Main results:

* `Go.Json.reads_quoted`, `Go.Json.reads_decimal`, `Go.Json.reads_null` — strings, numbers, `null`;
* `Go.Json.parse_writtenObject` — **an object is read as it is written**.
-/

import Dreamboat.JsonScan
import Dreamboat.KeyText

set_option autoImplicit false

namespace Go

namespace Json

open KeyText (decimal)

/-! ### Values -/

/-- What may stand behind a value in an object or array. -/
def isDelimiter (c : Char) : Bool := c = ',' || c = ']' || c = '}'

/-- A text is read as a value, wherever it stands. -/
def Reads (text : List Char) (v : Json) : Prop :=
  ∀ frame stack c rest, isDelimiter c = true →
    scan ⟨frame :: stack, .beginValue⟩ (text ++ c :: rest) =
      scan ⟨frame :: stack, .endValue v⟩ (c :: rest)

theorem reads_quoted {s : String} (h : s.toList.all plain = true) : Reads (quoted s) (.str s) :=
  fun _ _ _ _ _ => scan_quoted h rfl _

theorem reads_null : Reads "null".toList .null := fun _ _ _ _ _ => rfl

/-- How far a number is behind its digits. -/
def afterDigits (n : ℕ) : NumberState := if n = 0 then .zero else .digits

theorem decimal_of_lt {n : ℕ} (h : n < 10) : decimal n = [Nat.digitChar n] :=
  Nat.toDigits_of_lt_base h

theorem decimal_of_le {n : ℕ} (h : 10 ≤ n) :
    decimal n = decimal (n / 10) ++ [Nat.digitChar (n % 10)] :=
  Nat.toDigits_of_base_le (by decide) h

theorem isDigit_digitChar {n : ℕ} (h : n < 10) : (Nat.digitChar n).isDigit = true := by
  revert n
  decide

/-- The first digit of a number. -/
theorem beginScalar_digitChar {n : ℕ} (h : n < 10) :
    Scanner.beginScalar (Nat.digitChar n) =
      some (.number (afterDigits n) [Nat.digitChar n]) := by
  match n with
  | 0 | 1 | 2 | 3 | 4 | 5 | 6 | 7 | 8 | 9 => rfl
  | _ + 10 => omega

theorem step_digitChar {n : ℕ} (h : n < 10) (stack : List Frame) :
    (⟨stack, .beginValue⟩ : Scanner).step (Nat.digitChar n) =
      .next ⟨stack, .number (afterDigits n) [Nat.digitChar n]⟩ := by
  have hspace : isSpace (Nat.digitChar n) = false := by
    revert n
    decide
  have hbrace : Nat.digitChar n ≠ '{' ∧ Nat.digitChar n ≠ '[' := by
    revert n
    decide
  rw [Scanner.step, Scanner.stateBeginValue, hspace, if_neg Bool.false_ne_true, if_neg hbrace.1,
    if_neg hbrace.2, beginScalar_digitChar h]

/-- The digits of a number, with whatever behind. -/
theorem scan_decimal (n : ℕ) (stack : List Frame) (rest : List Char) :
    scan ⟨stack, .beginValue⟩ (decimal n ++ rest) =
      scan ⟨stack, .number (afterDigits n) (decimal n).reverse⟩ rest := by
  induction n using Nat.strongRecOn generalizing rest with
  | ind n ih =>
      rcases Nat.lt_or_ge n 10 with hn | hn
      · rw [decimal_of_lt hn, List.singleton_append, scan_cons_of_next (step_digitChar hn stack)]
        rfl
      · have hfar : ∀ m : ℕ, m ≠ 0 → afterDigits m = .digits := fun m hm => if_neg hm
        have hdigit := isDigit_digitChar (show n % 10 < 10 by omega)
        have hstep : (⟨stack, .number .digits (decimal (n / 10)).reverse⟩ : Scanner).step
            (Nat.digitChar (n % 10)) =
            .next ⟨stack, .number .digits
              (Nat.digitChar (n % 10) :: (decimal (n / 10)).reverse)⟩ := by
          simp only [Scanner.step, Scanner.stateNumber, NumberState.next, if_pos hdigit]
        rw [decimal_of_le hn, List.append_assoc, ih (n / 10) (by omega), hfar (n / 10) (by omega),
          List.singleton_append, scan_cons_of_next hstep, hfar n (by omega), List.reverse_append]
        rfl

theorem next_of_isDelimiter {c : Char} (h : isDelimiter c = true) (n : ℕ) :
    (afterDigits n).next c = some none := by
  simp only [isDelimiter, Bool.or_eq_true, decide_eq_true_eq] at h
  rw [afterDigits]
  rcases h with (rfl | rfl) | rfl <;> split <;> rfl

theorem reads_decimal (n : ℕ) : Reads (decimal n) (.num (String.ofList (decimal n))) := by
  intro frame stack c rest hc
  have hstep : (⟨frame :: stack, .number (afterDigits n) (decimal n).reverse⟩ : Scanner).step c =
      (⟨frame :: stack, .endValue (.num (String.ofList (decimal n)))⟩ : Scanner).step c := by
    simp only [Scanner.step, Scanner.stateNumber, next_of_isDelimiter hc, List.reverse_reverse]
  rw [scan_decimal, scan, scan, hstep]

/-! ### Objects -/

/-- Members, each with the text of its value. -/
def writtenMembers : List (String × List Char) → List Char
  | [] => []
  | [m] => quoted m.1 ++ ':' :: m.2
  | m :: ms => quoted m.1 ++ ':' :: m.2 ++ ',' :: writtenMembers ms

theorem writtenMembers_cons_cons (m m' : String × List Char) (ms : List (String × List Char)) :
    writtenMembers (m :: m' :: ms) =
      quoted m.1 ++ ':' :: m.2 ++ ',' :: writtenMembers (m' :: ms) := rfl

/-- An object whose values are given by their texts. -/
def writtenObject (ms : List (String × List Char)) : List Char :=
  '{' :: writtenMembers ms ++ ['}']

/-- The text of a member is read as the member. -/
inductive ReadsMember : String × List Char → String × Json → Prop where
  | intro {key : String} {text : List Char} {v : Json} (hkey : key.toList.all plain = true)
      (hvalue : Reads text v) : ReadsMember (key, text) (key, v)

theorem scan_writtenMembers {ws : List (String × List Char)} {ms : List (String × Json)}
    (h : List.Forall₂ ReadsMember ws ms) (hne : ws ≠ []) (before : List (String × Json))
    {mode : Mode} (hmode : (⟨[.key before], mode⟩ : Scanner).step '"' =
      .next ⟨[.key before], .inString []⟩) :
    scan ⟨[.key before], mode⟩ (writtenMembers ws ++ ['}']) =
      .value (.obj (before.reverse ++ ms)) [] := by
  induction h generalizing before mode with
  | nil => exact absurd rfl hne
  | @cons w m ws ms hhead htail ih =>
      obtain ⟨hkey, hvalue⟩ := hhead
      cases htail with
      | nil =>
          rw [writtenMembers, List.append_assoc, List.cons_append, scan_quoted hkey hmode,
            scan_cons_of_next rfl, hvalue _ _ _ _ rfl]
          simp [scan, Scanner.step, Scanner.stateEndValue, Scanner.close, isSpace]
      | cons hhead' htail =>
          rw [writtenMembers_cons_cons, List.append_assoc, List.append_assoc, List.cons_append,
            List.cons_append, scan_quoted hkey hmode, scan_cons_of_next rfl, hvalue _ _ _ _ rfl,
            scan_cons_of_next rfl, ih (List.cons_ne_nil _ _) _ rfl]
          simp

/-- **An object is read as it is written.** -/
theorem parse_writtenObject {ws : List (String × List Char)} {ms : List (String × Json)}
    (h : List.Forall₂ ReadsMember ws ms) (hne : ws ≠ []) :
    parse (writtenObject ws) = some (.obj ms) := by
  have hopen : Scanner.start.step '{' = .next ⟨[.key []], .beginStringOrEmpty⟩ := rfl
  suffices hscan : scan .start (writtenObject ws) = .value (.obj ms) [] from
    parse_of_value hscan rfl
  rw [writtenObject, List.cons_append, scan_cons_of_next hopen, scan_writtenMembers h hne [] rfl,
    List.reverse_nil, List.nil_append]

end Json

end Go
