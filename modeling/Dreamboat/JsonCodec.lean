/-
**JSON that is written and read back.**

A value is written in two steps: as a JSON value, and the JSON value as a text.  Reading goes the
other way, into a value that exists already.  What is written is read back if every string in it
consists of characters that need no escape, if the numbers are decimal numbers, and if it is not
nested too deeply for the scanner.

A codec has the writer and the reader of a type, with a proof that what is written is read back
whatever the value was before.  The codec of a struct is made from those of its fields: an object
has all of them, so reading it leaves nothing of the value that was there.

Main definitions:

* `Go.Json.text` — the text of a JSON value;
* `Go.Json.Written` — a JSON value that is written without escapes, and how deep it is;
* `Go.Json.Codec` — a writer with a reader that undoes it;
* `Go.Json.Member`, `Go.Json.Codec.struct` — fields, and structs;
* `Go.Json.Codec.pointer`, `Go.Json.Codec.list`, `Go.Json.Codec.slice` — pointers and slices.

Main results:

* `Go.Json.parse_text` — **the text of an object is read as the object**;
* `Go.Json.Written.all_isAscii_text` — it consists of ASCII characters;
* `Go.Json.struct_written` — an object of all the fields sets all the fields.
-/

import Dreamboat.JsonText
import Dreamboat.WireText

set_option autoImplicit false

namespace Go

namespace Json

open KeyText (decimal)

/-! ### Texts -/

mutual

/-- The text of a JSON value, without spaces. -/
def text : Json → List Char
  | null => "null".toList
  | bool true => "true".toList
  | bool false => "false".toList
  | num t => t.toList
  | str s => quoted s
  | arr elems => '[' :: elemsText elems
  | obj members => '{' :: pairsText members

/-- The elements of an array and its end. -/
def elemsText : List Json → List Char
  | [] => [']']
  | v :: vs => text v ++ moreElemsText vs

/-- The elements behind the first one. -/
def moreElemsText : List Json → List Char
  | [] => [']']
  | v :: vs => ',' :: (text v ++ moreElemsText vs)

/-- The members of an object and its end. -/
def pairsText : List (String × Json) → List Char
  | [] => ['}']
  | (key, v) :: ms => quoted key ++ ':' :: (text v ++ morePairsText ms)

/-- The members behind the first one. -/
def morePairsText : List (String × Json) → List Char
  | [] => ['}']
  | (key, v) :: ms => ',' :: (quoted key ++ ':' :: (text v ++ morePairsText ms))

end

/-- A character that is written as it is: ASCII, and none that HTML has a meaning for. -/
def clean (c : Char) : Bool := plain c && Utf8.isAscii c && c ≠ '<' && c ≠ '>' && c ≠ '&'

theorem all_plain_of_all_clean {l : List Char} (h : l.all clean = true) : l.all plain = true := by
  refine List.all_eq_true.2 fun c hc => ?_
  have hclean := List.all_eq_true.1 h c hc
  simp only [clean, Bool.and_eq_true] at hclean
  exact hclean.1.1.1.1

theorem all_isAscii_of_all_clean {l : List Char} (h : l.all clean = true) :
    l.all Utf8.isAscii = true := by
  refine List.all_eq_true.2 fun c hc => ?_
  have hclean := List.all_eq_true.1 h c hc
  simp only [clean, Bool.and_eq_true] at hclean
  exact hclean.1.1.1.2

/-- Strings need no escapes, numbers are decimal numbers, and arrays and objects are nested at most
as deep as the number says. -/
inductive Written : ℕ → Json → Prop where
  | null (d : ℕ) : Written d null
  | bool (d : ℕ) (b : Bool) : Written d (bool b)
  | num (d n : ℕ) : Written d (num (String.ofList (decimal n)))
  | str (d : ℕ) (s : String) (h : s.toList.all clean = true) : Written d (str s)
  | arr (d : ℕ) (elems : List Json) (h : ∀ v ∈ elems, Written d v) : Written (d + 1) (arr elems)
  | obj (d : ℕ) (members : List (String × Json))
      (hkey : ∀ m ∈ members, m.1.toList.all clean = true)
      (h : ∀ m ∈ members, Written d m.2) : Written (d + 1) (obj members)

theorem Written.mono {d e : ℕ} {v : Json} (h : Written d v) (hle : d ≤ e) : Written e v := by
  induction h generalizing e with
  | null => exact .null e
  | bool d b => exact .bool e b
  | num d n => exact .num e n
  | str d s hs => exact .str e s hs
  | arr d elems _ ih =>
      obtain ⟨e, rfl⟩ : ∃ e', e = e' + 1 := ⟨e - 1, by omega⟩
      exact .arr e elems fun v hv => ih v hv (by omega)
  | obj d members hkey _ ih =>
      obtain ⟨e, rfl⟩ : ∃ e', e = e' + 1 := ⟨e - 1, by omega⟩
      exact .obj e members hkey fun m hm => ih m hm (by omega)

/-! ### Reading texts -/

/-- A text is read as a value inside of what is open, if there is room for so many levels. -/
def ReadsAt (d : ℕ) (text : List Char) (v : Json) : Prop :=
  ∀ frame stack c rest, stack.length + 1 + d ≤ Scanner.maxNestingDepth → isDelimiter c = true →
    scan ⟨frame :: stack, .beginValue⟩ (text ++ c :: rest) =
      scan ⟨frame :: stack, .endValue v⟩ (c :: rest)

theorem Reads.readsAt {text : List Char} {v : Json} (h : Reads text v) (d : ℕ) :
    ReadsAt d text v := fun frame stack c rest _ hc => h frame stack c rest hc

/-- What the scanner does when the last thing that is open is closed, or another one. -/
def closing (stack : List Frame) (v : Json) (rest : List Char) : Scan :=
  match stack with
  | [] => .value v rest
  | frame :: stack => scan ⟨frame :: stack, .endValue v⟩ rest

theorem scan_of_close {s : Scanner} {c : Char} {stack : List Frame} {v : Json}
    (h : s.step c = Scanner.close stack v) (rest : List Char) :
    scan s (c :: rest) = closing stack v rest := by
  rw [scan, h]
  cases stack <;> rfl

theorem step_endValue_comma (elems : List Json) (stack : List Frame) (v : Json) :
    (⟨.arr elems :: stack, .endValue v⟩ : Scanner).step ',' =
      .next ⟨.arr (v :: elems) :: stack, .beginValue⟩ := rfl

theorem step_endValue_bracket (elems : List Json) (stack : List Frame) (v : Json) :
    (⟨.arr elems :: stack, .endValue v⟩ : Scanner).step ']' =
      Scanner.close stack (.arr (elems.reverse ++ [v])) := by
  rw [← List.reverse_cons]
  rfl

theorem step_endValue_brace (members : List (String × Json)) (key : String) (stack : List Frame)
    (v : Json) :
    (⟨.value members key :: stack, .endValue v⟩ : Scanner).step '}' =
      Scanner.close stack (.obj (members.reverse ++ [(key, v)])) := by
  rw [← List.reverse_cons]
  rfl

/-- What comes behind an element begins with a delimiter. -/
theorem exists_moreElemsText_eq (vs : List Json) :
    ∃ c cs, moreElemsText vs = c :: cs ∧ isDelimiter c = true := by
  cases vs with
  | nil => exact ⟨_, _, rfl, rfl⟩
  | cons v vs => exact ⟨_, _, rfl, rfl⟩

theorem exists_morePairsText_eq (ms : List (String × Json)) :
    ∃ c cs, morePairsText ms = c :: cs ∧ isDelimiter c = true := by
  cases ms with
  | nil => exact ⟨_, _, rfl, rfl⟩
  | cons m ms => exact ⟨_, _, rfl, rfl⟩

/-- The elements behind the first one, which has ended. -/
theorem scan_moreElemsText {d : ℕ} {vs : List Json} (h : ∀ v ∈ vs, ReadsAt d (text v) v)
    (before : List Json) (first : Json) {stack : List Frame}
    (hroom : stack.length + 1 + d ≤ Scanner.maxNestingDepth) (rest : List Char) :
    scan ⟨.arr before :: stack, .endValue first⟩ (moreElemsText vs ++ rest) =
      closing stack (.arr (before.reverse ++ first :: vs)) rest := by
  induction vs generalizing before first with
  | nil => exact scan_of_close (step_endValue_bracket before stack first) rest
  | cons v vs ih =>
      obtain ⟨c, cs, hmore, hc⟩ := exists_moreElemsText_eq vs
      rw [moreElemsText, List.cons_append, scan_cons_of_next (step_endValue_comma _ _ _),
        List.append_assoc, hmore, List.cons_append, h v List.mem_cons_self _ _ _ _ hroom hc,
        ← List.cons_append, ← hmore, ih (fun w hw => h w (List.mem_cons_of_mem _ hw)),
        List.reverse_cons, List.append_assoc, List.singleton_append]

/-- The members behind the first one, whose value has ended. -/
theorem scan_morePairsText {d : ℕ} {ms : List (String × Json)}
    (hkey : ∀ m ∈ ms, m.1.toList.all plain = true) (h : ∀ m ∈ ms, ReadsAt d (text m.2) m.2)
    (before : List (String × Json)) (key : String) (first : Json) {stack : List Frame}
    (hroom : stack.length + 1 + d ≤ Scanner.maxNestingDepth) (rest : List Char) :
    scan ⟨.value before key :: stack, .endValue first⟩ (morePairsText ms ++ rest) =
      closing stack (.obj (before.reverse ++ (key, first) :: ms)) rest := by
  induction ms generalizing before key first with
  | nil => exact scan_of_close (step_endValue_brace before key stack first) rest
  | cons m ms ih =>
      obtain ⟨c, cs, hmore, hc⟩ := exists_morePairsText_eq ms
      obtain ⟨k, v⟩ := m
      rw [morePairsText, List.cons_append, scan_cons_of_next rfl, List.append_assoc,
        scan_quoted (hkey (k, v) List.mem_cons_self) rfl, List.cons_append,
        scan_cons_of_next rfl, List.append_assoc, hmore, List.cons_append,
        h (k, v) List.mem_cons_self _ _ _ _ hroom hc, ← List.cons_append, ← hmore,
        ih (fun w hw => hkey w (List.mem_cons_of_mem _ hw))
          (fun w hw => h w (List.mem_cons_of_mem _ hw)),
        List.reverse_cons, List.append_assoc, List.singleton_append]

/-- A character at which a value may begin, but an empty array does not end. -/
def isBeginning (c : Char) : Bool := !isSpace c && c ≠ ']'

theorem scan_beginValueOrEmpty {c : Char} (h : isBeginning c = true) (stack : List Frame)
    (rest : List Char) :
    scan ⟨stack, .beginValueOrEmpty⟩ (c :: rest) = scan ⟨stack, .beginValue⟩ (c :: rest) := by
  simp only [isBeginning, Bool.and_eq_true, Bool.not_eq_true', decide_eq_true_eq] at h
  have hstep : (⟨stack, .beginValueOrEmpty⟩ : Scanner).step c =
      (⟨stack, .beginValue⟩ : Scanner).step c := by
    simp only [Scanner.step, Scanner.stateBeginValueOrEmpty, h.1, Bool.false_eq_true, if_false,
      if_neg h.2]
  rw [scan, scan, hstep]

theorem Written.exists_text_eq {d : ℕ} {v : Json} (h : Written d v) :
    ∃ c cs, text v = c :: cs ∧ isBeginning c = true := by
  cases h with
  | null => exact ⟨_, _, rfl, by decide⟩
  | bool _ b => cases b <;> exact ⟨_, _, rfl, by decide⟩
  | num _ n =>
      obtain ⟨c, cs, hcs⟩ := List.exists_cons_of_ne_nil (Nat.toDigits_ne_nil (n := n) (b := 10))
      have hc : c.isDigit = true :=
        KeyText.isDigit_of_mem_decimal (n := n) (by rw [decimal, hcs]; exact List.mem_cons_self)
      refine ⟨c, cs, ?_, ?_⟩
      · rw [text, String.toList_ofList, decimal, hcs]
      · rw [isBeginning, isSpace]
        have hne : ∀ c' : Char, c'.isDigit = false → c ≠ c' := by
          rintro c' hc' rfl
          exact absurd hc (by rw [hc']; decide)
        simp [hne ' ' (by decide), hne '\t' (by decide), hne '\r' (by decide),
          hne '\n' (by decide), hne ']' (by decide)]
  | str s => exact ⟨_, _, rfl, by decide⟩
  | arr elems => exact ⟨_, _, rfl, by decide⟩
  | obj members => exact ⟨_, _, rfl, by decide⟩

/-- An array behind its bracket. -/
theorem scan_elemsText {d : ℕ} {vs : List Json} (hwritten : ∀ v ∈ vs, Written d v)
    (h : ∀ v ∈ vs, ReadsAt d (text v) v) {stack : List Frame}
    (hroom : stack.length + 1 + d ≤ Scanner.maxNestingDepth) (rest : List Char) :
    scan ⟨.arr [] :: stack, .beginValueOrEmpty⟩ (elemsText vs ++ rest) =
      closing stack (.arr vs) rest := by
  cases vs with
  | nil => exact scan_of_close rfl rest
  | cons v vs =>
      obtain ⟨c, cs, htext, hc⟩ := (hwritten v List.mem_cons_self).exists_text_eq
      obtain ⟨c', cs', hmore, hc'⟩ := exists_moreElemsText_eq vs
      rw [elemsText, List.append_assoc, htext, List.cons_append, scan_beginValueOrEmpty hc,
        ← List.cons_append, ← htext, hmore, List.cons_append,
        h v List.mem_cons_self _ _ _ _ hroom hc', ← List.cons_append, ← hmore,
        scan_moreElemsText (fun w hw => h w (List.mem_cons_of_mem _ hw)) _ _ hroom]
      rfl

/-- An object behind its brace. -/
theorem scan_pairsText {d : ℕ} {ms : List (String × Json)}
    (hkey : ∀ m ∈ ms, m.1.toList.all plain = true) (h : ∀ m ∈ ms, ReadsAt d (text m.2) m.2)
    {stack : List Frame} (hroom : stack.length + 1 + d ≤ Scanner.maxNestingDepth)
    (rest : List Char) :
    scan ⟨.key [] :: stack, .beginStringOrEmpty⟩ (pairsText ms ++ rest) =
      closing stack (.obj ms) rest := by
  cases ms with
  | nil => exact scan_of_close rfl rest
  | cons m ms =>
      obtain ⟨k, v⟩ := m
      obtain ⟨c, cs, hmore, hc⟩ := exists_morePairsText_eq ms
      rw [pairsText, List.append_assoc, scan_quoted (hkey (k, v) List.mem_cons_self) rfl,
        List.cons_append, scan_cons_of_next rfl, List.append_assoc, hmore, List.cons_append,
        h (k, v) List.mem_cons_self _ _ _ _ hroom hc, ← List.cons_append, ← hmore,
        scan_morePairsText (fun w hw => hkey w (List.mem_cons_of_mem _ hw))
          (fun w hw => h w (List.mem_cons_of_mem _ hw)) _ _ _ hroom]
      rfl

/-- What is written is read, inside of an object or array. -/
theorem readsAt_text {d : ℕ} {v : Json} (h : Written d v) : ReadsAt d (text v) v := by
  induction h with
  | null d => exact reads_null.readsAt d
  | bool d b =>
      intro frame stack c rest _ _
      cases b <;> rfl
  | num d n =>
      rw [text, String.toList_ofList]
      exact (reads_decimal n).readsAt d
  | str d s hs => exact (reads_quoted (all_plain_of_all_clean hs)).readsAt d
  | arr d elems hwritten ih =>
      intro frame stack c rest hroom hc
      have hopen : (⟨frame :: stack, .beginValue⟩ : Scanner).step '[' =
          .next ⟨.arr [] :: frame :: stack, .beginValueOrEmpty⟩ :=
        if_pos (by simp only [List.length_cons]; omega)
      rw [text, List.cons_append, scan_cons_of_next hopen,
        scan_elemsText hwritten ih (by simp only [List.length_cons]; omega)]
      rfl
  | obj d members hkey _ ih =>
      intro frame stack c rest hroom hc
      have hopen : (⟨frame :: stack, .beginValue⟩ : Scanner).step '{' =
          .next ⟨.key [] :: frame :: stack, .beginStringOrEmpty⟩ :=
        if_pos (by simp only [List.length_cons]; omega)
      rw [text, List.cons_append, scan_cons_of_next hopen,
        scan_pairsText (fun m hm => all_plain_of_all_clean (hkey m hm)) ih
          (by simp only [List.length_cons]; omega)]
      rfl

/-- **The text of an object is read as the object.** -/
theorem parse_text {d : ℕ} {members : List (String × Json)} (h : Written d (obj members))
    (hd : d ≤ Scanner.maxNestingDepth) : parse (text (obj members)) = some (obj members) := by
  cases h with
  | obj d _ hkey hwritten =>
      have hopen : Scanner.start.step '{' = .next ⟨[.key []], .beginStringOrEmpty⟩ := rfl
      have hroom : ([] : List Frame).length + 1 + d ≤ Scanner.maxNestingDepth := by
        simp only [List.length_nil]
        omega
      have hscan : scan .start (text (obj members)) = .value (obj members) [] := by
        rw [text, scan_cons_of_next hopen, ← List.append_nil (pairsText members),
          scan_pairsText (fun m hm => all_plain_of_all_clean (hkey m hm))
            (fun m hm => readsAt_text (hwritten m hm)) hroom]
        rfl
      exact parse_of_value hscan rfl

/-! ### Characters -/

theorem all_isAscii_quoted {s : String} (h : s.toList.all clean = true) :
    (quoted s).all Utf8.isAscii = true := by
  have hascii := all_isAscii_of_all_clean h
  rw [quoted, List.cons_append, List.all_cons, List.all_append, hascii]
  rfl

theorem all_isAscii_moreElemsText {vs : List Json}
    (h : ∀ v ∈ vs, (text v).all Utf8.isAscii = true) :
    (moreElemsText vs).all Utf8.isAscii = true := by
  induction vs with
  | nil => rfl
  | cons v vs ih =>
      rw [moreElemsText, List.all_cons, List.all_append, h v List.mem_cons_self,
        ih fun w hw => h w (List.mem_cons_of_mem _ hw)]
      rfl

theorem all_isAscii_morePairsText {ms : List (String × Json)}
    (hkey : ∀ m ∈ ms, m.1.toList.all clean = true)
    (h : ∀ m ∈ ms, (text m.2).all Utf8.isAscii = true) :
    (morePairsText ms).all Utf8.isAscii = true := by
  induction ms with
  | nil => rfl
  | cons m ms ih =>
      obtain ⟨key, v⟩ := m
      rw [morePairsText, List.all_cons, List.all_append, List.all_cons, List.all_append,
        all_isAscii_quoted (hkey (key, v) List.mem_cons_self), h (key, v) List.mem_cons_self,
        ih (fun w hw => hkey w (List.mem_cons_of_mem _ hw))
          fun w hw => h w (List.mem_cons_of_mem _ hw)]
      rfl

/-- What is written consists of ASCII characters. -/
theorem Written.all_isAscii_text {d : ℕ} {v : Json} (h : Written d v) :
    (text v).all Utf8.isAscii = true := by
  induction h with
  | null d => rfl
  | bool d b => cases b <;> rfl
  | num d n =>
      rw [text, String.toList_ofList]
      refine List.all_eq_true.2 fun c hc => ?_
      have hdigit := KeyText.isDigit_of_mem_decimal hc
      simp only [Char.isDigit, Bool.and_eq_true, decide_eq_true_eq] at hdigit
      exact decide_eq_true (Nat.lt_of_le_of_lt (UInt32.le_iff_toNat_le.1 hdigit.2) (by decide))
  | str d s hs => exact all_isAscii_quoted hs
  | arr d elems _ ih =>
      cases elems with
      | nil => rfl
      | cons v vs =>
          rw [text, elemsText, List.all_cons, List.all_append, ih v List.mem_cons_self,
            all_isAscii_moreElemsText fun w hw => ih w (List.mem_cons_of_mem _ hw)]
          rfl
  | obj d members hkey _ ih =>
      cases members with
      | nil => rfl
      | cons m ms =>
          obtain ⟨key, v⟩ := m
          rw [text, pairsText, List.all_cons, List.all_append, List.all_cons, List.all_append,
            all_isAscii_quoted (hkey (key, v) List.mem_cons_self), ih (key, v) List.mem_cons_self,
            all_isAscii_morePairsText (fun w hw => hkey w (List.mem_cons_of_mem _ hw))
              fun w hw => ih w (List.mem_cons_of_mem _ hw)]
          rfl

/-! ### Codecs -/

variable {ε α σ τ : Type}

/-- A writer with a reader that undoes it, whatever the value was before. -/
structure Codec (ε α : Type) where
  write : α → Json
  read : Into ε α
  /-- The values that can be read back. -/
  Fit : α → Prop
  depth : ℕ
  written : ∀ a, Fit a → Written depth (write a)
  read_write : ∀ a old, Fit a → read (write a) old = .ok a

/-- A field of a struct, as it is written and read. -/
structure Member (ε σ : Type) where
  name : String
  write : σ → Json
  read : Into ε σ
  /-- The field of one value in the place of that of another. -/
  copy : σ → σ → σ
  Fit : σ → Prop
  depth : ℕ
  written : ∀ s, Fit s → Written depth (write s)
  read_write : ∀ s old, Fit s → read (write s) old = .ok (copy s old)

namespace Member

def toField (m : Member ε σ) : Field ε σ := ⟨m.name, m.read⟩

/-- A field that has a codec. -/
def of (name : String) (get : σ → α) (put : σ → α → σ) (c : Codec ε α) : Member ε σ where
  name := name
  write s := c.write (get s)
  read := (Field.of name get put c.read).into
  copy s old := put old (get s)
  Fit s := c.Fit (get s)
  depth := c.depth
  written s h := c.written (get s) h
  read_write s old h := by
    simp only [Field.of, c.read_write _ _ h]
    rfl

/-- A field of an embedded struct. -/
def embedded (get : σ → τ) (put : σ → τ → σ) (m : Member ε τ) : Member ε σ where
  name := m.name
  write s := m.write (get s)
  read j s := (m.read j (get s)).map (put s)
  copy s old := put old (m.copy (get s) (get old))
  Fit s := m.Fit (get s)
  depth := m.depth
  written s h := m.written (get s) h
  read_write s old h := by
    rw [m.read_write _ _ h]
    rfl

@[simp] theorem name_of (name : String) (get : σ → α) (put : σ → α → σ) (c : Codec ε α) :
    (of name get put c).name = name := rfl

@[simp] theorem name_embedded (get : σ → τ) (put : σ → τ → σ) (m : Member ε τ) :
    (embedded get put m).name = m.name := rfl

end Member

/-! ### Structs -/

theorem ownerOf_of_mem {names : List String} {name : String} (h : name ∈ names) :
    ownerOf names name = some name := by
  have hsome : (names.find? (· = name)).isSome = true :=
    List.find?_isSome.2 ⟨name, h, decide_eq_true rfl⟩
  obtain ⟨found, hfound⟩ := Option.isSome_iff_exists.1 hsome
  have hdecide := List.find?_some hfound
  have heq : found = name := of_decide_eq_true hdecide
  rw [ownerOf, hfound, heq]
  rfl

theorem find?_toField {fields : List (Member ε σ)} (hnodup : (fields.map Member.name).Nodup)
    {m : Member ε σ} (hm : m ∈ fields) :
    (fields.map Member.toField).find? (·.name = m.name) = some m.toField := by
  induction fields with
  | nil => cases hm
  | cons f fields ih =>
      rw [List.map_cons, List.nodup_cons] at hnodup
      rcases List.mem_cons.1 hm with rfl | hm
      · exact List.find?_cons_of_pos (decide_eq_true rfl)
      · have hne : f.name ≠ m.name := fun heq => hnodup.1 (heq ▸ List.mem_map_of_mem hm)
        rw [List.map_cons, List.find?_cons_of_neg (by simp [Member.toField, hne])]
        exact ih hnodup.2 hm

theorem member_written {fields : List (Member ε σ)} (hnodup : (fields.map Member.name).Nodup)
    {m : Member ε σ} (hm : m ∈ fields) {s : σ} (hfit : m.Fit s) (old : σ) :
    member (fields.map Member.toField) old (m.name, m.write s) = .ok (m.copy s old) := by
  have hname : m.name ∈ (fields.map Member.toField).map Field.name :=
    List.mem_map_of_mem (List.mem_map_of_mem hm)
  simp only [member, ownerOf_of_mem hname, find?_toField hnodup hm]
  exact m.read_write s old hfit

/-- **The members of an object set the fields of their names**, one after another. -/
theorem struct_written (mismatch : ε) {fields : List (Member ε σ)}
    (hnodup : (fields.map Member.name).Nodup) {s : σ} (hfit : ∀ m ∈ fields, m.Fit s) (old : σ) :
    struct mismatch (fields.map Member.toField)
        (obj (fields.map fun m => (m.name, m.write s))) old =
      .ok (fields.foldl (fun old m => m.copy s old) old) := by
  suffices hfold : ∀ (ms : List (Member ε σ)) (old : σ), (∀ m ∈ ms, m ∈ fields) →
      (ms.map fun m => (m.name, m.write s)).foldlM (member (fields.map Member.toField)) old =
        .ok (ms.foldl (fun old m => m.copy s old) old) from hfold fields old fun _ hm => hm
  intro ms
  induction ms with
  | nil => exact fun _ _ => rfl
  | cons m ms ih =>
      intro old hsub
      have hm := hsub m List.mem_cons_self
      rw [List.map_cons, List.foldlM_cons, member_written hnodup hm (hfit m hm)]
      exact ih _ fun m' hm' => hsub m' (List.mem_cons_of_mem _ hm')

/-- Members that belong to no field have no effect. -/
theorem struct_of_foreign (mismatch : ε) {fields : List (Field ε σ)}
    {members : List (String × Json)}
    (h : ∀ m ∈ members, ownerOf (fields.map Field.name) m.1 = none) (s : σ) :
    Json.struct mismatch fields (obj members) s = .ok s := by
  rw [Json.struct]
  induction members with
  | nil => rfl
  | cons m members ih =>
      have hmember : member fields s m = .ok s := by
        rw [member, h m List.mem_cons_self]
      rw [List.foldlM_cons, hmember]
      exact ih fun m' hm' => h m' (List.mem_cons_of_mem _ hm')

namespace Codec

theorem le_foldr_max {l : List ℕ} {n : ℕ} (h : n ∈ l) : n ≤ l.foldr max 0 := by
  induction l with
  | nil => cases h
  | cons a l ih =>
      rw [List.foldr_cons]
      rcases List.mem_cons.1 h with rfl | h
      · exact Nat.le_max_left _ _
      · exact (ih h).trans (Nat.le_max_right _ _)

/-- Different names that need no escapes. -/
def Names (names : List String) : Prop :=
  names.Nodup ∧ ∀ name ∈ names, name.toList.all clean = true

instance (names : List String) : Decidable (Names names) :=
  inferInstanceAs (Decidable (names.Nodup ∧ ∀ name ∈ names, name.toList.all clean = true))

/-- A struct, by its fields.  They have different names, and together they are all of it. -/
def struct (mismatch : ε) (fields : List (Member ε σ))
    (hnames : Names (fields.map Member.name) := by simp only [List.map, Member.name_of]; decide)
    (hall : ∀ s old, fields.foldl (fun old m => m.copy s old) old = s := by
      intro s old; cases s; cases old; rfl) : Codec ε σ where
  write s := obj (fields.map fun m => (m.name, m.write s))
  read := Json.struct mismatch (fields.map Member.toField)
  Fit s := ∀ m ∈ fields, m.Fit s
  depth := (fields.map Member.depth).foldr max 0 + 1
  written s h := by
    refine .obj _ _ (fun member hmember => ?_) fun member hmember => ?_
    · obtain ⟨m, hm, rfl⟩ := List.mem_map.1 hmember
      exact hnames.2 _ (List.mem_map_of_mem hm)
    · obtain ⟨m, hm, rfl⟩ := List.mem_map.1 hmember
      exact (m.written s (h m hm)).mono (le_foldr_max (List.mem_map_of_mem hm))
  read_write s old h := by rw [struct_written mismatch hnames.1 h, hall]

/-! ### Pointers and slices -/

theorem pointer_of_isNull_eq_false {zero : α} {into : Into ε α} {j : Json} (h : j.isNull = false)
    (p : Option α) : Json.pointer zero into j p = (into j (p.getD zero)).map some := by
  cases j with
  | null => cases h
  | _ => rfl

/-- A pointer that may be `nil`. -/
def pointer (zero : α) (c : Codec ε α) (hnull : ∀ a, (c.write a).isNull = false) :
    Codec ε (Option α) where
  write
    | none => null
    | some a => c.write a
  read := Json.pointer zero c.read
  Fit p := ∀ a, p = some a → c.Fit a
  depth := c.depth
  written p h := by
    cases p with
    | none => exact .null _
    | some a => exact c.written a (h a rfl)
  read_write p old h := by
    cases p with
    | none => rfl
    | some a =>
        rw [pointer_of_isNull_eq_false (hnull a), c.read_write a _ (h a rfl)]
        rfl

/-- The elements of an array, each read into the one that was at its place. -/
def readElems (zero : α) (into : Into ε α) : List Json → List α → Except ε (List α)
  | [], _ => .ok []
  | v :: vs, old => do
      let a ← into v (old.headD zero)
      let as ← readElems zero into vs old.tail
      return a :: as

theorem readElems_map_write (zero : α) (c : Codec ε α) {as : List α} (h : ∀ a ∈ as, c.Fit a)
    (old : List α) : readElems zero c.read (as.map c.write) old = .ok as := by
  induction as generalizing old with
  | nil => rfl
  | cons a as ih =>
      rw [List.map_cons, readElems, c.read_write a _ (h a List.mem_cons_self),
        ih fun a' ha' => h a' (List.mem_cons_of_mem _ ha')]
      rfl

theorem written_arr (c : Codec ε α) {as : List α} (h : ∀ a ∈ as, c.Fit a) :
    Written (c.depth + 1) (arr (as.map c.write)) := by
  refine .arr _ _ fun v hv => ?_
  obtain ⟨a, ha, rfl⟩ := List.mem_map.1 hv
  exact c.written a (h a ha)

/-- A slice of which nothing depends on whether it is `nil`. -/
def list (mismatch : ε) (zero : α) (c : Codec ε α) : Codec ε (List α) where
  write as := arr (as.map c.write)
  read
    | null, _ => .ok []
    | arr elems, old => readElems zero c.read elems old
    | _, _ => .error mismatch
  Fit as := ∀ a ∈ as, c.Fit a
  depth := c.depth + 1
  written _ h := c.written_arr h
  read_write _ old h := readElems_map_write zero c h old

/-- A slice that may be `nil`. -/
def slice (mismatch : ε) (zero : α) (c : Codec ε α) : Codec ε (Option (List α)) where
  write
    | none => null
    | some as => arr (as.map c.write)
  read
    | null, _ => .ok none
    | arr elems, old => (readElems zero c.read elems (old.getD [])).map some
    | _, _ => .error mismatch
  Fit l := ∀ as, l = some as → ∀ a ∈ as, c.Fit a
  depth := c.depth + 1
  written l h := by
    cases l with
    | none => exact .null _
    | some as => exact c.written_arr (h as rfl)
  read_write l old h := by
    cases l with
    | none => rfl
    | some as =>
        simp only [readElems_map_write zero c (h as rfl)]
        rfl

end Codec

end Json

end Go
