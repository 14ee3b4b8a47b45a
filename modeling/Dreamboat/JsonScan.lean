/-
**Reading JSON texts.**

The scanner of `encoding/json` takes a text character by character.  Its state is what to expect
next and the objects and arrays that are open; here an open object or array carries what has been
read of it, so that the value comes out at the end.  An object or array that stands alone is
complete with its last character.  A number, a string or a literal is complete with the character
behind it, which is not part of it, or with the end of the text.

A decoder reads its input piece by piece into a buffer and scans the buffer.  What it has read
behind a value stays in the buffer for the next call, and an error of the scanner or of the reader
is returned by all later calls.

A text is a list of characters: bytes that are no UTF-8 stand as replacement characters, which is
what the scanner makes of them inside a string, and outside it accepts neither.

Main definitions:

* `Go.Json.Scanner`, `Go.Json.Scanner.step`, `Go.Json.scan` — the scanner;
* `Go.Json.fetch` — a value from a buffer and from what is still to be read;
* `Go.Json.Decoder`, `Go.Json.Decoder.decode` — the decoder;
* `Go.Json.parse` — the value of a text that is one value and nothing else;
* `Go.Json.objectText` — an object of strings, as it is written.

Main results:

* `Go.Json.scan_append` — the scanner goes on where it was;
* `Go.Json.value?_fetch` — how a text is cut into pieces does not matter for the value;
* `Go.Json.decode_of_clean` — a decoder with only white space in its buffer is like a new one;
* `Go.Json.scan_objectText` — what is written is read.
-/

import Dreamboat.GoJson

set_option autoImplicit false

namespace Go

namespace Json

/-! ### Strings -/

def isSpace (c : Char) : Bool := c = ' ' || c = '\t' || c = '\r' || c = '\n'

def isHexDigit (c : Char) : Bool := c.isDigit || ('a' ≤ c && c ≤ 'f') || ('A' ≤ c && c ≤ 'F')

def hexValue (c : Char) : ℕ :=
  if c.isDigit then c.toNat - '0'.toNat
  else if 'a' ≤ c then c.toNat - 'a'.toNat + 10
  else c.toNat - 'A'.toNat + 10

/-- A part of a string: a character, or a code unit that is written in hexadecimal digits. -/
inductive Part where
  | char (c : Char)
  | unit (u : ℕ)

def unescape (c : Char) : Char :=
  if c = 'b' then '\x08' else if c = 'f' then '\x0c' else if c = 'n' then '\n'
  else if c = 'r' then '\r' else if c = 't' then '\t' else c

def parts : List Char → List Part
  | '\\' :: 'u' :: a :: b :: c :: d :: rest =>
      .unit (((hexValue a * 16 + hexValue b) * 16 + hexValue c) * 16 + hexValue d) :: parts rest
  | '\\' :: c :: rest => .char (unescape c) :: parts rest
  | c :: rest => .char c :: parts rest
  | [] => []

/-- The character of a code unit that stands alone; half of a pair is replaced. -/
def unitChar (u : ℕ) : Char :=
  if 0xd800 ≤ u ∧ u < 0xe000 then '�' else Char.ofNat u

def joinParts : List Part → List Char
  | .unit u :: .unit l :: rest =>
      if 0xd800 ≤ u ∧ u < 0xdc00 ∧ 0xdc00 ≤ l ∧ l < 0xe000 then
        Char.ofNat ((u - 0xd800) * 1024 + (l - 0xdc00) + 0x10000) :: joinParts rest
      else unitChar u :: joinParts (.unit l :: rest)
  | .unit u :: rest => unitChar u :: joinParts rest
  | .char c :: rest => c :: joinParts rest
  | [] => []

/-- The string for the characters between the quotation marks. -/
def unquote (raw : List Char) : String := String.ofList (joinParts (parts raw))

/-! ### The scanner -/

/-- An open array or object, with what has been read of it in reverse order. -/
inductive Frame where
  | arr (elems : List Json)
  | key (members : List (String × Json))
  | value (members : List (String × Json)) (key : String)

/-- How far a number is. -/
inductive NumberState where
  | neg | zero | digits | dot | frac | exp | expSign | expDigits
  deriving DecidableEq

/-- How far a literal is. -/
inductive LiteralState where
  | t | tr | tru | f | fa | fal | fals | n | nu | nul
  deriving DecidableEq

/-- What the scanner expects. -/
inductive Mode where
  | beginValue
  | beginValueOrEmpty
  | beginString
  | beginStringOrEmpty
  | endValue (v : Json)
  | inString (raw : List Char)
  | inStringEsc (raw : List Char)
  /-- Some more hexadecimal digits behind the next one. -/
  | inStringEscU (more : ℕ) (raw : List Char)
  | number (state : NumberState) (raw : List Char)
  | literal (state : LiteralState)

/-- A number goes on with the character, or it has ended before it, or it is none. -/
def NumberState.next (state : NumberState) (c : Char) : Option (Option NumberState) :=
  match state with
  | .neg => if c = '0' then some (some .zero) else if c.isDigit then some (some .digits) else none
  | .zero => some (if c = '.' then some .dot else if c = 'e' ∨ c = 'E' then some .exp else none)
  | .digits =>
      some (if c.isDigit then some .digits else if c = '.' then some .dot
        else if c = 'e' ∨ c = 'E' then some .exp else none)
  | .dot => if c.isDigit then some (some .frac) else none
  | .frac =>
      some (if c.isDigit then some .frac else if c = 'e' ∨ c = 'E' then some .exp else none)
  | .exp =>
      if c = '+' ∨ c = '-' then some (some .expSign)
      else if c.isDigit then some (some .expDigits) else none
  | .expSign => if c.isDigit then some (some .expDigits) else none
  | .expDigits => some (if c.isDigit then some .expDigits else none)

/-- The character that is expected in a literal, and what comes behind it. -/
def LiteralState.expect : LiteralState → Char × Mode
  | .t => ('r', .literal .tr)
  | .tr => ('u', .literal .tru)
  | .tru => ('e', .endValue (.bool true))
  | .f => ('a', .literal .fa)
  | .fa => ('l', .literal .fal)
  | .fal => ('s', .literal .fals)
  | .fals => ('e', .endValue (.bool false))
  | .n => ('u', .literal .nu)
  | .nu => ('l', .literal .nul)
  | .nul => ('l', .endValue .null)

structure Scanner where
  stack : List Frame
  mode : Mode

/-- What a character does. -/
inductive Step where
  | error
  | next (s : Scanner)
  /-- The value is complete with the character. -/
  | closed (v : Json)
  /-- The value was complete before the character. -/
  | ended (v : Json)

namespace Scanner

def start : Scanner := ⟨[], .beginValue⟩

def maxNestingDepth : ℕ := 10000

/-- `pushParseState`. -/
def push (frame : Frame) (stack : List Frame) (mode : Mode) : Step :=
  if stack.length < maxNestingDepth then .next ⟨frame :: stack, mode⟩ else .error

/-- `popParseState`. -/
def close (stack : List Frame) (v : Json) : Step :=
  match stack with
  | [] => .closed v
  | frame :: stack => .next ⟨frame :: stack, .endValue v⟩

/-- A character behind a value. -/
def stateEndValue (stack : List Frame) (v : Json) (c : Char) : Step :=
  match stack with
  | [] => .ended v
  | frame :: stack =>
      if isSpace c then .next ⟨frame :: stack, .endValue v⟩
      else
        match frame with
        | .arr elems =>
            if c = ',' then .next ⟨.arr (v :: elems) :: stack, .beginValue⟩
            else if c = ']' then close stack (.arr (v :: elems).reverse)
            else .error
        | .key members =>
            match v with
            | .str key =>
                if c = ':' then .next ⟨.value members key :: stack, .beginValue⟩ else .error
            -- a key is always a string
            | _ => .error
        | .value members key =>
            if c = ',' then .next ⟨.key ((key, v) :: members) :: stack, .beginString⟩
            else if c = '}' then close stack (.obj ((key, v) :: members).reverse)
            else .error

def stateBeginString (stack : List Frame) (c : Char) : Step :=
  if isSpace c then .next ⟨stack, .beginString⟩
  else if c = '"' then .next ⟨stack, .inString []⟩
  else .error

def stateBeginStringOrEmpty (stack : List Frame) (c : Char) : Step :=
  if isSpace c then .next ⟨stack, .beginStringOrEmpty⟩
  else if c = '}' then close stack.tail (.obj [])
  else stateBeginString stack c

/-- How a value goes on that is no array or object. -/
def beginScalar (c : Char) : Option Mode :=
  if c = '"' then some (.inString [])
  else if c = '-' then some (.number .neg ['-'])
  else if c = '0' then some (.number .zero ['0'])
  else if c = 't' then some (.literal .t)
  else if c = 'f' then some (.literal .f)
  else if c = 'n' then some (.literal .n)
  else if c.isDigit then some (.number .digits [c])
  else none

def stateBeginValue (stack : List Frame) (c : Char) : Step :=
  if isSpace c then .next ⟨stack, .beginValue⟩
  else if c = '{' then push (.key []) stack .beginStringOrEmpty
  else if c = '[' then push (.arr []) stack .beginValueOrEmpty
  else
    match beginScalar c with
    | some mode => .next ⟨stack, mode⟩
    | none => .error

def stateBeginValueOrEmpty (stack : List Frame) (c : Char) : Step :=
  if isSpace c then .next ⟨stack, .beginValueOrEmpty⟩
  else if c = ']' then close stack.tail (.arr [])
  else stateBeginValue stack c

def stateInString (stack : List Frame) (raw : List Char) (c : Char) : Step :=
  if c = '"' then .next ⟨stack, .endValue (.str (unquote raw.reverse))⟩
  else if c = '\\' then .next ⟨stack, .inStringEsc (c :: raw)⟩
  else if c < ' ' then .error
  else .next ⟨stack, .inString (c :: raw)⟩

def stateInStringEsc (stack : List Frame) (raw : List Char) (c : Char) : Step :=
  if c ∈ ['b', 'f', 'n', 'r', 't', '\\', '/', '"'] then .next ⟨stack, .inString (c :: raw)⟩
  else if c = 'u' then .next ⟨stack, .inStringEscU 3 (c :: raw)⟩
  else .error

def stateInStringEscU (stack : List Frame) (more : ℕ) (raw : List Char) (c : Char) : Step :=
  if isHexDigit c then
    match more with
    | 0 => .next ⟨stack, .inString (c :: raw)⟩
    | more + 1 => .next ⟨stack, .inStringEscU more (c :: raw)⟩
  else .error

def stateNumber (stack : List Frame) (state : NumberState) (raw : List Char) (c : Char) : Step :=
  match state.next c with
  | some (some state) => .next ⟨stack, .number state (c :: raw)⟩
  | some none => stateEndValue stack (.num (String.ofList raw.reverse)) c
  | none => .error

def stateLiteral (stack : List Frame) (state : LiteralState) (c : Char) : Step :=
  if c = state.expect.1 then .next ⟨stack, state.expect.2⟩
  else .error

def step (s : Scanner) (c : Char) : Step :=
  match s.mode with
  | .beginValue => stateBeginValue s.stack c
  | .beginValueOrEmpty => stateBeginValueOrEmpty s.stack c
  | .beginString => stateBeginString s.stack c
  | .beginStringOrEmpty => stateBeginStringOrEmpty s.stack c
  | .endValue v => stateEndValue s.stack v c
  | .inString raw => stateInString s.stack raw c
  | .inStringEsc raw => stateInStringEsc s.stack raw c
  | .inStringEscU more raw => stateInStringEscU s.stack more raw c
  | .number state raw => stateNumber s.stack state raw c
  | .literal state => stateLiteral s.stack state c

/-- The value that is complete if the text ends here. -/
def atEnd (s : Scanner) : Option Json :=
  match s.step ' ' with
  | .ended v => some v
  | _ => none

end Scanner

/-- What the scanner makes of a text: a value with the rest of the text, an error, or a state in
which it needs more of it. -/
inductive Scan where
  | value (v : Json) (rest : List Char)
  | error
  | more (s : Scanner)

def scan (s : Scanner) : List Char → Scan
  | [] => .more s
  | c :: cs =>
      match s.step c with
      | .error => .error
      | .next s => scan s cs
      | .closed v => .value v cs
      | .ended v => .value v (c :: cs)

/-! ### The decoder -/

inductive DecoderError where
  | syntaxError
  | eof
  | unexpectedEOF
  deriving DecidableEq, Repr

inductive Fetched where
  | value (v : Json) (rest : List Char)
  | error (e : DecoderError)

/-- The error at the end of the input. -/
def endError (s : Scanner) : DecoderError :=
  match s with
  | ⟨[], .beginValue⟩ => .eof
  | _ => .unexpectedEOF

/-- `Decoder.readValue`: the buffer is scanned, and whenever the scanner needs more, the next piece
is read. -/
def fetch (s : Scanner) (buf : List Char) : List (List Char) → Fetched
  | [] =>
      match scan s buf with
      | .value v rest => .value v rest
      | .error => .error .syntaxError
      | .more s =>
          match s.atEnd with
          | some v => .value v []
          | none => .error (endError s)
  | piece :: reads =>
      match scan s buf with
      | .value v rest => .value v rest
      | .error => .error .syntaxError
      | .more s => fetch s piece reads

structure Decoder where
  err : Option DecoderError
  buf : List Char

namespace Decoder

def new : Decoder := ⟨none, []⟩

/-- The next value; `reads` are the pieces in which the reader gives its input. -/
def decode (d : Decoder) (reads : List (List Char)) : Except DecoderError Json × Decoder :=
  match d.err with
  | some e => (.error e, d)
  | none =>
      match fetch .start d.buf reads with
      | .value v rest => (.ok v, { d with buf := rest })
      | .error e => (.error e, { d with err := some e })

end Decoder

/-! ### The scanner goes on where it was -/

theorem scan_append (s : Scanner) (l₁ l₂ : List Char) :
    scan s (l₁ ++ l₂) =
      match scan s l₁ with
      | .value v rest => .value v (rest ++ l₂)
      | .error => .error
      | .more s => scan s l₂ := by
  induction l₁ generalizing s with
  | nil => rfl
  | cons c l₁ ih =>
      rw [List.cons_append, scan, scan]
      cases s.step c with
      | error => rfl
      | next s => exact ih s
      | closed v => rfl
      | ended v => rfl

theorem scan_cons_of_next {s s' : Scanner} {c : Char} (h : s.step c = .next s') (l : List Char) :
    scan s (c :: l) = scan s' l := by
  rw [scan, h]

theorem fetch_of_value {s : Scanner} {buf rest : List Char} {v : Json}
    (h : scan s buf = .value v rest) (reads : List (List Char)) :
    fetch s buf reads = .value v rest := by
  cases reads with
  | nil => rw [fetch, h]
  | cons piece reads => rw [fetch, h]

theorem fetch_of_error {s : Scanner} {buf : List Char} (h : scan s buf = .error)
    (reads : List (List Char)) : fetch s buf reads = .error .syntaxError := by
  cases reads with
  | nil => rw [fetch, h]
  | cons piece reads => rw [fetch, h]

theorem fetch_of_more {s s' : Scanner} {buf : List Char} (h : scan s buf = .more s')
    (piece : List Char) (reads : List (List Char)) :
    fetch s buf (piece :: reads) = fetch s' piece reads := by
  rw [fetch, h]

def Fetched.value? : Fetched → Option Json
  | value v _ => some v
  | error _ => none

/-- **How a text is cut into pieces does not matter for the value.** -/
theorem value?_fetch (s : Scanner) (buf : List Char) (reads : List (List Char)) :
    (fetch s buf reads).value? = (fetch s (buf ++ reads.flatten) []).value? := by
  induction reads generalizing s buf with
  | nil => rw [List.flatten_nil, List.append_nil]
  | cons piece reads ih =>
      rw [fetch, fetch, List.flatten_cons, scan_append]
      cases scan s buf with
      | value v rest => rfl
      | error => rfl
      | more s =>
          simp only [ih s piece]
          rfl

/-! ### White space -/

def blank (l : List Char) : Bool := l.all isSpace

theorem step_start_of_isSpace {c : Char} (h : isSpace c = true) :
    Scanner.start.step c = .next .start := by
  simp only [Scanner.start, Scanner.step, Scanner.stateBeginValue, if_pos h]

theorem scan_start_of_blank {l : List Char} (h : blank l = true) :
    scan .start l = .more .start := by
  induction l with
  | nil => rfl
  | cons c l ih =>
      rw [blank, List.all_cons, Bool.and_eq_true] at h
      rw [scan_cons_of_next (step_start_of_isSpace h.1)]
      exact ih h.2

theorem fetch_start_of_blank {buf : List Char} (h : blank buf = true) (reads : List (List Char)) :
    fetch .start buf reads = fetch .start [] reads := by
  cases reads with
  | nil => rw [fetch, fetch, scan_start_of_blank h, scan]
  | cons piece reads => rw [fetch, fetch, scan_start_of_blank h, scan]

/-- A decoder without an error, and with nothing but white space in its buffer. -/
def Decoder.clean (d : Decoder) : Bool := d.err.isNone && blank d.buf

/-- **A clean decoder is like a new one.** -/
theorem decode_of_clean {d : Decoder} (h : d.clean = true) (reads : List (List Char)) :
    (d.decode reads).1 = (Decoder.new.decode reads).1 ∧
      ((d.decode reads).2.clean = (Decoder.new.decode reads).2.clean) := by
  rw [Decoder.clean, Bool.and_eq_true, Option.isNone_iff_eq_none] at h
  rw [Decoder.decode, Decoder.decode, h.1, fetch_start_of_blank h.2, Decoder.new]
  cases fetch .start [] reads with
  | value v rest => exact ⟨rfl, rfl⟩
  | error e => exact ⟨rfl, rfl⟩

/-! ### In the middle of a value -/

def scalar : Json → Bool
  | arr _ | obj _ => false
  | _ => true

/-- A value that is not an array or an object has begun. -/
def Mode.scalar : Mode → Bool
  | endValue v => v.scalar
  | inString _ | inStringEsc _ | inStringEscU _ _ | number _ _ | literal _ => true
  | _ => false

/-- What a character leads to: a state with a property, or a value with one. -/
def Step.Leads (P : Scanner → Prop) (closed ended : Json → Prop) : Step → Prop
  | error => True
  | next s => P s
  | .closed v => closed v
  | .ended v => ended v

namespace Scanner

variable {s : Scanner} {stack : List Frame} {c : Char}

/-- There is an open array or object. -/
def Inside (s : Scanner) : Prop := s.stack ≠ []

/-- A value that is not an array or an object stands alone. -/
def Alone (s : Scanner) : Prop := s.stack = [] ∧ s.mode.scalar = true

/-- Inside an array or object the next state is inside, and no value ends before the character. -/
abbrev LeadsInside (step : Step) : Prop := step.Leads Inside (fun _ => True) (fun _ => False)

theorem leadsInside_close (stack : List Frame) (v : Json) : LeadsInside (close stack v) := by
  cases stack with
  | nil => trivial
  | cons frame stack => exact List.cons_ne_nil _ _

theorem leadsInside_push (frame : Frame) (stack : List Frame) (mode : Mode) :
    LeadsInside (push frame stack mode) := by
  unfold push
  split
  · exact List.cons_ne_nil _ _
  · trivial

theorem leadsInside_stateEndValue (h : stack ≠ []) (v : Json) (c : Char) :
    LeadsInside (stateEndValue stack v c) := by
  cases stack with
  | nil => exact absurd rfl h
  | cons frame stack =>
      have hnext : ∀ (frame : Frame) (mode : Mode), LeadsInside (.next ⟨frame :: stack, mode⟩) :=
        fun _ _ => List.cons_ne_nil _ _
      unfold stateEndValue
      dsimp only
      split
      · exact hnext _ _
      · cases frame with
        | arr elems =>
            dsimp only
            split_ifs
            · exact hnext _ _
            · exact leadsInside_close _ _
            · trivial
        | key members =>
            cases v with
            | str key =>
                dsimp only
                split_ifs
                · exact hnext _ _
                · trivial
            | _ => trivial
        | value members key =>
            dsimp only
            split_ifs
            · exact hnext _ _
            · exact leadsInside_close _ _
            · trivial

theorem leadsInside_stateBeginString (h : stack ≠ []) (c : Char) :
    LeadsInside (stateBeginString stack c) := by
  unfold stateBeginString
  split_ifs
  · exact h
  · exact h
  · trivial

theorem leadsInside_stateBeginValue (h : stack ≠ []) (c : Char) :
    LeadsInside (stateBeginValue stack c) := by
  unfold stateBeginValue
  split_ifs
  · exact h
  · exact leadsInside_push _ _ _
  · exact leadsInside_push _ _ _
  · cases beginScalar c with
    | some mode => exact h
    | none => trivial

theorem leadsInside_step (h : s.Inside) (c : Char) : LeadsInside (s.step c) := by
  unfold step
  cases s.mode with
  | beginValue => exact leadsInside_stateBeginValue h c
  | beginValueOrEmpty =>
      dsimp only [stateBeginValueOrEmpty]
      split_ifs
      · exact h
      · exact leadsInside_close _ _
      · exact leadsInside_stateBeginValue h c
  | beginString => exact leadsInside_stateBeginString h c
  | beginStringOrEmpty =>
      dsimp only [stateBeginStringOrEmpty]
      split_ifs
      · exact h
      · exact leadsInside_close _ _
      · exact leadsInside_stateBeginString h c
  | endValue v => exact leadsInside_stateEndValue h v c
  | inString raw =>
      dsimp only [stateInString]
      split_ifs
      · exact h
      · exact h
      · trivial
      · exact h
  | inStringEsc raw =>
      dsimp only [stateInStringEsc]
      split_ifs
      · exact h
      · exact h
      · trivial
  | inStringEscU more raw =>
      dsimp only [stateInStringEscU]
      split_ifs
      · cases more with
        | zero => exact h
        | succ more => exact h
      · trivial
  | number state raw =>
      dsimp only [stateNumber]
      split
      · exact h
      · exact leadsInside_stateEndValue h _ c
      · trivial
  | literal state =>
      dsimp only [stateLiteral]
      split_ifs
      · exact h
      · trivial

/-- A value that stands alone and is no array or object stays so. -/
theorem leadsAlone_step (h : s.Alone) (c : Char) :
    (s.step c).Leads Alone (fun _ => False) (fun v => v.scalar = true) := by
  obtain ⟨stack, mode⟩ := s
  obtain ⟨rfl, hmode⟩ := h
  cases mode with
  | beginValue | beginValueOrEmpty | beginString | beginStringOrEmpty => cases hmode
  | endValue v => exact hmode
  | inString raw =>
      dsimp only [step, stateInString]
      split_ifs
      · exact ⟨rfl, rfl⟩
      · exact ⟨rfl, rfl⟩
      · trivial
      · exact ⟨rfl, rfl⟩
  | inStringEsc raw =>
      dsimp only [step, stateInStringEsc]
      split_ifs
      · exact ⟨rfl, rfl⟩
      · exact ⟨rfl, rfl⟩
      · trivial
  | inStringEscU more raw =>
      dsimp only [step, stateInStringEscU]
      split_ifs
      · cases more with
        | zero => exact ⟨rfl, rfl⟩
        | succ more => exact ⟨rfl, rfl⟩
      · trivial
  | number state raw =>
      dsimp only [step, stateNumber]
      split
      · exact ⟨rfl, rfl⟩
      · rfl
      · trivial
  | literal state =>
      have hscalar : state.expect.2.scalar = true := by cases state <;> rfl
      dsimp only [step, stateLiteral]
      split_ifs
      · exact ⟨rfl, hscalar⟩
      · trivial

/-- A value has begun. -/
def Begun (s : Scanner) : Prop := s.Inside ∨ s.Alone

theorem begun_of_step {s' : Scanner} (h : s.Begun) (hstep : s.step c = .next s') : s'.Begun := by
  rcases h with h | h
  · have hleads := leadsInside_step h c
    rw [hstep] at hleads
    exact .inl hleads
  · have hleads := leadsAlone_step h c
    rw [hstep] at hleads
    exact .inr hleads

theorem scalar_of_beginScalar {mode : Mode} (h : beginScalar c = some mode) :
    mode.scalar = true := by
  unfold beginScalar at h
  repeat' split at h
  all_goals cases h
  all_goals rfl

theorem begun_of_step_start {s' : Scanner} (hspace : isSpace c = false)
    (hstep : start.step c = .next s') : s'.Begun := by
  have hleads : (start.step c).Leads Begun (fun _ => True) (fun _ => True) := by
    dsimp only [start, step, stateBeginValue]
    rw [hspace, if_neg Bool.false_ne_true]
    split_ifs
    · exact .inl (List.cons_ne_nil _ _)
    · exact .inl (List.cons_ne_nil _ _)
    · cases hmode : beginScalar c with
      | some mode => exact .inr ⟨rfl, scalar_of_beginScalar hmode⟩
      | none => trivial
  rw [hstep] at hleads
  exact hleads

end Scanner

theorem begun_of_scan {s s' : Scanner} {l : List Char} (h : s.Begun) (hscan : scan s l = .more s') :
    s'.Begun := by
  induction l generalizing s with
  | nil =>
      cases hscan
      exact h
  | cons c l ih =>
      rw [scan] at hscan
      cases hstep : s.step c with
      | error | closed v | ended v =>
          rw [hstep] at hscan
          cases hscan
      | next s₁ =>
          rw [hstep] at hscan
          exact ih (s.begun_of_step h hstep) hscan

/-- A text that is not blank is in the middle of a value when more of it is needed. -/
theorem begun_of_scan_start {s : Scanner} {l : List Char} (hblank : blank l = false)
    (hscan : scan .start l = .more s) : s.Begun := by
  induction l with
  | nil => cases hblank
  | cons c l ih =>
      rw [scan] at hscan
      cases hspace : isSpace c with
      | true =>
          rw [step_start_of_isSpace hspace] at hscan
          rw [blank, List.all_cons, hspace, Bool.true_and] at hblank
          exact ih hblank hscan
      | false =>
          cases hstep : Scanner.start.step c with
          | error | closed v | ended v =>
              rw [hstep] at hscan
              cases hscan
          | next s₁ =>
              rw [hstep] at hscan
              exact begun_of_scan (Scanner.begun_of_step_start hspace hstep) hscan

/-- Alone is what it is: the value that comes out is no array or object. -/
theorem scalar_of_fetch {s : Scanner} {l : List Char} {v : Json} (h : s.Alone)
    (hfetch : (fetch s l []).value? = some v) : v.scalar = true := by
  induction l generalizing s with
  | nil =>
      have hleads := Scanner.leadsAlone_step h ' '
      rw [fetch, scan] at hfetch
      dsimp only [Scanner.atEnd] at hfetch
      cases hstep : s.step ' ' with
      | error | closed v' | next s' =>
          rw [hstep] at hfetch
          cases hfetch
      | ended v' =>
          rw [hstep] at hfetch hleads
          cases hfetch
          exact hleads
  | cons c l ih =>
      have hleads := Scanner.leadsAlone_step h c
      rw [fetch, scan] at hfetch
      cases hstep : s.step c with
      | error =>
          rw [hstep] at hfetch
          cases hfetch
      | closed v' =>
          rw [hstep] at hleads
          exact hleads.elim
      | ended v' =>
          rw [hstep] at hfetch hleads
          cases hfetch
          exact hleads
      | next s' =>
          rw [hstep] at hfetch hleads
          exact ih hleads hfetch

/-! ### What is written -/

/-- A character that a string is written with as it is. -/
def plain (c : Char) : Bool := c ≠ '"' && c ≠ '\\' && !decide (c < ' ')

/-- The value of a text that is one value and nothing else. -/
def parse (text : List Char) : Option Json :=
  match fetch .start text [] with
  | .value v rest => if blank rest then some v else none
  | .error _ => none

theorem parse_of_value {text rest : List Char} {v : Json} (h : scan .start text = .value v rest)
    (hrest : blank rest = true) : parse text = some v := by
  rw [parse, fetch_of_value h]
  exact if_pos hrest

/-- The scanner has found an error, or the text ends in the middle of a value. -/
def Scan.unfinished : Scan → Bool
  | value _ _ => false
  | error => true
  | more s => s.atEnd.isNone

theorem parse_of_unfinished {text : List Char} (h : (scan .start text).unfinished = true) :
    parse text = none := by
  rw [parse, fetch]
  cases hscan : scan .start text with
  | value v rest =>
      rw [hscan] at h
      cases h
  | error => rfl
  | more s =>
      rw [hscan] at h
      simp only [Option.isNone_iff_eq_none.1 h]

def quoted (s : String) : List Char := '"' :: s.toList ++ ['"']

def membersText : List (String × String) → List Char
  | [] => []
  | [m] => quoted m.1 ++ ':' :: quoted m.2
  | m :: ms => quoted m.1 ++ ':' :: quoted m.2 ++ ',' :: membersText ms

/-- An object of strings. -/
def objectText (members : List (String × String)) : List Char := '{' :: membersText members ++ ['}']

def stringMember (m : String × String) : String × Json := (m.1, .str m.2)

theorem parts_of_plain {l : List Char} (h : l.all plain = true) : parts l = l.map .char := by
  induction l with
  | nil => rfl
  | cons c l ih =>
      rw [List.all_cons, Bool.and_eq_true] at h
      have hc : c ≠ '\\' := by
        rintro rfl
        exact absurd h.1 (by decide)
      rw [parts, ih h.2, List.map_cons]
      · exact fun _ _ _ _ _ heq => absurd heq hc
      · exact fun _ _ heq => absurd heq hc

theorem joinParts_map_char (l : List Char) : joinParts (l.map .char) = l := by
  induction l with
  | nil => rfl
  | cons c l ih => rw [List.map_cons, joinParts, ih]

theorem unquote_of_plain {l : List Char} (h : l.all plain = true) :
    unquote l = String.ofList l := by
  rw [unquote, parts_of_plain h, joinParts_map_char]

theorem scan_inString {l : List Char} (h : l.all plain = true) (stack : List Frame)
    (raw rest : List Char) :
    scan ⟨stack, .inString raw⟩ (l ++ '"' :: rest) =
      scan ⟨stack, .endValue (.str (unquote (raw.reverse ++ l)))⟩ rest := by
  induction l generalizing raw with
  | nil => rw [List.nil_append, List.append_nil, scan_cons_of_next rfl]
  | cons c l ih =>
      rw [List.all_cons, Bool.and_eq_true] at h
      have hstep : (⟨stack, .inString raw⟩ : Scanner).step c =
          .next ⟨stack, .inString (c :: raw)⟩ := by
        have hplain := h.1
        simp only [plain, Bool.and_eq_true, Bool.not_eq_true', decide_eq_true_eq,
          decide_eq_false_iff_not] at hplain
        obtain ⟨⟨hquote, hescape⟩, hcontrol⟩ := hplain
        simp only [Scanner.step, Scanner.stateInString, if_neg hquote, if_neg hescape,
          if_neg hcontrol]
      rw [List.cons_append, scan_cons_of_next hstep, ih h.2]
      simp

/-- A string is read as it is written, wherever one may begin. -/
theorem scan_quoted {s : String} (h : s.toList.all plain = true) {stack : List Frame} {mode : Mode}
    (hmode : (⟨stack, mode⟩ : Scanner).step '"' = .next ⟨stack, .inString []⟩) (rest : List Char) :
    scan ⟨stack, mode⟩ (quoted s ++ rest) = scan ⟨stack, .endValue (.str s)⟩ rest := by
  rw [quoted, List.cons_append, List.cons_append, scan_cons_of_next hmode, List.append_assoc,
    List.singleton_append, scan_inString h, List.reverse_nil, List.nil_append, unquote_of_plain h,
    String.ofList_toList]

theorem scan_members {ms : List (String × String)} (hne : ms ≠ [])
    (h : ∀ m ∈ ms, m.1.toList.all plain = true ∧ m.2.toList.all plain = true)
    (members : List (String × Json)) (frame : Frame) (stack : List Frame) {mode : Mode}
    (hmode : (⟨.key members :: frame :: stack, mode⟩ : Scanner).step '"' =
      .next ⟨.key members :: frame :: stack, .inString []⟩) (rest : List Char) :
    scan ⟨.key members :: frame :: stack, mode⟩ (membersText ms ++ '}' :: rest) =
      scan ⟨frame :: stack, .endValue (.obj (members.reverse ++ ms.map stringMember))⟩ rest := by
  induction ms generalizing members mode with
  | nil => exact absurd rfl hne
  | cons m ms ih =>
      obtain ⟨hkey, hvalue⟩ := h m List.mem_cons_self
      cases ms with
      | nil =>
          rw [membersText, List.append_assoc, List.cons_append, scan_quoted hkey hmode,
            scan_cons_of_next rfl, scan_quoted hvalue rfl, scan_cons_of_next rfl]
          simp [stringMember]
      | cons m' ms =>
          have hrest : ∀ m ∈ m' :: ms, m.1.toList.all plain = true ∧ m.2.toList.all plain = true :=
            fun m hm => h m (List.mem_cons_of_mem _ hm)
          have htext : membersText (m :: m' :: ms) =
              quoted m.1 ++ ':' :: quoted m.2 ++ ',' :: membersText (m' :: ms) := rfl
          rw [htext, List.append_assoc, List.append_assoc, List.cons_append, List.cons_append,
            scan_quoted hkey hmode, scan_cons_of_next rfl, scan_quoted hvalue rfl,
            scan_cons_of_next rfl, ih (List.cons_ne_nil _ _) hrest _ rfl]
          simp [stringMember]

/-- **An object of strings is read as it is written.** -/
theorem scan_objectText {ms : List (String × String)} (hne : ms ≠ [])
    (h : ∀ m ∈ ms, m.1.toList.all plain = true ∧ m.2.toList.all plain = true) (frame : Frame)
    {stack : List Frame} (hdepth : stack.length + 1 < Scanner.maxNestingDepth) (rest : List Char) :
    scan ⟨frame :: stack, .beginValue⟩ (objectText ms ++ rest) =
      scan ⟨frame :: stack, .endValue (.obj (ms.map stringMember))⟩ rest := by
  have hopen : (⟨frame :: stack, .beginValue⟩ : Scanner).step '{' =
      .next ⟨.key [] :: frame :: stack, .beginStringOrEmpty⟩ := if_pos hdepth
  rw [objectText, List.cons_append, List.cons_append, scan_cons_of_next hopen, List.append_assoc,
    List.singleton_append, scan_members hne h _ _ _ rfl]
  rfl

end Json

end Go
