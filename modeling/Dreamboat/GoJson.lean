/-
**Reading JSON into Go values.**

`json.Unmarshal` writes into a value that exists already: the members of an object go to the fields
of a struct, one after another, and a field whose name does not occur keeps its value.  A pointer
is `nil` after a `null`, and otherwise it points at something.  What a pointer is in the end
therefore depends on the names that occur, and on their order.

Main definitions:

* `Go.Json` — JSON values, with the members of an object as they occur;
* `Go.Json.Into` — reading into a value;
* `Go.Json.pointer`, `Go.Json.struct` — the rules for pointers and for structs;
* `Go.Json.Tracks` — what reading does to a property of the value is known from the JSON;
* `Go.Json.atMember` — what happens at the members of a name.

Main results:

* `Go.Json.tracks_isSome_pointer`, `Go.Json.tracks_pointer`, `Go.Json.tracks_struct`,
  `Go.Json.tracks_struct_head` — the rules.
-/

import Mathlib.Data.List.Basic

set_option autoImplicit false

namespace Go

/-- A JSON value.  Numbers and strings are texts, and the members of an object are in the order in
which they occur, with repetitions. -/
inductive Json where
  | null
  | bool (b : Bool)
  | num (text : String)
  | str (text : String)
  | arr (elems : List Json)
  | obj (members : List (String × Json))

namespace Json

variable {ε σ α β : Type}

def isNull : Json → Bool
  | null => true
  | _ => false

/-- Reading into a value that exists already. -/
abbrev Into (ε α : Type) := Json → α → Except ε α

/-! ### Structs and pointers -/

/-- Names are compared up to case; the long s and the Kelvin sign are variants of ASCII letters. -/
def foldRune (c : Char) : Char :=
  if c = 'ſ' then 'S' else if c = 'K' then 'K' else c.toUpper

def foldName (name : String) : List Char := name.toList.map foldRune

/-- The field that a member belongs to: the one of its name, or else the first one of its name up to
case. -/
def ownerOf (names : List String) (key : String) : Option String :=
  (names.find? (· = key)).or (names.find? fun name => foldName name = foldName key)

/-- A field of a struct: its name, and how its part of the struct is read. -/
structure Field (ε σ : Type) where
  name : String
  into : Into ε σ

/-- The field with a value of its own. -/
def Field.of (name : String) (get : σ → α) (put : σ → α → σ) (into : Into ε α) : Field ε σ :=
  ⟨name, fun j s => (into j (get s)).map (put s)⟩

/-- Reading a member of an object. -/
def member (fields : List (Field ε σ)) (s : σ) (m : String × Json) : Except ε σ :=
  match ownerOf (fields.map Field.name) m.1 with
  | none => .ok s
  | some name =>
      match fields.find? (·.name = name) with
      | none => .ok s
      | some field => field.into m.2 s

/-- Reading into a struct. -/
def struct (mismatch : ε) (fields : List (Field ε σ)) : Into ε σ
  | null, s => .ok s
  | obj members, s => members.foldlM (member fields) s
  | _, _ => .error mismatch

/-- Reading into a pointer. -/
def pointer (zero : α) (into : Into ε α) : Into ε (Option α)
  | null, _ => .ok none
  | j, p => (into j (p.getD zero)).map some

/-! ### Following a property -/

/-- Whether the value has the property `P` afterwards is given by the JSON value and by whether it
has it before. -/
def Tracks (into : Into ε α) (P : α → Bool) (e : Json → Bool → Bool) : Prop :=
  ∀ j a a', into j a = .ok a' → P a' = e j (P a)

/-- Reading that leaves a property alone. -/
def Keeps (into : Into ε α) (P : α → Bool) : Prop := Tracks into P fun _ b => b

/-- A pointer points at something after reading anything but `null`. -/
def pointsAfter (j : Json) (_ : Bool) : Bool := !j.isNull

/-- What a pointer points at after reading. -/
def afterPointer (e : Json → Bool → Bool) (j : Json) (b : Bool) : Bool :=
  if j.isNull then false else e j b

/-- What happens at the members of an object that belong to a name. -/
def atMember (names : List String) (name : String) (e : Json → Bool → Bool) : Json → Bool → Bool
  | obj members, b => members.foldl
      (fun b m => if ownerOf names m.1 = some name then e m.2 b else b) b
  | _, b => b

theorem exists_of_map_eq_ok {f : α → β} {x : Except ε α} {b : β} (h : x.map f = .ok b) :
    ∃ a, x = .ok a ∧ f a = b := by
  cases x with
  | error err => cases h
  | ok a =>
      cases h
      exact ⟨a, rfl, rfl⟩

/-- A pointer after reading what is not `null`. -/
theorem exists_of_pointer_eq_ok {zero : α} {into : Into ε α} {j : Json} {p p' : Option α}
    (h : pointer zero into j p = .ok p') :
    (j.isNull = true ∧ p' = none) ∨
      j.isNull = false ∧ ∃ a, into j (p.getD zero) = .ok a ∧ p' = some a := by
  cases j with
  | null =>
      cases h
      exact .inl ⟨rfl, rfl⟩
  | bool _ | num _ | str _ | arr _ | obj _ =>
      obtain ⟨a, ha, rfl⟩ := exists_of_map_eq_ok h
      exact .inr ⟨rfl, a, ha, rfl⟩

/-- Whether a pointer points at something. -/
theorem tracks_isSome_pointer (zero : α) (into : Into ε α) :
    Tracks (pointer zero into) Option.isSome pointsAfter := by
  intro j p p' h
  rcases exists_of_pointer_eq_ok h with ⟨hnull, rfl⟩ | ⟨hnull, a, _, rfl⟩
  · rw [pointsAfter, hnull]
    rfl
  · rw [pointsAfter, hnull]
    rfl

/-- A property of what a pointer points at. -/
theorem tracks_pointer {zero : α} {into : Into ε α} {P : α → Bool} {e : Json → Bool → Bool}
    (h : Tracks into P e) (hzero : P zero = false) :
    Tracks (pointer zero into) (Option.any P) (afterPointer e) := by
  intro j p p' hp
  rcases exists_of_pointer_eq_ok hp with ⟨hnull, rfl⟩ | ⟨hnull, a, ha, rfl⟩
  · rw [afterPointer, if_pos hnull]
    rfl
  · have hbefore : P (p.getD zero) = p.any P := by
      cases p with
      | none => exact hzero
      | some a => rfl
    rw [afterPointer, if_neg (by rw [hnull]; exact Bool.false_ne_true), ← hbefore]
    exact h j _ a ha

/-- A property of a field. -/
theorem tracks_of {name : String} {get : σ → α} {put : σ → α → σ} {into : Into ε α}
    {P : σ → Bool} {Q : α → Bool} {e : Json → Bool → Bool} (h : Tracks into Q e)
    (hput : ∀ s a, P (put s a) = Q a) (hget : ∀ s, P s = Q (get s)) :
    Tracks (Field.of name get put into).into P e := by
  intro j s s' hs
  obtain ⟨a, ha, rfl⟩ := exists_of_map_eq_ok hs
  rw [hput, hget]
  exact h j _ a ha

/-- A property of the other fields. -/
theorem keeps_of {name : String} {get : σ → α} {put : σ → α → σ} {into : Into ε α}
    {P : σ → Bool} (hput : ∀ s a, P (put s a) = P s) :
    Keeps (Field.of name get put into).into P := by
  intro j s s' hs
  obtain ⟨a, _, rfl⟩ := exists_of_map_eq_ok hs
  exact hput s a

theorem mem_of_ownerOf {names : List String} {key name : String}
    (h : ownerOf names key = some name) : name ∈ names := by
  rcases Option.or_eq_some_iff.1 h with h | ⟨_, h⟩
  · exact List.mem_of_find?_eq_some h
  · exact List.mem_of_find?_eq_some h

section

variable {fields : List (Field ε σ)} {P : σ → Bool} {name : String} {e : Json → Bool → Bool}

/-- A member has an effect on the property if it belongs to the field of the name. -/
theorem property_member
    (h : ∀ field ∈ fields, if field.name = name then Tracks field.into P e else Keeps field.into P)
    {s s' : σ} {m : String × Json} (hs : member fields s m = .ok s') :
    P s' = if ownerOf (fields.map Field.name) m.1 = some name then e m.2 (P s) else P s := by
  unfold member at hs
  cases howner : ownerOf (fields.map Field.name) m.1 with
  | none =>
      rw [howner] at hs
      cases hs
      rfl
  | some owner =>
      rw [howner] at hs
      obtain ⟨field, hfield, rfl⟩ := List.mem_map.1 (mem_of_ownerOf howner)
      cases hfind : fields.find? (·.name = field.name) with
      | none => exact absurd (decide_eq_true rfl) (List.find?_eq_none.1 hfind field hfield)
      | some found =>
          simp only [hfind] at hs
          have hname : found.name = field.name := by simpa using List.find?_some hfind
          have hfound := h found (List.mem_of_find?_eq_some hfind)
          rw [hname] at hfound
          simp only [Option.some_inj]
          split at hfound
          · next heq =>
              rw [if_pos heq]
              exact hfound m.2 s s' hs
          · next hne =>
              rw [if_neg hne]
              exact hfound m.2 s s' hs

/-- A property that one field of a struct has an effect on. -/
theorem tracks_struct {mismatch : ε}
    (h : ∀ field ∈ fields,
      if field.name = name then Tracks field.into P e else Keeps field.into P) :
    Tracks (struct mismatch fields) P (atMember (fields.map Field.name) name e) := by
  intro j s s' hs
  cases j with
  | null =>
      cases hs
      rfl
  | bool _ | num _ | str _ | arr _ => cases hs
  | obj members =>
      -- along the members, with the struct read so far
      simp only [struct, atMember] at hs ⊢
      induction members generalizing s with
      | nil =>
          cases hs
          rfl
      | cons m members ih =>
          rw [List.foldlM_cons] at hs
          cases hm : member fields s m with
          | error err =>
              rw [hm] at hs
              cases hs
          | ok s₁ =>
              rw [hm] at hs
              rw [List.foldl_cons, ← property_member h hm]
              exact ih s₁ hs

/-- A property of the first field of a struct. -/
theorem tracks_struct_head {mismatch : ε} {first : Field ε σ} {rest : List (Field ε σ)}
    (hfirst : Tracks first.into P e)
    (hrest : rest.Forall fun field => field.name ≠ first.name ∧ Keeps field.into P) :
    Tracks (struct mismatch (first :: rest)) P
      (atMember ((first :: rest).map Field.name) first.name e) := by
  refine tracks_struct fun field hfield => ?_
  rcases List.mem_cons.1 hfield with rfl | hfield
  · rw [if_pos rfl]
    exact hfirst
  · obtain ⟨hname, hkeeps⟩ := List.forall_iff_forall_mem.1 hrest field hfield
    rw [if_neg hname]
    exact hkeeps

end

end Json

end Go
