/-
**Numbers, bytes and identifiers on the wire.**

Forms in which data is sent between programs: numbers of seven bits a byte, bytes as base64, an
identifier as groups of hexadecimal digits, and texts as UTF-8.  The readers take more than the
writers write: a number may have leading zeros, base64 may be broken into lines, an identifier may
stand in braces.  They refuse what is cut off and what does not fit.

Main definitions:

* `Uvarint.put`, `Uvarint.read` — numbers of seven bits a byte;
* `Base64.encode`, `Base64.decode` — the standard encoding, with padding;
* `Utf8.bytes`, `Utf8.runes` — texts, with replacement characters for what is no text;
* `Uuid.text`, `Uuid.parse` — identifiers of sixteen bytes.

Main results:

* `Uvarint.read_put`, `Base64.decode_encode`, `Utf8.runes_bytes`, `Uuid.parse_text` — **what is
  written is read back**.
-/

import Dreamboat.Hex

set_option autoImplicit false

/-! ### Numbers of seven bits a byte -/

namespace Uvarint

/-- `binary.PutUvarint`: the lowest bits first, and a high bit while there are more. -/
def put (n : ℕ) : List UInt8 :=
  if n < 128 then [UInt8.ofNat n] else UInt8.ofNat (n % 128 + 128) :: put (n / 128)
termination_by n
decreasing_by omega

/-- `binary.Uvarint` behind `i` bytes: the number and what comes behind it.  There are ten bytes at
most, and of the last one only the lowest bit is used. -/
def readFrom (i : ℕ) : List UInt8 → Option (ℕ × List UInt8)
  | [] => none
  | b :: bs =>
      if i = 10 then none
      else if b < 128 then
        if i = 9 ∧ 1 < b then none else some (b.toNat, bs)
      else (readFrom (i + 1) bs).map fun r => (b.toNat % 128 + 128 * r.1, r.2)

/-- A number of 64 bits at the beginning of the bytes. -/
def read (bs : List UInt8) : Option (ℕ × List UInt8) := readFrom 0 bs

theorem readFrom_put {i n : ℕ} (hi : i ≤ 9) (hn : n < 2 ^ (64 - 7 * i)) (rest : List UInt8) :
    readFrom i (put n ++ rest) = some (n, rest) := by
  induction n using Nat.strongRecOn generalizing i with
  | ind n ih =>
      rw [put]
      split
      · next hlt =>
          have hbyte : (UInt8.ofNat n).toNat = n := by
            rw [UInt8.toNat_ofNat']
            omega
          have hlow : UInt8.ofNat n < 128 := UInt8.lt_iff_toNat_lt.2 (by rw [hbyte]; exact hlt)
          have hlast : ¬(i = 9 ∧ 1 < UInt8.ofNat n) := by
            rintro ⟨rfl, hone⟩
            rw [UInt8.lt_iff_toNat_lt, hbyte] at hone
            exact absurd hn (Nat.not_lt.2 hone)
          rw [List.cons_append, readFrom, if_neg (by omega), if_pos hlow, if_neg hlast, hbyte,
            List.nil_append]
      · next hge =>
          have hbyte : (UInt8.ofNat (n % 128 + 128)).toNat = n % 128 + 128 := by
            rw [UInt8.toNat_ofNat']
            omega
          have hhigh : ¬UInt8.ofNat (n % 128 + 128) < 128 := by
            rw [UInt8.lt_iff_toNat_lt, hbyte]
            exact Nat.not_lt.2 (Nat.le_add_left _ _)
          -- the tenth byte has no high bit
          have hi' : i ≤ 8 := by
            by_contra hcontra
            obtain rfl : i = 9 := by omega
            omega
          have hnext : n / 128 < 2 ^ (64 - 7 * (i + 1)) := by
            have hpow : 2 ^ (64 - 7 * i) = 128 * 2 ^ (64 - 7 * (i + 1)) := by
              rw [show 64 - 7 * i = 7 + (64 - 7 * (i + 1)) by omega, Nat.pow_add]
            rw [Nat.div_lt_iff_lt_mul (by decide)]
            omega
          rw [List.cons_append, readFrom, if_neg (by omega), if_neg hhigh,
            ih (n / 128) (by omega) (by omega) hnext, Option.map_some, hbyte]
          congr 2
          omega

/-- **A number of 64 bits is read back**, with any bytes behind it. -/
theorem read_put {n : ℕ} (hn : n < 2 ^ 64) (rest : List UInt8) :
    read (put n ++ rest) = some (n, rest) := readFrom_put (Nat.zero_le 9) hn rest

end Uvarint

/-! ### Base64 -/

namespace Base64

/-- The character for six bits. -/
def digit (n : ℕ) : Char :=
  if n < 26 then Char.ofNat (n + 65)
  else if n < 52 then Char.ofNat (n + 71)
  else if n < 62 then Char.ofNat (n - 4)
  else if n = 62 then '+'
  else '/'

/-- The six bits of a character. -/
def sextet (c : Char) : Option ℕ :=
  if 'A' ≤ c ∧ c ≤ 'Z' then some (c.toNat - 65)
  else if 'a' ≤ c ∧ c ≤ 'z' then some (c.toNat - 71)
  else if '0' ≤ c ∧ c ≤ '9' then some (c.toNat + 4)
  else if c = '+' then some 62
  else if c = '/' then some 63
  else none

/-- Four characters for three bytes; the last group is padded. -/
def encode : List UInt8 → List Char
  | [] => []
  | [a] => [digit (a.toNat / 4), digit (a.toNat % 4 * 16), '=', '=']
  | [a, b] =>
      [digit (a.toNat / 4), digit (a.toNat % 4 * 16 + b.toNat / 16), digit (b.toNat % 16 * 4), '=']
  | a :: b :: c :: rest =>
      digit (a.toNat / 4) :: digit (a.toNat % 4 * 16 + b.toNat / 16) ::
        digit (b.toNat % 16 * 4 + c.toNat / 64) :: digit (c.toNat % 64) :: encode rest

/-- Groups of four characters; there is padding in the last one only.  The bits that the padding
leaves over are not looked at. -/
def decodeGroups : List Char → Option (List UInt8)
  | [] => some []
  | x :: y :: z :: w :: rest => do
      let a ← sextet x
      let b ← sextet y
      if z = '=' then
        if w = '=' ∧ rest = [] then return [UInt8.ofNat (a * 4 + b / 16)] else none
      else
        let c ← sextet z
        if w = '=' then
          if rest = [] then
            return [UInt8.ofNat (a * 4 + b / 16), UInt8.ofNat (b % 16 * 16 + c / 4)]
          else none
        else
          let d ← sextet w
          let bs ← decodeGroups rest
          return UInt8.ofNat (a * 4 + b / 16) :: UInt8.ofNat (b % 16 * 16 + c / 4) ::
            UInt8.ofNat (c % 4 * 64 + d) :: bs
  | _ => none

/-- Line breaks are skipped. -/
def decode (cs : List Char) : Option (List UInt8) :=
  decodeGroups (cs.filter fun c => c ≠ '\r' && c ≠ '\n')

theorem sextet_digit {n : ℕ} (h : n < 64) : sextet (digit n) = some n := by
  revert n
  decide

theorem digit_ne_pad {n : ℕ} (h : n < 64) : digit n ≠ '=' := by
  revert n
  decide

/-- Only the alphabet and the padding are written. -/
theorem forall_mem_encode {P : Char → Prop} (hpad : P '=') (hdigit : ∀ n < 64, P (digit n))
    (bs : List UInt8) : ∀ c ∈ encode bs, P c := by
  fun_induction encode bs with
  | case1 => exact nofun
  | case2 a =>
      have ha := a.toNat_lt
      refine List.forall_mem_cons.2 ⟨hdigit _ (by omega), List.forall_mem_cons.2
        ⟨hdigit _ (by omega), List.forall_mem_cons.2 ⟨hpad, List.forall_mem_singleton.2 hpad⟩⟩⟩
  | case3 a b =>
      have ha := a.toNat_lt
      have hb := b.toNat_lt
      refine List.forall_mem_cons.2 ⟨hdigit _ (by omega), List.forall_mem_cons.2
        ⟨hdigit _ (by omega), List.forall_mem_cons.2 ⟨hdigit _ (by omega),
          List.forall_mem_singleton.2 hpad⟩⟩⟩
  | case4 a b c rest ih =>
      have ha := a.toNat_lt
      have hb := b.toNat_lt
      have hc := c.toNat_lt
      refine List.forall_mem_cons.2 ⟨hdigit _ (by omega), List.forall_mem_cons.2
        ⟨hdigit _ (by omega), List.forall_mem_cons.2 ⟨hdigit _ (by omega), List.forall_mem_cons.2
          ⟨hdigit _ (by omega), ih⟩⟩⟩⟩

theorem ofNat_eq_of_eq {b : UInt8} {n : ℕ} (h : n = b.toNat) : UInt8.ofNat n = b := by
  rw [h]
  exact UInt8.ofNat_toNat

/-- A group without padding is three bytes. -/
theorem decodeGroups_group (a b c : UInt8) (rest : List Char) :
    decodeGroups (digit (a.toNat / 4) :: digit (a.toNat % 4 * 16 + b.toNat / 16) ::
      digit (b.toNat % 16 * 4 + c.toNat / 64) :: digit (c.toNat % 64) :: rest) =
      (decodeGroups rest).map fun bs => a :: b :: c :: bs := by
  have ha := a.toNat_lt
  have hb := b.toNat_lt
  have hc := c.toNat_lt
  have hpad := digit_ne_pad (show b.toNat % 16 * 4 + c.toNat / 64 < 64 by omega)
  have hpad' := digit_ne_pad (show c.toNat % 64 < 64 by omega)
  rw [decodeGroups, sextet_digit (show a.toNat / 4 < 64 by omega),
    sextet_digit (show a.toNat % 4 * 16 + b.toNat / 16 < 64 by omega),
    sextet_digit (show b.toNat % 16 * 4 + c.toNat / 64 < 64 by omega),
    sextet_digit (show c.toNat % 64 < 64 by omega)]
  simp only [Option.bind_eq_bind, Option.bind_some, if_neg hpad, if_neg hpad', Option.pure_def]
  rw [ofNat_eq_of_eq (b := a) (by omega), ofNat_eq_of_eq (b := b) (by omega),
    ofNat_eq_of_eq (b := c) (by omega)]
  exact Option.map_eq_bind.symm

theorem decodeGroups_encode (bs : List UInt8) : decodeGroups (encode bs) = some bs := by
  fun_induction encode bs with
  | case1 => rfl
  | case2 a =>
      have ha := a.toNat_lt
      rw [decodeGroups, sextet_digit (show a.toNat / 4 < 64 by omega),
        sextet_digit (show a.toNat % 4 * 16 < 64 by omega)]
      simp only [Option.bind_eq_bind, Option.bind_some, if_true, and_self, Option.pure_def]
      rw [ofNat_eq_of_eq (b := a) (by omega)]
  | case3 a b =>
      have ha := a.toNat_lt
      have hb := b.toNat_lt
      have hpad := digit_ne_pad (show b.toNat % 16 * 4 < 64 by omega)
      rw [decodeGroups, sextet_digit (show a.toNat / 4 < 64 by omega),
        sextet_digit (show a.toNat % 4 * 16 + b.toNat / 16 < 64 by omega),
        sextet_digit (show b.toNat % 16 * 4 < 64 by omega)]
      simp only [Option.bind_eq_bind, Option.bind_some, if_true, if_neg hpad, Option.pure_def]
      rw [ofNat_eq_of_eq (b := a) (by omega), ofNat_eq_of_eq (b := b) (by omega)]
  | case4 a b c rest ih =>
      rw [decodeGroups_group, ih]
      rfl

/-- **Bytes are read back.** -/
theorem decode_encode (bs : List UInt8) : decode (encode bs) = some bs := by
  have hkeep : (encode bs).filter (fun c => c ≠ '\r' && c ≠ '\n') = encode bs :=
    List.filter_eq_self.2 (forall_mem_encode (by decide) (by decide) bs)
  rw [decode, hkeep]
  exact decodeGroups_encode bs

end Base64

/-! ### Texts -/

namespace Utf8

/-- The bytes of a text. -/
def bytes (cs : List Char) : List UInt8 := cs.flatMap String.utf8EncodeChar

/-- The replacement character, for one byte that is no text. -/
def invalid : Char × ℕ := ('�', 1)

def inRange (lo hi : UInt8) (b : UInt8) : Bool := lo ≤ b && b ≤ hi

/-- The bytes behind the first one: how many, and the range of the first of them. -/
def following (b : UInt8) : Option (ℕ × UInt8 × UInt8) :=
  if inRange 0xc2 0xdf b then some (1, 0x80, 0xbf)
  else if b = 0xe0 then some (2, 0xa0, 0xbf)
  else if b = 0xed then some (2, 0x80, 0x9f)
  else if inRange 0xe1 0xef b then some (2, 0x80, 0xbf)
  else if b = 0xf0 then some (3, 0x90, 0xbf)
  else if inRange 0xf1 0xf3 b then some (3, 0x80, 0xbf)
  else if b = 0xf4 then some (3, 0x80, 0x8f)
  else none

/-- `utf8.DecodeRune`: the character at the beginning, and of how many bytes it is. -/
def decodeRune (b : UInt8) (bs : List UInt8) : Char × ℕ :=
  if b < 0x80 then (Char.ofNat b.toNat, 1)
  else
    match following b, bs with
    | some (1, lo, hi), b₁ :: _ =>
        if inRange lo hi b₁ then (Char.ofNat (b.toNat % 32 * 64 + b₁.toNat % 64), 2) else invalid
    | some (2, lo, hi), b₁ :: b₂ :: _ =>
        if inRange lo hi b₁ && inRange 0x80 0xbf b₂ then
          (Char.ofNat ((b.toNat % 16 * 64 + b₁.toNat % 64) * 64 + b₂.toNat % 64), 3)
        else invalid
    | some (3, lo, hi), b₁ :: b₂ :: b₃ :: _ =>
        if inRange lo hi b₁ && inRange 0x80 0xbf b₂ && inRange 0x80 0xbf b₃ then
          (Char.ofNat (((b.toNat % 8 * 64 + b₁.toNat % 64) * 64 + b₂.toNat % 64) * 64 +
            b₃.toNat % 64), 4)
        else invalid
    | _, _ => invalid

/-- The characters behind some bytes that belong to the last one. -/
def runesFrom : ℕ → List UInt8 → List Char
  | _, [] => []
  | skip + 1, _ :: bs => runesFrom skip bs
  | 0, b :: bs => (decodeRune b bs).1 :: runesFrom ((decodeRune b bs).2 - 1) bs

/-- The characters of bytes. -/
def runes (bs : List UInt8) : List Char := runesFrom 0 bs

def isAscii (c : Char) : Bool := c.toNat < 128

/-- The byte of an ASCII character. -/
def byte (c : Char) : UInt8 := UInt8.ofNat c.toNat

/-- The ASCII character of a byte. -/
def char (b : UInt8) : Char := Char.ofNat b.toNat

theorem toNat_byte {c : Char} (h : isAscii c = true) : (byte c).toNat = c.toNat := by
  have hc : c.toNat < 128 := of_decide_eq_true h
  rw [byte, UInt8.toNat_ofNat']
  omega

/-- ASCII characters are written as one byte each. -/
theorem bytes_eq_map {cs : List Char} (h : cs.all isAscii = true) : bytes cs = cs.map byte := by
  induction cs with
  | nil => rfl
  | cons c cs ih =>
      rw [List.all_cons, Bool.and_eq_true] at h
      have hone : c.val.toNat ≤ 127 := Nat.le_of_lt_succ (of_decide_eq_true h.1)
      rw [List.map_cons, ← ih h.2, bytes, List.flatMap_cons, String.utf8EncodeChar, if_pos hone]
      rfl

/-- **A text of ASCII characters is read back.** -/
theorem runes_bytes {cs : List Char} (h : cs.all isAscii = true) : runes (bytes cs) = cs := by
  rw [bytes_eq_map h]
  induction cs with
  | nil => rfl
  | cons c cs ih =>
      rw [List.all_cons, Bool.and_eq_true] at h
      have hlow : byte c < 0x80 :=
        UInt8.lt_iff_toNat_lt.2 (by rw [toNat_byte h.1]; exact of_decide_eq_true h.1)
      have hrune : decodeRune (byte c) (cs.map byte) = (c, 1) := by
        unfold decodeRune
        rw [if_pos hlow, toNat_byte h.1, Char.ofNat_toNat]
      rw [List.map_cons, runes, runesFrom, hrune]
      exact congrArg (c :: ·) (ih h.2)

end Utf8

/-! ### Identifiers -/

namespace Uuid

/-- The text: the digits of the bytes in groups of 8, 4, 4, 4 and 12. -/
def text (bs : List UInt8) : List Char :=
  let ds := Hex.digits bs
  ds.take 8 ++ '-' :: ((ds.drop 8).take 4 ++ '-' :: ((ds.drop 12).take 4 ++ '-' ::
    ((ds.drop 16).take 4 ++ '-' :: ds.drop 20)))

/-- The digits of the form with groups, which may be longer than it. -/
def groups (cs : List Char) : Option (List Char) :=
  if cs[8]? = some '-' ∧ cs[13]? = some '-' ∧ cs[18]? = some '-' ∧ cs[23]? = some '-' then
    some (cs.take 8 ++ (cs.drop 9).take 4 ++ (cs.drop 14).take 4 ++ (cs.drop 19).take 4 ++
      (cs.drop 24).take 12)
  else none

/-- `uuid.ParseBytes`: the form with groups, the same behind `urn:uuid:` or in braces, or the
digits.  Lengths count bytes, and no form has a character of several bytes; what stands for the
braces is not looked at. -/
def parse (cs : List Char) : Option (List UInt8) :=
  if !cs.all Utf8.isAscii then none
  else if cs.length = 36 then (groups cs).bind Hex.bytes
  else if cs.length = 45 then
    if (cs.take 9).map Char.toLower = "urn:uuid:".toList then
      (groups (cs.drop 9)).bind Hex.bytes
    else none
  else if cs.length = 38 then (groups (cs.drop 1)).bind Hex.bytes
  else if cs.length = 32 then Hex.bytes cs
  else none

theorem groups_append {a b c d e : List Char} (ha : a.length = 8) (hb : b.length = 4)
    (hc : c.length = 4) (hd : d.length = 4) (he : e.length = 12) :
    groups (a ++ '-' :: (b ++ '-' :: (c ++ '-' :: (d ++ '-' :: e)))) =
      some (a ++ b ++ c ++ d ++ e) := by
  match a, b, c, d, e with
  | [_, _, _, _, _, _, _, _], [_, _, _, _], [_, _, _, _], [_, _, _, _],
      [_, _, _, _, _, _, _, _, _, _, _, _] => rfl

/-- Only the digits of the bytes and dashes are written. -/
theorem forall_mem_text {P : Char → Prop} (hdash : P '-') (hdigit : ∀ n < 16, P (Nat.digitChar n))
    (bs : List UInt8) : ∀ c ∈ text bs, P c := by
  have hdigits : ∀ c ∈ Hex.digits bs, P c := by
    intro c h
    obtain ⟨b, -, hb⟩ := List.mem_flatMap.1 h
    have hlt : b.toNat < 256 := b.toNat_lt
    simp only [List.mem_cons, List.not_mem_nil, or_false] at hb
    rcases hb with rfl | rfl
    · exact hdigit _ (by omega)
    · exact hdigit _ (by omega)
  intro c h
  simp only [text, List.mem_append, List.mem_cons] at h
  rcases h with h | rfl | h | rfl | h | rfl | h | rfl | h
  · exact hdigits c (List.mem_of_mem_take h)
  · exact hdash
  · exact hdigits c (List.mem_of_mem_drop (List.mem_of_mem_take h))
  · exact hdash
  · exact hdigits c (List.mem_of_mem_drop (List.mem_of_mem_take h))
  · exact hdash
  · exact hdigits c (List.mem_of_mem_drop (List.mem_of_mem_take h))
  · exact hdash
  · exact hdigits c (List.mem_of_mem_drop h)

theorem all_isAscii_text (bs : List UInt8) : (text bs).all Utf8.isAscii = true :=
  List.all_eq_true.2 (forall_mem_text (by decide) (by decide) bs)

/-- **An identifier of sixteen bytes is read back.** -/
theorem parse_text {bs : List UInt8} (h : bs.length = 16) : parse (text bs) = some bs := by
  have hlen : (Hex.digits bs).length = 32 := by
    rw [Hex.length_digits, h]
  have htext : (text bs).length = 36 := by
    simp only [text, List.length_append, List.length_cons, List.length_take, List.length_drop, hlen]
    rfl
  have hsplit : (Hex.digits bs).take 8 ++ ((Hex.digits bs).drop 8).take 4 ++
      ((Hex.digits bs).drop 12).take 4 ++ ((Hex.digits bs).drop 16).take 4 ++
      (Hex.digits bs).drop 20 = Hex.digits bs := by
    rw [← List.take_add, ← List.take_add, ← List.take_add, List.take_append_drop]
  rw [parse, all_isAscii_text, if_neg (by decide), if_pos htext, text,
    groups_append (by simp [hlen]) (by simp [hlen]) (by simp [hlen])
    (by simp [hlen]) (by simp [hlen]), hsplit, Option.bind_some, Hex.bytes_digits]

end Uuid
