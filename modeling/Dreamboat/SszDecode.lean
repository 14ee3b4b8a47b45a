/-
**What an SSZ decoder accepts.**

`SszCodec` starts from a value and reads back what was written for it.  Here the bytes come first:
they may be any bytes at all, and a decoder has to return, with a value or an error, without a slice
out of range.  What is known of a value it returns is stated together with that, as a condition on
the value; the rules for it follow the way a decoder is written.

The one step that is an induction is a list of variable elements.  Its elements are the bytes behind
the offsets, cut into pieces, and the offsets are those with which the pieces would be written.

Main definitions:

* `Ssz.part`, `Ssz.offsetAt` — the bytes between two places of a buffer, and the offset at a place;
* `Ssz.index` — one byte of a buffer;
* `Ssz.Returns` — a decoder returns, and a value that it returns meets a condition.

Main results:

* `Ssz.Returns.bind`, `Ssz.returns_ite_throw`, `Ssz.returns_slice`, `Ssz.returns_mapM` — the rules;
* `Ssz.slice_eq_part`, `Ssz.part_append_part` — slices in range, and parts put together;
* `Ssz.leBytes_leNat`, `Ssz.toList_copyBytes` — what is read is written back as it was;
* `Ssz.flatten_parts` — the same for elements of one size;
* `Ssz.returns_decodeDynamicLength`, `Ssz.returns_unmarshalDynamic` — **an accepted list is written
  back as it was**.
-/

import Dreamboat.SszCodec

set_option autoImplicit false

namespace Ssz

variable {ε α β : Type}

/-! ### Parts of a buffer -/

/-- The bytes from one place to another. -/
def part (buf : List UInt8) (lo hi : ℕ) : List UInt8 := (buf.take hi).drop lo

/-- The number in the four bytes from a place on. -/
def offsetAt (buf : List UInt8) (lo : ℕ) : ℕ := leNat (part buf lo (lo + 4))

/-- `buf[i]`. -/
def index (buf : List UInt8) (i : ℕ) : Decoder ε UInt8 :=
  match buf[i]? with
  | some b => pure b
  | none => ExceptT.mk none

section

variable {buf : List UInt8} {lo mid hi : ℕ}

theorem slice_eq_part (h : lo ≤ hi) (hhi : hi ≤ buf.length) :
    (slice buf lo hi : Decoder ε (List UInt8)) = pure (part buf lo hi) :=
  if_pos ⟨h, hhi⟩

theorem sliceFrom_eq_part (h : lo ≤ buf.length) :
    (sliceFrom buf lo : Decoder ε (List UInt8)) = pure (part buf lo buf.length) :=
  slice_eq_part h le_rfl

theorem length_part (hhi : hi ≤ buf.length) : (part buf lo hi).length = hi - lo := by
  rw [part, List.length_drop, List.length_take, Nat.min_eq_left hhi]

theorem part_zero_length (buf : List UInt8) : part buf 0 buf.length = buf := by
  rw [part, List.take_length, List.drop_zero]

/-- Two parts, one behind the other. -/
theorem part_append_part (h : lo ≤ mid) (h' : mid ≤ hi) (hhi : hi ≤ buf.length) :
    part buf lo mid ++ part buf mid hi = part buf lo hi := by
  have hsplit : buf.take hi = buf.take mid ++ part buf mid hi := by
    have htake : (buf.take hi).take mid = buf.take mid := by
      rw [List.take_take, Nat.min_eq_left h']
    rw [← htake, part, List.take_append_drop]
  have hlen : lo ≤ (buf.take mid).length := by
    rw [List.length_take]
    omega
  have hdrop : part buf lo hi = (buf.take mid).drop lo ++ part buf mid hi := by
    rw [part, hsplit, List.drop_append_of_le_length hlen]
  rw [hdrop, part]

theorem part_of_eq {pre bytes post : List UInt8} (hbuf : buf = pre ++ (bytes ++ post))
    (hlo : pre.length = lo) (hhi : lo + bytes.length = hi) : part buf lo hi = bytes := by
  have hslice : (slice buf lo hi : Decoder Unit (List UInt8)) = pure bytes :=
    slice_of_eq hbuf hlo hhi
  have hle : hi ≤ buf.length := by
    rw [hbuf, List.length_append, List.length_append]
    omega
  rw [slice_eq_part (by omega) hle] at hslice
  cases hslice
  rfl

theorem readOffset_part (hhi : hi ≤ buf.length) (h : hi = lo + 4) :
    (readOffset (part buf lo hi) : Decoder ε ℕ) = pure (offsetAt buf lo) := by
  have hlen : (part buf lo hi).length = 4 := by
    rw [length_part hhi]
    omega
  rw [readOffset, if_pos hlen.ge, List.take_of_length_le hlen.le, offsetAt, ← h]

variable (lo hi) in
/-- The bytes of a part, read from its end. -/
theorem mapM_index_down (hhi : hi ≤ buf.length) :
    ((List.range (hi - lo)).mapM fun i => index buf (hi - 1 - i) : Decoder ε (List UInt8)) =
      pure (part buf lo hi).reverse := by
  have hone : ∀ i ∈ List.range (hi - lo),
      (index buf (hi - 1 - i) : Decoder ε UInt8) = pure (buf.getD (hi - 1 - i) 0) := by
    intro i hi'
    have hlt : hi - 1 - i < buf.length := by
      have := List.mem_range.1 hi'
      omega
    rw [index, List.getElem?_eq_getElem hlt, ← List.getElem_eq_getD 0]
  have hall : (List.range (hi - lo)).map (fun i => buf.getD (hi - 1 - i) 0) =
      (part buf lo hi).reverse := by
    refine List.ext_getElem (by simp [length_part hhi]) ?_
    intro i hi₁ hi₂
    have hlt : i < hi - lo := by simpa using hi₁
    have hplace : lo + ((part buf lo hi).length - 1 - i) = hi - 1 - i := by
      rw [length_part hhi]
      omega
    rw [List.getElem_map, List.getElem_range, List.getElem_reverse]
    simp only [part, List.getElem_drop, List.getElem_take]
    have hlt' : hi - 1 - i < buf.length := by omega
    rw [← List.getElem_eq_getD (h := hlt') 0]
    congr 1
    exact hplace.symm
  rw [← hall]
  generalize List.range (hi - lo) = l at hone
  induction l with
  | nil => rfl
  | cons i l ih =>
      rw [List.mapM_cons, hone i List.mem_cons_self, pure_bind,
        ih fun j hj => hone j (List.mem_cons_of_mem _ hj)]
      rfl

end

/-! ### What is read is written back -/

theorem leBytes_leNat (b : List UInt8) : leBytes b.length (leNat b) = b := by
  induction b with
  | nil => rfl
  | cons x b ih =>
      have hlow : UInt8.ofNat (x.toNat + 256 * leNat b) = x := by
        refine UInt8.toNat_inj.1 ?_
        have := x.toNat_lt
        rw [UInt8.toNat_ofNat']
        omega
      have hrest : (x.toNat + 256 * leNat b) / 256 = leNat b := by
        have := x.toNat_lt
        omega
      rw [List.length_cons, leBytes_succ, leNat_cons, hlow, hrest, ih]

theorem writeOffset_leNat {b : List UInt8} (h : b.length = 4) : writeOffset (leNat b) = b := by
  rw [writeOffset, ← h, leBytes_leNat]

/-- An offset is written back as it was. -/
theorem writeOffset_offsetAt {buf : List UInt8} {lo : ℕ} (h : lo + 4 ≤ buf.length) :
    writeOffset (offsetAt buf lo) = part buf lo (lo + 4) := by
  refine writeOffset_leNat ?_
  rw [length_part h]
  omega

theorem leNat_lt (b : List UInt8) : leNat b < 256 ^ b.length := by
  have hread := leNat_leBytes b.length (leNat b)
  rw [leBytes_leNat] at hread
  rw [hread]
  exact Nat.mod_lt _ (by positivity)

theorem uint64Bytes_ofNat {b : List UInt8} (h : b.length = 8) :
    uint64Bytes (UInt64.ofNat (leNat b)) = b := by
  have hlt : leNat b < 2 ^ 64 := by
    have := leNat_lt b
    rwa [h] at this
  rw [uint64Bytes_eq, UInt64.toNat_ofNat', Nat.mod_eq_of_lt hlt, ← h, leBytes_leNat]

theorem toList_copyBytes {n : ℕ} {b : List UInt8} (h : b.length = n) :
    (copyBytes n b).toList = b := by
  refine List.ext_getElem (by simp [h]) ?_
  intro i _ hi
  simp [copyBytes, List.getElem?_eq_getElem hi]

/-- A part that is copied into an array is written back as it was. -/
theorem toList_copyBytes_part {buf : List UInt8} {n lo hi : ℕ} (hhi : hi ≤ buf.length)
    (h : hi = lo + n) : (copyBytes n (part buf lo hi)).toList = part buf lo hi := by
  refine toList_copyBytes ?_
  rw [length_part hhi]
  omega

/-! ### Decoders that return -/

/-- The decoder returns, with a value that meets the condition or with an error. -/
def Returns (x : Decoder ε α) (post : α → Prop) : Prop :=
  ∃ r, x.run = some r ∧ ∀ a, r = .ok a → post a

section

variable {x : Decoder ε α} {f : α → Decoder ε β} {post post' : α → Prop}

theorem Returns.ne_none (h : Returns x post) : x.run ≠ none := by
  obtain ⟨r, hr, -⟩ := h
  simp [hr]

theorem Returns.of_run {a : α} (h : Returns x post) (ha : x.run = some (.ok a)) : post a := by
  obtain ⟨r, hr, hpost⟩ := h
  exact hpost a (Option.some.inj (hr.symm.trans ha))

theorem returns_pure {a : α} (h : post a) : Returns (pure a : Decoder ε α) post := by
  refine ⟨.ok a, rfl, ?_⟩
  intro a' ha'
  cases ha'
  exact h

theorem returns_throw (err : ε) : Returns (throw err : Decoder ε α) post :=
  ⟨.error err, rfl, fun _ ha => nomatch ha⟩

theorem Returns.mono (h : Returns x post) (hpost : ∀ a, post a → post' a) : Returns x post' := by
  obtain ⟨r, hr, hr'⟩ := h
  exact ⟨r, hr, fun a ha => hpost a (hr' a ha)⟩

/-- The rule for two decoders, one behind the other. -/
theorem Returns.bind {post' : β → Prop} (h : Returns x post)
    (hf : ∀ a, post a → Returns (f a) post') : Returns (x >>= f) post' := by
  obtain ⟨r, hr, hpost⟩ := h
  have hx : x = ExceptT.mk (some r) := hr
  subst hx
  cases r with
  | error err => exact ⟨.error err, rfl, fun _ ha => nomatch ha⟩
  | ok a => exact hf a (hpost a rfl)

/-- The rule for a check. -/
theorem returns_ite_throw {c : Prop} [Decidable c] {err : ε} (h : ¬c → Returns x post) :
    Returns (if c then throw err else x) post := by
  split
  · exact returns_throw err
  · next hc => exact h hc

/-- The rule for a slice in range. -/
theorem returns_slice {buf : List UInt8} {lo hi : ℕ} {f : List UInt8 → Decoder ε α} (h : lo ≤ hi)
    (hhi : hi ≤ buf.length) (hf : Returns (f (part buf lo hi)) post) :
    Returns (slice buf lo hi >>= f) post := by
  rwa [slice_eq_part h hhi, pure_bind]

theorem returns_sliceFrom {buf : List UInt8} {lo : ℕ} {f : List UInt8 → Decoder ε α}
    (h : lo ≤ buf.length) (hf : Returns (f (part buf lo buf.length)) post) :
    Returns (sliceFrom buf lo >>= f) post :=
  returns_slice h le_rfl hf

theorem returns_readOffset {buf : List UInt8} {lo hi : ℕ} {f : ℕ → Decoder ε α}
    (hhi : hi ≤ buf.length) (h : hi = lo + 4) (hf : Returns (f (offsetAt buf lo)) post) :
    Returns (readOffset (part buf lo hi) >>= f) post := by
  rwa [readOffset_part hhi h, pure_bind]

theorem Returns.adapt {ε' : Type} (g : ε → ε') (h : Returns x post) :
    Returns (x.adapt g : Decoder ε' α) post := by
  obtain ⟨r, hr, hpost⟩ := h
  have hx : x = ExceptT.mk (some r) := hr
  subst hx
  cases r with
  | error err => exact ⟨.error (g err), rfl, fun _ ha => nomatch ha⟩
  | ok a => exact returns_pure (hpost a rfl)

/-- The rule for a loop. -/
theorem returns_mapM {l : List α} {f : α → Decoder ε β} {post : α → β → Prop}
    (h : ∀ a ∈ l, Returns (f a) (post a)) : Returns (l.mapM f) (List.Forall₂ post l) := by
  induction l with
  | nil => exact returns_pure .nil
  | cons a l ih =>
      rw [List.mapM_cons]
      refine (h a List.mem_cons_self).bind fun b hb => ?_
      refine (ih fun a' ha' => h a' (List.mem_cons_of_mem _ ha')).bind fun bs hbs => ?_
      exact returns_pure (.cons hb hbs)

end

/-! ### Lists -/

/-- Pieces of one size, one behind the other. -/
theorem flatten_parts {buf : List UInt8} {w : ℕ} (n : ℕ) (h : n * w ≤ buf.length) :
    ((List.range n).map fun i => part buf (i * w) ((i + 1) * w)).flatten = part buf 0 (n * w) := by
  induction n with
  | zero => simp [part]
  | succ n ih =>
      have hle : n * w ≤ (n + 1) * w := Nat.mul_le_mul_right w (Nat.le_succ n)
      rw [List.range_succ, List.map_append, List.flatten_append, ih (hle.trans h),
        List.map_singleton, List.flatten_singleton, part_append_part (Nat.zero_le _) hle h]

variable {err : String → ε}

theorem returns_divideInt2 (a b max : ℕ) :
    Returns (divideInt2 err a b max) fun n => n ≤ max ∧ a = n * b := by
  refine returns_ite_throw fun hmod => returns_ite_throw fun hmax => returns_pure ⟨by omega, ?_⟩
  rw [Nat.div_mul_cancel (Nat.dvd_of_mod_eq_zero (not_not.1 hmod))]

theorem returns_decodeDynamicLength (buf : List UInt8) (maxSize : ℕ) :
    Returns (decodeDynamicLength err buf maxSize) fun n => n ≤ maxSize ∧
      (buf = [] ∧ n = 0 ∨ 4 ≤ buf.length ∧ leNat (buf.take 4) = 4 * n) := by
  rw [decodeDynamicLength]
  split
  · next hempty =>
      have hnil : buf = [] := List.eq_nil_of_length_eq_zero hempty
      exact returns_pure ⟨Nat.zero_le _, .inl ⟨hnil, rfl⟩⟩
  · refine returns_ite_throw fun hshort => ?_
    rw [readOffset, if_pos (by omega), pure_bind]
    refine returns_ite_throw fun hmod => returns_ite_throw fun hmax => ?_
    exact returns_pure ⟨by omega, .inr ⟨by omega, by omega⟩⟩

theorem returns_safeReadOffset (buf : List UInt8) :
    Returns (safeReadOffset err buf) fun p => buf = writeOffset p.1 ++ p.2 := by
  refine returns_ite_throw fun hshort => ?_
  rw [readOffset, if_pos (by omega), pure_bind, sliceFrom_eq_part (by omega), pure_bind]
  refine returns_pure ?_
  have hlen : (buf.take 4).length = 4 := by
    rw [List.length_take]
    omega
  rw [writeOffset_leNat hlen, part, List.take_length, List.take_append_drop]

/-- **The elements from an offset on are the bytes from there on, cut into pieces**, and the offsets
that were read are those of the pieces. -/
theorem returns_unmarshalDynamicFrom {src : List UInt8} {f : List UInt8 → Decoder ε β}
    {post : List UInt8 → β → Prop} (hf : ∀ b, Returns (f b) (post b)) :
    ∀ (length offset : ℕ) (dst : List UInt8),
      Returns (unmarshalDynamicFrom err src f (length + 1) offset dst) fun xs =>
        ∃ item items, List.Forall₂ post (item :: items) xs ∧ items.length = length ∧
          offset ≤ src.length ∧ part src offset src.length = (item :: items).flatten ∧
          writeOffsets (offset + item.length) items <+: dst := by
  intro length
  induction length with
  | zero =>
      intro offset dst
      rw [unmarshalDynamicFrom, if_pos rfl, pure_bind]
      refine returns_ite_throw fun hoffset => returns_ite_throw fun _ => ?_
      rw [slice_eq_part (by omega) le_rfl, pure_bind]
      refine (hf _).bind fun x hx => ?_
      rw [unmarshalDynamicFrom, pure_bind]
      refine returns_pure ⟨_, [], .cons hx .nil, rfl, by omega, ?_, List.nil_prefix⟩
      rw [List.flatten_singleton]
  | succ length ih =>
      intro offset dst
      rw [unmarshalDynamicFrom, if_neg (by omega)]
      refine (returns_safeReadOffset dst).bind fun p hp => ?_
      obtain ⟨endOffset, rest⟩ := p
      dsimp only at hp ⊢
      refine returns_ite_throw fun hoffset => returns_ite_throw fun hend => ?_
      rw [slice_eq_part (by omega) (by omega), pure_bind]
      refine (hf _).bind fun x hx => ?_
      refine (ih endOffset rest).bind fun xs hxs => ?_
      obtain ⟨item, items, hall, hlength, -, hparts, hoffsets⟩ := hxs
      have hlen : offset + (part src offset endOffset).length = endOffset := by
        rw [length_part (by omega)]
        omega
      refine returns_pure ⟨_, item :: items, .cons hx hall, by rw [List.length_cons, hlength],
        by omega, ?_, ?_⟩
      · rw [List.flatten_cons, ← hparts, part_append_part (by omega) (by omega) le_rfl]
      · rw [hlen, hp, writeOffsets, List.prefix_append_right_inj]
        exact hoffsets

/-- **An accepted list is written back as it was**, if its first offset is the one behind the
offsets. -/
theorem returns_unmarshalDynamic {src : List UInt8} {f : List UInt8 → Decoder ε β}
    {post : List UInt8 → β → Prop} {n : ℕ} (hf : ∀ b, Returns (f b) (post b))
    (hlen : 4 ≤ src.length) (hoffset : leNat (src.take 4) = 4 * n) (hn : n ≠ 0) :
    Returns (unmarshalDynamic err src n f) fun xs =>
      ∃ items, List.Forall₂ post items xs ∧ items.length = n ∧ src = writeList items := by
  obtain ⟨length, rfl⟩ := Nat.exists_eq_succ_of_ne_zero hn
  rw [unmarshalDynamic, if_neg hn, readOffset, if_pos hlen, pure_bind, sliceFrom_eq_part hlen,
    pure_bind, hoffset]
  refine (returns_unmarshalDynamicFrom hf length _ _).mono fun xs hxs => ?_
  obtain ⟨item, items, hall, hlength, hle, hparts, rest, hrest⟩ := hxs
  refine ⟨item :: items, hall, by rw [List.length_cons, hlength], ?_⟩
  have hfour : (src.take 4).length = 4 := by
    rw [List.length_take]
    omega
  -- the offsets are the bytes before the first element, and the pieces are the bytes from there on
  have hsrc : src = writeOffsets (4 * (length + 1)) (item :: items) ++ rest := by
    have hsplit : src = src.take 4 ++ part src 4 src.length := by
      rw [part, List.take_length, List.take_append_drop]
    rw [hsplit, ← hrest, writeOffsets, List.append_assoc, ← hoffset, writeOffset_leNat hfour]
  have hdrop : part src (4 * (length + 1)) src.length = rest := by
    have hoffsets : (writeOffsets (4 * (length + 1)) (item :: items)).length =
        4 * (length + 1) := by
      rw [length_writeOffsets, List.length_cons, hlength]
    have hdrop : (writeOffsets (4 * (length + 1)) (item :: items) ++ rest).drop
        (writeOffsets (4 * (length + 1)) (item :: items)).length = rest := List.drop_left
    rwa [hoffsets, ← hsrc, ← List.take_length (l := src)] at hdrop
  rw [writeList, List.length_cons, hlength, ← hparts, hdrop]
  exact hsrc

end Ssz
