import Mathlib.Data.List.Basic
import PinKeeper.Web.Percent

/-!
# Proofs/Web/Percent — what is written is read back

A text is written byte by byte, so the first thing to know is that its bytes are those of its
characters in order (`toList_toUTF8`).  Then a text of characters that are kept is written as it is
(`encode_of_kept`), and a byte that is escaped is read back (`decode_escape`).

A percent sign may be kept, as in paths.  Then what is read back is what the text itself is read as
(`decode_encode`): that is the text unless there is an escape in it (`decode_of_not_hasEscape`), and
it has fewer bytes if there is one (`length_decode_lt`).  Reading goes escape by escape and
character by character, and `reading_induction` follows it.
-/

namespace PinKeeper.Web.Percent

/-! ## Bytes -/

/-- The bytes of an array are read off from a place to the end. -/
theorem toList_loop (b : ByteArray) : ∀ (n i : Nat) (read : List UInt8), b.size - i = n →
    ByteArray.toList.loop b i read = read.reverse ++ b.data.toList.drop i
  | 0, i, read, hn => by
    have hlength : b.data.toList.length ≤ i := by
      rw [Array.length_toList]
      exact Nat.sub_eq_zero_iff_le.1 hn
    rw [ByteArray.toList.loop, if_neg (by omega), List.drop_eq_nil_of_le hlength, List.append_nil]
  | n + 1, i, read, hn => by
    have hi : i < b.size := by omega
    have hlength : i < b.data.toList.length := by
      rw [Array.length_toList]
      exact hi
    have hget : b.get! i = b.data.toList[i] := by
      rw [ByteArray.get!, getElem!_pos b.data i hi, Array.getElem_toList]
    rw [ByteArray.toList.loop, if_pos hi, toList_loop b n (i + 1) _ (by omega), List.reverse_cons,
      List.append_assoc, List.drop_eq_getElem_cons hlength, hget]
    rfl

theorem toList_eq (b : ByteArray) : b.toList = b.data.toList :=
  toList_loop b b.size 0 [] rfl

/-- **The bytes of a text are those of its characters.** -/
theorem toList_toUTF8 (cs : List Char) :
    (String.ofList cs).toUTF8.toList = cs.flatMap String.utf8EncodeChar := by
  rw [String.toUTF8_eq_toByteArray, String.toByteArray_ofList, toList_eq, List.utf8Encode,
    List.toList_data_toByteArray]

/-! ## Characters -/

theorem utf8EncodeChar_of_lt {c : Char} (h : c.toNat < 0x80) :
    String.utf8EncodeChar c = [UInt8.ofNat c.toNat] := by
  have hle : c.val.toNat ≤ 127 := Nat.le_of_lt_succ h
  rw [String.utf8EncodeChar, if_pos hle]
  rfl

/-- The bytes of a character that is not ASCII are none of an ASCII character. -/
theorem le_of_mem_utf8EncodeChar {c : Char} (h : ¬c.toNat < 0x80) {b : UInt8}
    (hb : b ∈ String.utf8EncodeChar c) : 0x80 ≤ b.toNat := by
  have hlarge : ¬c.val.toNat ≤ 127 := fun hle => h (Nat.lt_succ_of_le hle)
  rw [String.utf8EncodeChar, if_neg hlarge] at hb
  split at hb
  · simp only [List.mem_cons, List.not_mem_nil, or_false] at hb
    rcases hb with rfl | rfl <;> simp <;> omega
  split at hb
  · simp only [List.mem_cons, List.not_mem_nil, or_false] at hb
    rcases hb with rfl | rfl | rfl <;> simp <;> omega
  · simp only [List.mem_cons, List.not_mem_nil, or_false] at hb
    rcases hb with rfl | rfl | rfl | rfl <;> simp <;> omega

variable {keep : Char → Bool}

/-- Text that a character is written as. -/
def encodeChar (keep : Char → Bool) (c : Char) : List Char :=
  (String.utf8EncodeChar c).flatMap (encodeByte keep)

theorem encode_ofList (cs : List Char) :
    encode keep (String.ofList cs) = cs.flatMap (encodeChar keep) := by
  rw [encode, toList_toUTF8, List.flatMap_assoc]
  rfl

theorem encodeChar_of_kept {c : Char} (hascii : c.toNat < 0x80) (hkeep : keep c = true) :
    encodeChar keep c = [c] := by
  have hbyte : (UInt8.ofNat c.toNat).toNat = c.toNat :=
    Nat.mod_eq_of_lt (Nat.lt_trans hascii (by decide))
  rw [encodeChar, utf8EncodeChar_of_lt hascii, List.flatMap_singleton, encodeByte, hbyte,
    Char.ofNat_toNat, hkeep, decide_eq_true hascii]
  rfl

theorem encodeChar_of_not_kept {c : Char} (h : ¬(c.toNat < 0x80 ∧ keep c = true)) :
    encodeChar keep c = (String.utf8EncodeChar c).flatMap escape := by
  refine List.flatMap_congr fun b hb => if_neg ?_
  rw [Bool.and_eq_true, decide_eq_true_iff]
  rintro ⟨hlow, hkeep⟩
  by_cases hascii : c.toNat < 0x80
  · rw [utf8EncodeChar_of_lt hascii, List.mem_singleton] at hb
    have hbyte : b.toNat = c.toNat := by
      rw [hb]
      exact Nat.mod_eq_of_lt (Nat.lt_trans hascii (by decide))
    rw [hbyte, Char.ofNat_toNat] at hkeep
    exact h ⟨hascii, hkeep⟩
  · exact absurd (le_of_mem_utf8EncodeChar hascii hb) (Nat.not_le.2 hlow)

/-- **What is kept stands for itself.** -/
theorem encode_of_kept {cs : List Char} (h : ∀ c ∈ cs, c.toNat < 0x80 ∧ keep c = true) :
    encode keep (String.ofList cs) = cs := by
  have hchar : ∀ c ∈ cs, encodeChar keep c = [c] := fun c hc =>
    encodeChar_of_kept (h c hc).1 (h c hc).2
  rw [encode_ofList]
  exact (List.flatMap_congr hchar).trans (List.flatMap_singleton' cs)

/-- A character that is none of escapes is written only where it stands. -/
theorem notMem_encode {sep : Char} (hpercent : sep ≠ '%') (hhex : ∀ n < 16, Text.hexUpper n ≠ sep)
    {cs : List Char} (h : sep ∉ cs) : sep ∉ encode keep (String.ofList cs) := by
  rw [encode_ofList, List.mem_flatMap]
  rintro ⟨c, hc, hmem⟩
  by_cases hkept : c.toNat < 0x80 ∧ keep c = true
  · rw [encodeChar_of_kept hkept.1 hkept.2, List.mem_singleton] at hmem
    exact h (hmem ▸ hc)
  · rw [encodeChar_of_not_kept hkept] at hmem
    obtain ⟨b, -, hb⟩ := List.mem_flatMap.1 hmem
    have hbyte : b.toNat < 256 := b.toNat_lt
    simp only [escape, List.mem_cons, List.not_mem_nil, or_false] at hb
    rcases hb with hb | hb | hb
    · exact hpercent hb
    · exact hhex _ (by omega) hb.symm
    · exact hhex _ (Nat.mod_lt _ (by decide)) hb.symm

/-! ## Reading -/

theorem hexValue?_hexUpper : ∀ n < 16, Text.hexValue? (Text.hexUpper n) = some n := by decide

/-- **An escape is read as its byte.** -/
theorem decode_escape (b : UInt8) (rest : List Char) :
    decode (escape b ++ rest) = b :: decode rest := by
  have hb : b.toNat < 256 := b.toNat_lt
  have hhigh := hexValue?_hexUpper (b.toNat / 16) (by omega)
  have hlow := hexValue?_hexUpper (b.toNat % 16) (by omega)
  have hvalue : 16 * (b.toNat / 16) + b.toNat % 16 = b.toNat := Nat.div_add_mod _ _
  simp [escape, decode, hhigh, hlow, hvalue]

theorem decode_flatMap_escape (bs : List UInt8) (rest : List Char) :
    decode (bs.flatMap escape ++ rest) = bs ++ decode rest := by
  induction bs with
  | nil => rfl
  | cons b bs ih => rw [List.flatMap_cons, List.append_assoc, decode_escape, ih, List.cons_append]

/-- A hexadecimal digit comes first. -/
def startsHex (cs : List Char) : Bool := cs.head?.any fun c => (Text.hexValue? c).isSome

/-- Two hexadecimal digits come first, as they do after a percent sign that starts an escape. -/
def startsEscape : List Char → Bool
  | [] => false
  | c :: cs => (Text.hexValue? c).isSome && startsHex cs

/-- Some percent sign starts an escape. -/
def hasEscape : List Char → Bool
  | [] => false
  | c :: cs => (c == '%' && startsEscape cs) || hasEscape cs

/-- What comes next is an escape, with the values of its digits, or stands for itself. -/
theorem decode_cons {c : Char} {rest : List Char} (h : (c == '%' && startsEscape rest) = false) :
    decode (c :: rest) = String.utf8EncodeChar c ++ decode rest := by
  by_cases hc : c = '%'
  · subst hc
    match rest, h with
    | [], _ | [_], _ => simp [decode]
    | x :: y :: rest, h =>
      rw [decode]
      split
      · next hx hy => simp [startsEscape, startsHex, hx, hy] at h
      · rfl
  · rw [decode]
    exact fun x y rest heq _ => hc heq

/-- A text is read escape by escape and character by character. -/
@[elab_as_elim]
theorem reading_induction {P : List Char → Prop} (nil : P [])
    (escape : ∀ x y rest high low, Text.hexValue? x = some high → Text.hexValue? y = some low →
      P rest → P ('%' :: x :: y :: rest))
    (plain : ∀ c rest, (c == '%' && startsEscape rest) = false → P rest → P (c :: rest))
    (cs : List Char) : P cs := by
  induction cs using decode.induct with
  | case1 x y rest high low hy hx ih => exact escape x y rest high low hx hy ih
  | case2 x y rest hnone ih =>
    refine plain _ _ ?_ ih
    cases hx : Text.hexValue? x with
    | none => simp [startsEscape, hx]
    | some high =>
      cases hy : Text.hexValue? y with
      | none => simp [startsEscape, startsHex, hy]
      | some low => exact absurd hy (hnone high low hx)
  | case3 c rest hshort ih =>
    refine plain c rest ?_ ih
    match rest, hshort with
    | [], _ => simp [startsEscape]
    | [x], _ => simp [startsEscape, startsHex]
    | x :: y :: rest, hshort =>
      have hc : c ≠ '%' := fun hc => hshort x y rest hc rfl
      simp [hc]
  | case4 => exact nil

@[simp] theorem decode_nil : decode [] = [] := rfl

theorem length_decode_pos {cs : List Char} (h : cs ≠ []) : 0 < (decode cs).length := by
  induction cs using reading_induction with
  | nil => exact absurd rfl h
  | escape x y rest high low hx hy ih =>
    rw [decode, hx, hy]
    exact Nat.succ_pos _
  | plain c rest hc ih =>
    rw [decode_cons hc, List.length_append, String.length_utf8EncodeChar]
    exact Nat.add_pos_left (Char.utf8Size_pos c) _

/-- **A text without escapes is read as it stands.** -/
theorem decode_of_not_hasEscape {cs : List Char} (h : hasEscape cs = false) :
    decode cs = cs.flatMap String.utf8EncodeChar := by
  induction cs with
  | nil => rfl
  | cons c cs ih =>
    obtain ⟨hc, hcs⟩ := Bool.or_eq_false_iff.1 h
    rw [decode_cons hc, ih hcs, List.flatMap_cons]

/-- Number of the bytes of a text. -/
def size (cs : List Char) : Nat := (cs.flatMap String.utf8EncodeChar).length

@[simp] theorem size_nil : size [] = 0 := rfl

@[simp] theorem size_cons (c : Char) (cs : List Char) : size (c :: cs) = c.utf8Size + size cs := by
  rw [size, List.flatMap_cons, List.length_append, String.length_utf8EncodeChar, size]

@[simp] theorem size_append (cs ds : List Char) : size (cs ++ ds) = size cs + size ds := by
  rw [size, List.flatMap_append, List.length_append, size, size]

theorem size_le_of_sublist {cs ds : List Char} (h : cs.Sublist ds) : size cs ≤ size ds := by
  induction h with
  | slnil => exact Nat.le_refl 0
  | cons c _ ih =>
    rw [size_cons]
    exact Nat.le_add_left_of_le ih
  | cons_cons c _ ih =>
    rw [size_cons, size_cons]
    exact Nat.add_le_add_left ih _

/-- What is left of a text is all of it if it has all the bytes. -/
theorem eq_of_sublist_of_size_le {cs ds : List Char} (h : cs.Sublist ds)
    (hsize : size ds ≤ size cs) : cs = ds := by
  induction h with
  | slnil => rfl
  | cons c hsub ih =>
    have hpos := Char.utf8Size_pos c
    have hle := size_le_of_sublist hsub
    rw [size_cons] at hsize
    omega
  | cons_cons c _ ih =>
    rw [size_cons, size_cons] at hsize
    rw [ih (Nat.le_of_add_le_add_left hsize)]

/-- Reading makes no text longer. -/
theorem length_decode_le (cs : List Char) : (decode cs).length ≤ size cs := by
  induction cs using reading_induction with
  | nil => exact Nat.le_refl 0
  | escape x y rest high low hx hy ih =>
    have hpercent := Char.utf8Size_pos '%'
    rw [decode, hx, hy]
    simp only [List.length_cons, size_cons]
    omega
  | plain c rest hc ih =>
    rw [decode_cons hc, List.length_append, size_cons, String.length_utf8EncodeChar]
    exact Nat.add_le_add_left ih _

/-- **A text with an escape is read as fewer bytes.** -/
theorem length_decode_lt {cs : List Char} (h : hasEscape cs = true) :
    (decode cs).length < size cs := by
  induction cs using reading_induction with
  | nil => cases h
  | escape x y rest high low hx hy ih =>
    have hrest := length_decode_le rest
    have hpercent := Char.utf8Size_pos '%'
    have hhigh := Char.utf8Size_pos x
    rw [decode, hx, hy]
    simp only [List.length_cons, size_cons]
    omega
  | plain c rest hc ih =>
    rw [hasEscape, hc, Bool.false_or] at h
    rw [decode_cons hc, List.length_append, size_cons, String.length_utf8EncodeChar]
    exact Nat.add_lt_add_left (ih h) _

/-- Bytes are a text if they are the bytes of it. -/
theorem decoded?_eq_some_iff {bs : List UInt8} {s : String} :
    Text.decoded? ⟨bs.toArray⟩ = some s ↔ bs = s.toList.flatMap String.utf8EncodeChar := by
  have hbytes : s.toList.flatMap String.utf8EncodeChar = s.toByteArray.data.toList := by
    rw [← toList_toUTF8, String.ofList_toList, String.toUTF8_eq_toByteArray, toList_eq]
  rw [hbytes, Text.decoded?, String.fromUTF8?]
  constructor
  · intro h
    split at h
    · rw [← Option.some.inj h]
      rfl
    · cases h
  · rintro rfl
    exact dif_pos s.isValidUTF8

/-! ## Reading what was written -/

/-- The characters that make up escapes are kept. -/
def KeepsEscapes (keep : Char → Bool) : Prop :=
  ∀ c, c = '%' ∨ (Text.hexValue? c).isSome = true → c.toNat < 0x80 ∧ keep c = true

section Kept

variable (hkeep : KeepsEscapes keep)

include hkeep

/-- A character stands for itself, or it is none of an escape and what is written begins with a
percent sign. -/
theorem encodeChar_cases (c : Char) : (c.toNat < 0x80 ∧ encodeChar keep c = [c]) ∨
    (c ≠ '%' ∧ (Text.hexValue? c).isSome = false ∧
      encodeChar keep c = (String.utf8EncodeChar c).flatMap escape ∧
      (encodeChar keep c).head? = some '%') := by
  by_cases h : c.toNat < 0x80 ∧ keep c = true
  · exact .inl ⟨h.1, encodeChar_of_kept h.1 h.2⟩
  · have hne : String.utf8EncodeChar c ≠ [] := by
      rw [← List.length_pos_iff, String.length_utf8EncodeChar]
      exact Char.utf8Size_pos c
    obtain ⟨b, bs, hbytes⟩ := List.exists_cons_of_ne_nil hne
    have hescape := encodeChar_of_not_kept h
    refine .inr ⟨fun hc => h (hkeep c (.inl hc)), ?_, hescape, ?_⟩
    · exact Bool.eq_false_iff.2 fun hc => h (hkeep c (.inr hc))
    · rw [hescape, hbytes]
      rfl

theorem startsHex_encode (cs : List Char) :
    startsHex (encode keep (String.ofList cs)) = startsHex cs := by
  rw [encode_ofList]
  cases cs with
  | nil => rfl
  | cons c cs =>
    rw [List.flatMap_cons, startsHex, startsHex, List.head?_append, List.head?_cons]
    rcases encodeChar_cases hkeep c with ⟨-, hc⟩ | ⟨-, hhex, -, hhead⟩
    · rw [hc]
      rfl
    · rw [hhead, Option.some_or, Option.any_some, Option.any_some, hhex]
      decide

theorem startsEscape_encode (cs : List Char) :
    startsEscape (encode keep (String.ofList cs)) = startsEscape cs := by
  cases cs with
  | nil => rw [encode_ofList, List.flatMap_nil]
  | cons c cs =>
    have hrest := startsHex_encode hkeep cs
    rw [encode_ofList] at hrest ⊢
    rw [List.flatMap_cons, startsEscape]
    rcases encodeChar_cases hkeep c with ⟨-, hc⟩ | ⟨-, hhex, -, hhead⟩
    · rw [hc, List.singleton_append, startsEscape, hrest]
    · obtain ⟨rest, hwritten⟩ := List.head?_eq_some_iff.1 hhead
      rw [hwritten, List.cons_append, startsEscape, hhex, Bool.false_and]
      rfl

/-- **What is written is read as the text itself is.** -/
theorem decode_encode (cs : List Char) : decode (encode keep (String.ofList cs)) = decode cs := by
  induction cs using reading_induction with
  | nil => rw [encode_ofList, List.flatMap_nil]
  | escape x y rest high low hx hy ih =>
    have hkept {c : Char} (hc : c = '%' ∨ (Text.hexValue? c).isSome = true) :
        encodeChar keep c = [c] := encodeChar_of_kept (hkeep c hc).1 (hkeep c hc).2
    rw [encode_ofList] at ih ⊢
    rw [List.flatMap_cons, List.flatMap_cons, List.flatMap_cons, hkept (.inl rfl),
      hkept (.inr (by rw [hx]; rfl)), hkept (.inr (by rw [hy]; rfl)), List.singleton_append,
      List.singleton_append, List.singleton_append, decode, decode, hx, hy]
    exact congrArg _ ih
  | plain c rest hc ih =>
    have hrest := startsEscape_encode hkeep rest
    rw [encode_ofList] at ih hrest ⊢
    rw [List.flatMap_cons, decode_cons hc, ← ih]
    rcases encodeChar_cases hkeep c with ⟨-, hchar⟩ | ⟨-, -, hchar, -⟩
    · rw [hchar, List.singleton_append, decode_cons]
      rw [hrest]
      exact hc
    · rw [hchar, decode_flatMap_escape]

end Kept

end PinKeeper.Web.Percent
