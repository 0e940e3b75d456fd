import PinKeeper.Proofs.Text.Split
import PinKeeper.Proofs.Web.Percent
import PinKeeper.Web.Form

/-!
# Proofs/Web/Form — parameters that are read back

A name or a value is written without an ampersand or an equals sign (`isPlain_or_of_mem`), so that
none of its characters ends it, and its bytes are read back (`bytes_component`).  So a parameter is
read back (`parameter?_parameter`), and then all of them are, with nothing in between
(`decode?_encode`).  Parameters that are written behind others add theirs and change none of the
others (`decode?_append`).
-/

namespace PinKeeper.Web.Form

/-! ## Names and values -/

/-- What a byte is written with: nothing that separates. -/
theorem isPlain_or_of_mem {b : UInt8} {c : Char} (h : c ∈ encodeByte b) :
    isPlain c = true ∨ c = '+' ∨ c = '%' := by
  have hhex : ∀ n < 16, isPlain (Text.hexUpper n) = true := by decide
  have hb : b.toNat < 256 := b.toNat_lt
  rw [encodeByte] at h
  split at h
  · exact .inr (.inl (List.mem_singleton.1 h))
  rw [Percent.encodeByte] at h
  split at h
  · next hkept =>
    rw [Bool.and_eq_true] at hkept
    rw [List.mem_singleton.1 h]
    exact .inl hkept.2
  · simp only [Percent.escape, List.mem_cons, List.not_mem_nil, or_false] at h
    rcases h with rfl | rfl | rfl
    · exact .inr (.inr rfl)
    · exact .inl (hhex _ (by omega))
    · exact .inl (hhex _ (by omega))

theorem notMem_component {sep : Char} (hsep : ¬(isPlain sep = true ∨ sep = '+' ∨ sep = '%'))
    (s : String) : sep ∉ component s := by
  intro h
  obtain ⟨b, -, hb⟩ := List.mem_flatMap.1 h
  exact hsep (isPlain_or_of_mem hb)

theorem bytes_cons {c : Char} (hplus : c ≠ '+') (hpercent : c ≠ '%') (rest : List Char) :
    bytes (c :: rest) = String.utf8EncodeChar c ++ bytes rest := by
  rw [bytes, List.map_cons, if_neg hplus, Percent.decode_cons, bytes]
  rw [beq_eq_false_iff_ne.2 hpercent, Bool.false_and]

/-- **A byte is read back.** -/
theorem bytes_encodeByte (b : UInt8) (rest : List Char) :
    bytes (encodeByte b ++ rest) = b :: bytes rest := by
  have hb : b.toNat < 256 := b.toNat_lt
  rw [encodeByte]
  split
  · next hspace =>
    have hread : bytes ('+' :: rest) = 0x20 :: bytes rest := by
      rw [bytes, List.map_cons, if_pos rfl, Percent.decode_cons rfl]
      rfl
    rw [List.singleton_append, hread, ← UInt8.ofNat_toNat (x := b), hspace]
    rfl
  rw [Percent.encodeByte]
  split
  · next hkept =>
    rw [Bool.and_eq_true, decide_eq_true_iff] at hkept
    obtain ⟨hascii, hplain⟩ := hkept
    have hne {c : Char} (hc : isPlain c = false) : Char.ofNat b.toNat ≠ c := by
      rintro rfl
      rw [hc] at hplain
      cases hplain
    have hcode : (Char.ofNat b.toNat).toNat = b.toNat :=
      (by decide : ∀ n < 0x80, (Char.ofNat n).toNat = n) b.toNat hascii
    rw [List.singleton_append, bytes_cons (hne (by decide)) (hne (by decide)),
      Percent.utf8EncodeChar_of_lt (by rw [hcode]; exact hascii), hcode, UInt8.ofNat_toNat]
    rfl
  · have hkept : ∀ c ∈ Percent.escape b, (if c = '+' then ' ' else c) = c := by
      have hhex : ∀ n < 16, Text.hexUpper n ≠ '+' := by decide
      intro c hc
      simp only [Percent.escape, List.mem_cons, List.not_mem_nil, or_false] at hc
      rcases hc with rfl | rfl | rfl
      · rfl
      · exact if_neg (hhex _ (by omega))
      · exact if_neg (hhex _ (by omega))
    rw [bytes, List.map_append, List.map_congr_left hkept, List.map_id', Percent.decode_escape,
      bytes]

/-- **The bytes of a name or a value are read back.** -/
theorem bytes_component (s : String) : bytes (component s) = s.toUTF8.toList := by
  rw [component]
  induction s.toUTF8.toList with
  | nil => rfl
  | cons b bs ih => rw [List.flatMap_cons, bytes_encodeByte, ih]

theorem decoded?_component (s : String) :
    Text.decoded? ⟨(bytes (component s)).toArray⟩ = some s := by
  rw [Percent.decoded?_eq_some_iff, bytes_component, ← Percent.toList_toUTF8, String.ofList_toList]

/-! ## Parameters -/

/-- **A parameter is read back**: the first equals sign is the one between name and value. -/
theorem parameter?_parameter (p : String × String) : parameter? (parameter p) = some p := by
  have hname : ∀ c ∈ component p.1, (c != '=') = true := by
    intro c hc
    rw [bne_iff_ne]
    rintro rfl
    exact notMem_component (by decide) p.1 hc
  have htake : (parameter p).takeWhile (· != '=') = component p.1 := by
    rw [parameter, List.takeWhile_append_of_pos hname, List.takeWhile_cons_of_neg (by decide),
      List.append_nil]
  have hdrop : ((parameter p).dropWhile (· != '=')).drop 1 = component p.2 := by
    rw [parameter, List.dropWhile_append_of_pos hname, List.dropWhile_cons_of_neg (by decide)]
    rfl
  rw [parameter?, htake, hdrop, decoded?_component, decoded?_component]

theorem ampersand_notMem_parameter (p : String × String) : '&' ∉ parameter p := by
  rw [parameter, List.mem_append, List.mem_cons, not_or, not_or]
  exact ⟨notMem_component (by decide) p.1, by decide, notMem_component (by decide) p.2⟩

theorem decode?_parameter (p : String × String) : decode? (parameter p) = some [p] := by
  have hne : (parameter p).isEmpty = false := by
    rw [parameter, List.isEmpty_eq_false_iff]
    exact List.append_ne_nil_of_right_ne_nil _ (List.cons_ne_nil _ _)
  rw [decode?, Text.splitAt_of_notMem (ampersand_notMem_parameter p),
    List.filter_cons_of_pos (by rw [hne]; rfl), List.filter_nil, List.mapM_cons,
    parameter?_parameter]
  rfl

/-- **Parameters behind an ampersand are read apart from those in front of it.** -/
theorem decode?_append (old new : List Char) : decode? (old ++ '&' :: new)
    = (decode? old).bind fun ps => (decode? new).map (ps ++ ·) := by
  rw [decode?, Text.splitAt_append, List.filter_append, List.mapM_append]
  simp only [decode?, Option.map_eq_bind]
  rfl

/-- **All parameters are read back**, and no others. -/
theorem decode?_encode : ∀ ps : List (String × String), decode? (encode ps) = some ps
  | [] => rfl
  | [p] => decode?_parameter p
  | p :: q :: ps => by
    rw [encode, decode?_append, decode?_parameter, decode?_encode (q :: ps)]
    · rfl
    · exact nofun

end PinKeeper.Web.Form
