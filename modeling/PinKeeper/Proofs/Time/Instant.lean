import Mathlib.Data.List.TakeWhile
import PinKeeper.Proofs.Text.Decimal
import PinKeeper.Time.Instant

/-!
# Proofs/Time/Instant — an instant reads back from its text

The text of an instant gives every field at its full width, so each of the readers takes exactly the
digits that were written, and the two readings differ only in what they pass over between the
fields, which here is nothing.  An instant is written at offset zero, where nothing is moved when it
is read (`settle_zero`).  So an instant of the years that are written in four digits is read back by
both readings (`strict?_text`, `relaxed?_text`), and whatever was read is an instant that clocks can
show (`valid_of_strict?`).
-/

namespace PinKeeper.Time

open Text

/-! ## Fields -/

/-- A field at full width is read as its number. -/
theorem digitRun_zeroPadded {least w n : Nat} {rest : List Char} (hw : 0 < w) (hn : n < 10 ^ w)
    (hleast : least ≤ w) :
    digitRun least w ((zeroPadded w n).toList ++ rest) = some (n, rest) := by
  have hlength := length_zeroPadded hw hn
  have hrun : (((zeroPadded w n).toList ++ rest).take w).takeWhile Char.isDigit
      = (zeroPadded w n).toList := by
    rw [List.take_left' hlength]
    exact List.takeWhile_eq_self_iff.2 fun _ => isDigit_of_mem_zeroPadded
  rw [digitRun, hrun, if_neg (by omega), ofDigits_zeroPadded, List.drop_left]

theorem fraction_zeroPadded {w n : Nat} {rest : List Char} (hw : 0 < w) (hw' : w ≤ 9)
    (hn : n < 10 ^ w) :
    fraction ((zeroPadded w n).toList ++ 'Z' :: rest)
      = some (n * Nat.pow 10 (9 - w), 'Z' :: rest) := by
  have hlength := length_zeroPadded hw hn
  have hends : EndsDigits (('Z' :: rest).take (9 - w)) := by
    cases 9 - w with
    | zero => exact fun c hc => nomatch hc
    | succ k =>
      rintro c hc
      obtain rfl := Option.mem_some_iff.1 hc
      rfl
  have hrun : (((zeroPadded w n).toList ++ 'Z' :: rest).take 9).takeWhile Char.isDigit
      = (zeroPadded w n).toList := by
    rw [List.take_append, hlength, List.take_of_length_le (hlength.trans_le hw')]
    exact takeWhile_isDigit_append (fun _ => isDigit_of_mem_zeroPadded) hends
  have hsome : (zeroPadded w n).toList.isEmpty = false := by
    rw [List.isEmpty_eq_false_iff, ← List.length_pos_iff, hlength]
    exact hw
  rw [fraction, hrun, hsome, if_neg Bool.false_ne_true, ofDigits_zeroPadded, hlength,
    List.drop_left' hlength]
  rfl

/-- **A fraction is read as it was written**, in whichever number of places. -/
theorem optionalFraction_fractionText {nanos : Nat} (h : nanos < 1000000000) (rest : List Char) :
    optionalFraction ((fractionText nanos).toList ++ 'Z' :: rest) = some (nanos, 'Z' :: rest) := by
  rw [fractionText]
  split
  · next hzero =>
    rw [hzero]
    rfl
  · split
    · next hmilli =>
      rw [String.toList_append]
      refine (fraction_zeroPadded (w := 3) (by decide) (by decide) (by omega)).trans ?_
      rw [Nat.div_mul_cancel (Nat.dvd_of_mod_eq_zero hmilli)]
    · split
      · next hmicro =>
        rw [String.toList_append]
        refine (fraction_zeroPadded (w := 6) (by decide) (by decide) (by omega)).trans ?_
        rw [Nat.div_mul_cancel (Nat.dvd_of_mod_eq_zero hmicro)]
      · rw [String.toList_append]
        refine (fraction_zeroPadded (w := 9) (by decide) (by decide) h).trans ?_
        exact congrArg (fun n => some (n, 'Z' :: rest)) (Nat.mul_one nanos)

/-! ## Offset zero -/

/-- **Nothing moves at offset zero.** -/
theorem settle_zero {t : Instant} (h : t.valid = true) : settle t 0 = some t := by
  have hdate : t.date.valid = true := by
    simp only [Instant.valid, Bool.and_eq_true] at h
    exact h.1.1.1.1
  have htime : t.hour ≤ 23 ∧ t.minute ≤ 59 := by
    simp only [Instant.valid, Bool.and_eq_true, decide_eq_true_eq] at h
    exact ⟨h.1.1.1.2, h.1.1.2⟩
  have hlocal : Instant.ofLocal t 0 = t := by
    rw [Instant.ofLocal]
    have hlow : ¬((t.hour * 60 + t.minute : Nat) : Int) - 0 < 0 := by omega
    have hhigh : ¬(1440 : Int) ≤ ((t.hour * 60 + t.minute : Nat) : Int) - 0 := by omega
    have hwithin : ((((t.hour * 60 + t.minute : Nat) : Int) - 0) % 1440).toNat
        = t.hour * 60 + t.minute := by omega
    rw [if_neg hlow, if_neg hhigh, hwithin]
    have hhour : (t.hour * 60 + t.minute) / 60 = t.hour := by omega
    have hminute : (t.hour * 60 + t.minute) % 60 = t.minute := by omega
    rw [hhour, hminute]
  rw [settle, hlocal, h, hdate]
  rfl

/-! ## Texts -/

/-- The year is one that is written in four digits. -/
def Instant.InFourDigits (t : Instant) : Prop := 0 ≤ t.date.year ∧ t.date.year ≤ 9999

theorem toList_text {t : Instant} (h : t.InFourDigits) :
    t.text.toList = (zeroPadded 4 t.date.year.toNat).toList ++ '-' ::
      ((zeroPadded 2 t.date.month).toList ++ '-' :: ((zeroPadded 2 t.date.day).toList ++ 'T' ::
        ((zeroPadded 2 t.hour).toList ++ ':' :: ((zeroPadded 2 t.minute).toList ++ ':' ::
          ((zeroPadded 2 t.second).toList ++ ((fractionText t.nanos).toList ++ ['Z'])))))) := by
  have hyear : yearText t.date.year = zeroPadded 4 t.date.year.toNat := by
    rw [yearText, decide_eq_true h.1, decide_eq_true h.2]
    rfl
  rw [Instant.text, hyear]
  simp only [String.toList_append, List.append_assoc]
  rfl

/-- Bounds of the fields of an instant. -/
theorem Instant.bounds {t : Instant} (h : t.valid = true) :
    t.date.month < 100 ∧ t.date.day < 100 ∧ t.hour < 100 ∧ t.minute < 100 ∧ t.second < 100 ∧
      t.nanos < 1000000000 := by
  simp only [Instant.valid, Date.valid, Bool.and_eq_true, decide_eq_true_eq] at h
  have hmonth : monthLength t.date.year t.date.month ≤ 31 := by
    rw [monthLength]
    split
    · split <;> decide
    · split <;> decide
  omega

theorem toNat_year_lt {t : Instant} (h : t.InFourDigits) : t.date.year.toNat < 10 ^ 4 := by
  obtain ⟨hlow, hhigh⟩ := h
  omega

/-! ## Fields with blanks around them -/

theorem isBlank_of_isDigit {c : Char} (h : c.isDigit = true) : isBlank c = false := by
  simp only [Char.isDigit, Bool.and_eq_true, decide_eq_true_eq, UInt32.le_iff_toNat_le] at h
  have hlow : 48 ≤ c.toNat := h.1
  have hhigh : c.toNat ≤ 57 := h.2
  simp [isBlank]
  omega

/-- A field at full width starts with a digit. -/
theorem exists_zeroPadded_eq_cons {w n : Nat} (hw : 0 < w) (hn : n < 10 ^ w) :
    ∃ c cs, (zeroPadded w n).toList = c :: cs ∧ c.isDigit = true := by
  cases htext : (zeroPadded w n).toList with
  | nil =>
    have hlength := length_zeroPadded hw hn
    rw [htext] at hlength
    exact absurd hlength (Nat.ne_of_lt hw)
  | cons c cs =>
    exact ⟨c, cs, rfl, isDigit_of_mem_zeroPadded (htext ▸ List.mem_cons_self)⟩

theorem trimLeft_zeroPadded {w n : Nat} {rest : List Char} (hw : 0 < w) (hn : n < 10 ^ w) :
    trimLeft ((zeroPadded w n).toList ++ rest) = (zeroPadded w n).toList ++ rest := by
  obtain ⟨c, cs, htext, hc⟩ := exists_zeroPadded_eq_cons hw hn
  rw [htext, List.cons_append, trimLeft,
    List.dropWhile_cons_of_neg (Bool.eq_false_iff.1 (isBlank_of_isDigit hc))]

theorem relaxedYear_zeroPadded {n : Nat} {rest : List Char} (hn : n < 10 ^ 4) :
    relaxedYear ((zeroPadded 4 n).toList ++ rest) = some ((n : Int), rest) := by
  have hrun : digitRun 1 4 ((zeroPadded 4 n).toList ++ rest) = some (n, rest) :=
    digitRun_zeroPadded (by decide) hn (by decide)
  rw [relaxedYear, trimLeft_zeroPadded (by decide) hn]
  obtain ⟨c, cs, htext, hc⟩ := exists_zeroPadded_eq_cons (w := 4) (by decide) hn
  rw [htext, List.cons_append] at hrun ⊢
  split
  · next heq =>
    obtain ⟨rfl, -⟩ := List.cons.inj heq
    cases hc
  · next heq =>
    obtain ⟨rfl, -⟩ := List.cons.inj heq
    cases hc
  · rw [hrun]
    rfl

theorem relaxedPair_zeroPadded {n : Nat} {rest : List Char} (hn : n < 100) :
    relaxedPair ((zeroPadded 2 n).toList ++ rest) = some (n, rest) := by
  rw [relaxedPair, trimLeft_zeroPadded (by decide) hn]
  exact digitRun_zeroPadded (by decide) hn (by decide)

/-! ## The two readings -/

section Reading

variable {t : Instant} (h : t.valid = true) (hyear : t.InFourDigits)

/-- A reader goes on with what its first part has read. -/
theorem bind_of_eq_some {α β : Type} {x : Option α} {a : α} {f : α → Option β} {o : Option β}
    (hx : x = some a) (hf : f a = o) : x.bind f = o :=
  hx ▸ hf

include h hyear

theorem settle_fields :
    settle ⟨⟨(t.date.year.toNat : Int), t.date.month, t.date.day⟩, t.hour, t.minute, t.second,
      t.nanos⟩ 0 = some t := by
  rw [Int.toNat_of_nonneg hyear.1]
  exact settle_zero h

/-- **The interchange form is read back.** -/
theorem strict?_text : strict? t.text = some t := by
  obtain ⟨hmonth, hday, hhour, hminute, hsecond, hnanos⟩ := t.bounds h
  have htwo {n : Nat} (hn : n < 100) (rest : List Char) :
      digitRun 2 2 ((zeroPadded 2 n).toList ++ rest) = some (n, rest) :=
    digitRun_zeroPadded (by decide) hn (by decide)
  have hmark (c : Char) (rest : List Char) : expect c (c :: rest) = some rest := if_pos rfl
  rw [strict?, toList_text hyear]
  refine bind_of_eq_some (digitRun_zeroPadded (by decide) (toNat_year_lt hyear) (by decide)) ?_
  refine bind_of_eq_some (hmark '-' _) (bind_of_eq_some (htwo hmonth _) ?_)
  refine bind_of_eq_some (hmark '-' _) (bind_of_eq_some (htwo hday _) ?_)
  refine (if_pos rfl).trans (bind_of_eq_some rfl (bind_of_eq_some (htwo hhour _) ?_))
  refine bind_of_eq_some (hmark ':' _) (bind_of_eq_some (htwo hminute _) ?_)
  refine bind_of_eq_some (hmark ':' _) (bind_of_eq_some (htwo hsecond _) ?_)
  refine bind_of_eq_some (optionalFraction_fractionText hnanos []) ?_
  exact settle_fields h hyear

/-- **The relaxed form is no narrower than what is written.** -/
theorem relaxed?_text : relaxed? t.text = some t := by
  obtain ⟨hmonth, hday, hhour, hminute, hsecond, hnanos⟩ := t.bounds h
  have hmark {c : Char} (hc : isBlank c = false) (rest : List Char) :
      relaxedMark c (c :: rest) = some rest := by
    rw [relaxedMark, trimLeft, List.dropWhile_cons_of_neg (Bool.eq_false_iff.1 hc)]
    exact if_pos rfl
  rw [relaxed?, toList_text hyear]
  refine bind_of_eq_some (relaxedYear_zeroPadded (toNat_year_lt hyear)) ?_
  refine bind_of_eq_some (hmark rfl _) (bind_of_eq_some (relaxedPair_zeroPadded hmonth) ?_)
  refine bind_of_eq_some (hmark rfl _) (bind_of_eq_some (relaxedPair_zeroPadded hday) ?_)
  refine (if_pos rfl).trans (bind_of_eq_some rfl ?_)
  refine bind_of_eq_some (relaxedPair_zeroPadded hhour) ?_
  refine bind_of_eq_some (hmark rfl _) (bind_of_eq_some (relaxedPair_zeroPadded hminute) ?_)
  refine bind_of_eq_some (hmark rfl _) (bind_of_eq_some (relaxedPair_zeroPadded hsecond) ?_)
  refine bind_of_eq_some (optionalFraction_fractionText hnanos []) ?_
  exact settle_fields h hyear

end Reading

/-! ## What is read -/

/-- **What is settled is an instant.** -/
theorem valid_of_settle {wall t : Instant} {shift : Int} (h : settle wall shift = some t) :
    t.valid = true := by
  rw [settle] at h
  obtain ⟨hvalid, hlocal⟩ := Option.ite_none_right_eq_some.1 h
  obtain rfl := Option.some.inj hlocal
  simp only [Bool.and_eq_true] at hvalid
  obtain ⟨⟨hwall, -⟩, hdate⟩ := hvalid
  simp only [Instant.valid, Bool.and_eq_true, decide_eq_true_eq] at hwall
  have hwithin : (((wall.hour * 60 + wall.minute : Nat) - shift) % 1440).toNat < 1440 := by omega
  simp only [Instant.valid, hdate, Bool.true_and, Bool.and_eq_true, decide_eq_true_eq]
  refine ⟨⟨⟨?_, ?_⟩, hwall.1.2⟩, hwall.2⟩
  · exact Nat.le_of_lt_succ (Nat.div_lt_of_lt_mul hwithin)
  · exact Nat.le_of_lt_succ (Nat.mod_lt _ (by decide))

/-- What a chain of readers gives, its last one gave. -/
theorem forall_mem_bind {α β : Type} {P : β → Prop} {x : Option α} {f : α → Option β}
    (h : ∀ a, ∀ b ∈ f a, P b) : ∀ b ∈ x.bind f, P b := by
  intro b hb
  obtain ⟨a, -, ha⟩ := Option.bind_eq_some_iff.1 hb
  exact h a b ha

theorem valid_of_strict? (text : String) : ∀ t ∈ strict? text, t.valid = true := by
  simp only [strict?, Option.bind_eq_bind]
  refine forall_mem_bind fun _ => forall_mem_bind fun _ => forall_mem_bind fun _ =>
    forall_mem_bind fun _ => forall_mem_bind fun _ => ?_
  split
  · split
    · refine forall_mem_bind fun _ => forall_mem_bind fun _ => forall_mem_bind fun _ =>
        forall_mem_bind fun _ => forall_mem_bind fun _ => forall_mem_bind fun _ =>
        forall_mem_bind fun _ => forall_mem_bind fun _ => ?_
      split
      · exact fun _ => valid_of_settle
      · exact nofun
    · exact nofun
  · exact nofun

end PinKeeper.Time
