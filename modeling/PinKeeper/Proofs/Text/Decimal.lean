import Mathlib.Algebra.Group.Nat.Defs
import Mathlib.Data.List.Basic
import PinKeeper.Text.Decimal

/-!
# Proofs/Text/Decimal — decimal digits read back

The digits of a number denote the number (`ofDigits_digits`), with zeros in front of them or
without, and no number but zero starts with the digit zero (`eq_of_digits_eq_zero_cons`).  A number
below a power of ten fits as many places (`length_digits_le`), so padded to them it takes exactly
these (`length_zeroPadded`).  What follows digits is left over as long as it starts with none
(`takeWhile_isDigit_append`).  With a sign in front integers are read back (`integer?_integer`).
-/

namespace PinKeeper.Text

/-! ## Digits -/

theorem isDigit_digitChar : ∀ d < 10, (digitChar d).isDigit = true := by decide

theorem digitValue_digitChar : ∀ d < 10, digitValue (digitChar d) = d := by decide

theorem mem_digits {n : Nat} {c : Char} (h : c ∈ digits n) : ∃ d < 10, c = digitChar d := by
  induction n using digits.induct with
  | case1 n hn =>
    rw [digits, if_pos hn, List.mem_singleton] at h
    exact ⟨n, hn, h⟩
  | case2 n hn ih =>
    rw [digits, if_neg hn, List.mem_append, List.mem_singleton] at h
    rcases h with h | h
    · exact ih h
    · exact ⟨n % 10, Nat.mod_lt n (by decide), h⟩

theorem isDigit_of_mem_digits {n : Nat} {c : Char} (h : c ∈ digits n) : c.isDigit = true := by
  obtain ⟨d, hd, rfl⟩ := mem_digits h
  exact isDigit_digitChar d hd

theorem digits_ne_nil (n : Nat) : digits n ≠ [] := by
  rw [digits]
  split
  · exact List.cons_ne_nil _ _
  · exact List.append_ne_nil_of_right_ne_nil _ (List.cons_ne_nil _ _)

theorem ofDigits_append_singleton (cs : List Char) (c : Char) :
    ofDigits (cs ++ [c]) = 10 * ofDigits cs + digitValue c := by
  rw [ofDigits, List.foldl_append]
  rfl

/-- **The digits of a number denote it.** -/
theorem ofDigits_digits (n : Nat) : ofDigits (digits n) = n := by
  induction n using digits.induct with
  | case1 n hn =>
    rw [digits, if_pos hn]
    exact (Nat.zero_add _).trans (digitValue_digitChar n hn)
  | case2 n hn ih =>
    rw [digits, if_neg hn, ofDigits_append_singleton, ih,
      digitValue_digitChar _ (Nat.mod_lt n (by decide)), Nat.div_add_mod]

theorem ofDigits?_digits (n : Nat) : ofDigits? (digits n) = some n := by
  have hne : (digits n).isEmpty = false := List.isEmpty_eq_false_iff.2 (digits_ne_nil n)
  have hall : (digits n).all Char.isDigit = true :=
    List.all_eq_true.2 fun c hc => isDigit_of_mem_digits hc
  rw [ofDigits?, hne, hall, ofDigits_digits]
  rfl

/-- **Only zero starts with the digit zero.** -/
theorem eq_of_digits_eq_zero_cons {n : Nat} {cs : List Char} (h : digits n = '0' :: cs) :
    cs = [] := by
  induction n using digits.induct generalizing cs with
  | case1 n hn =>
    rw [digits, if_pos hn] at h
    exact (List.cons.inj h).2.symm
  | case2 n hn ih =>
    rw [digits, if_neg hn] at h
    obtain ⟨hnil, -⟩ | ⟨rest, hrest, -⟩ := List.append_eq_cons_iff.1 h
    · exact absurd hnil (digits_ne_nil _)
    · obtain rfl := ih hrest
      have hzero : n / 10 = 0 := by
        rw [← ofDigits_digits (n / 10), hrest]
        rfl
      omega

theorem length_digits_le {w n : Nat} (hw : 0 < w) (h : n < 10 ^ w) : (digits n).length ≤ w := by
  induction n using digits.induct generalizing w with
  | case1 n hn =>
    rw [digits, if_pos hn]
    exact hw
  | case2 n hn ih =>
    obtain ⟨w, rfl⟩ := Nat.exists_eq_succ_of_ne_zero (Nat.ne_of_gt hw)
    have hw' : 0 < w := by
      rcases Nat.eq_zero_or_pos w with rfl | hw'
      · exact absurd h hn
      · exact hw'
    rw [Nat.pow_succ] at h
    rw [digits, if_neg hn, List.length_append, List.length_singleton]
    exact Nat.succ_le_succ (ih hw' (Nat.div_lt_of_lt_mul (by rwa [Nat.mul_comm])))

/-! ## Zeros in front -/

theorem ofDigits_replicate_zero_append (k : Nat) (cs : List Char) :
    ofDigits (List.replicate k '0' ++ cs) = ofDigits cs := by
  induction k with
  | zero => rfl
  | succ k ih => exact ih

theorem toList_zeroPadded (w n : Nat) : (zeroPadded w n).toList
    = List.replicate (w - (digits n).length) '0' ++ digits n := by
  rw [zeroPadded, String.toList_ofList]

theorem ofDigits_zeroPadded (w n : Nat) : ofDigits (zeroPadded w n).toList = n := by
  rw [toList_zeroPadded, ofDigits_replicate_zero_append, ofDigits_digits]

theorem length_zeroPadded {w n : Nat} (hw : 0 < w) (h : n < 10 ^ w) :
    (zeroPadded w n).toList.length = w := by
  rw [toList_zeroPadded, List.length_append, List.length_replicate]
  have hlength := length_digits_le hw h
  omega

theorem isDigit_of_mem_zeroPadded {w n : Nat} {c : Char} (h : c ∈ (zeroPadded w n).toList) :
    c.isDigit = true := by
  rw [toList_zeroPadded, List.mem_append] at h
  rcases h with h | h
  · rw [List.eq_of_mem_replicate h]
    rfl
  · exact isDigit_of_mem_digits h

/-! ## What follows -/

/-- A text that starts with no digit. -/
def EndsDigits (rest : List Char) : Prop := ∀ c ∈ rest.head?, c.isDigit = false

theorem takeWhile_isDigit_append {ds rest : List Char} (hds : ∀ c ∈ ds, c.isDigit = true)
    (h : EndsDigits rest) : (ds ++ rest).takeWhile Char.isDigit = ds := by
  rw [List.takeWhile_append_of_pos hds]
  cases rest with
  | nil => rw [List.takeWhile_nil, List.append_nil]
  | cons c rest =>
    rw [List.takeWhile_cons_of_neg (Bool.eq_false_iff.1 (h c rfl)), List.append_nil]

theorem dropWhile_isDigit_append {ds rest : List Char} (hds : ∀ c ∈ ds, c.isDigit = true)
    (h : EndsDigits rest) : (ds ++ rest).dropWhile Char.isDigit = rest := by
  rw [List.dropWhile_append_of_pos hds]
  cases rest with
  | nil => rfl
  | cons c rest => exact List.dropWhile_cons_of_neg (Bool.eq_false_iff.1 (h c rfl))

/-! ## Integers -/

/-- Reads an integer: a minus sign, if there is one, and digits. -/
def integer? (s : String) : Option Int :=
  match s.toList with
  | '-' :: ds => (ofDigits? ds).map fun n : Nat => -(n : Int)
  | ds => (ofDigits? ds).map Int.ofNat

/-- **An integer is read back.** -/
theorem integer?_integer (i : Int) : integer? (integer i) = some i := by
  rw [integer]
  split
  · next hneg =>
    have hread : integer? ("-" ++ natural i.natAbs)
        = (ofDigits? (digits i.natAbs)).map fun n : Nat => -(n : Int) := by
      have hlist : ("-" ++ natural i.natAbs).toList = '-' :: digits i.natAbs := by simp [natural]
      rw [integer?, hlist]
      rfl
    have hvalue : -(i.natAbs : Int) = i := by omega
    rw [hread, ofDigits?_digits, Option.map_some, hvalue]
  · next hpos =>
    have hvalue : Int.ofNat i.natAbs = i := Int.natAbs_of_nonneg (Int.not_lt.1 hpos)
    rw [integer?, natural, String.toList_ofList]
    split
    · next ds hds =>
      have hdigit : '-'.isDigit = true := isDigit_of_mem_digits (hds ▸ List.mem_cons_self)
      cases hdigit
    · rw [ofDigits?_digits, Option.map_some, hvalue]

end PinKeeper.Text
