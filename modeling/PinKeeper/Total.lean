import PinKeeper.Text.Decimal

/-!
# Total — sums of counts

The sum of a list of counts.  Appending adds up and the order does not matter: a total may be taken
piece by piece, in any order.  A counter of 64 bits keeps such a sum only as far as it goes
(`sum64`), and a sum that fits exactly (`sum64_eq_sumOf`).
-/

namespace PinKeeper

/-- Sum of counts. -/
def sumOf : List Nat → Nat
  | [] => 0
  | n :: ns => n + sumOf ns

@[simp] theorem sumOf_append : ∀ ms ns, sumOf (ms ++ ns) = sumOf ms + sumOf ns
  | [], ns => by simp [sumOf]
  | m :: ms, ns => by simp [sumOf, sumOf_append ms ns, Nat.add_assoc]

/-- A total does not go by the order. -/
theorem sumOf_perm {ms ns : List Nat} (h : ms.Perm ns) : sumOf ms = sumOf ns := by
  induction h with
  | nil => rfl
  | cons n _ ih => rw [sumOf, sumOf, ih]
  | swap m n ns => exact Nat.add_left_comm _ _ _
  | trans _ _ ih ih' => exact ih.trans ih'

/-- Sum of counts in a counter of 64 bits, which begins again at zero past the greatest number. -/
def sum64 (ns : List Nat) : Nat := sumOf ns % (Text.max64 + 1)

/-- **A sum that fits in 64 bits is exact.** -/
theorem sum64_eq_sumOf {ns : List Nat} (h : sumOf ns ≤ Text.max64) : sum64 ns = sumOf ns :=
  Nat.mod_eq_of_lt (Nat.lt_succ_of_le h)

/-- The last sum that fits, and the next one. -/
example : sum64 [Text.max64, 0] = Text.max64 ∧ sum64 [Text.max64, 1] = 0 := by decide

theorem sum64_perm {ms ns : List Nat} (h : ms.Perm ns) : sum64 ms = sum64 ns := by
  rw [sum64, sum64, sumOf_perm h]

end PinKeeper
