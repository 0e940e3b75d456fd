import Mathlib.Data.List.TakeWhile
import PinKeeper.Text.Blank

/-!
# Proofs/Text/Blank — trimming takes blanks away and nothing else

A text is its trimmed self with blanks around it (`exists_eq_append_trim`), blanks that are put
around a text are trimmed off again (`trim_append_append`), and a text that has no blank at either
end is left as it is (`trim_eq_self`).  What is left starts with the first character that is no
blank (`head?_trim`).
-/

namespace PinKeeper.Text

variable {c : Char} {s before after : List Char}

/-! ## Blanks around a text -/

theorem trim_cons_of_isBlank (h : isBlank c = true) : trim (c :: s) = trim s := by
  rw [trim, trimLeft, List.dropWhile_cons_of_pos h]
  rfl

theorem trim_append_singleton (h : isBlank c = true) : trim (s ++ [c]) = trim s := by
  have hright (xs : List Char) : trimRight (xs ++ [c]) = trimRight xs := by
    rw [trimRight, List.reverse_append, List.reverse_singleton, List.singleton_append,
      List.dropWhile_cons_of_pos h]
    rfl
  rw [trim, trimLeft, List.dropWhile_append]
  split
  · next hnil =>
    rw [trim, trimLeft, List.isEmpty_iff.1 hnil, List.dropWhile_cons_of_pos h]
    rfl
  · exact hright _

/-- Blanks around a text make no difference to what no blank at either end makes one to. -/
theorem eq_around {β : Type} {f : List Char → β}
    (hcons : ∀ {c s}, isBlank c = true → f (c :: s) = f s)
    (hconcat : ∀ {c s}, isBlank c = true → f (s ++ [c]) = f s)
    (hbefore : ∀ c ∈ before, isBlank c = true) (hafter : ∀ c ∈ after, isBlank c = true) :
    f (before ++ s ++ after) = f s := by
  induction before with
  | cons c before ih =>
    obtain ⟨hc, hbefore⟩ := List.forall_mem_cons.1 hbefore
    rw [List.cons_append, List.cons_append, hcons hc, ih hbefore]
  | nil =>
    rw [List.nil_append]
    induction after generalizing s with
    | nil => rw [List.append_nil]
    | cons c after ih =>
      obtain ⟨hc, hafter⟩ := List.forall_mem_cons.1 hafter
      rw [← List.singleton_append, ← List.append_assoc, ih hafter, hconcat hc]

/-- **Blanks around a text are trimmed off.** -/
theorem trim_append_append (hbefore : ∀ c ∈ before, isBlank c = true)
    (hafter : ∀ c ∈ after, isBlank c = true) : trim (before ++ s ++ after) = trim s :=
  eq_around trim_cons_of_isBlank trim_append_singleton hbefore hafter

/-- Of blanks alone nothing is left. -/
theorem trim_of_forall_isBlank (h : ∀ c ∈ s, isBlank c = true) : trim s = [] := by
  have hs := trim_append_append (s := []) h (List.forall_mem_nil _)
  rwa [List.append_nil, List.append_nil] at hs

/-- **A text is what is left of it with blanks around.** -/
theorem exists_eq_append_trim (s : List Char) : ∃ before after, s = before ++ trim s ++ after ∧
    (∀ c ∈ before, isBlank c = true) ∧ ∀ c ∈ after, isBlank c = true := by
  refine ⟨s.takeWhile isBlank, ((trimLeft s).reverse.takeWhile isBlank).reverse, ?_,
    fun c => List.mem_takeWhile_imp, fun c hc => List.mem_takeWhile_imp (List.mem_reverse.1 hc)⟩
  rw [trim, trimRight, List.append_assoc, ← List.reverse_append,
    List.takeWhile_append_dropWhile, List.reverse_reverse, trimLeft,
    List.takeWhile_append_dropWhile]

/-! ## What is left -/

/-- A text with no blanks at its ends is left as it is. -/
theorem trim_eq_self (hfirst : ∀ c ∈ s.head?, isBlank c = false)
    (hlast : ∀ c ∈ s.getLast?, isBlank c = false) : trim s = s := by
  have hleft : trimLeft s = s := by
    cases s with
    | nil => rfl
    | cons c s => exact List.dropWhile_cons_of_neg (Bool.eq_false_iff.1 (hfirst c rfl))
  rw [trim, hleft, trimRight]
  cases hs : s.reverse with
  | nil =>
    rw [List.reverse_eq_nil_iff.1 hs]
    rfl
  | cons c cs =>
    have hc : c ∈ s.getLast? := by
      rw [← List.head?_reverse, hs]
      rfl
    rw [List.dropWhile_cons_of_neg (Bool.eq_false_iff.1 (hlast c hc)), ← hs, List.reverse_reverse]

/-- A character that is no blank keeps what is in front of it from being trimmed off. -/
theorem head?_trimRight_cons (h : isBlank c = false) : (trimRight (c :: s)).head? = some c := by
  rw [trimRight, List.reverse_cons, List.dropWhile_append]
  split
  · rw [List.dropWhile_cons_of_neg (Bool.eq_false_iff.1 h)]
    rfl
  · rw [List.reverse_append]
    rfl

/-- **A trimmed text starts with the first character that is no blank.** -/
theorem head?_trim (s : List Char) : (trim s).head? = s.find? fun c => !isBlank c := by
  rw [List.find?_not_eq_head?_dropWhile]
  have hfirst := List.head?_dropWhile_not isBlank s
  rw [trim, trimLeft]
  cases hs : s.dropWhile isBlank with
  | nil => rfl
  | cons c cs =>
    rw [hs] at hfirst
    exact head?_trimRight_cons hfirst

/-- The carriage return that ends a line is a blank. -/
theorem trim_dropReturn (line : List Char) : trim (dropReturn line) = trim line := by
  rw [dropReturn]
  split
  · next rest h =>
    rw [← List.reverse_reverse line, h, List.reverse_cons, trim_append_singleton rfl]
  · rfl

end PinKeeper.Text
