import Mathlib.Data.List.Basic
import PinKeeper.Text.Blank

/-!
# Proofs/Text/Split — pieces between separators

Splitting a text and writing the pieces with separators between them (`separated`) undo each other:
pieces without a separator are found again (`splitAt_separated`, `splitAt_joined`), and what was
split gives the text back (`separated_splitAt`).
-/

namespace PinKeeper.Text

variable {sep : Char}

/-- Text of pieces with a separator before each but the first. -/
def separated (sep : Char) (p : List Char) (ps : List (List Char)) : List Char :=
  p ++ ps.flatMap fun q => sep :: q

theorem separated_cons (p q : List Char) (ps : List (List Char)) :
    separated sep p (q :: ps) = p ++ sep :: separated sep q ps := by
  rw [separated, separated, List.flatMap_cons, List.cons_append]

theorem mem_separated {p : List Char} {ps : List (List Char)} {c : Char}
    (h : c ∈ separated sep p ps) : c = sep ∨ ∃ q ∈ p :: ps, c ∈ q := by
  rcases List.mem_append.1 h with hc | hc
  · exact .inr ⟨p, List.mem_cons_self, hc⟩
  · obtain ⟨q, hq, hc⟩ := List.mem_flatMap.1 hc
    exact (List.mem_cons.1 hc).imp id fun hc => ⟨q, List.mem_cons_of_mem _ hq, hc⟩

theorem mem_separated_of_mem {p q : List Char} {ps : List (List Char)} {c : Char}
    (hq : q ∈ p :: ps) (hc : c ∈ q) : c ∈ separated sep p ps := by
  rcases List.mem_cons.1 hq with rfl | hq
  · exact List.mem_append_left _ hc
  · exact List.mem_append_right _ (List.mem_flatMap.2 ⟨q, hq, List.mem_cons_of_mem _ hc⟩)

/-- A separator ends one text and begins another. -/
theorem splitAt_append (s rest : List Char) :
    splitAt sep (s ++ sep :: rest) = splitAt sep s ++ splitAt sep rest := by
  induction s with
  | nil => exact if_pos rfl
  | cons c s ih =>
    rw [List.cons_append, splitAt, splitAt, ih]
    split
    · rfl
    · obtain ⟨p, ps, hs⟩ := List.exists_cons_of_ne_nil (splitAt_ne_nil sep s)
      rw [hs]
      rfl

theorem splitAt_of_notMem {s : List Char} (h : sep ∉ s) : splitAt sep s = [s] := by
  induction s with
  | nil => rfl
  | cons c s ih =>
    rw [List.mem_cons, not_or] at h
    obtain ⟨hc, hs⟩ := h
    rw [splitAt, if_neg (Ne.symm hc), ih hs]

/-- **Pieces that are written are found again.** -/
theorem splitAt_separated {p : List Char} {ps : List (List Char)} (hp : sep ∉ p)
    (hps : ∀ q ∈ ps, sep ∉ q) : splitAt sep (separated sep p ps) = p :: ps := by
  induction ps generalizing p with
  | nil => rw [separated, List.flatMap_nil, List.append_nil, splitAt_of_notMem hp]
  | cons q ps ih =>
    obtain ⟨hq, hps⟩ := List.forall_mem_cons.1 hps
    rw [separated_cons, splitAt_append, splitAt_of_notMem hp, ih hq hps, List.singleton_append]

/-- **Texts that are joined are found again**, unless there is none. -/
theorem splitAt_joined {comma : String} (hcomma : comma.toList = [sep]) :
    ∀ {parts : List String}, parts ≠ [] → (∀ p ∈ parts, sep ∉ p.toList) →
      splitAt sep (joined comma parts).toList = parts.map String.toList
  | [], h, _ => absurd rfl h
  | [p], _, hnone => by
    rw [joined, String.intercalate_singleton,
      splitAt_of_notMem (hnone p (List.mem_singleton_self p))]
    rfl
  | p :: q :: parts, _, hnone => by
    obtain ⟨hp, hparts⟩ := List.forall_mem_cons.1 hnone
    have ih := splitAt_joined hcomma (List.cons_ne_nil q parts) hparts
    rw [joined, String.intercalate_cons_cons, String.toList_append, String.toList_append, hcomma,
      List.append_assoc, List.singleton_append, splitAt_append, splitAt_of_notMem hp, ← joined, ih]
    rfl

/-- **The pieces of a text give it back**, and none of them has a separator. -/
theorem separated_splitAt (sep : Char) (s : List Char) : ∃ p ps, splitAt sep s = p :: ps ∧
    separated sep p ps = s ∧ ∀ q ∈ p :: ps, sep ∉ q := by
  induction s with
  | nil => exact ⟨[], [], rfl, rfl, List.forall_mem_singleton.2 List.not_mem_nil⟩
  | cons c s ih =>
    obtain ⟨p, ps, hsplit, hs, hnone⟩ := ih
    rw [splitAt, hsplit]
    split
    · next hc =>
      refine ⟨[], p :: ps, rfl, ?_, List.forall_mem_cons.2 ⟨List.not_mem_nil, hnone⟩⟩
      rw [separated_cons, hs, hc, List.nil_append]
    · next hc =>
      obtain ⟨hp, hps⟩ := List.forall_mem_cons.1 hnone
      refine ⟨c :: p, ps, rfl, ?_, List.forall_mem_cons.2 ⟨?_, hps⟩⟩
      · rw [← hs]
        rfl
      · rw [List.mem_cons, not_or]
        exact ⟨Ne.symm hc, hp⟩

end PinKeeper.Text
