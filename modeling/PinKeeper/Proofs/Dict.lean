import Mathlib.Data.List.Induction
import Mathlib.Data.List.Sort
import PinKeeper.Dict

/-!
# Proofs/Dict — a map is what its look-ups say

The entries of a map are exactly the pairs that look-up answers (`find?_eq_some_iff`), and as they
stand in key order, two maps with the same look-ups are one (`ext_find?`).  Of the entries that a
map is collected from, the last one with a key counts (`find?_ofList`).
-/

namespace PinKeeper.Dict

variable {α : Type}

/-! ## Look-up and entries -/

theorem mem_of_lookupIn {k : String} {v : α} :
    ∀ {es : List (String × α)}, lookupIn k es = some v → (k, v) ∈ es
  | [], h => by simp [lookupIn] at h
  | (j, w) :: es, h => by
    rw [lookupIn] at h
    split at h
    · next hj =>
      obtain rfl : j = k := hj
      obtain rfl : w = v := Option.some.inj h
      exact List.mem_cons_self
    · exact List.mem_cons_of_mem _ (mem_of_lookupIn h)

theorem lookupIn_of_mem {k : String} {v : α} : ∀ {es : List (String × α)},
    es.Pairwise (fun a b => a.1 < b.1) → (k, v) ∈ es → lookupIn k es = some v
  | (j, w) :: es, hs, h => by
    have ⟨hj, hes⟩ := List.pairwise_cons.1 hs
    rw [lookupIn]
    rcases List.mem_cons.1 h with h | h
    · obtain ⟨rfl, rfl⟩ := Prod.mk.inj h
      exact if_pos rfl
    · have hne : j ≠ k := fun hjk => String.lt_irrefl k (hjk ▸ hj _ h)
      rw [if_neg hne]
      exact lookupIn_of_mem hes h

theorem lookupIn_append (k : String) (es fs : List (String × α)) :
    lookupIn k (es ++ fs) = (lookupIn k es).or (lookupIn k fs) := by
  induction es with
  | nil => rfl
  | cons e es ih =>
    rw [List.cons_append, lookupIn, lookupIn]
    split
    · rfl
    · exact ih

/-- **The entries are the pairs that look-up answers.** -/
theorem find?_eq_some_iff {d : Dict α} {k : String} {v : α} :
    d.find? k = some v ↔ (k, v) ∈ d.entries :=
  ⟨mem_of_lookupIn, lookupIn_of_mem d.ascending⟩

theorem contains_iff {d : Dict α} {k : String} : d.contains k = true ↔ k ∈ d.keys := by
  rw [contains, Option.isSome_iff_exists, keys, List.mem_map]
  constructor
  · rintro ⟨v, hv⟩
    exact ⟨(k, v), find?_eq_some_iff.1 hv, rfl⟩
  · rintro ⟨⟨j, v⟩, hmem, rfl⟩
    exact ⟨v, find?_eq_some_iff.2 hmem⟩

theorem mem_values_of_find? {d : Dict α} {k : String} {v : α} (h : d.find? k = some v) :
    v ∈ d.values :=
  List.mem_map_of_mem (f := Prod.snd) (find?_eq_some_iff.1 h)

theorem nodup_keys (d : Dict α) : d.keys.Nodup := by
  rw [keys, List.Nodup, List.pairwise_map]
  refine d.ascending.imp fun {a b} hab heq => ?_
  rw [heq] at hab
  exact String.lt_irrefl _ hab

/-! ## Equality of maps -/

theorem nodup_entries (d : Dict α) : d.entries.Nodup :=
  List.Nodup.of_map Prod.fst d.nodup_keys

/-- **Maps with the same look-ups are equal**: they have the same entries, and only one order of
these is the order of the keys. -/
theorem ext_find? {d e : Dict α} (h : ∀ k, d.find? k = e.find? k) : d = e := by
  have hperm : d.entries.Perm e.entries :=
    (List.perm_ext_iff_of_nodup d.nodup_entries e.nodup_entries).2 fun (k, v) => by
      rw [← find?_eq_some_iff, ← find?_eq_some_iff, h]
  refine ext (hperm.eq_of_pairwise (fun a b _ _ hab hba => ?_) d.ascending e.ascending)
  exact absurd (String.lt_trans hab hba) (String.lt_irrefl _)

/-! ## Maps of maps -/

theorem lookupIn_map {β : Type} (f : String → α → β) (k : String) : ∀ es : List (String × α),
    lookupIn k (es.map fun e => (e.1, f e.1 e.2)) = (lookupIn k es).map (f k)
  | [] => rfl
  | e :: es => by
    rw [List.map_cons, lookupIn, lookupIn]
    split
    · next h => rw [h, Option.map_some]
    · exact lookupIn_map f k es

theorem find?_mapEntries {β : Type} (f : String → α → β) (d : Dict α) (k : String) :
    (d.mapEntries f).find? k = (d.find? k).map (f k) :=
  lookupIn_map f k d.entries

theorem mapEntries_mapEntries {β γ : Type} (g : String → β → γ) (f : String → α → β) (d : Dict α) :
    (d.mapEntries f).mapEntries g = d.mapEntries fun k v => g k (f k v) :=
  ext List.map_map

/-! ## Maps from lists -/

/-- **In a map that is collected from a list, the last entry with a key counts.** -/
theorem find?_ofList (es : List (String × α)) (k : String) :
    (ofList es).find? k = (es.reverse.find? (·.1 = k)).map (·.2) := by
  rw [ofList]
  induction es using List.reverseRecOn with
  | nil => rfl
  | append_singleton es e ih =>
    rw [List.foldl_append, List.foldl_cons, List.foldl_nil, List.reverse_append,
      List.reverse_singleton, List.singleton_append, List.find?_cons]
    by_cases h : e.1 = k
    · rw [h, find?_insert_self, decide_eq_true rfl, Option.map_some]
    · rw [find?_insert_of_ne _ (Ne.symm h), ih, decide_eq_false h]

/-- The keys of a map that is collected from a list are those of the list. -/
theorem contains_ofList {es : List (String × α)} {k : String} :
    (ofList es).contains k = true ↔ k ∈ es.map Prod.fst := by
  rw [contains, find?_ofList, Option.isSome_map, List.find?_isSome, List.mem_map]
  simp only [List.mem_reverse, decide_eq_true_eq]

/-- What is in a map that is collected from a list is in the list. -/
theorem mem_of_mem_ofList {es : List (String × α)} {x : String × α} (h : x ∈ (ofList es).entries) :
    x ∈ es := by
  have hfind : (ofList es).find? x.1 = some x.2 := find?_eq_some_iff.2 h
  rw [find?_ofList] at hfind
  obtain ⟨e, he, hvalue⟩ := Option.map_eq_some_iff.1 hfind
  have hkey := List.find?_some he
  rw [← Prod.ext (of_decide_eq_true hkey) hvalue]
  exact List.mem_reverse.1 (List.mem_of_find?_eq_some he)

/-- **A map is collected from its own entries.** -/
theorem ofList_entries (d : Dict α) : ofList d.entries = d := by
  refine ext_find? fun k => ?_
  cases hfind : (ofList d.entries).find? k with
  | some v => exact (find?_eq_some_iff.2 (mem_of_mem_ofList (find?_eq_some_iff.1 hfind))).symm
  | none =>
    have habsent : ¬d.contains k = true := fun h => by
      have hlisted := contains_ofList.2 (contains_iff.1 h)
      rw [contains, hfind] at hlisted
      cases hlisted
    exact (Option.not_isSome_iff_eq_none.1 habsent).symm

end PinKeeper.Dict
