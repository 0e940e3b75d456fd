import PinKeeper.Proofs.Placement.Greedy

/-!
# Proofs/Placement/Unordered — a plan does not depend on how peers are listed

The cluster may list the peers of a pin in any order and more than once.  A plan keeps their order,
so its lists are others for another listing.  They have the same peers all the same
(`make_unordered`).

The stages of a plan carry this on as a permutation, which they can because none of them chooses by
place.  Filling up looks at which peers there are and how many (`candidates_congr`); cutting down
sorts them, in an order that leaves no two equal, so that the sorted list is the same for every
listing (`mergeSort_eq_of_perm`).
-/

namespace PinKeeper

/-! ## Sorting forgets the listing -/

section Precedes

variable {r : Nat → Nat → Prop} [IsStrictTotalOrder Nat r] {f : String → Nat}

theorem Precedes.irrefl (x : String) : ¬Precedes r f x x := by
  rintro (hr | ⟨-, hlt⟩)
  · exact irrefl_of r (f x) hr
  · exact String.lt_irrefl x hlt

/-- **Listings of the same peers are sorted into one list.** -/
theorem mergeSort_eq_of_perm {le : String → String → Bool}
    (hle : ∀ x y, le x y = true ↔ Precedes r f x y ∨ x = y) {l l' : List String} (h : l.Perm l') :
    l.mergeSort le = l'.mergeSort le := by
  have hsorted : (l.mergeSort le).Perm (l'.mergeSort le) :=
    (l.mergeSort_perm le).trans (h.trans (l'.mergeSort_perm le).symm)
  refine hsorted.eq_of_pairwise (fun x y _ _ hxy hyx => ?_) (pairwise_mergeSort_of_precedes hle l)
    (pairwise_mergeSort_of_precedes hle l')
  rcases hxy with hxy | heq
  · rcases hyx with hyx | heq
    · exact absurd (hxy.trans hyx) (Precedes.irrefl x)
    · exact heq.symm
  · exact heq

end Precedes

theorem contains_congr {xs ys : List String} (h : ∀ x, x ∈ xs ↔ x ∈ ys) (x : String) :
    xs.contains x = ys.contains x := by
  rw [Bool.eq_iff_iff, List.contains_iff_mem, List.contains_iff_mem]
  exact h x

theorem perm_filter_congr {p q : String → Bool} {xs ys : List String} (h : xs.Perm ys)
    (hpq : ∀ x, p x = q x) : (xs.filter p).Perm (ys.filter q) := by
  rw [List.filter_congr fun x _ => hpq x]
  exact h.filter q

theorem perm_distinct_filter (p : String → Bool) {xs ys : List String}
    (h : ∀ x, x ∈ xs ↔ x ∈ ys) : (distinct (xs.filter p)).Perm (distinct (ys.filter p)) := by
  refine (List.perm_ext_iff_of_nodup (nodup_distinct _) (nodup_distinct _)).2 fun x => ?_
  rw [mem_distinct, mem_distinct, List.mem_filter, List.mem_filter, h]

namespace Placement

variable {c : Placement} {ids ids' required required' : List String}

theorem candidates_congr (h : ∀ id, id ∈ ids ↔ id ∈ ids') :
    c.candidates ids = c.candidates ids' := by
  simp only [candidates, contains_congr h]

theorem perm_fill (h : ids.Perm ids') : (c.fill ids).Perm (c.fill ids') := by
  rw [fill, fill, candidates_congr fun _ => h.mem_iff, h.length_eq]
  exact h.append_right _

/-- **What is given up does not depend on the listing.** -/
theorem excess_congr (h : ids.Perm ids') (hreq : ∀ id, id ∈ required ↔ id ∈ required') :
    c.excess required ids = c.excess required' ids' := by
  have hfree : (ids.filter fun id => !required.contains id).Perm
      (ids'.filter fun id => !required'.contains id) :=
    perm_filter_congr h fun id => congrArg (!·) (contains_congr hreq id)
  rw [excess, excess, mergeSort_eq_of_perm tighter_iff hfree, h.length_eq]

theorem perm_trim (h : ids.Perm ids') (hreq : ∀ id, id ∈ required ↔ id ∈ required') :
    (c.trim required ids).Perm (c.trim required' ids') := by
  rw [trim, trim, excess_congr h hreq]
  exact h.filter _

end Placement

namespace Plan

variable {c : Placement} {allocations allocations' required required' : List String}

/-! ## The lists of a plan -/

/-- None of the lists of a plan names a peer twice. -/
structure Distinct (p : Plan) : Prop where
  current : p.current.Nodup
  allocation : p.allocation.Nodup
  added : p.added.Nodup
  removed : p.removed.Nodup
  orphaned : p.orphaned.Nodup

/-- Each list of a plan has the peers that the list of another has. -/
structure SamePeers (p q : Plan) : Prop where
  current : p.current.toFinset = q.current.toFinset
  allocation : p.allocation.toFinset = q.allocation.toFinset
  added : p.added.toFinset = q.added.toFinset
  removed : p.removed.toFinset = q.removed.toFinset
  orphaned : p.orphaned.toFinset = q.orphaned.toFinset

theorem distinct_make : (make c allocations required).Distinct where
  current := nodup_distinct _
  allocation := nodup_allocation_make
  added := nodup_allocation_make.filter _
  removed := nodup_removed
  orphaned := nodup_distinct _

section Perm

variable (h : ∀ id, id ∈ allocations ↔ id ∈ allocations')
  (hreq : ∀ id, id ∈ required ↔ id ∈ required')

include h

variable (required required') in
theorem perm_current : (make c allocations required).current.Perm
    (make c allocations' required').current :=
  perm_distinct_filter _ h

variable (required required') in
theorem perm_orphaned : (make c allocations required).orphaned.Perm
    (make c allocations' required').orphaned :=
  perm_distinct_filter _ h

include hreq

/-- **The planned allocation does not depend on the listing**, but for its order. -/
theorem perm_allocation : (make c allocations required).allocation.Perm
    (make c allocations' required').allocation := by
  have hwanted : (wanted c allocations required).Perm (wanted c allocations' required') := by
    refine (List.perm_ext_iff_of_nodup nodup_wanted nodup_wanted).2 fun id => ?_
    rw [mem_wanted, mem_wanted, h, hreq]
  rw [allocation_make, allocation_make]
  exact Placement.perm_trim (Placement.perm_fill hwanted) hreq

theorem perm_added : (make c allocations required).added.Perm
    (make c allocations' required').added := by
  have hcurrent : (make c allocations required).current.Perm
    (make c allocations' required').current := perm_current required required' h
  exact perm_filter_congr (perm_allocation h hreq) fun id =>
    congrArg (!·) (contains_congr (fun _ => hcurrent.mem_iff) id)

theorem perm_removed : (make c allocations required).removed.Perm
    (make c allocations' required').removed := by
  have hallocation : (make c allocations required).allocation.Perm
    (make c allocations' required').allocation := perm_allocation h hreq
  refine List.Perm.append ?_ (perm_orphaned required required' h)
  exact perm_filter_congr (perm_current required required' h) fun id =>
    congrArg (!·) (contains_congr (fun _ => hallocation.mem_iff) id)

end Perm

/-- **A plan does not depend on how peers are listed.**  For listings of the same peers, in whatever
order and however often, the lists of the two plans have the same peers, each of them once, and both
plans or neither of them have something to change. -/
theorem make_unordered (c : Placement) (h : allocations.toFinset = allocations'.toFinset)
    (hreq : required.toFinset = required'.toFinset) :
    let p := make c allocations required
    let q := make c allocations' required'
    p.Distinct ∧ q.Distinct ∧ SamePeers p q ∧ (p.isNoop = true ↔ q.isNoop = true) := by
  intro p q
  have hmem : ∀ id, id ∈ allocations ↔ id ∈ allocations' := List.toFinset.ext_iff.1 h
  have hmem' : ∀ id, id ∈ required ↔ id ∈ required' := List.toFinset.ext_iff.1 hreq
  have hadded : p.added.Perm q.added := perm_added hmem hmem'
  have hremoved : p.removed.Perm q.removed := perm_removed hmem hmem'
  refine ⟨distinct_make, distinct_make, ?_, ?_⟩
  · exact
      { current := List.toFinset_eq_of_perm _ _ (perm_current required required' hmem)
        allocation := List.toFinset_eq_of_perm _ _ (perm_allocation hmem hmem')
        added := List.toFinset_eq_of_perm _ _ hadded
        removed := List.toFinset_eq_of_perm _ _ hremoved
        orphaned := List.toFinset_eq_of_perm _ _ (perm_orphaned required required' hmem) }
  · rw [isNoop, isNoop, hadded.isEmpty_eq, hremoved.isEmpty_eq]

theorem make_unordered_sample :
    let p := make Sample.placement ["D", "C", "X", "A", "D"] ["B"]
    let q := make Sample.placement ["A", "X", "X", "D", "C"] ["B", "B"]
    ["D", "C", "X", "A", "D"].toFinset = ["A", "X", "X", "D", "C"].toFinset ∧
      ["B"].toFinset = ["B", "B"].toFinset ∧
      p.Distinct ∧ q.Distinct ∧ SamePeers p q ∧ (p.isNoop = true ↔ q.isNoop = true) :=
  ⟨by decide, by decide, make_unordered Sample.placement (by decide) (by decide)⟩

end Plan

end PinKeeper
