import PinKeeper.Proofs.Placement.Greedy

/-!
# Proofs/Placement/Fewest — no admissible allocation takes fewer changes than the planned one

Read as sets, an allocation is as far from another as there are peers in one of them alone
(`distance`).  What a plan may arrive at is said without it (`Admissible`), and the planned
allocation is nearest to what the pin has among all that is (`make_nearest`).

Why it is nearest depends on what the plan does (`allocation_make_cases`).  If it drops nothing, it
adds what every admissible allocation has to add: as much as the least number of replicas lacks, or
all peers with space (`distance_le_of_subset`).  If it drops something, it adds the required peers
alone, and no admissible allocation is larger (`distance_le_of_card_le`).
-/

namespace PinKeeper

/-! ## Distance -/

/-- Number of peers that are in one of two sets only. -/
def distance (A B : Finset String) : Nat := (A \ B).card + (B \ A).card

section Distance

variable {A C P : Finset String}

/-- Two sets are as far apart as they are short of twice their union. -/
theorem distance_add (A C : Finset String) :
    distance A C + A.card + C.card = 2 * (A ∪ C).card := by
  have hleft := Finset.card_sdiff_add_card A C
  have hright := Finset.card_sdiff_add_card C A
  rw [Finset.union_comm C A] at hright
  rw [distance]
  omega

/-- What keeps all of `C` is nearest to it if it adds only what has to be added, or not more than
enough. -/
theorem distance_le_of_subset (hkept : C ⊆ P) (h : P \ C ⊆ A \ C ∨ P.card ≤ A.card) :
    distance P C ≤ distance A C := by
  have hnothing : (C \ P).card = 0 := by
    rw [Finset.sdiff_eq_empty_iff_subset.2 hkept, Finset.card_empty]
  have hadds : (P \ C).card ≤ (A \ C).card := by
    rcases h with h | h
    · exact Finset.card_le_card h
    · have hunion : A.card ≤ (A ∪ C).card := Finset.card_le_card Finset.subset_union_left
      have hA := Finset.card_sdiff_add_card A C
      have hP := Finset.card_sdiff_add_card P C
      rw [Finset.union_eq_left.2 hkept] at hP
      omega
  rw [distance, distance, hnothing]
  omega

/-- What adds only what has to be added to `C` is nearest to it among all that are not larger. -/
theorem distance_le_of_card_le (hadds : P \ C ⊆ A \ C) (hcard : A.card ≤ P.card) :
    distance P C ≤ distance A C := by
  have hle := Finset.card_le_card hadds
  have hA := Finset.card_sdiff_add_card A C
  have hP := Finset.card_sdiff_add_card P C
  have hA' := distance_add A C
  have hP' := distance_add P C
  omega

end Distance

namespace Plan

variable {c : Placement} {allocations required : List String}

/-! ## What a plan may arrive at -/

/-- Known peers that a pin has. -/
def present (c : Placement) (allocations : List String) : Finset String :=
  (allocations.filter c.known.contains).toFinset

/-- Peers that a pin may have after a plan: known ones with all that are required, others only if
they have space, not more than the greatest number unless so many are required, and as many as the
least number unless no space is left. -/
structure Admissible (c : Placement) (allocations required : List String) (A : Finset String) :
    Prop where
  needed : ∀ id ∈ required, id ∈ A
  known : ∀ id ∈ A, c.known.contains id = true
  spacious : ∀ id ∈ A, id ∉ allocations → id ∉ required → 0 < c.capacityOf id
  atMost : A.card ≤ max c.replicationMax required.toFinset.card
  enough : c.replicationMin ≤ A.card ∨
    ∀ id, c.known.contains id = true → id ∉ A → c.capacityOf id = 0

theorem mem_present {id : String} :
    id ∈ present c allocations ↔ id ∈ allocations ∧ c.known.contains id = true := by
  rw [present, List.mem_toFinset, List.mem_filter]

theorem card_allocation : (make c allocations required).allocation.toFinset.card
    = (make c allocations required).allocation.length :=
  List.toFinset_card_of_nodup nodup_allocation_make

/-- **The planned allocation is admissible.** -/
theorem admissible_make (hreq : ∀ id ∈ required, c.known.contains id = true)
    (hbounds : c.replicationMin ≤ c.replicationMax) :
    Admissible c allocations required (make c allocations required).allocation.toFinset where
  needed id hid := List.mem_toFinset.2 (required_subset_make hid)
  known id hid := contains_of_mem_make hreq (List.mem_toFinset.1 hid)
  spacious id hid hnew hfree := by
    have hplanned := List.mem_toFinset.1 hid
    obtain ⟨hunwanted, hfill⟩ :=
      fills_of_mem_added hreq hbounds ((mem_added hreq).2 ⟨hplanned, hnew⟩) hfree
    rw [hfill] at hplanned
    exact c.capacity_pos_of_mem_fill hplanned hunwanted
  atMost := by
    have hmost : (make c allocations required).allocation.length ≤ c.replicationMax ∨
        (make c allocations required).allocation ⊆ required := length_make_le_or
    rcases hmost with hle | honly
    · rw [card_allocation]
      exact hle.trans (Nat.le_max_left _ _)
    · refine le_trans (Finset.card_le_card fun id hid => ?_) (Nat.le_max_right _ _)
      exact List.mem_toFinset.2 (honly (List.mem_toFinset.1 hid))
  enough := by
    have henough : c.Sufficient (make c allocations required).allocation :=
      sufficient_make hbounds
    rw [card_allocation]
    refine henough.imp id fun hfull id hknown hid => hfull id hknown fun hmem => hid ?_
    exact List.mem_toFinset.2 hmem

/-! ## The number of changes -/

/-- **Added and removed are the two parts of the distance**, unknown peers aside. -/
theorem changes_make (hreq : ∀ id ∈ required, c.known.contains id = true) :
    (make c allocations required).added.length
        + ((make c allocations required).removed.filter fun id =>
          !(make c allocations required).orphaned.contains id).length
      = distance (make c allocations required).allocation.toFinset (present c allocations) := by
  set plan := make c allocations required with hplan
  have hadded : plan.allocation.toFinset \ allocations.toFinset
      = plan.allocation.toFinset \ present c allocations := by
    ext id
    simp only [Finset.mem_sdiff, List.mem_toFinset, mem_present]
    refine and_congr_right fun hid => not_congr (and_iff_left ?_).symm
    exact contains_of_mem_make hreq hid
  have hremoved : (plan.removed.filter fun id => !plan.orphaned.contains id).toFinset
      = present c allocations \ plan.allocation.toFinset := by
    ext id
    simp only [List.mem_toFinset, List.mem_filter, Finset.mem_sdiff, mem_present, hplan,
      mem_removed hreq, Bool.not_eq_true', List.contains_eq_mem, decide_eq_false_iff_not,
      mem_orphaned]
    tauto
  rw [distance, card_added hreq, hadded, ← hremoved,
    List.toFinset_card_of_nodup (nodup_removed.filter _)]

/-! ## The nearest allocation -/

section Nearest

variable {A : Finset String}

/-- A plan that fills up drops nothing, and adds no more than every admissible allocation. -/
theorem distance_le_of_fill (hA : Admissible c allocations required A)
    (hfew : (wanted c allocations required).length < c.replicationMin)
    (hfill : (make c allocations required).allocation
      = c.fill (wanted c allocations required)) :
    distance (make c allocations required).allocation.toFinset (present c allocations)
      ≤ distance A (present c allocations) := by
  refine distance_le_of_subset (fun id hid => ?_) ?_
  · rw [List.mem_toFinset, hfill]
    exact c.subset_fill _ (mem_wanted.2 (.inl (mem_present.1 hid)))
  · rcases hA.enough with henough | hfull
    · refine .inr (le_trans ?_ henough)
      have hlength := c.length_fill_le (wanted c allocations required)
      rw [card_allocation, hfill]
      omega
    · -- Everything that is added is required, or has space that is used up.
      refine .inl fun id hid => ?_
      obtain ⟨hplanned, hnew⟩ := Finset.mem_sdiff.1 hid
      refine Finset.mem_sdiff.2 ⟨?_, hnew⟩
      rw [List.mem_toFinset, hfill] at hplanned
      by_cases hwanted : id ∈ wanted c allocations required
      · exact hA.needed id ((mem_wanted.1 hwanted).resolve_left fun h => hnew (mem_present.2 h))
      · have hspace := c.capacity_pos_of_mem_fill hplanned hwanted
        have hknown : c.known.contains id = true :=
          (c.mem_candidates.1 (List.mem_of_mem_take (c.mem_take_of_mem_fill hplanned hwanted))).1
        by_contra hleft
        exact Nat.ne_of_gt hspace (hfull id hknown hleft)

/-- A plan that cuts down adds required peers alone, and drops no more than it has to. -/
theorem distance_le_of_trim (hA : Admissible c allocations required A)
    (htrim : (make c allocations required).allocation
      = c.trim required (wanted c allocations required)) :
    distance (make c allocations required).allocation.toFinset (present c allocations)
      ≤ distance A (present c allocations) := by
  have hadds : (make c allocations required).allocation.toFinset \ present c allocations
      ⊆ A \ present c allocations := by
    intro id hid
    obtain ⟨hplanned, hnew⟩ := Finset.mem_sdiff.1 hid
    rw [List.mem_toFinset, htrim, c.mem_trim] at hplanned
    refine Finset.mem_sdiff.2 ⟨hA.needed id ?_, hnew⟩
    exact (mem_wanted.1 hplanned.1).resolve_left fun h => hnew (mem_present.2 h)
  rcases Nat.lt_or_ge c.replicationMax (wanted c allocations required).length with hmany | hfits
  · -- Cutting down stops at the greatest number of replicas, and at the required peers.
    refine distance_le_of_card_le hadds (hA.atMost.trans (max_le ?_ ?_))
    · have hnodup : (wanted c allocations required).Nodup := nodup_wanted
      have hadd := c.length_trim_add required hnodup
      have hexcess := c.length_excess_le required (wanted c allocations required)
      rw [card_allocation, htrim]
      omega
    · refine Finset.card_le_card fun id hid => ?_
      exact List.mem_toFinset.2 (required_subset_make (List.mem_toFinset.1 hid))
  · refine distance_le_of_subset (fun id hid => ?_) (.inl hadds)
    rw [List.mem_toFinset, htrim, c.trim_of_le_or (.inl hfits)]
    exact mem_wanted.2 (.inl (mem_present.1 hid))

/-- **A plan makes the fewest changes.**  The planned allocation is admissible, and no admissible
allocation takes fewer peers to add and drop than the plan adds and drops, unknown ones aside. -/
theorem make_nearest (hreq : ∀ id ∈ required, c.known.contains id = true)
    (hbounds : c.replicationMin ≤ c.replicationMax) :
    Admissible c allocations required (make c allocations required).allocation.toFinset ∧
      ∀ A, Admissible c allocations required A →
        (make c allocations required).added.length
            + ((make c allocations required).removed.filter fun id =>
              !(make c allocations required).orphaned.contains id).length
          ≤ (A \ present c allocations).card + (present c allocations \ A).card := by
  refine ⟨admissible_make hreq hbounds, fun A hA => ?_⟩
  rw [changes_make hreq]
  rcases allocation_make_cases allocations required hbounds with ⟨hfew, hfill⟩ | ⟨-, htrim⟩
  · exact distance_le_of_fill hA hfew hfill
  · exact distance_le_of_trim hA htrim

end Nearest

theorem make_nearest_sample :
    (∀ id ∈ ["B"], Sample.placement.known.contains id = true) ∧
      Sample.placement.replicationMin ≤ Sample.placement.replicationMax ∧
      Admissible Sample.placement ["D", "C", "X", "A", "D"] ["B"]
        (make Sample.placement ["D", "C", "X", "A", "D"] ["B"]).allocation.toFinset ∧
      ∀ A, Admissible Sample.placement ["D", "C", "X", "A", "D"] ["B"] A →
        (make Sample.placement ["D", "C", "X", "A", "D"] ["B"]).added.length
            + ((make Sample.placement ["D", "C", "X", "A", "D"] ["B"]).removed.filter fun id =>
              !(make Sample.placement ["D", "C", "X", "A", "D"] ["B"]).orphaned.contains id).length
          ≤ (A \ present Sample.placement ["D", "C", "X", "A", "D"]).card
            + (present Sample.placement ["D", "C", "X", "A", "D"] \ A).card :=
  ⟨by decide, by decide, make_nearest (by decide) (by decide)⟩

end Plan

end PinKeeper
