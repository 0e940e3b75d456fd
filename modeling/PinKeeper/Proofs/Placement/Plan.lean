import Mathlib.Data.Finset.Card
import Mathlib.Data.List.Perm.Subperm
import PinKeeper.Placement.Plan
import PinKeeper.Proofs.Placement.Required

/-!
# Proofs/Placement/Plan — the planned allocation is within the bounds, and planned again it stays

A plan goes through three lists: the known peers that the pin has, with the required ones added;
that list filled up to the least number of replicas (`fill`); and the filled list cut down to the
greatest number (`trim`).  Each stage keeps the list free of repetitions and among the known peers,
and the two numbers do not get into each other's way as long as the least is not above the greatest.

So the allocation has the required peers, at most the greatest number of peers or only required
ones (`length_trim_le_or`), and at least the least number of peers or all that have space
(`Sufficient`).  These are also the conditions under which none of the three stages changes a list,
which is why **planning a planned allocation gives it back** (`allocation_make_make`).
-/

namespace PinKeeper

/-! ## Elements taken out of a list -/

/-- Taking elements out of a list without repetitions shortens it by their number. -/
theorem length_filter_not_contains {xs ds : List String} (hxs : xs.Nodup) (hds : ds.Nodup)
    (h : ds ⊆ xs) : (xs.filter fun x => !ds.contains x).length + ds.length = xs.length := by
  have hperm : (xs.filter ds.contains).Perm ds := by
    refine (List.perm_ext_iff_of_nodup (hxs.filter _) hds).2 fun x => ?_
    rw [List.mem_filter, List.contains_iff_mem]
    exact ⟨And.right, fun hx => ⟨h hx, hx⟩⟩
  have hsplit := List.length_eq_length_filter_add (l := xs) ds.contains
  rw [hperm.length_eq] at hsplit
  omega

theorem mem_distinct {xs : List String} {x : String} : x ∈ distinct xs ↔ x ∈ xs := by
  rw [distinct, Policy.mem_foldl_addNew]
  simp

theorem nodup_distinct (xs : List String) : (distinct xs).Nodup :=
  Policy.nodup_foldl_addNew List.nodup_nil

/-- What stands once in a list is found once by `addNew`: the list itself comes out. -/
theorem foldl_addNew_append : ∀ {ys xs : List String}, (xs ++ ys).Nodup →
    ys.foldl Policy.addNew xs = xs ++ ys
  | [], xs, _ => by simp
  | y :: ys, xs, h => by
    have hy : ¬xs.contains y = true := fun hy =>
      List.disjoint_of_nodup_append h (List.contains_iff_mem.1 hy) List.mem_cons_self
    rw [List.append_cons] at h ⊢
    rw [List.foldl_cons, Policy.addNew, if_neg hy, foldl_addNew_append h]

theorem distinct_of_nodup {xs : List String} (h : xs.Nodup) : distinct xs = xs :=
  foldl_addNew_append h

namespace Placement

variable (c : Placement)

/-- There are enough replicas, or no known peer with space is left out. -/
def Sufficient (ids : List String) : Prop :=
  c.replicationMin ≤ ids.length ∨
    ∀ id, c.known.contains id = true → id ∉ ids → c.capacityOf id = 0

variable {c}

/-! ## Filling up -/

theorem mem_candidates {ids : List String} {id : String} :
    id ∈ c.candidates ids ↔ c.known.contains id = true ∧ id ∉ ids ∧ 0 < c.capacityOf id := by
  rw [candidates, List.mem_mergeSort, List.mem_filter, Dict.contains_iff, Bool.and_eq_true,
    Bool.not_eq_true', Bool.eq_false_iff, Ne, List.contains_iff_mem, decide_eq_true_iff]

theorem nodup_candidates (ids : List String) : (c.candidates ids).Nodup :=
  (List.mergeSort_perm _ _).nodup_iff.2 (c.known.nodup_keys.filter _)

theorem subset_fill (ids : List String) : ids ⊆ c.fill ids := List.subset_append_left _ _

theorem contains_of_mem_fill {ids : List String} (h : ∀ id ∈ ids, c.known.contains id = true)
    {id : String} (hid : id ∈ c.fill ids) : c.known.contains id = true := by
  rcases List.mem_append.1 hid with hid | hid
  · exact h id hid
  · exact (mem_candidates.1 (List.mem_of_mem_take hid)).1

theorem nodup_fill {ids : List String} (h : ids.Nodup) : (c.fill ids).Nodup := by
  refine List.nodup_append.2 ⟨h, (nodup_candidates ids).take, fun a ha b hb hab => ?_⟩
  exact (mem_candidates.1 (List.mem_of_mem_take hb)).2.1 (hab ▸ ha)

/-- **After filling up there are enough replicas, or no space is left.** -/
theorem sufficient_fill (ids : List String) : c.Sufficient (c.fill ids) := by
  by_cases hlen : (c.candidates ids).length ≤ c.replicationMin - ids.length
  · refine .inr fun id hknown hid => Nat.eq_zero_of_not_pos fun hpos => hid ?_
    rw [fill, List.take_of_length_le hlen]
    by_cases hmem : id ∈ ids
    · exact List.mem_append_left _ hmem
    · exact List.mem_append_right _ (mem_candidates.2 ⟨hknown, hmem, hpos⟩)
  · refine .inl ?_
    rw [fill, List.length_append, List.length_take]
    omega

/-- Where there are enough replicas or no space is left, filling up changes nothing. -/
theorem fill_of_sufficient {ids : List String} (h : c.Sufficient ids) : c.fill ids = ids := by
  rw [fill]
  rcases h with h | h
  · rw [Nat.sub_eq_zero_of_le h, List.take_zero, List.append_nil]
  · have hnil : c.candidates ids = [] := List.eq_nil_iff_forall_not_mem.2 fun id hid => by
      obtain ⟨hknown, hmem, hpos⟩ := mem_candidates.1 hid
      exact Nat.ne_of_gt hpos (h id hknown hmem)
    rw [hnil, List.take_nil, List.append_nil]

/-! ## Cutting down -/

theorem mem_excess {required ids : List String} {id : String} (h : id ∈ c.excess required ids) :
    id ∈ ids ∧ id ∉ required := by
  have hid := List.mem_mergeSort.1 (List.mem_of_mem_take h)
  rw [List.mem_filter, Bool.not_eq_true', Bool.eq_false_iff, Ne, List.contains_iff_mem] at hid
  exact hid

theorem nodup_excess {ids : List String} (required : List String) (h : ids.Nodup) :
    (c.excess required ids).Nodup :=
  ((List.mergeSort_perm _ _).nodup_iff.2 (h.filter _)).take

theorem mem_trim {required ids : List String} {id : String} :
    id ∈ c.trim required ids ↔ id ∈ ids ∧ id ∉ c.excess required ids := by
  rw [trim, List.mem_filter, Bool.not_eq_true', Bool.eq_false_iff, Ne, List.contains_iff_mem]

/-- **A required peer is never dropped.** -/
theorem mem_trim_of_mem_required {required ids : List String} {id : String} (h : id ∈ ids)
    (hid : id ∈ required) : id ∈ c.trim required ids :=
  mem_trim.2 ⟨h, fun hexcess => (mem_excess hexcess).2 hid⟩

theorem nodup_trim {ids : List String} (required : List String) (h : ids.Nodup) :
    (c.trim required ids).Nodup := h.filter _

theorem length_trim_add {ids : List String} (required : List String) (h : ids.Nodup) :
    (c.trim required ids).length + (c.excess required ids).length = ids.length :=
  length_filter_not_contains h (nodup_excess required h) fun _ hid => (mem_excess hid).1

theorem length_excess_le (required ids : List String) :
    (c.excess required ids).length ≤ ids.length - c.replicationMax :=
  List.length_take_le _ _

/-- **After cutting down there are not too many replicas, or only required ones.** -/
theorem length_trim_le_or {ids : List String} (required : List String) (h : ids.Nodup) :
    (c.trim required ids).length ≤ c.replicationMax ∨ c.trim required ids ⊆ required := by
  set removable := (ids.filter fun id => !required.contains id).mergeSort c.tighter with hremovable
  by_cases hlen : removable.length ≤ ids.length - c.replicationMax
  · -- Everything that is not required has been dropped.
    refine .inr fun id hid => ?_
    obtain ⟨hmem, hkept⟩ := mem_trim.1 hid
    rw [excess, ← hremovable, List.take_of_length_le hlen, hremovable, List.mem_mergeSort,
      List.mem_filter, Bool.not_eq_true', Bool.eq_false_iff, Ne, List.contains_iff_mem] at hkept
    exact not_not.1 fun hnot => hkept ⟨hmem, hnot⟩
  · refine .inl ?_
    have hadd := length_trim_add required (c := c) h
    rw [excess, ← hremovable, List.length_take] at hadd
    omega

/-- Where there are not too many replicas or only required ones, cutting down changes nothing. -/
theorem trim_of_le_or {required ids : List String}
    (h : ids.length ≤ c.replicationMax ∨ ids ⊆ required) : c.trim required ids = ids := by
  have hnil : c.excess required ids = [] := by
    rcases h with h | h
    · rw [excess, Nat.sub_eq_zero_of_le h, List.take_zero]
    · exact List.eq_nil_iff_forall_not_mem.2 fun id hid =>
        (mem_excess hid).2 (h (mem_excess hid).1)
  rw [trim, hnil]
  exact List.filter_eq_self.2 fun _ _ => rfl

/-- **Cutting down leaves enough replicas**, as it stops at the greatest number, which is not below
the least. -/
theorem sufficient_trim {required ids : List String} (hnodup : ids.Nodup)
    (hbounds : c.replicationMin ≤ c.replicationMax) (h : c.Sufficient ids) :
    c.Sufficient (c.trim required ids) := by
  by_cases hlen : ids.length ≤ c.replicationMax
  · rwa [trim_of_le_or (.inl hlen)]
  · refine .inl ?_
    have hadd := length_trim_add required (c := c) hnodup
    have hle := length_excess_le (c := c) required ids
    omega

end Placement

namespace Plan

variable {c : Placement} {allocations required : List String}

/-- Known peers that a pin has, with the required ones added. -/
def wanted (c : Placement) (allocations required : List String) : List String :=
  required.foldl Policy.addNew (distinct (allocations.filter c.known.contains))

theorem allocation_make : (make c allocations required).allocation
    = c.trim required (c.fill (wanted c allocations required)) := rfl

theorem mem_wanted {id : String} : id ∈ wanted c allocations required ↔
    (id ∈ allocations ∧ c.known.contains id = true) ∨ id ∈ required := by
  rw [wanted, Policy.mem_foldl_addNew, mem_distinct, List.mem_filter]

theorem nodup_wanted : (wanted c allocations required).Nodup :=
  Policy.nodup_foldl_addNew (nodup_distinct _)

/-! ## The planned allocation -/

theorem nodup_allocation_make : (make c allocations required).allocation.Nodup :=
  c.nodup_trim required (c.nodup_fill nodup_wanted)

/-- **The planned allocation has every required peer.** -/
theorem required_subset_make : required ⊆ (make c allocations required).allocation :=
  fun _ hid => c.mem_trim_of_mem_required (c.subset_fill _ (mem_wanted.2 (.inr hid))) hid

/-- **The planned allocation has known peers only**, if the required ones are known. -/
theorem contains_of_mem_make (hreq : ∀ id ∈ required, c.known.contains id = true) {id : String}
    (h : id ∈ (make c allocations required).allocation) : c.known.contains id = true := by
  refine c.contains_of_mem_fill (fun id hid => ?_) (c.mem_trim.1 h).1
  exact (mem_wanted.1 hid).elim And.right (hreq id)

/-- **The planned allocation has at most the greatest number of peers, or the required ones
alone.** -/
theorem length_make_le_or : (make c allocations required).allocation.length ≤ c.replicationMax ∨
    (make c allocations required).allocation ⊆ required :=
  c.length_trim_le_or required (c.nodup_fill nodup_wanted)

/-- **The planned allocation has enough peers, or all that have space.** -/
theorem sufficient_make (hbounds : c.replicationMin ≤ c.replicationMax) :
    c.Sufficient (make c allocations required).allocation :=
  c.sufficient_trim (c.nodup_fill nodup_wanted) hbounds (c.sufficient_fill _)

/-! ## The change

Unknown peers are dropped on a list of their own, and the planned peers are all known: so added and
removed are the two differences between the allocation that the pin has and the planned one. -/

theorem mem_current {id : String} : id ∈ (make c allocations required).current ↔
    id ∈ allocations ∧ c.known.contains id = true := by
  rw [make, mem_distinct, List.mem_filter]

theorem mem_orphaned {id : String} : id ∈ (make c allocations required).orphaned ↔
    id ∈ allocations ∧ ¬c.known.contains id = true := by
  rw [make, mem_distinct, List.mem_filter, Bool.not_eq_true', Bool.eq_false_iff]

/-- **Added is what the planned allocation has and the pin has not.** -/
theorem mem_added (hreq : ∀ id ∈ required, c.known.contains id = true) {id : String} :
    id ∈ (make c allocations required).added ↔
      id ∈ (make c allocations required).allocation ∧ id ∉ allocations := by
  have hadded : id ∈ (make c allocations required).added ↔
      id ∈ (make c allocations required).allocation
        ∧ id ∉ (make c allocations required).current := by
    rw [make, List.mem_filter, Bool.not_eq_true', Bool.eq_false_iff, Ne, List.contains_iff_mem]
  rw [hadded, mem_current]
  refine and_congr_right fun hid => not_congr (and_iff_left ?_)
  exact contains_of_mem_make hreq hid

/-- **Removed is what the pin has and the planned allocation has not.** -/
theorem mem_removed (hreq : ∀ id ∈ required, c.known.contains id = true) {id : String} :
    id ∈ (make c allocations required).removed ↔
      id ∈ allocations ∧ id ∉ (make c allocations required).allocation := by
  have hremoved : id ∈ (make c allocations required).removed ↔
      (id ∈ (make c allocations required).current
        ∧ id ∉ (make c allocations required).allocation)
        ∨ id ∈ (make c allocations required).orphaned := by
    rw [make, List.mem_append, List.mem_filter, Bool.not_eq_true', Bool.eq_false_iff, Ne,
      List.contains_iff_mem]
  rw [hremoved, mem_current, mem_orphaned]
  constructor
  · rintro (⟨⟨hid, -⟩, hnot⟩ | ⟨hid, hunknown⟩)
    · exact ⟨hid, hnot⟩
    · exact ⟨hid, fun hmem => hunknown (contains_of_mem_make hreq hmem)⟩
  · rintro ⟨hid, hnot⟩
    by_cases hknown : c.known.contains id = true
    · exact .inl ⟨⟨hid, hknown⟩, hnot⟩
    · exact .inr ⟨hid, hknown⟩

theorem card_added (hreq : ∀ id ∈ required, c.known.contains id = true) :
    (make c allocations required).added.length
      = ((make c allocations required).allocation.toFinset \ allocations.toFinset).card := by
  have hnodup : (make c allocations required).added.Nodup := nodup_allocation_make.filter _
  rw [← List.toFinset_card_of_nodup hnodup]
  congr 1
  ext id
  rw [List.mem_toFinset, mem_added hreq, Finset.mem_sdiff, List.mem_toFinset, List.mem_toFinset]

theorem nodup_removed : (make c allocations required).removed.Nodup := by
  have hcurrent : (make c allocations required).current.Nodup := nodup_distinct _
  have horphaned : (make c allocations required).orphaned.Nodup := nodup_distinct _
  refine List.nodup_append.2 ⟨hcurrent.filter _, horphaned, fun a ha b hb hab => ?_⟩
  have ha' : a ∈ (make c allocations required).current := List.mem_of_mem_filter ha
  have hb' : a ∈ (make c allocations required).orphaned := hab ▸ hb
  exact (mem_orphaned.1 hb').2 (mem_current.1 ha').2

theorem card_removed (hreq : ∀ id ∈ required, c.known.contains id = true) :
    (make c allocations required).removed.length
      = (allocations.toFinset \ (make c allocations required).allocation.toFinset).card := by
  rw [← List.toFinset_card_of_nodup nodup_removed]
  congr 1
  ext id
  rw [List.mem_toFinset, mem_removed hreq, Finset.mem_sdiff, List.mem_toFinset, List.mem_toFinset]

/-- **A plan changes nothing exactly if the pin has the planned peers**, in whatever order and
however often. -/
theorem isNoop_make_iff (hreq : ∀ id ∈ required, c.known.contains id = true) :
    (make c allocations required).isNoop = true ↔
      ∀ id, id ∈ allocations ↔ id ∈ (make c allocations required).allocation := by
  rw [isNoop, Bool.and_eq_true, List.isEmpty_iff, List.isEmpty_iff, List.eq_nil_iff_forall_not_mem,
    List.eq_nil_iff_forall_not_mem]
  simp only [mem_added hreq, mem_removed hreq, not_and_not_right]
  exact ⟨fun h id => ⟨h.2 id, h.1 id⟩, fun h => ⟨fun id => (h id).2, fun id => (h id).1⟩⟩

/-! ## Planning again -/

/-- An allocation that meets what a plan asks for is planned as it is: no stage changes it. -/
theorem allocation_make_of_settled {ids : List String} (hnodup : ids.Nodup)
    (hknown : ∀ id ∈ ids, c.known.contains id = true) (hreq : required ⊆ ids)
    (henough : c.Sufficient ids) (hmost : ids.length ≤ c.replicationMax ∨ ids ⊆ required) :
    (make c ids required).allocation = ids := by
  have hwanted : wanted c ids required = ids := by
    rw [wanted, List.filter_eq_self.2 hknown, distinct_of_nodup hnodup,
      Policy.foldl_addNew_of_subset hreq]
  rw [allocation_make, hwanted, c.fill_of_sufficient henough, c.trim_of_le_or hmost]

/-- **Planning a planned allocation gives it back.** -/
theorem allocation_make_make (hreq : ∀ id ∈ required, c.known.contains id = true)
    (hbounds : c.replicationMin ≤ c.replicationMax) :
    (make c (make c allocations required).allocation required).allocation
      = (make c allocations required).allocation :=
  allocation_make_of_settled nodup_allocation_make (fun _ => contains_of_mem_make hreq)
    required_subset_make (sufficient_make hbounds) length_make_le_or

end Plan

/-! ## The placement of a policy -/

namespace Placement

/-- **The known peers of a placement are those of its policy.** -/
theorem contains_known_ofPolicy {p : Policy} {freeSpace : Dict Nat} {id : String} :
    (ofPolicy p freeSpace).known.contains id = true ↔ p.Knows id := by
  rw [ofPolicy, Dict.contains_ofList]
  simp only [List.map_map, List.mem_map, List.mem_filterMap, Option.map_eq_some_iff, Policy.Knows]
  constructor
  · rintro ⟨_, ⟨n, hn, _, hid, rfl⟩, rfl⟩
    exact ⟨n, hn, hid⟩
  · rintro ⟨n, hn, hid⟩
    exact ⟨(id, n), ⟨n, hn, id, hid, rfl⟩, rfl⟩

theorem contains_of_mem_requiredPeers {p : Policy} {freeSpace : Dict Nat} {pin : Pin} :
    ∀ id ∈ p.requiredPeers pin, (ofPolicy p freeSpace).known.contains id = true :=
  fun _ hid => contains_known_ofPolicy.2 (Policy.knows_of_mem_requiredPeers hid)

end Placement

end PinKeeper
