import Mathlib.Data.List.Induction
import PinKeeper.Proofs.Placement.Plan

/-!
# Proofs/Placement/Greedy — a plan takes the roomiest peers and gives up the tightest

What `fill` takes and what `excess` gives up are the first of a sorted list, so what is chosen comes
before what is left (`rel_of_mem_take`), in an order that leaves no two peers equal (`Precedes`).

A plan does one of the two at most (`allocation_make_cases`): below the least number of replicas it
fills up, which does not exceed the greatest, and from the least number on there is nothing to fill
up.  So no plan takes a peer by choice and drops another.

The planned list begins with what is kept of the pin's own peers, in the order of their first
places, and ends with what is added (`allocation_make_eq_append`).
-/

namespace PinKeeper

/-! ## What comes first in a sorted list -/

/-- In a list in order, what is among the first comes before what is not. -/
theorem rel_of_mem_take {α : Type} {R : α → α → Prop} {l : List α} (h : l.Pairwise R) {n : Nat}
    {x y : α} (hx : x ∈ l.take n) (hy : y ∈ l) (hnot : y ∉ l.take n) : R x y := by
  rw [← List.take_append_drop n l] at h hy
  have hdrop : y ∈ l.drop n := (List.mem_append.1 hy).resolve_left hnot
  exact (List.pairwise_append.1 h).2.2 x hx y hdrop

/-! ## Lists of two parts -/

section Filter

variable {α : Type} {p : α → Bool} {xs ys : List α}

theorem filter_append_eq (hxs : ∀ x ∈ xs, p x = true) (hys : ∀ y ∈ ys, ¬p y = true) :
    (xs ++ ys).filter p = xs := by
  rw [List.filter_append, List.filter_eq_self.2 hxs, List.filter_eq_nil_iff.2 hys, List.append_nil]

theorem filter_not_append (hxs : ∀ x ∈ xs, p x = true) (hys : ∀ y ∈ ys, ¬p y = true) :
    (xs ++ ys).filter (fun x => !p x) = ys := by
  rw [List.filter_append, List.filter_eq_nil_iff.2, List.filter_eq_self.2, List.nil_append]
  · intro y hy
    rw [Bool.eq_false_iff.2 (hys y hy), Bool.not_false]
  · intro x hx
    rw [hxs x hx]
    exact Bool.false_ne_true

end Filter

/-- Order by a measure, and by peer id where the measure is the same. -/
def Precedes (r : Nat → Nat → Prop) (f : String → Nat) (a b : String) : Prop :=
  r (f a) (f b) ∨ f a = f b ∧ a < b

section Precedes

variable {r : Nat → Nat → Prop} [IsStrictTotalOrder Nat r] {f : String → Nat}

theorem Precedes.trans {x y z : String} (hxy : Precedes r f x y) (hyz : Precedes r f y z) :
    Precedes r f x z := by
  rcases hxy with hxy | ⟨hxy, hlt⟩ <;> rcases hyz with hyz | ⟨hyz, hlt'⟩
  · exact .inl (Trans.trans hxy hyz)
  · exact .inl (hyz ▸ hxy)
  · exact .inl (hxy ▸ hyz)
  · exact .inr ⟨hxy.trans hyz, String.lt_trans hlt hlt'⟩

/-- **Any two peers are in order.** -/
theorem precedes_or_eq_or (x y : String) : Precedes r f x y ∨ x = y ∨ Precedes r f y x := by
  rcases trichotomous_of r (f x) (f y) with hr | hsame | hr
  · exact .inl (.inl hr)
  · by_cases hlt : x < y
    · exact .inl (.inr ⟨hsame, hlt⟩)
    by_cases heq : x = y
    · exact .inr (.inl heq)
    · exact .inr (.inr (.inr ⟨hsame.symm, Dict.lt_of_not_lt_of_ne hlt heq⟩))
  · exact .inr (.inr (.inl hr))

theorem pairwise_mergeSort_of_precedes {le : String → String → Bool}
    (hle : ∀ x y, le x y = true ↔ Precedes r f x y ∨ x = y) (l : List String) :
    (l.mergeSort le).Pairwise fun x y => Precedes r f x y ∨ x = y := by
  refine (List.pairwise_mergeSort (fun x y z hxy hyz => ?_) (fun x y => ?_) l).imp (hle _ _).1
  · rw [hle] at hxy hyz ⊢
    rcases hxy with hxy | rfl
    · rcases hyz with hyz | rfl
      · exact .inl (hxy.trans hyz)
      · exact .inl hxy
    · exact hyz
  · rw [Bool.or_eq_true, hle, hle]
    rcases precedes_or_eq_or (r := r) (f := f) x y with h | h | h
    · exact .inl (.inl h)
    · exact .inl (.inr h)
    · exact .inr (.inl h)

/-- **The first of a sorted list precede the others.** -/
theorem precedes_of_mem_take {le : String → String → Bool}
    (hle : ∀ x y, le x y = true ↔ Precedes r f x y ∨ x = y) {l : List String} {n : Nat}
    {x y : String} (hx : x ∈ (l.mergeSort le).take n) (hy : y ∈ l)
    (hnot : y ∉ (l.mergeSort le).take n) : Precedes r f x y := by
  have hsorted := pairwise_mergeSort_of_precedes hle l
  refine (rel_of_mem_take hsorted hx (List.mem_mergeSort.2 hy) hnot).resolve_right ?_
  rintro rfl
  exact hnot hx

end Precedes

namespace Placement

variable {c : Placement}

variable (c) in
/-- Order by space, the most first, and then by peer id. -/
abbrev Roomier : String → String → Prop := Precedes (· > ·) c.capacityOf

variable (c) in
/-- Order by space, the least first, and then by peer id. -/
abbrev Tighter : String → String → Prop := Precedes (· < ·) c.capacityOf

theorem not_lt_iff {x y : String} : ¬y < x ↔ x < y ∨ x = y := by
  constructor
  · intro h
    by_cases heq : x = y
    · exact .inr heq
    · exact .inl (Dict.lt_of_not_lt_of_ne h (Ne.symm heq))
  · rintro (hlt | rfl) h
    · exact String.lt_irrefl x (String.lt_trans hlt h)
    · exact String.lt_irrefl x h

theorem roomier_iff (x y : String) : c.roomier x y = true ↔ c.Roomier x y ∨ x = y := by
  rw [roomier, Roomier, Precedes]
  by_cases hsame : c.capacityOf x = c.capacityOf y
  · rw [if_pos hsame, decide_eq_true_iff, not_lt_iff, hsame]
    simp only [gt_iff_lt, Nat.lt_irrefl, true_and, false_or]
  · have hne : x ≠ y := fun heq => hsame (congrArg _ heq)
    simp only [hsame, hne, if_false, decide_eq_true_iff, gt_iff_lt, false_and, or_false]

theorem tighter_iff (x y : String) : c.tighter x y = true ↔ c.Tighter x y ∨ x = y := by
  rw [tighter, Tighter, Precedes]
  by_cases hsame : c.capacityOf x = c.capacityOf y
  · rw [if_pos hsame, decide_eq_true_iff, not_lt_iff, hsame]
    simp only [Nat.lt_irrefl, true_and, false_or]
  · have hne : x ≠ y := fun heq => hsame (congrArg _ heq)
    simp only [hsame, hne, if_false, decide_eq_true_iff, false_and, or_false]

/-! ## What filling up takes and cutting down gives up -/

theorem mem_take_of_mem_fill {ids : List String} {x : String} (hx : x ∈ c.fill ids)
    (hnew : x ∉ ids) : x ∈ (c.candidates ids).take (c.replicationMin - ids.length) :=
  (List.mem_append.1 hx).resolve_left hnew

theorem capacity_pos_of_mem_fill {ids : List String} {x : String} (hx : x ∈ c.fill ids)
    (hnew : x ∉ ids) : 0 < c.capacityOf x :=
  (mem_candidates.1 (List.mem_of_mem_take (mem_take_of_mem_fill hx hnew))).2.2

/-- **Filling up takes the roomiest peers.** -/
theorem roomier_of_mem_fill {ids : List String} {x y : String} (hx : x ∈ c.fill ids)
    (hnew : x ∉ ids) (hknown : c.known.contains y = true) (hspace : 0 < c.capacityOf y)
    (hleft : y ∉ c.fill ids) : c.Roomier x y := by
  obtain ⟨hold, hnot⟩ := not_or.1 (List.mem_append.not.1 hleft)
  refine precedes_of_mem_take roomier_iff (mem_take_of_mem_fill hx hnew) ?_ hnot
  exact List.mem_mergeSort.1 (mem_candidates.2 ⟨hknown, hold, hspace⟩)

/-- **Cutting down gives up the tightest peers.** -/
theorem tighter_of_mem_excess {required ids : List String} {x y : String}
    (hx : x ∈ c.excess required ids) (hy : y ∈ c.trim required ids) (hfree : y ∉ required) :
    c.Tighter x y := by
  obtain ⟨hmem, hkept⟩ := mem_trim.1 hy
  refine precedes_of_mem_take tighter_iff hx (List.mem_filter.2 ⟨hmem, ?_⟩) hkept
  rw [Bool.not_eq_true', List.contains_eq_mem, decide_eq_false_iff_not]
  exact hfree

theorem length_fill_le (ids : List String) :
    (c.fill ids).length ≤ max ids.length c.replicationMin := by
  have htake := List.length_take_le (c.replicationMin - ids.length) (c.candidates ids)
  rw [fill, List.length_append]
  omega

end Placement

/-! ## The order of first places -/

theorem distinct_append_singleton (xs : List String) (x : String) :
    distinct (xs ++ [x]) = Policy.addNew (distinct xs) x := by
  rw [distinct, List.foldl_append]
  rfl

/-- **What stands once in a list is in the order of the first places.** -/
theorem pairwise_idxOf_distinct (xs : List String) :
    (distinct xs).Pairwise fun x y => xs.idxOf x < xs.idxOf y := by
  induction xs using List.reverseRecOn with
  | nil => exact List.Pairwise.nil
  | append_singleton xs x ih =>
    have hplace {y : String} (hy : y ∈ distinct xs) : (xs ++ [x]).idxOf y = xs.idxOf y :=
      List.idxOf_append_of_mem (mem_distinct.1 hy)
    have hih : (distinct xs).Pairwise fun y z => (xs ++ [x]).idxOf y < (xs ++ [x]).idxOf z := by
      refine ih.imp_of_mem fun hy hz hlt => ?_
      rwa [hplace hy, hplace hz]
    rw [distinct_append_singleton, Policy.addNew]
    split
    · exact hih
    · next hnew =>
      rw [List.contains_iff_mem, mem_distinct] at hnew
      refine List.pairwise_append.2 ⟨hih, List.pairwise_singleton _ _, fun y hy z hz => ?_⟩
      obtain rfl := List.mem_singleton.1 hz
      rw [hplace hy, List.idxOf_append_of_notMem hnew]
      exact Nat.lt_add_right _ (List.idxOf_lt_length_of_mem (mem_distinct.1 hy))

theorem distinct_filter (p : String → Bool) (xs : List String) :
    distinct (xs.filter p) = (distinct xs).filter p := by
  induction xs using List.reverseRecOn with
  | nil => rfl
  | append_singleton xs x ih =>
    rw [List.filter_append, distinct_append_singleton, Policy.addNew]
    by_cases hx : p x = true
    · rw [List.filter_cons_of_pos hx, List.filter_nil, distinct_append_singleton, ih, Policy.addNew]
      simp only [List.contains_eq_mem, List.mem_filter, hx, and_true]
      split
      · rfl
      · rw [List.filter_append, List.filter_cons_of_pos hx, List.filter_nil]
    · rw [List.filter_cons_of_neg hx, List.filter_nil, List.append_nil, ih]
      split
      · rfl
      · rw [List.filter_append, List.filter_cons_of_neg hx, List.filter_nil, List.append_nil]

theorem prefix_foldl_addNew : ∀ (ys xs : List String), xs <+: ys.foldl Policy.addNew xs
  | [], xs => List.prefix_rfl
  | y :: ys, xs => by
    refine List.IsPrefix.trans ?_ (prefix_foldl_addNew ys (Policy.addNew xs y))
    rw [Policy.addNew]
    split
    · exact List.prefix_rfl
    · exact List.prefix_append xs [y]

namespace Plan

variable {c : Placement} {allocations required : List String}

variable (allocations required) in
/-- **A plan fills up or cuts down, but not both.** -/
theorem allocation_make_cases (hbounds : c.replicationMin ≤ c.replicationMax) :
    (wanted c allocations required).length < c.replicationMin ∧
        (make c allocations required).allocation = c.fill (wanted c allocations required) ∨
      c.replicationMin ≤ (wanted c allocations required).length ∧
        (make c allocations required).allocation
          = c.trim required (wanted c allocations required) := by
  rw [allocation_make]
  rcases Nat.lt_or_ge (wanted c allocations required).length c.replicationMin with hfew | hmany
  · refine .inl ⟨hfew, c.trim_of_le_or (.inl ?_)⟩
    have hfill := c.length_fill_le (wanted c allocations required)
    omega
  · exact .inr ⟨hmany, by rw [c.fill_of_sufficient (.inl hmany)]⟩

variable (allocations) in
/-- The filled list begins with the known peers that the pin has, and goes on with new ones. -/
theorem exists_fill_wanted_eq (hreq : ∀ id ∈ required, c.known.contains id = true) :
    ∃ more, c.fill (wanted c allocations required)
        = (make c allocations required).current ++ more ∧ ∀ id ∈ more, id ∉ allocations := by
  obtain ⟨more, hmore⟩ : (make c allocations required).current
      <+: c.fill (wanted c allocations required) :=
    (prefix_foldl_addNew required _).trans (List.prefix_append _ _)
  refine ⟨more, hmore.symm, fun id hid hold => ?_⟩
  have hfill : id ∈ c.fill (wanted c allocations required) :=
    hmore ▸ List.mem_append_right _ hid
  have hknown : c.known.contains id = true :=
    c.contains_of_mem_fill (fun id hid => (mem_wanted.1 hid).elim And.right (hreq id)) hfill
  have hnodup : (c.fill (wanted c allocations required)).Nodup := c.nodup_fill nodup_wanted
  rw [← hmore] at hnodup
  exact List.disjoint_of_nodup_append hnodup (mem_current.2 ⟨hold, hknown⟩) hid

/-- The planned list is what is kept of the peers that the pin has, and what is added. -/
theorem exists_filter_current (hreq : ∀ id ∈ required, c.known.contains id = true) :
    ∃ keeps : String → Bool,
      (make c allocations required).allocation.filter allocations.contains
          = (make c allocations required).current.filter keeps ∧
        (make c allocations required).allocation
          = (make c allocations required).current.filter keeps
            ++ (make c allocations required).added := by
  obtain ⟨more, hmore, hnew⟩ := exists_fill_wanted_eq allocations hreq
  set current := (make c allocations required).current
  set keeps : String → Bool := fun id =>
    !(c.excess required (c.fill (wanted c allocations required))).contains id
  have hallocation : (make c allocations required).allocation
      = current.filter keeps ++ more.filter keeps := by
    have hkeeps : (make c allocations required).allocation
        = (c.fill (wanted c allocations required)).filter keeps := rfl
    rw [hkeeps, hmore, List.filter_append]
  have hold : ∀ id ∈ current.filter keeps, id ∈ allocations := fun id hid =>
    (mem_current.1 (List.mem_of_mem_filter hid)).1
  have hadded : (make c allocations required).added = more.filter keeps := by
    change (make c allocations required).allocation.filter (fun id => !current.contains id) = _
    rw [hallocation]
    refine filter_not_append (fun id hid => ?_) fun id hid hmem => ?_
    · exact List.contains_iff_mem.2 (List.mem_of_mem_filter hid)
    · exact hnew id (List.mem_of_mem_filter hid) (mem_current.1 (List.contains_iff_mem.1 hmem)).1
  rw [hadded, hallocation]
  refine ⟨keeps, filter_append_eq (fun id hid => ?_) fun id hid hmem => ?_, rfl⟩
  · exact List.contains_iff_mem.2 (hold id hid)
  · exact hnew id (List.mem_of_mem_filter hid) (List.contains_iff_mem.1 hmem)

/-- **What is kept stays in front, and what is added comes behind.** -/
theorem allocation_make_eq_append (hreq : ∀ id ∈ required, c.known.contains id = true) :
    (make c allocations required).allocation
      = (make c allocations required).allocation.filter allocations.contains
        ++ (make c allocations required).added := by
  obtain ⟨keeps, hkept, hallocation⟩ := exists_filter_current hreq
  rw [hkept, ← hallocation]

/-- **What is kept is in the order in which the pin names it first.** -/
theorem pairwise_idxOf_kept (hreq : ∀ id ∈ required, c.known.contains id = true) :
    ((make c allocations required).allocation.filter allocations.contains).Pairwise
      fun x y => allocations.idxOf x < allocations.idxOf y := by
  obtain ⟨keeps, hkept, -⟩ := exists_filter_current hreq
  have hcurrent : (make c allocations required).current
      = (distinct allocations).filter c.known.contains := distinct_filter _ _
  rw [hkept, hcurrent]
  exact ((pairwise_idxOf_distinct allocations).filter _).filter _

/-! ## The choice -/

/-- How a plan chooses: which peers come and go, and where they stand. -/
structure Greedy (c : Placement) (allocations required : List String) (p : Plan) : Prop where
  /-- A peer that is added by choice has space, and it is roomier than every other that has. -/
  roomiest : ∀ x ∈ p.added, x ∉ required → 0 < c.capacityOf x ∧
    ∀ y, c.known.contains y = true → 0 < c.capacityOf y → y ∉ p.allocation → y ∉ allocations →
      y ∉ required → c.Roomier x y
  /-- A known peer that is dropped is tighter than every other that is kept by choice. -/
  tightest : ∀ x ∈ p.removed, c.known.contains x = true →
    ∀ y ∈ p.allocation, y ∉ required → c.Tighter x y
  /-- Where a peer is added by choice, no known peer is dropped. -/
  steady : ∀ x ∈ p.added, x ∉ required → ∀ y ∈ p.removed, ¬c.known.contains y = true
  /-- What is kept stays in front, and what is added comes behind. -/
  appended : p.allocation = p.allocation.filter allocations.contains ++ p.added
  /-- What is kept is in the order in which the pin names it first. -/
  ordered : (p.allocation.filter allocations.contains).Pairwise fun x y =>
    allocations.idxOf x < allocations.idxOf y

/-- A peer that is added by choice was taken to fill up. -/
theorem fills_of_mem_added (hreq : ∀ id ∈ required, c.known.contains id = true)
    (hbounds : c.replicationMin ≤ c.replicationMax) {x : String}
    (hx : x ∈ (make c allocations required).added) (hfree : x ∉ required) :
    x ∉ wanted c allocations required ∧
      (make c allocations required).allocation = c.fill (wanted c allocations required) := by
  obtain ⟨hplanned, hnew⟩ := (mem_added hreq).1 hx
  have hunwanted : x ∉ wanted c allocations required := fun hmem =>
    (mem_wanted.1 hmem).elim (fun h => hnew h.1) hfree
  refine ⟨hunwanted, ?_⟩
  rcases allocation_make_cases allocations required hbounds with ⟨-, hfill⟩ | ⟨-, htrim⟩
  · exact hfill
  · rw [htrim] at hplanned
    exact absurd (c.mem_trim.1 hplanned).1 hunwanted

/-- A known peer that is dropped was given up to cut down. -/
theorem trims_of_mem_removed (hreq : ∀ id ∈ required, c.known.contains id = true)
    (hbounds : c.replicationMin ≤ c.replicationMax) {x : String}
    (hx : x ∈ (make c allocations required).removed) (hknown : c.known.contains x = true) :
    x ∈ c.excess required (wanted c allocations required) ∧
      (make c allocations required).allocation
        = c.trim required (wanted c allocations required) := by
  obtain ⟨hold, hgone⟩ := (mem_removed hreq).1 hx
  have hwanted : x ∈ wanted c allocations required := mem_wanted.2 (.inl ⟨hold, hknown⟩)
  rcases allocation_make_cases allocations required hbounds with ⟨-, hfill⟩ | ⟨-, htrim⟩
  · rw [hfill] at hgone
    exact absurd (c.subset_fill _ hwanted) hgone
  · rw [htrim, c.mem_trim, not_and, not_not] at hgone
    exact ⟨hgone hwanted, htrim⟩

/-- **A plan chooses greedily and never churns.**  It adds the roomiest of the peers that have
space, it drops the tightest of those that are not required, it never does both, and what it keeps
it leaves in its order. -/
theorem make_greedy (hreq : ∀ id ∈ required, c.known.contains id = true)
    (hbounds : c.replicationMin ≤ c.replicationMax) :
    Greedy c allocations required (make c allocations required) where
  roomiest x hx hfree := by
    obtain ⟨hunwanted, hfill⟩ := fills_of_mem_added hreq hbounds hx hfree
    have hplanned := ((mem_added hreq).1 hx).1
    rw [hfill] at hplanned ⊢
    exact ⟨c.capacity_pos_of_mem_fill hplanned hunwanted, fun y hknown hspace hleft _ _ =>
      c.roomier_of_mem_fill hplanned hunwanted hknown hspace hleft⟩
  tightest x hx hknown y hy hfree := by
    obtain ⟨hexcess, htrim⟩ := trims_of_mem_removed hreq hbounds hx hknown
    rw [htrim] at hy
    exact c.tighter_of_mem_excess hexcess hy hfree
  steady x hx hfree y hy hknown := by
    obtain ⟨hunwanted, -⟩ := fills_of_mem_added hreq hbounds hx hfree
    obtain ⟨-, htrim⟩ := trims_of_mem_removed hreq hbounds hy hknown
    have hplanned := ((mem_added hreq).1 hx).1
    rw [htrim] at hplanned
    exact hunwanted (c.mem_trim.1 hplanned).1
  appended := allocation_make_eq_append hreq
  ordered := pairwise_idxOf_kept hreq

end Plan

/-- Four peers, of which two have the same space and one has none. -/
def Sample.placement : Placement where
  known := .ofList [("A", "alpha"), ("B", "beta"), ("C", "gamma"), ("D", "delta")]
  capacity := .ofList [("A", 5), ("B", 7), ("D", 5)]
  replicationMin := 3
  replicationMax := 3

theorem Plan.make_greedy_sample :
    (∀ id ∈ ["B"], Sample.placement.known.contains id = true) ∧
      Sample.placement.replicationMin ≤ Sample.placement.replicationMax ∧
      Greedy Sample.placement ["X", "C", "C"] ["B"]
        (make Sample.placement ["X", "C", "C"] ["B"]) :=
  ⟨by decide, by decide, make_greedy (by decide) (by decide)⟩

end PinKeeper
