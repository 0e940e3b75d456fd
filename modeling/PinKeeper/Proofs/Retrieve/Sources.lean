import Mathlib.Data.List.Nodup
import Mathlib.Data.List.Pairwise
import PinKeeper.Proofs.Dict
import PinKeeper.Retrieve

/-!
# Proofs/Retrieve/Sources — the nodes that hold a pin, the best first

The sources are named by the peers that report the pin as pinned, in the order of the peer ids, and
then sorted by `rank`.  The sort is stable, so it leaves the names of one rank in the order in
which they stood (`filter_mergeSort_eq`): ranks 0 and 1 are the primary and the backup, each once,
and behind them the rest is in the order of the peer ids (`bestFirst_of_sources`).  Where the nodes
go by their keys and no two of them share a peer id (`WellKept`), no name comes up twice, and so
there is nothing for `dropRepeats` to drop.
-/

namespace PinKeeper.Retrieve

/-! ## A stable sort by rank -/

section Ranks

variable {α : Type} {r : α → Nat}

/-- What a list has at its front of a property that nothing behind brings back is all of it. -/
theorem filter_append_filter_not_eq {q : α → Bool} {xs : List α}
    (h : xs.Pairwise fun a b => q b = true → q a = true) :
    xs.filter q ++ (xs.filter fun a => !q a) = xs := by
  induction xs with
  | nil => rfl
  | cons x xs ih =>
    obtain ⟨hx, hxs⟩ := List.pairwise_cons.1 h
    cases hq : q x with
    | true =>
      rw [List.filter_cons_of_pos hq, List.filter_cons_of_neg (p := fun a => !q a)
        (by rw [hq]; exact Bool.false_ne_true), List.cons_append, ih hxs]
    | false =>
      have hnone : xs.filter q = [] := List.filter_eq_nil_iff.2 fun b hb hqb =>
        Bool.false_ne_true (hq.symm.trans (hx b hb hqb))
      have hall : (xs.filter fun a => !q a) = xs := List.filter_eq_self.2 fun b hb => by
        rw [Bool.not_eq_true', ← Bool.not_eq_true]
        exact fun hqb => Bool.false_ne_true (hq.symm.trans (hx b hb hqb))
      rw [List.filter_cons_of_neg (ne_true_of_eq_false hq), List.filter_cons_of_pos
        (p := fun a => !q a) (by rw [hq]; rfl), hnone, hall, List.nil_append]

theorem rank_trans (a b c : α) (hab : decide (r a ≤ r b) = true)
    (hbc : decide (r b ≤ r c) = true) : decide (r a ≤ r c) = true :=
  decide_eq_true (Nat.le_trans (of_decide_eq_true hab) (of_decide_eq_true hbc))

theorem rank_total (a b : α) : (decide (r a ≤ r b) || decide (r b ≤ r a)) = true := by
  rw [Bool.or_eq_true, decide_eq_true_eq, decide_eq_true_eq]
  exact Nat.le_total _ _

variable (r)

/-- **A sort by rank leaves what has one rank in order.** -/
theorem filter_mergeSort_eq (xs : List α) (n : Nat) :
    ((xs.mergeSort fun a b => r a ≤ r b).filter fun a => r a = n) = xs.filter fun a => r a = n := by
  have hsub : (xs.filter fun a => r a = n).Sublist (xs.mergeSort fun a b => r a ≤ r b) := by
    refine List.sublist_mergeSort rank_trans rank_total ?_ List.filter_sublist
    refine List.pairwise_of_forall_mem_list fun a ha b hb => ?_
    rw [List.mem_filter, decide_eq_true_eq] at ha hb
    exact decide_eq_true (ha.2.trans hb.2.symm).le
  have hfilter := hsub.filter fun a => decide (r a = n)
  rw [List.filter_filter] at hfilter
  simp only [Bool.and_self] at hfilter
  exact (hfilter.eq_of_length ((List.mergeSort_perm _ _).filter _).length_eq.symm).symm

/-- Three ranks are three lists, one behind the other. -/
theorem mergeSort_eq_append (hr : ∀ a, r a ≤ 2) (xs : List α) :
    (xs.mergeSort fun a b => r a ≤ r b) = (xs.filter fun a => r a = 0) ++
      ((xs.filter fun a => r a = 1) ++ xs.filter fun a => r a = 2) := by
  rw [← filter_mergeSort_eq r xs 0, ← filter_mergeSort_eq r xs 1, ← filter_mergeSort_eq r xs 2]
  have hsorted : (xs.mergeSort fun a b => r a ≤ r b).Pairwise fun a b => r a ≤ r b :=
    (List.pairwise_mergeSort rank_trans rank_total xs).imp of_decide_eq_true
  generalize (xs.mergeSort fun a b => r a ≤ r b) = ys at hsorted ⊢
  have hsplit (n : Nat) {zs : List α} (hzs : zs.Sublist ys) :
      (zs.filter fun a => r a ≤ n) ++ (zs.filter fun a => !decide (r a ≤ n)) = zs :=
    filter_append_filter_not_eq <| (hsorted.sublist hzs).imp fun {a b} hab hb =>
      decide_eq_true (hab.trans (of_decide_eq_true hb))
  have hzero := hsplit 0 (List.Sublist.refl ys)
  rw [← hsplit 1 (List.filter_sublist (p := fun a => !decide (r a ≤ 0)) (l := ys)),
    List.filter_filter, List.filter_filter] at hzero
  refine hzero.symm.trans (congrArg₂ _ ?_ (congrArg₂ _ ?_ ?_)) <;>
    refine List.filter_congr fun a _ => Bool.eq_iff_iff.2 ?_
  · rw [decide_eq_true_eq, decide_eq_true_eq, Nat.le_zero]
  · simp only [Bool.and_eq_true, Bool.not_eq_true', decide_eq_true_eq, decide_eq_false_iff_not]
    omega
  · have := hr a
    simp only [Bool.and_eq_true, Bool.not_eq_true', decide_eq_true_eq, decide_eq_false_iff_not]
    omega

end Ranks

/-! ## Nodes that hold a pin -/

section Nodes

variable {p : Policy} {pin : Pin}

/-- Nodes go by their keys, and no two of them share a peer id. -/
structure WellKept (p : Policy) : Prop where
  named : ∀ e ∈ p.nodes.entries, e.2.name = e.1
  distinct : (p.nodes.values.filterMap fun n => n.peerId).Nodup

/-- Names of the nodes whose peers report the pin as pinned. -/
def holders (p : Policy) (pin : Pin) : List String :=
  (p.nodes.values.filter fun n => n.peerId.any fun id => pin.stateOf id == some .pinned).map
    fun n => n.name

/-- The peer id of a node comes before that of another one. -/
def PeerLt (p : Policy) (a b : String) : Prop :=
  ∃ x y, p.peerIdOf a = some x ∧ p.peerIdOf b = some y ∧ x < y

namespace WellKept

variable (h : WellKept p)

include h

theorem node_name {n : Node} (hn : n ∈ p.nodes.values) : p.node n.name = some n := by
  obtain ⟨e, he, rfl⟩ := List.mem_map.1 hn
  rw [Policy.node, h.named e he]
  exact Dict.find?_eq_some_iff.2 he

/-- **A peer id leads to its node**, because it leads to one node only. -/
theorem nodeOfPeer_eq_some_iff {id : String} {n : Node} :
    p.nodeOfPeer id = some n ↔ n ∈ p.nodes.values ∧ n.peerId = some id := by
  have hfound {n : Node} (hn : p.nodeOfPeer id = some n) :
      n ∈ p.nodes.values ∧ n.peerId = some id :=
    ⟨List.mem_of_find?_eq_some hn,
      eq_of_beq (List.find?_some (p := fun n : Node => n.peerId == some id) hn)⟩
  refine ⟨hfound, fun ⟨hn, hid⟩ => ?_⟩
  cases hother : p.nodeOfPeer id with
  | none => exact absurd (beq_iff_eq.2 hid) (List.find?_eq_none.1 hother n hn)
  | some n' =>
    obtain ⟨hn', hid'⟩ := hfound hother
    have : Std.Symm fun a b : Node =>
        ∀ x, a.peerId = some x → ∀ y, b.peerId = some y → x ≠ y :=
      ⟨fun a b hab y hy x hx => (hab x hx y hy).symm⟩
    by_contra hne
    exact (List.pairwise_filterMap.1 h.distinct).forall hn' hn (fun heq => hne (congrArg some heq))
      id hid' id hid rfl

theorem pairwise_pinnedNodes : (pinnedNodes p pin).Pairwise (PeerLt p) := by
  refine List.Pairwise.filterMap _ ?_ (pin.peerMap.ascending.sublist List.filter_sublist)
  intro e e' hlt a ha b hb
  obtain ⟨n, hn, rfl⟩ := Option.map_eq_some_iff.1 ha
  obtain ⟨n', hn', rfl⟩ := Option.map_eq_some_iff.1 hb
  obtain ⟨hmem, hid⟩ := h.nodeOfPeer_eq_some_iff.1 hn
  obtain ⟨hmem', hid'⟩ := h.nodeOfPeer_eq_some_iff.1 hn'
  refine ⟨e.1, e'.1, ?_, ?_, hlt⟩
  · rw [Policy.peerIdOf, h.node_name hmem, Option.bind_some, hid]
  · rw [Policy.peerIdOf, h.node_name hmem', Option.bind_some, hid']

theorem nodup_pinnedNodes : (pinnedNodes p pin).Nodup := by
  refine h.pairwise_pinnedNodes.imp ?_
  rintro a b ⟨x, y, hx, hy, hlt⟩ rfl
  rw [Option.some.inj (hx.symm.trans hy)] at hlt
  exact String.lt_irrefl _ hlt

theorem nodup_holders : (holders p pin).Nodup := by
  have hnames : (p.nodes.values.map fun n => n.name) = p.nodes.keys := by
    rw [Dict.values, Dict.keys, List.map_map]
    exact List.map_congr_left fun e he => h.named e he
  exact (hnames ▸ p.nodes.nodup_keys).sublist (List.filter_sublist.map _)

/-- **The names are those of the nodes that hold the pin.** -/
theorem pinnedNodes_perm : (pinnedNodes p pin).Perm (holders p pin) := by
  refine (List.perm_ext_iff_of_nodup h.nodup_pinnedNodes h.nodup_holders).2 fun name => ?_
  rw [pinnedNodes, holders, List.mem_filterMap, List.mem_map]
  constructor
  · rintro ⟨e, he, hname⟩
    obtain ⟨n, hn, rfl⟩ := Option.map_eq_some_iff.1 hname
    obtain ⟨hmem, hid⟩ := h.nodeOfPeer_eq_some_iff.1 hn
    obtain ⟨he, hstate⟩ := List.mem_filter.1 he
    refine ⟨n, List.mem_filter.2 ⟨hmem, ?_⟩, rfl⟩
    rw [hid, Option.any_some, Pin.stateOf, Dict.find?_eq_some_iff.2 he, Option.map_some,
      eq_of_beq hstate]
    rfl
  · rintro ⟨n, hn, rfl⟩
    obtain ⟨hmem, hheld⟩ := List.mem_filter.1 hn
    obtain ⟨id, hid, hstate⟩ := (Option.any_eq_true _ _).1 hheld
    obtain ⟨status, hfind, hpinned⟩ := Option.map_eq_some_iff.1 (eq_of_beq hstate)
    refine ⟨(id, status), List.mem_filter.2 ⟨Dict.find?_eq_some_iff.1 hfind, ?_⟩, ?_⟩
    · exact beq_iff_eq.2 hpinned
    · rw [h.nodeOfPeer_eq_some_iff.2 ⟨hmem, hid⟩]
      rfl

end WellKept

end Nodes

/-! ## The best first -/

section Order

variable {p : Policy} {pin : Pin} {primary : Option String} {names : List String}

theorem dropRepeats_of_nodup : ∀ {xs : List String}, xs.Nodup → dropRepeats xs = xs
  | [], _ => rfl
  | x :: xs, h => by
    obtain ⟨hx, hxs⟩ := List.nodup_cons.1 h
    rw [dropRepeats, dropRepeats_of_nodup hxs]
    cases xs with
    | nil => rfl
    | cons y ys =>
      refine if_neg ?_
      rintro rfl
      exact hx List.mem_cons_self

/-- A name, if it is among the sources. -/
def present (names : List String) (name : Option String) : List String :=
  name.toList.filter fun a => a ∈ names

/-- Sources in their order: the primary, the backup, and then the others in the order of their peer
ids. -/
structure BestFirst (p : Policy) (pin : Pin) (primary : Option String) (names : List String) :
    Prop where
  nodup : names.Nodup
  perm : names.Perm (holders p pin)
  order : ∃ rest, names = present names primary ++
      ((present names p.backupNode).filter fun a => some a ≠ primary) ++ rest ∧
    (∀ a ∈ rest, some a ≠ primary ∧ some a ≠ p.backupNode) ∧ rest.Pairwise (PeerLt p)

/-- In a list without repetitions a name comes up once, if at all. -/
theorem filter_eq_present (h : names.Nodup) (name : Option String) :
    (names.filter fun a => some a = name) = present names name := by
  cases name with
  | none => exact List.filter_eq_nil_iff.2 fun a _ ha => nomatch of_decide_eq_true ha
  | some b =>
    have hfilter : (names.filter fun a => some a = some b) = names.filter (· == b) :=
      List.filter_congr fun a _ => Bool.eq_iff_iff.2 <| by
        rw [decide_eq_true_eq, Option.some.injEq, beq_iff_eq]
    rw [hfilter, List.filter_beq, h.count, present]
    by_cases hb : b ∈ names <;> simp [hb]

section Places

variable {backup : Option String} {name : String}

theorem rank_of_primary (h : some name = primary) : rank primary backup name = 0 := if_pos h

theorem rank_of_backup (h : some name ≠ primary) (h' : some name = backup) :
    rank primary backup name = 1 := by
  rw [rank, if_neg h, if_pos h']

theorem rank_of_ne (h : some name ≠ primary) (h' : some name ≠ backup) :
    rank primary backup name = 2 := by
  rw [rank, if_neg h, if_neg h']

/-- The first place is the primary's. -/
theorem rank_eq_zero_iff : rank primary backup name = 0 ↔ some name = primary := by
  refine ⟨fun hr => ?_, rank_of_primary⟩
  by_contra h
  by_cases h' : some name = backup
  · exact absurd ((rank_of_backup h h').symm.trans hr) (by decide)
  · exact absurd ((rank_of_ne h h').symm.trans hr) (by decide)

/-- The second place is the backup's, unless that is the primary. -/
theorem rank_eq_one_iff :
    rank primary backup name = 1 ↔ some name = backup ∧ some name ≠ primary := by
  refine ⟨fun hr => ?_, fun h => rank_of_backup h.2 h.1⟩
  have h : some name ≠ primary := fun h => absurd ((rank_of_primary h).symm.trans hr) (by decide)
  refine ⟨?_, h⟩
  by_contra h'
  exact absurd ((rank_of_ne h h').symm.trans hr) (by decide)

/-- Behind them is every other node. -/
theorem rank_eq_two_iff :
    rank primary backup name = 2 ↔ some name ≠ primary ∧ some name ≠ backup := by
  refine ⟨fun hr => ?_, fun h => rank_of_ne h.1 h.2⟩
  have h : some name ≠ primary := fun h => absurd ((rank_of_primary h).symm.trans hr) (by decide)
  exact ⟨h, fun h' => absurd ((rank_of_backup h h').symm.trans hr) (by decide)⟩

theorem rank_le : rank primary backup name ≤ 2 := by
  rw [rank]
  split
  · decide
  · split <;> decide

end Places

/-- **Every source once, the best first.** -/
theorem WellKept.bestFirst (h : WellKept p) (primary : Option String) :
    BestFirst p pin primary (dropRepeats ((pinnedNodes p pin).mergeSort fun a b =>
      rank primary p.backupNode a ≤ rank primary p.backupNode b)) := by
  have hperm := List.mergeSort_perm (pinnedNodes p pin) fun a b =>
    rank primary p.backupNode a ≤ rank primary p.backupNode b
  have hnodup := hperm.nodup_iff.2 h.nodup_pinnedNodes
  rw [dropRepeats_of_nodup hnodup]
  refine ⟨hnodup, hperm.trans h.pinnedNodes_perm,
    (pinnedNodes p pin).filter fun a => rank primary p.backupNode a = 2, ?_, ?_, ?_⟩
  · have hpresent (name : Option String) : present ((pinnedNodes p pin).mergeSort fun a b =>
        rank primary p.backupNode a ≤ rank primary p.backupNode b) name
          = (pinnedNodes p pin).filter fun a => some a = name := by
      rw [filter_eq_present h.nodup_pinnedNodes, present, present]
      exact List.filter_congr fun a _ => decide_eq_decide.2 hperm.mem_iff
    rw [hpresent, hpresent, List.filter_filter, List.append_assoc]
    refine (mergeSort_eq_append _ (fun a => rank_le) _).trans
      (congrArg₂ _ ?_ (congrArg (· ++ _) ?_))
    · exact List.filter_congr fun a _ => decide_eq_decide.2 rank_eq_zero_iff
    · refine List.filter_congr fun a _ => Bool.eq_iff_iff.2 ?_
      rw [Bool.and_eq_true, decide_eq_true_eq, decide_eq_true_eq, decide_eq_true_eq, and_comm]
      exact rank_eq_one_iff
  · exact fun a ha => rank_eq_two_iff.1 (of_decide_eq_true (List.mem_filter.1 ha).2)
  · exact h.pairwise_pinnedNodes.sublist List.filter_sublist

/-- Name of the primary node of a profile, if the profile is there. -/
def primaryOf (p : Policy) (profile : Option String) : Option String :=
  (profile.bind p.profile).map fun q => q.primary

variable (pin) in
/-- **A profile that is there, or none, has sources**, the best first. -/
theorem WellKept.exists_sources (h : WellKept p) {profile : Option String}
    (hprofile : ∀ name ∈ profile, (p.profile name).isSome = true) :
    ∃ names, sources p pin profile = .ok names ∧ BestFirst p pin (primaryOf p profile) names := by
  cases profile with
  | none => exact ⟨_, rfl, h.bestFirst none⟩
  | some name =>
    obtain ⟨q, hq⟩ := Option.isSome_iff_exists.1 (hprofile name rfl)
    refine ⟨_, ?_, h.bestFirst _⟩
    simp only [sources, primaryOf, Option.bind_some, hq, Option.map_some]

end Order

end PinKeeper.Retrieve
