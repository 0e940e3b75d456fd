import Mathlib.Data.List.Sort
import PinKeeper.Placement.Required
import PinKeeper.Proofs.Dict

/-!
# Proofs/Placement/Required — the peers that a pin must not lose are peers the policy knows

The question that names a profile (`requiredFor`) and the one that names a pin (`requiredPeers`) go
by different ways through the policy, the first strict and the second lenient.  Both come down to
the two look-ups `primaryPeer` and `backupPeer`: the first answers with both or not at all
(`requiredFor_eq_ok_iff`), the second with those of them that there are (`mem_requiredPeers`).  So a
pin that a profile owns must not lose what the profile requires
(`mem_requiredPeers_of_requiredFor`), and every peer that it must not lose is one the policy knows
(`knows_of_mem_requiredPeers`).
-/

namespace PinKeeper.Policy

/-! ## Adding what is new -/

theorem mem_addNew {xs : List String} {x y : String} : y ∈ addNew xs x ↔ y ∈ xs ∨ y = x := by
  rw [addNew]
  split
  · next h =>
    refine ⟨Or.inl, ?_⟩
    rintro (hy | rfl)
    · exact hy
    · exact List.contains_iff_mem.1 h
  · rw [List.mem_append, List.mem_singleton]

theorem nodup_addNew {xs : List String} (h : xs.Nodup) (x : String) : (addNew xs x).Nodup := by
  rw [addNew]
  split
  · exact h
  · next hx =>
    refine List.nodup_append.2 ⟨h, List.nodup_singleton x, fun a ha b hb hab => hx ?_⟩
    obtain rfl := List.mem_singleton.1 hb
    exact List.contains_iff_mem.2 (hab ▸ ha)

theorem addNew_of_mem {xs : List String} {x : String} (h : x ∈ xs) : addNew xs x = xs :=
  if_pos (List.contains_iff_mem.2 h)

theorem mem_foldl_addNew {y : String} : ∀ {ys xs : List String},
    y ∈ ys.foldl addNew xs ↔ y ∈ xs ∨ y ∈ ys
  | [], xs => by simp
  | x :: ys, xs => by rw [List.foldl_cons, mem_foldl_addNew, mem_addNew, List.mem_cons, or_assoc]

theorem nodup_foldl_addNew : ∀ {ys xs : List String}, xs.Nodup → (ys.foldl addNew xs).Nodup
  | [], _, h => h
  | y :: ys, xs, h => by
    rw [List.foldl_cons]
    exact nodup_foldl_addNew (nodup_addNew h y)

/-- Nothing is added where all is there. -/
theorem foldl_addNew_of_subset : ∀ {ys xs : List String}, ys ⊆ xs → ys.foldl addNew xs = xs
  | [], _, _ => rfl
  | y :: ys, xs, h => by
    rw [List.foldl_cons, addNew_of_mem (h List.mem_cons_self)]
    exact foldl_addNew_of_subset fun _ hz => h (List.mem_cons_of_mem y hz)

/-! ## The peers of the policy -/

variable {p : Policy}

/-- The policy has a node with a peer id. -/
def Knows (p : Policy) (id : String) : Prop := ∃ n ∈ p.nodes.values, n.peerId = some id

theorem knows_of_backupPeer {id : String} (h : p.backupPeer = some id) : p.Knows id := by
  obtain ⟨n, hn, hid⟩ := Option.bind_eq_some_iff.1 h
  obtain ⟨name, -, hname⟩ := Option.bind_eq_some_iff.1 hn
  exact ⟨n, Dict.mem_values_of_find? hname, hid⟩

theorem knows_of_primaryPeer {profile id : String} (h : p.primaryPeer profile = some id) :
    p.Knows id := by
  obtain ⟨n, hn, hid⟩ := Option.bind_eq_some_iff.1 h
  obtain ⟨q, -, hname⟩ := Option.bind_eq_some_iff.1 hn
  exact ⟨n, Dict.mem_values_of_find? hname, hid⟩

/-- **A pin must not lose the backup, nor the primary of its owner** — each where the policy has
it. -/
theorem mem_requiredPeers {pin : Pin} {id : String} :
    id ∈ p.requiredPeers pin ↔ p.backupPeer = some id ∨ pin.org.bind p.primaryPeer = some id := by
  rw [requiredPeers, mem_foldl_addNew, Option.mem_toList, Option.mem_toList]

theorem nodup_requiredPeers (pin : Pin) : (p.requiredPeers pin).Nodup :=
  nodup_foldl_addNew (by cases p.backupPeer <;> simp)

/-- The peers that a pin must not lose go by its owner alone. -/
theorem requiredPeers_congr {pin pin' : Pin} (h : pin.org = pin'.org) :
    p.requiredPeers pin = p.requiredPeers pin' := by
  rw [requiredPeers, requiredPeers, h]

/-- **Every peer that a pin must not lose is known.** -/
theorem knows_of_mem_requiredPeers {pin : Pin} {id : String} (h : id ∈ p.requiredPeers pin) :
    p.Knows id := by
  rcases mem_requiredPeers.1 h with h | h
  · exact knows_of_backupPeer h
  · obtain ⟨org, -, horg⟩ := Option.bind_eq_some_iff.1 h
    exact knows_of_primaryPeer horg

/-- **A profile has required peers exactly if the policy has both of them**, and they are listed
with the primary first. -/
theorem requiredFor_eq_ok_iff {profile : String} {ids : List String} :
    p.requiredFor profile = .ok ids ↔
      ∃ a b, p.primaryPeer profile = some a ∧ p.backupPeer = some b ∧ ids = [a, b] := by
  rw [requiredFor, primaryPeer, primaryFor, backupPeer, backup]
  cases p.profile profile with
  | none => simp
  | some q =>
    cases hprimary : p.node q.primary with
    | none => simp [hprimary]
    | some primary =>
      cases hid : primary.peerId with
      | none => simp [hprimary, hid]
      | some a =>
        cases p.backupNode with
        | none => simp [hprimary, hid]
        | some name =>
          cases hbackup : p.node name with
          | none => simp [hprimary, hid, hbackup]
          | some backup =>
            cases hid' : backup.peerId with
            | none => simp [hprimary, hid, hbackup, hid']
            | some b => simp [hprimary, hid, hbackup, hid', eq_comm]

/-- A profile of the policy has a host to go to. -/
theorem isSome_targetHost {profile : String} (h : (p.profile profile).isSome = true)
    (override : Option String) : (p.targetHost (some profile) override).isSome = true := by
  obtain ⟨q, hq⟩ := Option.isSome_iff_exists.1 h
  simp only [targetHost, Option.bind_some, hq, Option.isSome_map]
  cases override <;> rfl

/-- A profile that has its required peers is one of the policy. -/
theorem isSome_profile_of_requiredFor {profile : String} {ids : List String}
    (h : p.requiredFor profile = .ok ids) : (p.profile profile).isSome = true := by
  obtain ⟨a, -, ha, -⟩ := requiredFor_eq_ok_iff.1 h
  obtain ⟨n, hn, -⟩ := Option.bind_eq_some_iff.1 ha
  obtain ⟨q, hq, -⟩ := Option.bind_eq_some_iff.1 hn
  exact Option.isSome_iff_exists.2 ⟨q, hq⟩

/-- **What a profile requires, its pins must not lose.** -/
theorem mem_requiredPeers_of_requiredFor {profile : String} {ids : List String} {pin : Pin}
    (h : p.requiredFor profile = .ok ids) (horg : pin.org = some profile) {id : String}
    (hid : id ∈ ids) : id ∈ p.requiredPeers pin := by
  obtain ⟨a, b, ha, hb, rfl⟩ := requiredFor_eq_ok_iff.1 h
  rw [mem_requiredPeers, horg, Option.bind_some, ha, hb]
  rcases List.mem_pair.1 hid with rfl | rfl
  · exact .inr rfl
  · exact .inl rfl

end PinKeeper.Policy
