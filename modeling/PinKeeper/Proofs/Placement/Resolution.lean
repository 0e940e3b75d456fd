import PinKeeper.Proofs.Maintenance.Rebalance

/-!
# Proofs/Placement/Resolution — two questions for the required peers have one answer

Content of a profile is required on two nodes, the primary and the backup, and on each as far as the
policy leads to a peer id (`Policy.Resolves`).  The question that names a profile (`requiredFor`)
wants both or fails; the one that names a pin (`requiredPeers`) takes what there is.  So where the
first has an answer the second has the same peers, each once, and where it fails the second has
those of the two that resolve (`requirements_agree`).
-/

namespace PinKeeper

/-- What a node holds content of a profile for. -/
inductive Role where
  | primary
  | backup
deriving DecidableEq, Repr

namespace Policy

/-- The policy leads from a profile to the peer id of the node that has a role for it. -/
inductive Resolves (p : Policy) (profile : String) : Role → String → Prop
  | primary {q : Profile} {n : Node} {id : String} (hprofile : p.profiles.find? profile = some q)
      (hnode : p.nodes.find? q.primary = some n) (hid : n.peerId = some id) :
      Resolves p profile .primary id
  | backup {name : String} {n : Node} {id : String} (hname : p.backupNode = some name)
      (hnode : p.nodes.find? name = some n) (hid : n.peerId = some id) :
      Resolves p profile .backup id

variable {p : Policy} {profile id : String}

theorem resolves_primary_iff :
    p.Resolves profile .primary id ↔ p.primaryPeer profile = some id := by
  simp only [primaryPeer, primaryFor, Option.bind_eq_some_iff]
  constructor
  · rintro ⟨hprofile, hnode, hid⟩
    exact ⟨_, ⟨_, hprofile, hnode⟩, hid⟩
  · rintro ⟨n, ⟨q, hprofile, hnode⟩, hid⟩
    exact .primary hprofile hnode hid

theorem resolves_backup_iff : p.Resolves profile .backup id ↔ p.backupPeer = some id := by
  simp only [backupPeer, Policy.backup, Option.bind_eq_some_iff]
  constructor
  · rintro (_ | ⟨hname, hnode, hid⟩)
    exact ⟨_, ⟨_, hname, hnode⟩, hid⟩
  · rintro ⟨n, ⟨name, hname, hnode⟩, hid⟩
    exact .backup hname hnode hid

/-- An owner tag that is not empty names the owner. -/
theorem org_eq_some {pin : Pin} (htag : pin.metadata.find? orgKey = some profile)
    (hprofile : profile ≠ "") : pin.org = some profile := by
  rw [Pin.org, htag, nonEmpty?, if_neg (by rwa [String.isEmpty_iff])]

/-- **A pin must not lose the peers that its owner resolves to.** -/
theorem mem_requiredPeers_iff_resolves {pin : Pin} (horg : pin.org = some profile) :
    id ∈ p.requiredPeers pin ↔ ∃ role, p.Resolves profile role id := by
  have hbackup : p.Resolves profile .backup id ↔ p.backupPeer = some id := resolves_backup_iff
  rw [mem_requiredPeers, horg, Option.bind_some, ← hbackup, ← resolves_primary_iff]
  constructor
  · rintro (h | h)
    · exact ⟨_, h⟩
    · exact ⟨_, h⟩
  · rintro ⟨_ | _, h⟩
    · exact .inr h
    · exact .inl h

/-- **A profile that is asked for has its peers exactly if each of its roles resolves**, and then
they are the peers of the roles. -/
theorem requiredFor_eq_ok_iff_resolves {ids : List String} : p.requiredFor profile = .ok ids ↔
    ∃ a b, p.Resolves profile .primary a ∧ p.Resolves profile .backup b ∧ ids = [a, b] := by
  simp only [requiredFor_eq_ok_iff, resolves_primary_iff, resolves_backup_iff]

theorem requiredFor_eq_error_iff : (∃ e, p.requiredFor profile = .error e) ↔
    ∃ role, ∀ id, ¬p.Resolves profile role id := by
  constructor
  · rintro ⟨e, he⟩
    by_contra hnone
    push Not at hnone
    obtain ⟨a, ha⟩ := hnone .primary
    obtain ⟨b, hb⟩ := hnone .backup
    rw [requiredFor_eq_ok_iff_resolves.2 ⟨a, b, ha, hb, rfl⟩] at he
    cases he
  · rintro ⟨role, hrole⟩
    cases h : p.requiredFor profile with
    | error e => exact ⟨e, rfl⟩
    | ok ids =>
      obtain ⟨a, b, ha, hb, -⟩ := requiredFor_eq_ok_iff_resolves.1 h
      cases role with
      | primary => exact absurd ha (hrole a)
      | backup => exact absurd hb (hrole b)

/-- **The two questions for the required peers agree.**  Of a pin that a profile owns, the peers
that it must not lose are listed once each.  They are the peers that the profile requires, where the
policy can say; where it cannot, which is exactly where the primary or the backup does not resolve,
they are those of the two that do.  All of them are known to the placement, whatever space is
free. -/
theorem requirements_agree {pin : Pin} (hprofile : profile ≠ "")
    (htag : pin.metadata.find? orgKey = some profile) :
    (p.requiredPeers pin).Nodup ∧
      (∀ ids, p.requiredFor profile = .ok ids → ∀ id, id ∈ p.requiredPeers pin ↔ id ∈ ids) ∧
      (∀ e, p.requiredFor profile = .error e →
        ∀ id, id ∈ p.requiredPeers pin ↔ ∃ role, p.Resolves profile role id) ∧
      ((∃ e, p.requiredFor profile = .error e) ↔ ∃ role, ∀ id, ¬p.Resolves profile role id) ∧
      ∀ freeSpace, ∀ id ∈ p.requiredPeers pin,
        (Placement.ofPolicy p freeSpace).known.contains id = true := by
  have horg : pin.org = some profile := org_eq_some htag hprofile
  refine ⟨nodup_requiredPeers pin, fun ids hids id => ?_, fun _ _ _ =>
    mem_requiredPeers_iff_resolves horg, requiredFor_eq_error_iff, fun freeSpace =>
    Placement.contains_of_mem_requiredPeers⟩
  obtain ⟨a, b, ha, hb, rfl⟩ := requiredFor_eq_ok_iff.1 hids
  rw [mem_requiredPeers, horg, Option.bind_some, ha, hb, List.mem_pair, Option.some.injEq,
    Option.some.injEq, or_comm, eq_comm (a := a), eq_comm (a := b)]

/-- The primary has no peer id, so that the profile's own question fails. -/
theorem requirements_agree_sample :
    let p := { Sample.policy with
      nodes := Sample.policy.nodes.insert "alpha" ⟨"alpha", "alpha", none, 0⟩ }
    let pin := Sample.pin "few" (some "acme") []
    "acme" ≠ "" ∧ pin.metadata.find? orgKey = some "acme" ∧
      p.requiredFor "acme" = .error (.primaryWithoutPeerId "alpha") ∧
      (∀ id, id ∈ p.requiredPeers pin ↔ ∃ role, p.Resolves "acme" role id) ∧
      ∃ role, ∀ id, ¬p.Resolves "acme" role id := by
  intro p pin
  have hprofile : "acme" ≠ "" := by decide
  have htag : pin.metadata.find? orgKey = some "acme" := by decide
  have herror : p.requiredFor "acme" = .error (.primaryWithoutPeerId "alpha") := by decide
  obtain ⟨-, -, hpeers, hfails, -⟩ := requirements_agree (p := p) hprofile htag
  exact ⟨hprofile, htag, herror, hpeers _ herror, hfails.1 ⟨_, herror⟩⟩

end Policy

end PinKeeper
