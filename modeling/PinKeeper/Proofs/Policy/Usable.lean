import PinKeeper.Maintenance.Migrate
import PinKeeper.Policy.Validate
import PinKeeper.Proofs.Answers
import PinKeeper.Proofs.Maintenance.Rebalance
import PinKeeper.Retrieve
import PinKeeper.Upload

/-!
# Proofs/Policy/Usable — what a policy without problems is good for

The problems of a policy are listed once, and each operation checks again what it needs.  The checks
match but for one thing.  A policy without problems has every node that it speaks of and bounds that
leave room (`sound_of_problems`), so neither a rebalancing nor a download nor the tagging of pins
ever blames it.  But that a node has no peer id is a concern and not a problem, while nothing can be
allocated to such a node.  So the operations that need the peers of a profile may still fail, for
want of a peer id and of nothing else (`requiredFor_of_nodes`).
-/

namespace PinKeeper

/-! ## What the list of problems rules out -/

section Sound

variable {p : Policy} {profile : String}

/-- The nodes of a policy that its operations look for are there, and its bounds leave room. -/
structure Policy.Sound (p : Policy) : Prop where
  backup : ∃ node, p.backup = some node
  primary : ∀ profile, (p.profile profile).isSome → ∃ node, p.primaryFor profile = some node
  bounds : Rebalance.boundsValid p = true

/-- **A policy without problems is sound.** -/
theorem Policy.sound_of_problems (h : p.problems = []) : p.Sound := by
  simp only [problems, List.append_eq_nil_iff] at h
  obtain ⟨⟨⟨⟨hbackup, -⟩, hprimary⟩, hmin⟩, hmax⟩ := h
  refine ⟨?_, ?_, ?_⟩
  · cases hname : p.backupNode with
    | none =>
      rw [hname] at hbackup
      cases hbackup
    | some name =>
      rw [hname] at hbackup
      have hnode : p.nodes.contains name = true := by
        by_contra hnot
        cases ite_eq_left_iff.1 hbackup hnot
      rw [Policy.backup, hname]
      exact Option.isSome_iff_exists.1 hnode
  · intro profile hprofile
    obtain ⟨q, hq⟩ := Option.isSome_iff_exists.1 hprofile
    have hnone := List.filterMap_eq_nil_iff.1 hprimary _ (Dict.find?_eq_some_iff.1 hq)
    have hnode : p.nodes.contains q.primary = true := by
      by_contra hnot
      cases ite_eq_left_iff.1 hnone hnot
    rw [primaryFor, hq]
    exact Option.isSome_iff_exists.1 hnode
  · rw [Rebalance.boundsValid_iff]
    constructor
    · by_contra hlow
      cases ite_eq_right_iff.1 hmin (Nat.lt_of_not_le hlow)
    · by_contra hhigh
      cases ite_eq_right_iff.1 hmax (Nat.lt_of_not_le hhigh)

/-! ## The peers of a profile -/

/-- The primary node of a profile and the backup node have peer ids. -/
def Policy.HasPeers (p : Policy) (profile : String) : Prop :=
  (p.primaryPeer profile).isSome = true ∧ p.backupPeer.isSome = true

/-- A node that is there has no peer id. -/
def AllocationError.isMissingPeer : AllocationError → Bool
  | .primaryWithoutPeerId _ | .backupWithoutPeerId _ => true
  | _ => false

/-- A profile has its required peers exactly if both have peer ids. -/
theorem Policy.exists_requiredFor_iff :
    (∃ ids, p.requiredFor profile = .ok ids) ↔ p.HasPeers profile := by
  simp only [requiredFor_eq_ok_iff, HasPeers, Option.isSome_iff_exists]
  constructor
  · rintro ⟨ids, a, b, ha, hb, -⟩
    exact ⟨⟨a, ha⟩, b, hb⟩
  · rintro ⟨⟨a, ha⟩, b, hb⟩
    exact ⟨[a, b], a, b, ha, hb, rfl⟩

/-- Where both nodes are there, only their peer ids are looked at. -/
theorem Policy.requiredFor_of_nodes {primary backup : Node}
    (hprimary : p.primaryFor profile = some primary) (hbackup : p.backup = some backup) :
    p.requiredFor profile = match primary.peerId, backup.peerId with
      | none, _ => .error (.primaryWithoutPeerId primary.name)
      | some _, none => .error (.backupWithoutPeerId backup.name)
      | some a, some b => .ok [a, b] := by
  obtain ⟨q, hq, hnode⟩ := Option.bind_eq_some_iff.1 hprimary
  obtain ⟨name, hname, hnode'⟩ := Option.bind_eq_some_iff.1 hbackup
  rw [requiredFor, hq]
  simp only [hnode, hname, hnode']
  cases primary.peerId with
  | none => rfl
  | some a => cases backup.peerId <;> rfl

/-- All that a sound policy can lack is a peer id. -/
theorem Policy.Sound.isMissingPeer (h : p.Sound) (hprofile : (p.profile profile).isSome)
    {e : AllocationError} (he : p.requiredFor profile = .error e) : e.isMissingPeer = true := by
  obtain ⟨primary, hprimary⟩ := h.primary profile hprofile
  obtain ⟨backup, hbackup⟩ := h.backup
  rw [requiredFor_of_nodes hprimary hbackup] at he
  split at he
  · cases he
    rfl
  · cases he
    rfl
  · cases he

end Sound

/-! ## Operations that blame the policy -/

section Operations

/-- An operation failed, and the policy is at fault. -/
def BlamesPolicy {α : Type} : Except Failure α → Prop
  | .ok _ => False
  | .error e => e.isConfiguration = true

theorem not_blamesPolicy_transport {α : Type} (e : ClusterError) :
    ¬BlamesPolicy (.error (.transport e) : Except Failure α) := Bool.false_ne_true

variable {σ : Type} {cluster : Cluster (StateM σ)} {p : Policy} {scan : Scan (StateM σ)}
  {profile : String}

theorem Rebalance.answers_rebalance {note : Progress → StateM σ Unit}
    (h : boundsValid p = true) : Answers (¬BlamesPolicy ·) (rebalance cluster p scan note) := by
  rw [rebalance, h, Bool.not_true, if_neg Bool.false_ne_true]
  refine .andThen fun answer => ?_
  cases answer with
  | error e => exact .pure (not_blamesPolicy_transport e)
  | ok freeSpace =>
    refine .andThen fun answer => ?_
    cases answer with
    | error e => exact .pure (not_blamesPolicy_transport e)
    | ok pins => exact .andThen fun _ => .pure not_false

theorem Migrate.answers_tagPins (h : (p.profile profile).isSome = true) :
    Answers (¬BlamesPolicy ·) (tagPins cluster p profile scan) := by
  have hprofile : ¬(p.profile profile).isNone = true := by
    rw [Option.isNone_iff_eq_none]
    exact Option.isSome_iff_ne_none.1 h
  rw [tagPins, if_neg hprofile]
  refine .andThen fun answer => ?_
  cases answer with
  | error e => exact .pure (not_blamesPolicy_transport e)
  | ok pins => exact .andThen fun _ => .pure not_false

theorem Migrate.answers_ensurePins :
    Answers (fun a => BlamesPolicy a ↔ ¬p.HasPeers profile)
      (ensurePins cluster p profile scan) := by
  rw [ensurePins]
  split
  · next e he =>
    refine .pure (iff_of_true rfl fun hpeers => ?_)
    obtain ⟨ids, hids⟩ := Policy.exists_requiredFor_iff.2 hpeers
    rw [he] at hids
    cases hids
  · next ids hids =>
    have hpeers : ¬¬p.HasPeers profile := not_not.2 (Policy.exists_requiredFor_iff.1 ⟨ids, hids⟩)
    refine .andThen fun answer => ?_
    cases answer with
    | error e => exact .pure (iff_of_false (not_blamesPolicy_transport e) hpeers)
    | ok pins => exact .andThen fun _ => .pure (iff_of_false not_false hpeers)

/-- Trying one source after the other blames the policy only if it is blamed already. -/
theorem Retrieve.answers_tryEach {cid path : String} : ∀ {last : Failure} (names : List String),
    last.isConfiguration = false →
      Answers (¬BlamesPolicy ·) (tryEach cluster p cid path last names)
  | _, [], hlast => .pure (Bool.eq_false_iff.1 hlast)
  | _, name :: names, _ => by
    refine .andThen fun answer => ?_
    cases answer with
    | error e => exact answers_tryEach names rfl
    | ok d => exact .pure not_false

theorem Retrieve.answers_get {cid path : String} (h : (p.profile profile).isSome = true) :
    Answers (¬BlamesPolicy ·) (get cluster p cid (some profile) path) := by
  obtain ⟨q, hq⟩ := Option.isSome_iff_exists.1 h
  refine .andThen fun answer => ?_
  cases answer with
  | error e => exact .pure (not_blamesPolicy_transport e)
  | ok pin =>
    simp only [sources, hq]
    exact answers_tryEach _ rfl

namespace Upload

theorem judge_ne_configError (allocations : List String) (pin : Pin) :
    (judge p allocations pin).outcome ≠ .configError := by
  rw [judge]
  split
  · exact nofun
  · split
    · exact nofun
    · split <;> exact nofun

/-- Once the content is on its way the policy is not at fault. -/
theorem answers_send {connect : String → StateM σ (Except ClusterError (Cluster (StateM σ)))}
    {o : Options} {r : AddResult} {host : String} {files : List LocalFile} :
    Answers (·.outcome ≠ .configError) (send connect p o r host files) := by
  refine .andThen fun answer => ?_
  cases answer with
  | error e => exact .pure nofun
  | ok cluster =>
    refine .andThen fun answer => ?_
    cases answer with
    | error e => exact .pure nofun
    | ok added =>
      dsimp only
      split
      · exact .pure nofun
      · refine .andThen fun answer => ?_
        cases answer with
        | error e => exact .pure nofun
        | ok pin => exact .pure (judge_ne_configError _ pin)

/-- Content that is there is not added for the policy's sake exactly if a peer id is missing. -/
theorem answer_add {lookup : String → StateM σ (Except FileError Entry)}
    {connect : String → StateM σ (Except ClusterError (Cluster (StateM σ)))} {o : Options}
    {time : Time.Instant} {entry : Entry} {s : σ} (h : (p.profile o.profile).isSome = true)
    (hentry : ((lookup o.path).run s).1 = .ok entry) :
    ((add lookup connect p o time).run s).1.outcome = .configError ↔ ¬p.HasPeers o.profile := by
  have htarget := Policy.isSome_targetHost h o.host
  have hlook : (lookup o.path).run s = (.ok entry, ((lookup o.path).run s).2) := Prod.ext hentry rfl
  rw [add, run_bind_of_run hlook]
  dsimp only
  split
  · next e he =>
    refine iff_of_true rfl fun hpeers => ?_
    obtain ⟨ids, hids⟩ := Policy.exists_requiredFor_iff.2 hpeers
    rw [he] at hids
    cases hids
  · next ids hids =>
    refine iff_of_false ?_ (not_not.2 (Policy.exists_requiredFor_iff.1 ⟨ids, hids⟩))
    split
    · next hnone =>
      rw [hnone] at htarget
      cases htarget
    · split
      · exact AddOutcome.noConfusion
      · split
        · exact AddOutcome.noConfusion
        · exact answers_send _

end Upload

end Operations

/-! ## The operations together -/

/-- What a policy does for a profile at a cluster: the operations that need the peers of the profile
blame the policy exactly if it lacks a peer id, and the others never do. -/
structure Policy.Serves {σ : Type} (p : Policy) (profile : String) (cluster : Cluster (StateM σ))
    (s : σ) : Prop where
  required : (∃ ids, p.requiredFor profile = .ok ids) ↔ p.HasPeers profile
  lacking : ∀ e, p.requiredFor profile = .error e → e.isMissingPeer = true
  ensurePins : ∀ scan, BlamesPolicy ((Migrate.ensurePins cluster p profile scan).run s).1 ↔
    ¬p.HasPeers profile
  /-- The path exists; the host is the one that is asked for or the one of the policy. -/
  add : ∀ (lookup : String → StateM σ (Except FileError Entry))
    (connect : String → StateM σ (Except ClusterError (Cluster (StateM σ)))) (time : Time.Instant)
    (o : Upload.Options) (entry : Entry), o.profile = profile →
    ((lookup o.path).run s).1 = .ok entry →
      (((Upload.add lookup connect p o time).run s).1.outcome = .configError ↔
        ¬p.HasPeers profile)
  rebalance : ∀ scan note, ¬BlamesPolicy ((Rebalance.rebalance cluster p scan note).run s).1
  tagPins : ∀ scan, ¬BlamesPolicy ((Migrate.tagPins cluster p profile scan).run s).1
  get : ∀ cid path,
    ¬BlamesPolicy ((Retrieve.get cluster p cid (some profile) path).run s).1

/-- **A policy without problems serves its profiles, but for peer ids.**  Whatever the cluster
answers, no operation for a profile that the policy has fails for the policy's sake, unless the
primary node of the profile or the backup node has no peer id; and then exactly those fail that need
the peers of the profile. -/
theorem policy_serves {σ : Type} (p : Policy) (hproblems : p.problems = []) (profile : String)
    (hprofile : (p.profile profile).isSome = true) (cluster : Cluster (StateM σ)) (s : σ) :
    p.Serves profile cluster s where
  required := Policy.exists_requiredFor_iff
  lacking _ he := (Policy.sound_of_problems hproblems).isMissingPeer hprofile he
  ensurePins _ := Migrate.answers_ensurePins s
  add _ _ _ o _ ho hentry := by
    subst ho
    exact Upload.answer_add hprofile hentry
  rebalance _ _ := Rebalance.answers_rebalance (Policy.sound_of_problems hproblems).bounds s
  tagPins _ := Migrate.answers_tagPins hprofile s
  get _ _ := Retrieve.answers_get hprofile s

theorem policy_serves_sample :
    Sample.policy.problems = [] ∧ (Sample.policy.profile "acme").isSome = true ∧
      Sample.policy.Serves "acme" (Memory.cluster "alpha") Sample.memory :=
  ⟨by decide, by decide,
    policy_serves Sample.policy (by decide) "acme" (by decide) (Memory.cluster "alpha")
      Sample.memory⟩

/-- Policy whose primary node has no peer id. -/
def Sample.withoutPeerId : Policy :=
  { Sample.policy with nodes := Sample.policy.nodes.insert "alpha" ⟨"alpha", "alpha", none, 0⟩ }

/-- That a peer id is missing is not a problem, and yet the peers of a profile cannot be told and no
pin can be made to include them. -/
theorem problems_overlook_peer_ids :
    Sample.withoutPeerId.problems = [] ∧
      (Sample.withoutPeerId.profile "acme").isSome = true ∧
      Sample.withoutPeerId.requiredFor "acme" = .error (.primaryWithoutPeerId "alpha") ∧
      BlamesPolicy ((Migrate.ensurePins (Memory.cluster "alpha") Sample.withoutPeerId "acme"
        (.plain false)).run Sample.memory).1 :=
  ⟨by decide, by decide, by decide, rfl⟩

end PinKeeper
