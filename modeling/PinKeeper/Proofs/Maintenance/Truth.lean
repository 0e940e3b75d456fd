import PinKeeper.Proofs.Maintenance.Bounds
import PinKeeper.Proofs.Maintenance.Progress

/-!
# Proofs/Maintenance/Truth — the report of a rebalancing is true of the cluster

A report is read off what became of each pin in the run, and the cluster changes by itself.  That
the two agree comes down to one pin, of which one of three things becomes (`settled_cases`): nothing
had to change; it was written; or its request failed and it is as it was.  In each case the known
peers that are kept are those of the pin that is left (`mem_kept_iff`), and a plan that was carried
out adds and removes what the pin has gained and lost (`card_gained`, `card_lost`).
-/

namespace PinKeeper

/-- Request for a pin that a call makes. -/
def Call.request? : Call → Option PinRequest
  | .pin r => some r
  | _ => none

namespace Rebalance

open Memory

/-! ## What becomes of a pin -/

section Pin

variable {f : Faults} {p : Policy} {c : Placement} {freeSpace : Dict Nat} {pin : Pin}

/-- **One of three things becomes of a pin.** -/
theorem settled_cases (f : Faults) (p : Policy) (c : Placement) (pin : Pin) :
    ((planFor p c pin).isNoop = true ∧ outcomeOf f p c false pin = .alreadyCorrect ∧
      rebalanced f p c false pin = pin) ∨
    (¬(planFor p c pin).isNoop = true ∧ f.pin pin.cid = none ∧
      outcomeOf f p c false pin = .changed ∧
      rebalanced f p c false pin
        = { pin with allocations := (planFor p c pin).allocation }) ∨
    ∃ e, ¬(planFor p c pin).isNoop = true ∧ f.pin pin.cid = some e ∧
      outcomeOf f p c false pin = .failed e ∧ rebalanced f p c false pin = pin := by
  rw [outcomeOf, if_neg Bool.false_ne_true]
  by_cases hnoop : (planFor p c pin).isNoop = true
  · refine .inl ⟨hnoop, if_pos hnoop, ?_⟩
    rw [rebalanced, request?_of_isNoop hnoop]
    rfl
  · have hr := request?_of_not_isNoop hnoop
    rw [if_neg hnoop]
    cases hfault : f.pin pin.cid with
    | none => exact .inr (.inl ⟨hnoop, rfl, rfl, rebalanced_of_no_fault hr hfault⟩)
    | some e =>
      refine .inr (.inr ⟨e, hnoop, rfl, rfl, rebalanced_of_fails ?_⟩)
      rw [hfault, Option.isSome_some]

/-- **The known peers that a pin keeps are those of the pin that is left.** -/
theorem mem_kept_iff {id : String} (hid : c.known.contains id = true) :
    id ∈ (settledBy f p c false pin).kept ↔ id ∈ (rebalanced f p c false pin).allocations := by
  have hcurrent : id ∈ (planFor p c pin).current ↔ id ∈ pin.allocations :=
    Plan.mem_current.trans (and_iff_left hid)
  rw [settledBy, Settled.kept]
  rcases settled_cases f p c pin with ⟨-, hout, heq⟩ | ⟨-, -, hout, heq⟩ | ⟨e, -, -, hout, heq⟩
  · rw [hout, heq]
    exact hcurrent
  · rw [hout, heq]
  · rw [hout, heq]
    exact hcurrent

/-- Number of peers that a pin has gained. -/
def gained (before after : Pin) : Nat :=
  (after.allocations.toFinset \ before.allocations.toFinset).card

/-- Number of peers that a pin has lost. -/
def lost (before after : Pin) : Nat :=
  (before.allocations.toFinset \ after.allocations.toFinset).card

theorem gained_self (pin : Pin) : gained pin pin = 0 := by
  rw [gained, sdiff_self]
  rfl

theorem lost_self (pin : Pin) : lost pin pin = 0 := gained_self pin

/-- A pin that was written has gained what its plan adds. -/
theorem card_gained : (planFor p (.ofPolicy p freeSpace) pin).added.length = gained pin
    { pin with allocations := (planFor p (.ofPolicy p freeSpace) pin).allocation } :=
  Plan.card_added Placement.contains_of_mem_requiredPeers

/-- A pin that was written has lost what its plan removes. -/
theorem card_lost : (planFor p (.ofPolicy p freeSpace) pin).removed.length = lost pin
    { pin with allocations := (planFor p (.ofPolicy p freeSpace) pin).allocation } :=
  Plan.card_removed Placement.contains_of_mem_requiredPeers

end Pin

/-! ## Counting -/

section Counting

variable {α β : Type}

theorem sumOf_filter {q : α → Bool} {g h : α → Nat} : ∀ {xs : List α},
    (∀ x ∈ xs, q x = true → g x = h x) → (∀ x ∈ xs, ¬q x = true → h x = 0) →
      sumOf ((xs.filter q).map g) = sumOf (xs.map h)
  | [], _, _ => rfl
  | x :: xs, hq, hnot => by
    have ih := sumOf_filter (fun y hy => hq y (List.mem_cons_of_mem _ hy))
      (fun y hy => hnot y (List.mem_cons_of_mem _ hy))
    rw [List.filter_cons, List.map_cons, sumOf, ← ih]
    split
    · next hx => rw [List.map_cons, sumOf, hq x List.mem_cons_self hx]
    · next hx => rw [hnot x List.mem_cons_self hx, Nat.zero_add]

theorem filterMap_eq_map_filter {q : α → Bool} {f : α → Option β} {g : α → β} {xs : List α}
    (h : ∀ x ∈ xs, f x = if q x then some (g x) else none) :
    xs.filterMap f = (xs.filter q).map g := by
  rw [← List.filterMap_eq_map, List.filterMap_filter]
  exact List.filterMap_congr h

theorem countIn_map_congr {id : String} {g h : α → List String} {xs : List α}
    (hiff : ∀ x ∈ xs, id ∈ g x ↔ id ∈ h x) :
    countIn id (xs.map g) = countIn id (xs.map h) := by
  rw [countIn, countIn, List.filter_map, List.filter_map, List.length_map, List.length_map]
  congr 1
  refine List.filter_congr fun x hx => ?_
  rw [Function.comp_apply, Function.comp_apply, Bool.eq_iff_iff, List.contains_iff_mem,
    List.contains_iff_mem]
  exact hiff x hx

@[simp] theorem isFailed_alreadyCorrect : Outcome.alreadyCorrect.isFailed = false := rfl

@[simp] theorem isFailed_changed : Outcome.changed.isFailed = false := rfl

@[simp] theorem isFailed_failed (e : ClusterError) : (Outcome.failed e).isFailed = true := rfl

/-- The counts of a report add up to the number of pins. -/
theorem total_ofSettled (c : Placement) (dryRun : Bool) (xs : List Settled) :
    let r := Report.ofSettled c dryRun xs
    r.total = r.alreadyCorrect + r.rebalanced + r.errors := by
  change xs.length = (xs.filter fun x => x.outcome = .alreadyCorrect).length
    + (xs.filter fun x => x.outcome = .changed).length
    + (xs.filter fun x => x.outcome.isFailed).length
  induction xs with
  | nil => rfl
  | cons x xs ih =>
    cases hx : x.outcome <;> simp [hx] <;> omega

end Counting

/-! ## A report that is true -/

section Truth

variable (p : Policy) (s t : Memory)

/-- The plan of a pin changes something. -/
def changes (pin : Pin) : Bool := !(planFor p (.ofPolicy p s.freeSpace) pin).isNoop

/-- Pins whose plans change something and can be carried out. -/
def accepted : List Pin :=
  s.pins.filter fun pin => changes p s pin && (s.faults.pin pin.cid).isNone

/-- Pins whose plans change something and cannot be carried out. -/
def refused : List Pin :=
  s.pins.filter fun pin => changes p s pin && (s.faults.pin pin.cid).isSome

/-- Request that carries out the plan of a pin. -/
def requestFor (pin : Pin) : PinRequest :=
  { PinRequest.ofPin pin with allocations := (planFor p (.ofPolicy p s.freeSpace) pin).allocation }

/-- Requests that were made between two states. -/
def attempts : List PinRequest := (s.callsUntil t).filterMap Call.request?

/-- What there is to say of a pin whose plan changes something: where it was and where it is. -/
def actionOn (before after : Pin) : Action :=
  let plan := planFor p (.ofPolicy p s.freeSpace) before
  let names (ids : List String) := ids.map (Placement.ofPolicy p s.freeSpace).displayName
  { cid := before.cid
    name := before.name
    outcome := (s.faults.pin before.cid).elim .changed .failed
    before := names before.allocations
    after := names after.allocations
    added := names plan.added
    removed := names plan.removed }

/-- A report, and the notes of the run, say what became of the cluster. -/
structure TellsTruth (r : Report) (notes : List Progress) : Prop where
  attempts : attempts s t = (s.pins.filter (changes p s)).map (requestFor p s)
  total : r.total = s.pins.length
  addsUp : r.total = r.alreadyCorrect + r.rebalanced + r.errors
  rebalanced : r.rebalanced = (accepted p s).length
  errors : r.errors = (refused p s).length
  actions : r.actions = ((s.pins.zip t.pins).filter fun x => changes p s x.1).map fun x =>
    actionOn p s x.1 x.2
  /-- The sums are over the plans that were carried out. -/
  addedReplicas : r.addedReplicas = sumOf ((accepted p s).map fun pin =>
    (planFor p (.ofPolicy p s.freeSpace) pin).added.length)
  removedReplicas : r.removedReplicas = sumOf ((accepted p s).map fun pin =>
    (planFor p (.ofPolicy p s.freeSpace) pin).removed.length)
  /-- And so they are what the pins have gained and lost. -/
  gained : r.addedReplicas = sumOf ((s.pins.zip t.pins).map fun x => gained x.1 x.2)
  lost : r.removedReplicas = sumOf ((s.pins.zip t.pins).map fun x => lost x.1 x.2)
  /-- Each known peer has its row. -/
  nodes : r.nodes.map (·.peerId) = (Placement.ofPolicy p s.freeSpace).known.keys
  balance : ∀ b ∈ r.nodes, b.before = countIn b.peerId (s.pins.map (·.allocations)) ∧
    b.after = countIn b.peerId (t.pins.map (·.allocations))
  /-- There is a note for each pin, in order. -/
  done : notes.map (·.done) = List.range' 1 r.total
  noted : notes.map (·.cid) = s.pins.map (·.cid)
  outOf : ∀ x ∈ notes, x.total = r.total
  severity : r.severity = 0 ↔ Rebalance.attempts s t = []

end Truth

section Report

variable {p : Policy} {s : Memory}

theorem request?_eq_ite (pin : Pin) : request? p (.ofPolicy p s.freeSpace) false pin
    = if changes p s pin then some (requestFor p s pin) else none := by
  by_cases hnoop : (planFor p (.ofPolicy p s.freeSpace) pin).isNoop = true
  · rw [request?_of_isNoop hnoop, changes, hnoop]
    rfl
  · rw [request?_of_not_isNoop hnoop, changes, Bool.eq_false_iff.2 hnoop]
    rfl

theorem filterMap_callsFor (c : Placement) (dryRun : Bool) (pins : List Pin) :
    (pins.flatMap (callsFor p c dryRun)).filterMap Call.request?
      = pins.filterMap (request? p c dryRun) := by
  induction pins with
  | nil => rfl
  | cons pin pins ih =>
    rw [List.flatMap_cons, List.filterMap_append, ih, List.filterMap_cons, callsFor]
    cases request? p c dryRun pin <;> rfl

variable (p s) in
/-- What becomes of the pins in a run that comes to them. -/
abbrev settledPins : List Settled :=
  s.pins.map (settledBy s.faults p (.ofPolicy p s.freeSpace) false)

variable (p s) in
/-- The pins that such a run leaves. -/
abbrev rebalancedPins : List Pin :=
  s.pins.map (rebalanced s.faults p (.ofPolicy p s.freeSpace) false)

theorem outcomeOf_eq_changed_iff (pin : Pin) :
    outcomeOf s.faults p (.ofPolicy p s.freeSpace) false pin = .changed
      ↔ (changes p s pin && (s.faults.pin pin.cid).isNone) = true := by
  rw [changes]
  rcases settled_cases s.faults p (.ofPolicy p s.freeSpace) pin with
    ⟨hnoop, hout, -⟩ | ⟨hnoop, hfault, hout, -⟩ | ⟨e, hnoop, hfault, hout, -⟩
  · simp [hout, hnoop]
  · simp [hout, hnoop, hfault]
  · simp [hout, hfault]

theorem isFailed_outcomeOf_iff (pin : Pin) :
    (outcomeOf s.faults p (.ofPolicy p s.freeSpace) false pin).isFailed
      = (changes p s pin && (s.faults.pin pin.cid).isSome) := by
  rw [changes]
  rcases settled_cases s.faults p (.ofPolicy p s.freeSpace) pin with
    ⟨hnoop, hout, -⟩ | ⟨hnoop, hfault, hout, -⟩ | ⟨e, hnoop, hfault, hout, -⟩
  · simp [hout, hnoop]
  · simp [hout, hfault]
  · simp [hout, hnoop, hfault]

theorem filter_changed : (settledPins p s).filter (fun x => x.outcome = .changed)
    = (accepted p s).map (settledBy s.faults p (.ofPolicy p s.freeSpace) false) := by
  rw [settledPins, List.filter_map, accepted]
  congr 1
  refine List.filter_congr fun pin _ => ?_
  rw [Bool.eq_iff_iff, Function.comp_apply, decide_eq_true_iff]
  exact outcomeOf_eq_changed_iff pin

theorem filter_isFailed : (settledPins p s).filter (fun x => x.outcome.isFailed)
    = (refused p s).map (settledBy s.faults p (.ofPolicy p s.freeSpace) false) := by
  rw [settledPins, List.filter_map, refused]
  congr 1
  exact List.filter_congr fun pin _ => isFailed_outcomeOf_iff pin

theorem action?_settledBy (pin : Pin) :
    (settledBy s.faults p (.ofPolicy p s.freeSpace) false pin).action? (.ofPolicy p s.freeSpace)
      = if changes p s pin then
          some (actionOn p s pin (rebalanced s.faults p (.ofPolicy p s.freeSpace) false pin))
        else none := by
  rw [changes, Settled.action?, settledBy, actionOn]
  rcases settled_cases s.faults p (.ofPolicy p s.freeSpace) pin with
    ⟨hnoop, hout, heq⟩ | ⟨hnoop, hfault, hout, heq⟩ | ⟨e, hnoop, hfault, hout, heq⟩
  · simp [hout, hnoop]
  · simp [hout, hnoop, hfault, heq]
  · simp [hout, hnoop, hfault, heq]

/-- **A sum over the plans that were carried out is a sum over all pins**, of what the plan of a
written pin has done to it and of nothing where a pin is as it was. -/
theorem sumOf_accepted {g : Plan → Nat} {h : Pin → Pin → Nat}
    (hwritten : ∀ pin, g (planFor p (.ofPolicy p s.freeSpace) pin) = h pin
      { pin with allocations := (planFor p (.ofPolicy p s.freeSpace) pin).allocation })
    (hself : ∀ pin, h pin pin = 0) :
    sumOf ((accepted p s).map fun pin => g (planFor p (.ofPolicy p s.freeSpace) pin))
      = sumOf ((s.pins.zip (rebalancedPins p s)).map fun x => h x.1 x.2) := by
  rw [← List.map_prod_left_eq_zip, List.map_map]
  refine sumOf_filter (fun pin _ hpin => ?_) fun pin _ hpin => ?_
  · have hchanged := (outcomeOf_eq_changed_iff pin).2 hpin
    rcases settled_cases s.faults p (.ofPolicy p s.freeSpace) pin with
      ⟨-, hout, -⟩ | ⟨-, -, -, heq⟩ | ⟨e, -, -, hout, -⟩
    · cases hchanged.symm.trans hout
    · rw [Function.comp_apply, heq]
      exact hwritten pin
    · cases hchanged.symm.trans hout
  · have hchanged := mt (outcomeOf_eq_changed_iff pin).1 hpin
    rcases settled_cases s.faults p (.ofPolicy p s.freeSpace) pin with
      ⟨-, -, heq⟩ | ⟨-, -, hout, -⟩ | ⟨e, -, -, -, heq⟩
    · rw [Function.comp_apply, heq]
      exact hself pin
    · exact absurd hout hchanged
    · rw [Function.comp_apply, heq]
      exact hself pin

variable (p s) in
/-- The report of a run that comes to the pins. -/
abbrev reportOf : Report := .ofSettled (.ofPolicy p s.freeSpace) false (settledPins p s)

theorem rebalanced_reportOf : (reportOf p s).rebalanced = (accepted p s).length :=
  (congrArg List.length filter_changed).trans (List.length_map _)

theorem errors_reportOf : (reportOf p s).errors = (refused p s).length :=
  (congrArg List.length filter_isFailed).trans (List.length_map _)

theorem addedReplicas_reportOf : (reportOf p s).addedReplicas = sumOf ((accepted p s).map
    fun pin => (planFor p (.ofPolicy p s.freeSpace) pin).added.length) := by
  change sumOf (((settledPins p s).filter fun x => x.outcome = .changed).map _) = _
  rw [filter_changed, List.map_map]
  rfl

theorem removedReplicas_reportOf : (reportOf p s).removedReplicas = sumOf ((accepted p s).map
    fun pin => (planFor p (.ofPolicy p s.freeSpace) pin).removed.length) := by
  change sumOf (((settledPins p s).filter fun x => x.outcome = .changed).map _) = _
  rw [filter_changed, List.map_map]
  rfl

theorem actions_reportOf : (reportOf p s).actions
    = ((s.pins.zip (rebalancedPins p s)).filter fun x => changes p s x.1).map fun x =>
        actionOn p s x.1 x.2 := by
  change (settledPins p s).filterMap (Settled.action? _) = _
  rw [settledPins, List.filterMap_map, rebalancedPins, ← List.map_prod_left_eq_zip,
    List.filter_map, List.map_map]
  exact filterMap_eq_map_filter fun pin _ => action?_settledBy pin

/-- The row of a known peer counts the pins that have it, before and after. -/
theorem balance_reportOf {b : NodeBalance} (hb : b ∈ (reportOf p s).nodes) :
    b.before = countIn b.peerId (s.pins.map (·.allocations)) ∧
      b.after = countIn b.peerId ((rebalancedPins p s).map (·.allocations)) := by
  obtain ⟨⟨id, name⟩, he, rfl⟩ := List.mem_map.1 hb
  have hknown : (Placement.ofPolicy p s.freeSpace).known.contains id = true :=
    Dict.contains_iff.2 (List.mem_map_of_mem (f := Prod.fst) he)
  change countIn id ((settledPins p s).map (·.plan.current)) = _ ∧
    countIn id ((settledPins p s).map (·.kept)) = _
  rw [settledPins, rebalancedPins, List.map_map, List.map_map, List.map_map]
  exact ⟨countIn_map_congr fun pin _ => Plan.mem_current.trans (and_iff_left hknown),
    countIn_map_congr fun pin _ => mem_kept_iff hknown⟩

theorem severity_eq_zero_iff {r : Report} :
    r.severity = 0 ↔ r.errors = 0 ∧ r.addedReplicas = 0 ∧ r.removedReplicas = 0 := by
  rw [Report.severity, severityOf]
  split
  · next h => simp at h ⊢; omega
  · split
    · next h => simp at h ⊢; omega
    · next h h' => simp at h h' ⊢; omega

theorem sumOf_eq_zero_iff : ∀ {ns : List Nat}, sumOf ns = 0 ↔ ∀ n ∈ ns, n = 0
  | [] => by simp [sumOf]
  | n :: ns => by
    rw [sumOf, Nat.add_eq_zero_iff, sumOf_eq_zero_iff, List.forall_mem_cons]

/-- **The severity is zero exactly if no plan changes anything.** -/
theorem severity_reportOf : (reportOf p s).severity = 0 ↔ s.pins.filter (changes p s) = [] := by
  rw [severity_eq_zero_iff, errors_reportOf, addedReplicas_reportOf, removedReplicas_reportOf,
    List.filter_eq_nil_iff, List.length_eq_zero_iff, sumOf_eq_zero_iff, sumOf_eq_zero_iff]
  simp only [List.forall_mem_map, accepted, refused, List.mem_filter, List.filter_eq_nil_iff]
  constructor
  · rintro ⟨hrefused, hadded, hremoved⟩ pin hpin hchanges
    cases hfault : s.faults.pin pin.cid with
    | some e => exact hrefused pin hpin (by rw [hchanges, hfault]; rfl)
    | none =>
      have haccepted : (changes p s pin && (s.faults.pin pin.cid).isNone) = true := by
        rw [hchanges, hfault]
        rfl
      have hnoop : (planFor p (.ofPolicy p s.freeSpace) pin).isNoop = true := by
        rw [Plan.isNoop, List.isEmpty_iff_length_eq_zero.2 (hadded pin ⟨hpin, haccepted⟩),
          List.isEmpty_iff_length_eq_zero.2 (hremoved pin ⟨hpin, haccepted⟩)]
        rfl
      rw [changes, hnoop] at hchanges
      cases hchanges
  · intro hnone
    have hnot (pin : Pin) (hpin : pin ∈ s.pins) {b : Bool} :
        ¬(changes p s pin && b) = true := fun h => hnone pin hpin (Bool.and_eq_true_iff.1 h).1
    exact ⟨fun pin hpin => hnot pin hpin, fun pin hpin => absurd hpin.2 (hnot pin hpin.1),
      fun pin hpin => absurd hpin.2 (hnot pin hpin.1)⟩

/-- The requests of a run are those of the pins whose plans change something. -/
theorem attempts_moved (pins : List Pin) :
    attempts s (s.moved pins ([.freeSpace, .pins]
      ++ s.pins.flatMap (callsFor p (.ofPolicy p s.freeSpace) false)))
      = (s.pins.filter (changes p s)).map (requestFor p s) := by
  rw [attempts, callsUntil_moved, List.filterMap_append, filterMap_callsFor,
    filterMap_eq_map_filter fun pin _ => request?_eq_ite pin]
  rfl

end Report

/-- **A report of a rebalancing is true of the cluster**, and so are the notes of the run. -/
theorem rebalance_tells_truth (host : String) (p : Policy) (s : Memory)
    (hmin : 1 ≤ p.replicationMin) (hmax : p.replicationMin ≤ p.replicationMax)
    (hs : s.DistinctCids) (hspace : s.faults.freeSpace = none) (hpins : s.faults.pins = none) :
    ∃ report notes t, ((watched host p false).run []).run s = ((.ok report, notes), t) ∧
      TellsTruth p s t report notes := by
  have hpossible : Possible p s.faults := ⟨boundsValid_iff.2 ⟨hmin, hmax⟩, hspace, hpins⟩
  have hwatched := run_watched host false hs hpossible
  rw [run_of_possible false host hs hpossible] at hwatched
  have htotal : (reportOf p s).total = s.pins.length := List.length_map _
  refine ⟨_, _, _, hwatched, ?_⟩
  exact
    { attempts := attempts_moved _
      total := htotal
      addsUp := total_ofSettled _ false _
      rebalanced := rebalanced_reportOf
      errors := errors_reportOf
      actions := actions_reportOf
      addedReplicas := addedReplicas_reportOf
      removedReplicas := removedReplicas_reportOf
      gained := addedReplicas_reportOf.trans
        (sumOf_accepted (g := fun plan => plan.added.length) (fun _ => card_gained) gained_self)
      lost := removedReplicas_reportOf.trans
        (sumOf_accepted (g := fun plan => plan.removed.length) (fun _ => card_lost) lost_self)
      nodes := List.map_map
      balance := fun _ hb => balance_reportOf hb
      done := by rw [map_done_notesFrom, htotal, List.length_map]
      noted := by
        rw [map_cid_notesFrom, List.map_map]
        rfl
      outOf := fun _ hx => (total_of_mem_notesFrom _ hx).trans htotal.symm
      severity := by rw [attempts_moved, List.map_eq_nil_iff, severity_reportOf] }

theorem rebalance_tells_truth_sample :
    let s := { Sample.memory with faults := Sample.refusing "few" }
    s.DistinctCids ∧ s.faults.freeSpace = none ∧ s.faults.pins = none ∧
      ∃ report notes t, ((watched "alpha" Sample.policy false).run []).run s
          = ((.ok report, notes), t) ∧ TellsTruth Sample.policy s t report notes :=
  ⟨by decide, rfl, rfl,
    rebalance_tells_truth "alpha" Sample.policy _ (by decide) (by decide) (by decide) rfl rfl⟩

end Rebalance

end PinKeeper
