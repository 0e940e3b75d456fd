import PinKeeper.Maintenance.Migrate
import PinKeeper.Proofs.Cluster.Memory
import PinKeeper.Proofs.Placement.Required

/-!
# Proofs/Maintenance/Migrate — the passes that only add, in one line each

`ensurePins` and `tagPins` do the same with different requests: list the pins, decide for each
whether there is something to ask for, and ask (`run_send_append`).  `ensureRequest?` and
`tagRequest?` are these decisions, and with them both runs are said in closed form
(`run_ensurePins`, `run_tagPins`).

Where nothing fails, the pin that is left does not depend on whether a request was made for it: a
merge that adds no peer and tags that say nothing new are the pin as it was (`ensured_of_no_fault`,
`taggedBy_of_no_fault`).
-/

namespace PinKeeper.Migrate

open Memory

/-! ## A request among the others -/

section Send

variable (f : Faults) (dryRun : Bool) (r? : Option PinRequest) (pin : Pin)

/-- Request that goes out, which in a dry run is none. -/
def made : Option PinRequest := if dryRun then none else r?

/-- What comes of a pin for which there is a request, or none. -/
def sent : Outcome :=
  match r? with
  | none => .untouched
  | some _ => if dryRun then .changed else (f.pin pin.cid).elim .changed fun e => .failed e.message

variable {dryRun} {r?} in
theorem mem_of_mem_made {r : PinRequest} (h : r ∈ made dryRun r?) : r ∈ r? := by
  cases dryRun with
  | true => cases h
  | false => exact h

variable (host : String) (s : Memory) {dryRun} {pin}

theorem run_send_append {r : PinRequest} {before rest : List Pin} (log : List Call)
    (hr : r.cid = pin.cid) (h : ∀ q ∈ before ++ rest, q.cid ≠ pin.cid) :
    (send (cluster host) (.plain dryRun) r).run (s.moved (before ++ pin :: rest) log)
      = (sent s.faults dryRun (some r) pin,
          s.moved (before ++ asked s.faults (made dryRun (some r)) pin :: rest)
            (log ++ (made dryRun (some r)).toList.map .pin)) := by
  rw [send, sent, made]
  cases dryRun with
  | true =>
    simp only [if_true, Option.toList_none, List.map_nil, List.append_nil]
    rfl
  | false =>
    change StateT.run (bind ((cluster host).pin r) _) _ = _
    rw [run_bind_of_run (run_pin_append host s log hr h)]
    cases s.faults.pin pin.cid <;> rfl

end Send

section ForEach

variable {m : Type → Type} [Monad m] [LawfulMonad m]

theorem forEach_eq_mapM (step : Pin → m Outcome) : ∀ pins : List Pin,
    forEach step pins = pins.mapM fun pin => do return (pin.cid, ← step pin)
  | [] => by rw [forEach, List.mapM_nil]
  | pin :: pins => by
    rw [forEach, List.mapM_cons, forEach_eq_mapM step pins]
    simp

variable {s : Memory} {step : Pin → StateM Memory Outcome} {answer : Pin → Outcome}
  {effect : Pin → Pin} {calls : Pin → List Call}

/-- **A pass that logs what becomes of each pin changes each in its place.** -/
theorem run_forEach (h : InPlace s step answer effect calls) (hs : s.DistinctCids)
    (log : List Call) : (forEach step s.pins).run (s.moved s.pins log)
      = (s.pins.map fun pin => (pin.cid, answer pin),
          s.moved (s.pins.map effect) (log ++ s.pins.flatMap calls)) := by
  have hlogged : InPlace s (fun pin => do return (pin.cid, ← step pin))
      (fun pin => (pin.cid, answer pin)) effect calls :=
    { cid_effect := h.cid_effect
      about_calls := h.about_calls
      run_step := fun log hothers => run_bind_of_run (h.run_step log hothers) }
  rw [forEach_eq_mapM]
  exact hlogged.run_mapM hs log

end ForEach

/-! ## Required peers -/

section Ensure

variable (f : Faults) (dryRun : Bool) (required : List String) (pin : Pin)

/-- Request that adds the required peers, for a pin that lacks one. -/
def ensureRequest? : Option PinRequest :=
  if required.all pin.allocations.contains then none
  else some { PinRequest.ofPin pin with allocations := mergeAllocations pin.allocations required }

/-- Pin after a run that adds the required peers. -/
def ensured : Pin := asked f (made dryRun (ensureRequest? required pin)) pin

variable {f dryRun required pin}

theorem eq_of_mem_ensureRequest? {r : PinRequest}
    (h : r ∈ made dryRun (ensureRequest? required pin)) :
    r = { PinRequest.ofPin pin with
            allocations := mergeAllocations pin.allocations required } := by
  have hr := mem_of_mem_made h
  rw [ensureRequest?, Option.mem_ite_none_left] at hr
  exact (Option.some.inj hr.2).symm

theorem mem_mergeAllocations {existing : List String} {id : String} :
    id ∈ mergeAllocations existing required ↔ id ∈ existing ∨ id ∈ required :=
  Policy.mem_foldl_addNew

theorem all_contains_iff : required.all pin.allocations.contains = true ↔
    required ⊆ pin.allocations := by
  rw [List.all_eq_true]
  exact forall₂_congr fun id _ => List.contains_iff_mem

variable (f dryRun required pin) in
/-- A pin is as it was, or has the required peers too. -/
theorem ensured_eq_or : ensured f dryRun required pin = pin ∨
    ensured f dryRun required pin
      = { pin with allocations := mergeAllocations pin.allocations required } := by
  refine (asked_eq_or f _ pin).imp id ?_
  rintro ⟨r, hr, heq⟩
  rw [ensured, heq, eq_of_mem_ensureRequest? hr]
  rfl

/-- **Where the request does not fail, a pin has the required peers too.** -/
theorem ensured_of_no_fault (h : f.pin pin.cid = none) :
    ensured f false required pin
      = { pin with allocations := mergeAllocations pin.allocations required } := by
  rw [ensured, ensureRequest?]
  split
  · next hall =>
    have hmerge : mergeAllocations pin.allocations required = pin.allocations :=
      Policy.foldl_addNew_of_subset (all_contains_iff.1 hall)
    rw [hmerge]
    rfl
  · rw [made, if_neg Bool.false_ne_true]
    exact asked_of_no_fault rfl h

/-- **A run without faults does for a pin that another run has come to what it would have done
before.** -/
theorem ensured_ensured (h : f.pin pin.cid = none) (f' : Faults) :
    ensured f false required (ensured f' false required pin) = ensured f false required pin := by
  rcases ensured_eq_or f' false required pin with heq | heq
  · rw [heq]
  · have hmerge : mergeAllocations (mergeAllocations pin.allocations required) required
        = mergeAllocations pin.allocations required :=
      Policy.foldl_addNew_of_subset fun _ hid => mem_mergeAllocations.2 (.inr hid)
    rw [heq, ensured_of_no_fault h]
    calc ensured f false required
          { pin with allocations := mergeAllocations pin.allocations required }
      _ = { pin with allocations :=
              mergeAllocations (mergeAllocations pin.allocations required) required } :=
        ensured_of_no_fault h
      _ = { pin with allocations := mergeAllocations pin.allocations required } := by rw [hmerge]

variable (host : String) (s : Memory)

theorem ensurePin_inPlace : InPlace s (ensurePin (cluster host) (.plain dryRun) required)
    (fun pin => sent s.faults dryRun (ensureRequest? required pin) pin)
    (ensured s.faults dryRun required)
    (fun pin => (made dryRun (ensureRequest? required pin)).toList.map .pin) where
  cid_effect pin := cid_asked s.faults _ pin
  about_calls pin := about_request fun r hr => congrArg (·.cid) (eq_of_mem_ensureRequest? hr)
  run_step {pin before rest} log hothers := by
    rw [ensurePin, ensured, ensureRequest?]
    by_cases hall : required.all pin.allocations.contains = true
    · rw [if_pos hall, if_pos hall, made, ite_self, Option.toList_none, List.map_nil,
        List.append_nil]
      rfl
    · rw [if_neg hall, if_neg hall]
      exact run_send_append host s log rfl hothers

variable {p : Policy} {profile : String} {host s}

/-- **A run that adds required peers settles each pin by itself.** -/
theorem run_ensurePins (hs : s.DistinctCids) (hrequired : p.requiredFor profile = .ok required)
    (hpins : s.faults.pins = none) :
    (ensurePins (cluster host) p profile (.plain dryRun)).run s =
      (.ok (EnsureReport.ofLog required dryRun (s.pins.map fun pin =>
          (pin.cid, sent s.faults dryRun (ensureRequest? required pin) pin))),
        s.moved (s.pins.map (ensured s.faults dryRun required))
          (.pins :: s.pins.flatMap fun pin =>
            (made dryRun (ensureRequest? required pin)).toList.map .pin)) := by
  have hplace : InPlace s (ensurePin (cluster host) (.plain dryRun) required) _ _ _ :=
    ensurePin_inPlace host s
  rw [ensurePins, hrequired]
  exact (run_bind_of_run (run_pins_of_none host hpins)).trans
    (run_bind_of_run (run_forEach hplace hs [.pins]))

theorem run_ensurePins_of_error {e : AllocationError} (h : p.requiredFor profile = .error e) :
    (ensurePins (cluster host) p profile (.plain dryRun)).run s = (.error (.allocation e), s) := by
  rw [ensurePins, h]
  rfl

theorem run_ensurePins_of_unlisted {e : ClusterError}
    (hrequired : p.requiredFor profile = .ok required) (hpins : s.faults.pins = some e) :
    (ensurePins (cluster host) p profile (.plain dryRun)).run s
      = (.error (.transport e), s.moved s.pins [.pins]) := by
  rw [ensurePins, hrequired]
  exact run_bind_of_run (run_pins_of_some host hpins)

end Ensure

/-! ## Tags -/

section Tag

/-- Size that a run comes to know for a pin without a size tag. -/
def sizeFor (f : Faults) (sizes : Dict Nat) (pin : Pin) : Option Nat :=
  if pin.sizeTag.isSome then none else (sizeBelow f sizes pin.cid).toOption

/-- Question for the size of a pin without a size tag. -/
def sizeCalls (pin : Pin) : List Call := if pin.sizeTag.isSome then [] else [.dagSize pin.cid]

variable (f : Faults) (sizes : Dict Nat) (profile : String) (dryRun : Bool) (pin : Pin)

/-- Request that adds the missing tags, if there is one to add. -/
def tagRequest? : Option PinRequest :=
  if pin.org.isSome && (sizeFor f sizes pin).isNone then none
  else some { PinRequest.ofPin pin with metadata := tagged pin profile (sizeFor f sizes pin) }

/-- What comes of a pin in a run that adds tags. -/
def tagOutcome : Outcome :=
  if pin.org.isSome && pin.sizeTag.isSome then .untouched
  else if pin.org.isSome && (sizeFor f sizes pin).isNone then
    .failed "size lookup failed and org already set"
  else sent f dryRun (tagRequest? f sizes profile pin) pin

/-- Pin after a run that adds tags. -/
def taggedBy : Pin := asked f (made dryRun (tagRequest? f sizes profile pin)) pin

/-- Calls for a pin in a run that adds tags. -/
def tagCalls : List Call :=
  sizeCalls pin ++ (made dryRun (tagRequest? f sizes profile pin)).toList.map .pin

variable {f sizes profile dryRun pin}

theorem eq_of_mem_tagRequest? {r : PinRequest}
    (h : r ∈ made dryRun (tagRequest? f sizes profile pin)) :
    r = { PinRequest.ofPin pin with metadata := tagged pin profile (sizeFor f sizes pin) } := by
  have hr := mem_of_mem_made h
  rw [tagRequest?, Option.mem_ite_none_left] at hr
  exact (Option.some.inj hr.2).symm

theorem about_tagCalls : About pin.cid (tagCalls f sizes profile dryRun pin) := by
  have hrequest : About pin.cid ((made dryRun (tagRequest? f sizes profile pin)).toList.map .pin) :=
    about_request fun r hr => congrArg (·.cid) (eq_of_mem_tagRequest? hr)
  rw [tagCalls, sizeCalls]
  split
  · exact hrequest
  · refine hrequest.cons rfl fun y hy => ?_
    obtain ⟨r, -, rfl⟩ := List.mem_map.1 hy
    exact fun h => nomatch h

theorem find?_tagged_orgKey {size : Option Nat} : (tagged pin profile size).find? orgKey
    = if pin.org.isNone then some profile else pin.metadata.find? orgKey := by
  have hne : orgKey ≠ sizeKey := by decide
  cases size with
  | none =>
    rw [tagged]
    split <;> simp
  | some n =>
    rw [tagged, Dict.find?_insert_of_ne _ hne]
    split <;> simp

theorem find?_tagged_sizeKey {size : Option Nat} : (tagged pin profile size).find? sizeKey
    = size.elim (pin.metadata.find? sizeKey) fun n => some (Text.natural n) := by
  have hne : sizeKey ≠ orgKey := by decide
  cases size with
  | none =>
    rw [tagged]
    split <;> simp [Dict.find?_insert_of_ne _ hne]
  | some n => simp [tagged]

theorem find?_tagged_of_ne {size : Option Nat} {k : String} (horg : k ≠ orgKey)
    (hsize : k ≠ sizeKey) : (tagged pin profile size).find? k = pin.metadata.find? k := by
  cases size with
  | none =>
    rw [tagged]
    split <;> simp [Dict.find?_insert_of_ne _ horg]
  | some n =>
    rw [tagged, Dict.find?_insert_of_ne _ hsize]
    split <;> simp [Dict.find?_insert_of_ne _ horg]

variable (f sizes profile dryRun pin) in
/-- A pin is as it was, or has its tags. -/
theorem taggedBy_eq_or : taggedBy f sizes profile dryRun pin = pin ∨
    taggedBy f sizes profile dryRun pin
      = { pin with metadata := tagged pin profile (sizeFor f sizes pin) } := by
  refine (asked_eq_or f _ pin).imp id ?_
  rintro ⟨r, hr, heq⟩
  rw [taggedBy, heq, eq_of_mem_tagRequest? hr]
  rfl

/-- **Where the request does not fail, a pin has its tags.** -/
theorem taggedBy_of_no_fault (h : f.pin pin.cid = none) :
    taggedBy f sizes profile false pin
      = { pin with metadata := tagged pin profile (sizeFor f sizes pin) } := by
  rw [taggedBy, tagRequest?]
  split
  · next hnone =>
    have ⟨horg, hsize⟩ := Bool.and_eq_true_iff.1 hnone
    have htagged : tagged pin profile (sizeFor f sizes pin) = pin.metadata := by
      rw [Option.isNone_iff_eq_none.1 hsize, tagged, Option.isNone_eq_false_iff.2 horg]
      rfl
    rw [htagged]
    rfl
  · rw [made, if_neg Bool.false_ne_true]
    exact asked_of_no_fault rfl h

/-- **An owner is never replaced.** -/
theorem org_taggedBy {q : String} (h : pin.org = some q) :
    (taggedBy f sizes profile dryRun pin).org = some q := by
  rcases taggedBy_eq_or f sizes profile dryRun pin with heq | heq
  · rw [heq, h]
  · have howned : pin.org.isNone = false := by rw [h, Option.isNone_some]
    rw [heq, Pin.org, find?_tagged_orgKey, howned, if_neg Bool.false_ne_true]
    exact h

/-- Sizes that come to be known in different runs do not contradict each other. -/
theorem sizeFor_eq_or (h : f.dagSize pin.cid = none) (f' : Faults) :
    sizeFor f' sizes pin = none ∨ sizeFor f' sizes pin = sizeFor f sizes pin := by
  rw [sizeFor, sizeFor]
  split
  · exact .inl rfl
  · rw [sizeBelow, sizeBelow, h]
    cases f'.dagSize pin.cid with
    | some e => exact .inl rfl
    | none => exact .inr rfl

/-- Pins with one identifier are told one size. -/
theorem sizeFor_eq_none_or {n : Nat} (h : sizeFor f sizes pin = some n) (pin' : Pin)
    (hcid : pin'.cid = pin.cid) : sizeFor f sizes pin' = none ∨ sizeFor f sizes pin' = some n := by
  rw [sizeFor] at h ⊢
  split at h
  · cases h
  · split
    · exact .inl rfl
    · exact .inr (hcid ▸ h)

/-- An owner that was added is the one that would have been. -/
theorem find?_orgKey_tagged (size size₁ size₂ : Option Nat) :
    let pin' := { pin with metadata := tagged pin profile size }
    (tagged pin' profile size₁).find? orgKey = (tagged pin profile size₂).find? orgKey := by
  intro pin'
  rw [find?_tagged_orgKey, find?_tagged_orgKey, find?_tagged_orgKey]
  by_cases hnone : pin.org.isNone = true
  · rw [if_pos hnone, ite_self]
  · have hnone' : ¬pin'.org.isNone = true := by
      rw [Pin.org, find?_tagged_orgKey, if_neg hnone]
      exact hnone
    rw [if_neg hnone, if_neg hnone']

/-- A size that was added is the one that would have been. -/
theorem find?_sizeKey_tagged (h : f.dagSize pin.cid = none) (f' : Faults) :
    let pin' := { pin with metadata := tagged pin profile (sizeFor f' sizes pin) }
    (tagged pin' profile (sizeFor f sizes pin')).find? sizeKey
      = (tagged pin profile (sizeFor f sizes pin)).find? sizeKey := by
  intro pin'
  rw [find?_tagged_sizeKey, find?_tagged_sizeKey, find?_tagged_sizeKey]
  cases hsize' : sizeFor f' sizes pin with
  | none =>
    have hsame : sizeFor f sizes pin' = sizeFor f sizes pin := by
      rw [sizeFor, sizeFor, Pin.sizeTag, find?_tagged_sizeKey, hsize']
      rfl
    rw [hsame]
    rfl
  | some n =>
    have hsize : sizeFor f sizes pin = some n := by
      rcases sizeFor_eq_or h f' with hnone | heq
      · cases hsize'.symm.trans hnone
      · rw [← heq, hsize']
    rw [hsize, Option.elim_some]
    -- The size is looked up again only if its tag counts as none.
    rcases sizeFor_eq_none_or hsize pin' rfl with hagain | hagain
    · rw [hagain, Option.elim_none]
    · rw [hagain, Option.elim_some]

/-- **Tags that are added to those of an earlier run are as if there had been no such run.** -/
theorem tagged_tagged (h : f.dagSize pin.cid = none) (f' : Faults) :
    let pin' := { pin with metadata := tagged pin profile (sizeFor f' sizes pin) }
    tagged pin' profile (sizeFor f sizes pin') = tagged pin profile (sizeFor f sizes pin) := by
  intro pin'
  refine Dict.ext_find? fun k => ?_
  by_cases horg : k = orgKey
  · rw [horg]
    exact find?_orgKey_tagged _ _ _
  by_cases hsize : k = sizeKey
  · rw [hsize]
    exact find?_sizeKey_tagged h f'
  · rw [find?_tagged_of_ne horg hsize, find?_tagged_of_ne horg hsize,
      find?_tagged_of_ne horg hsize]

/-- **A run without faults does for a pin that another run has come to what it would have done
before.** -/
theorem taggedBy_taggedBy (h : f.pin pin.cid = none) (hsize : f.dagSize pin.cid = none)
    (f' : Faults) : taggedBy f sizes profile false (taggedBy f' sizes profile false pin)
      = taggedBy f sizes profile false pin := by
  rcases taggedBy_eq_or f' sizes profile false pin with heq | heq
  · rw [heq]
  · rw [heq, taggedBy_of_no_fault h, ← tagged_tagged hsize f']
    exact taggedBy_of_no_fault h

variable (host : String) (s : Memory)

theorem run_missingSize (ps : List Pin) (log : List Call) (pin : Pin) :
    (missingSize (cluster host) pin).run (s.moved ps log)
      = (sizeFor s.faults s.dagSizes pin, s.moved ps (log ++ sizeCalls pin)) := by
  rw [missingSize, sizeFor, sizeCalls]
  by_cases hsize : pin.sizeTag.isSome = true
  · rw [if_pos hsize, if_pos hsize, if_pos hsize, List.append_nil]
    rfl
  · rw [if_neg hsize, if_neg hsize, if_neg hsize, run_bind_of_run (run_dagSize host _ pin.cid)]
    rw [faults_moved, dagSizes_moved, pins_moved, moved_moved]
    cases sizeBelow s.faults s.dagSizes pin.cid <;> rfl

theorem tagPin_inPlace : InPlace s (tagPin (cluster host) (.plain dryRun) profile)
    (tagOutcome s.faults s.dagSizes profile dryRun) (taggedBy s.faults s.dagSizes profile dryRun)
    (tagCalls s.faults s.dagSizes profile dryRun) where
  cid_effect pin := cid_asked s.faults _ pin
  about_calls pin := about_tagCalls
  run_step {pin before rest} log hothers := by
    rw [tagPin, tagOutcome, taggedBy, tagCalls, tagRequest?]
    by_cases htags : (pin.org.isSome && pin.sizeTag.isSome) = true
    · have ⟨horg, hsize⟩ := Bool.and_eq_true_iff.1 htags
      have hnone : sizeFor s.faults s.dagSizes pin = none := if_pos hsize
      rw [if_pos htags, if_pos htags, hnone, horg, sizeCalls, if_pos hsize, Option.isNone_none,
        Bool.and_self, if_pos rfl, made, ite_self, Option.toList_none, List.map_nil,
        List.append_nil, List.append_nil]
      rfl
    · rw [if_neg htags, if_neg htags, run_bind_of_run (run_missingSize host s _ log pin)]
      by_cases hnone : (pin.org.isSome && (sizeFor s.faults s.dagSizes pin).isNone) = true
      · rw [if_pos hnone, if_pos hnone, if_pos hnone]
        rw [made, ite_self, Option.toList_none, List.map_nil, List.append_nil]
        rfl
      · rw [if_neg hnone, if_neg hnone, if_neg hnone, ← List.append_assoc]
        exact run_send_append host s _ rfl hothers

variable {p : Policy} {host s}

/-- **A run that adds tags settles each pin by itself.** -/
theorem run_tagPins (hs : s.DistinctCids) (hprofile : (p.profile profile).isSome = true)
    (hpins : s.faults.pins = none) :
    (tagPins (cluster host) p profile (.plain dryRun)).run s =
      (.ok (TagReport.ofLog dryRun (s.pins.map fun pin =>
          (pin.cid, tagOutcome s.faults s.dagSizes profile dryRun pin))),
        s.moved (s.pins.map (taggedBy s.faults s.dagSizes profile dryRun))
          (.pins :: s.pins.flatMap (tagCalls s.faults s.dagSizes profile dryRun))) := by
  have hplace : InPlace s (tagPin (cluster host) (.plain dryRun) profile) _ _ _ :=
    tagPin_inPlace host s
  rw [tagPins, Option.isNone_eq_false_iff.2 hprofile, if_neg Bool.false_ne_true]
  exact (run_bind_of_run (run_pins_of_none host hpins)).trans
    (run_bind_of_run (run_forEach hplace hs [.pins]))

theorem run_tagPins_of_unknown (h : p.profile profile = none) :
    (tagPins (cluster host) p profile (.plain dryRun)).run s
      = (.error (unknownProfile profile), s) := by
  rw [tagPins, h]
  rfl

theorem run_tagPins_of_unlisted {e : ClusterError} (hprofile : (p.profile profile).isSome = true)
    (hpins : s.faults.pins = some e) :
    (tagPins (cluster host) p profile (.plain dryRun)).run s
      = (.error (.transport e), s.moved s.pins [.pins]) := by
  rw [tagPins, Option.isNone_eq_false_iff.2 hprofile, if_neg Bool.false_ne_true]
  exact run_bind_of_run (run_pins_of_some host hpins)

end Tag

end PinKeeper.Migrate
