import Mathlib.Data.List.Nodup
import PinKeeper.Cluster.Memory
import PinKeeper.Proofs.Answers

/-!
# Proofs/Cluster/Memory — a pass over the pins changes each of them in its place

Each call to a cluster in memory is a function of the memory, said once (`run_pins`, `run_pin`, …):
what it answers, and the pins and the record of calls that it leaves (`Memory.moved`).  All else of
a memory stays as it is.

A pass goes over a listing of the pins while it changes the pins themselves.  As long as the
identifiers are distinct the two do not get out of step: the pins that the pass has not come to are
still as they were listed.  A step that only touches the pin it is given (`InPlace`) thus acts on
the whole cluster pin by pin (`InPlace.run_mapM`).
-/

namespace PinKeeper

variable {α β : Type}

/-- Answer of a call, where the faults do not say that it fails. -/
def Faults.reply (fault : Option ClusterError) (answer : α) : Except ClusterError α :=
  match fault with
  | some e => .error e
  | .none => .ok answer

theorem Faults.reply_eq_ok_iff {fault : Option ClusterError} {answer a : α} :
    Faults.reply fault answer = .ok a ↔ fault = .none ∧ answer = a := by
  cases fault <;> simp [Faults.reply]

namespace Call

/-- Identifier or host that a call is about. -/
def subject : Call → Option String
  | .pin r => some r.cid
  | .pinStatus cid | .unpin cid | .recover cid | .dagSize cid => some cid
  | .download host _ _ => some host
  | _ => none

/-- True for a call that asks for a change. -/
def isWrite : Call → Bool
  | .add _ _ | .pin _ | .unpin _ | .recover _ => true
  | _ => false

/-- What the faults go by: the kind of a call, and what it is about. -/
def key (x : Call) : Nat × Option String := (x.ctorIdx, x.subject)

end Call

namespace Memory

/-- The pins have distinct identifiers. -/
def DistinctCids (s : Memory) : Prop := (s.pins.map (·.cid)).Nodup

instance (s : Memory) : Decidable s.DistinctCids := inferInstanceAs (Decidable (List.Nodup _))

/-- The memory with other pins, after more calls. -/
def moved (s : Memory) (pins : List Pin) (calls : List Call) : Memory :=
  { s with pins := pins, calls := s.calls ++ calls }

section Moved

variable (s : Memory) (ps qs : List Pin) (cs ds : List Call)

@[simp] theorem pins_moved : (s.moved ps cs).pins = ps := rfl

@[simp] theorem calls_moved : (s.moved ps cs).calls = s.calls ++ cs := rfl

@[simp] theorem faults_moved : (s.moved ps cs).faults = s.faults := rfl

@[simp] theorem freeSpace_moved : (s.moved ps cs).freeSpace = s.freeSpace := rfl

@[simp] theorem dagSizes_moved : (s.moved ps cs).dagSizes = s.dagSizes := rfl

@[simp] theorem healOnRecover_moved : (s.moved ps cs).healOnRecover = s.healOnRecover := rfl

@[simp] theorem moved_moved : (s.moved ps cs).moved qs ds = s.moved qs (cs ++ ds) := by
  simp [moved]

@[simp] theorem moved_self : s.moved s.pins [] = s := by simp [moved]

end Moved

/-! ## The calls -/

theorem run_barring (fault : Faults → Option ClusterError)
    (answer : StateM Memory (Except ClusterError α)) (s : Memory) :
    (barring fault answer).run s =
      match fault s.faults with
      | some e => (.error e, s)
      | none => answer.run s := by
  simp only [barring, StateT.run_bind, StateT.run_get, pure_bind]
  cases fault s.faults <;> rfl

variable (host : String) (s : Memory)

theorem run_pins :
    (cluster host).pins.run s = (Faults.reply s.faults.pins s.pins, s.moved s.pins [.pins]) := by
  simp only [cluster, record, StateT.run_bind, StateT.run_modify, run_barring, pure_bind]
  cases s.faults.pins <;> rfl

theorem run_pins_of_none {s : Memory} (h : s.faults.pins = none) :
    (cluster host).pins.run s = (.ok s.pins, s.moved s.pins [.pins]) := by
  rw [run_pins, h]
  rfl

theorem run_pins_moved {s : Memory} (h : s.faults.pins = none) (ps : List Pin) (cs : List Call) :
    (cluster host).pins.run (s.moved ps cs) = (.ok ps, s.moved ps (cs ++ [.pins])) := by
  rw [run_pins, faults_moved, h, pins_moved, moved_moved]
  rfl

theorem run_pins_of_some {s : Memory} {e : ClusterError} (h : s.faults.pins = some e) :
    (cluster host).pins.run s = (.error e, s.moved s.pins [.pins]) := by
  rw [run_pins, h]
  rfl

theorem run_freeSpace : (cluster host).freeSpace.run s
    = (Faults.reply s.faults.freeSpace s.freeSpace, s.moved s.pins [.freeSpace]) := by
  simp only [cluster, record, StateT.run_bind, StateT.run_modify, run_barring, pure_bind]
  cases s.faults.freeSpace <;> rfl

/-- Pins after a request, which leaves them if it fails. -/
def written (f : Faults) (r : PinRequest) (ps : List Pin) : List Pin :=
  if (f.pin r.cid).isSome then ps else upsert r ps

theorem run_pin (r : PinRequest) : ((cluster host).pin r).run s
    = (Faults.reply (s.faults.pin r.cid) (), s.moved (written s.faults r s.pins) [.pin r]) := by
  simp only [cluster, record, changing, StateT.run_bind, StateT.run_modify, run_barring, pure_bind,
    written]
  cases s.faults.pin r.cid <;> rfl

/-- Size that the cluster tells of what hangs below an identifier, if it tells one. -/
def sizeBelow (f : Faults) (sizes : Dict Nat) (cid : String) : Except ClusterError Nat :=
  match f.dagSize cid with
  | some e => .error e
  | none =>
    match sizes.find? cid with
    | some n => .ok n
    | none => .error (.api 504 "gateway timeout")

theorem run_dagSize (cid : String) : ((cluster host).dagSize cid).run s
    = (sizeBelow s.faults s.dagSizes cid, s.moved s.pins [.dagSize cid]) := by
  simp only [cluster, record, StateT.run_bind, StateT.run_modify, run_barring, pure_bind, sizeBelow]
  cases s.faults.dagSize cid with
  | some e => rfl
  | none =>
    simp only [StateT.run_get, pure_bind]
    cases s.dagSizes.find? cid <;> rfl

/-- Pins after a recovery, which leaves them if it fails or takes its time. -/
def recovered (f : Faults) (healOnRecover : Bool) (cid : String) (ps : List Pin) : List Pin :=
  if (f.recover cid).isSome || !healOnRecover then ps else heal cid ps

theorem run_recover (cid : String) : ((cluster host).recover cid).run s
    = (Faults.reply (s.faults.recover cid) (),
        s.moved (recovered s.faults s.healOnRecover cid s.pins) [.recover cid]) := by
  simp only [cluster, record, changing, StateT.run_bind, StateT.run_modify, run_barring, pure_bind,
    recovered]
  cases s.faults.recover cid with
  | some e => rfl
  | none =>
    simp only [StateT.run_get, pure_bind]
    cases hheal : s.healOnRecover <;> simp [hheal, moved] <;> rfl

/-! ## One pin among the others -/

/-- Pin after a request for it. -/
def served (f : Faults) (r : PinRequest) (pin : Pin) : Pin :=
  if (f.pin r.cid).isSome then pin else update r pin

@[simp] theorem cid_served (f : Faults) (r : PinRequest) (pin : Pin) :
    (served f r pin).cid = pin.cid := by
  rw [served]
  split <;> rfl

theorem upsert_append {r : PinRequest} {rest : List Pin} : ∀ {before : List Pin},
    (∀ q ∈ before, q.cid ≠ r.cid) → upsert r (before ++ rest) = before ++ upsert r rest
  | [], _ => rfl
  | q :: before, h => by
    rw [List.cons_append, upsert, if_neg (h q List.mem_cons_self),
      upsert_append fun q hq => h q (List.mem_cons_of_mem _ hq), List.cons_append]

/-- **A request changes the pin it is for**, where no earlier pin has the identifier. -/
theorem written_append {f : Faults} {r : PinRequest} {pin : Pin} {before rest : List Pin}
    (hr : r.cid = pin.cid) (h : ∀ q ∈ before, q.cid ≠ pin.cid) :
    written f r (before ++ pin :: rest) = before ++ served f r pin :: rest := by
  rw [written, served]
  split
  · rfl
  · rw [upsert_append fun q hq => hr ▸ h q hq, upsert, if_pos hr.symm]

theorem run_pin_append {r : PinRequest} {pin : Pin} {before rest : List Pin} (log : List Call)
    (hr : r.cid = pin.cid) (h : ∀ q ∈ before ++ rest, q.cid ≠ pin.cid) :
    ((cluster host).pin r).run (s.moved (before ++ pin :: rest) log)
      = (Faults.reply (s.faults.pin pin.cid) (),
          s.moved (before ++ served s.faults r pin :: rest) (log ++ [.pin r])) := by
  rw [run_pin, faults_moved, pins_moved, moved_moved, hr,
    written_append hr fun q hq => h q (List.mem_append_left _ hq)]

/-- Pin after the request that is made for it, if one is. -/
def asked (f : Faults) (r : Option PinRequest) (pin : Pin) : Pin :=
  r.elim pin fun r => served f r pin

@[simp] theorem cid_asked (f : Faults) (r : Option PinRequest) (pin : Pin) :
    (asked f r pin).cid = pin.cid := by
  cases r with
  | none => rfl
  | some r => exact cid_served f r pin

/-- A pin is as it was, or as a request for it says. -/
theorem asked_eq_or (f : Faults) (r : Option PinRequest) (pin : Pin) :
    asked f r pin = pin ∨ ∃ x ∈ r, asked f r pin = update x pin := by
  cases r with
  | none => exact .inl rfl
  | some r =>
    rw [asked, Option.elim_some, served]
    split
    · exact .inl rfl
    · exact .inr ⟨r, rfl, rfl⟩

theorem asked_of_no_fault {f : Faults} {r : PinRequest} {pin : Pin} (hr : r.cid = pin.cid)
    (h : f.pin pin.cid = none) : asked f (some r) pin = update r pin := by
  rw [asked, Option.elim_some, served, hr, h]
  rfl

/-- Pin after a recovery of it. -/
def healedPin (f : Faults) (healOnRecover : Bool) (pin : Pin) : Pin :=
  if (f.recover pin.cid).isSome || !healOnRecover then pin
  else { pin with peerMap := pin.peerMap.mapEntries fun _ s => healed s }

@[simp] theorem cid_healedPin (f : Faults) (healOnRecover : Bool) (pin : Pin) :
    (healedPin f healOnRecover pin).cid = pin.cid := by
  rw [healedPin]
  split <;> rfl

theorem heal_of_notMem {cid : String} {ps : List Pin} (h : ∀ q ∈ ps, q.cid ≠ cid) :
    heal cid ps = ps :=
  (List.map_congr_left fun q hq => if_neg (h q hq)).trans ps.map_id

/-- **A recovery changes the pin it is for**, where no other pin has the identifier. -/
theorem recovered_append {f : Faults} {healOnRecover : Bool} {pin : Pin} {before rest : List Pin}
    (h : ∀ q ∈ before ++ rest, q.cid ≠ pin.cid) :
    recovered f healOnRecover pin.cid (before ++ pin :: rest)
      = before ++ healedPin f healOnRecover pin :: rest := by
  rw [recovered, healedPin]
  split
  · rfl
  · have hbefore := heal_of_notMem fun q hq => h q (List.mem_append_left _ hq)
    have hrest := heal_of_notMem fun q hq => h q (List.mem_append_right _ hq)
    rw [heal] at hbefore hrest ⊢
    rw [List.map_append, List.map_cons, hbefore, hrest, if_pos rfl]

/-! ## The calls of a run -/

/-- Calls between two states. -/
def callsUntil (s t : Memory) : List Call := t.calls.drop s.calls.length

@[simp] theorem callsUntil_moved (ps : List Pin) (cs : List Call) :
    s.callsUntil (s.moved ps cs) = cs := by
  rw [callsUntil, calls_moved, List.drop_left]

/-- A request for a pin was made between two states, and it failed. -/
def Refused (s t : Memory) (cid : String) : Prop :=
  ∃ r, Call.pin r ∈ s.callsUntil t ∧ r.cid = cid ∧ (s.faults.pin cid).isSome

theorem not_refused {s : Memory} {cid : String} (h : s.faults.pin cid = none) (t : Memory) :
    ¬Refused s t cid := by
  rintro ⟨r, -, -, hfails⟩
  rw [h] at hfails
  cases hfails

/-- Calls about one identifier, each of another kind. -/
structure About (cid : String) (calls : List Call) : Prop where
  subject : ∀ x ∈ calls, x.subject = some cid
  nodup : (calls.map (·.key)).Nodup

theorem about_nil (cid : String) : About cid [] := ⟨fun _ hx => (List.not_mem_nil hx).elim, .nil⟩

theorem About.cons {cid : String} {x : Call} {calls : List Call} (h : About cid calls)
    (hx : x.subject = some cid) (hkind : ∀ y ∈ calls, x.ctorIdx ≠ y.ctorIdx) :
    About cid (x :: calls) where
  subject := List.forall_mem_cons.2 ⟨hx, h.subject⟩
  nodup := by
    refine List.nodup_cons.2 ⟨fun hmem => ?_, h.nodup⟩
    obtain ⟨y, hy, hkey⟩ := List.mem_map.1 hmem
    exact hkind y hy (congrArg Prod.fst hkey).symm

theorem about_singleton {cid : String} {x : Call} (hx : x.subject = some cid) : About cid [x] :=
  (about_nil cid).cons hx fun _ hy => (List.not_mem_nil hy).elim

/-- A request for a pin is about that pin. -/
theorem about_request {r : Option PinRequest} {pin : Pin} (h : ∀ x ∈ r, x.cid = pin.cid) :
    About pin.cid (r.toList.map .pin) := by
  cases r with
  | none => exact about_nil _
  | some r => exact about_singleton (congrArg some (h r rfl))

/-! ## A pass over the pins -/

/-- A step that, among pins with other identifiers, changes only the pin it is given: by `effect`,
with `calls` about it, and it gives `answer`. -/
structure InPlace (s : Memory) (step : Pin → StateM Memory β) (answer : Pin → β)
    (effect : Pin → Pin) (calls : Pin → List Call) : Prop where
  cid_effect : ∀ pin, (effect pin).cid = pin.cid
  about_calls : ∀ pin, About pin.cid (calls pin)
  run_step : ∀ {pin : Pin} {before rest : List Pin} (log : List Call),
    (∀ q ∈ before ++ rest, q.cid ≠ pin.cid) →
      (step pin).run (s.moved (before ++ pin :: rest) log)
        = (answer pin, s.moved (before ++ effect pin :: rest) (log ++ calls pin))

namespace InPlace

variable {s : Memory} {step : Pin → StateM Memory β} {answer : Pin → β} {effect : Pin → Pin}
  {calls : Pin → List Call}

theorem map_cid_effect (h : InPlace s step answer effect calls) (ps : List Pin) :
    (ps.map effect).map (·.cid) = ps.map (·.cid) := by
  rw [List.map_map]
  exact List.map_congr_left fun pin _ => h.cid_effect pin

/-- The pins before the ones that are left have been changed already, which is no matter: they have
kept their identifiers. -/
theorem run_mapM_append (h : InPlace s step answer effect calls) :
    ∀ (rest before : List Pin) (log : List Call), ((before ++ rest).map (·.cid)).Nodup →
      (rest.mapM step).run (s.moved (before ++ rest) log)
        = (rest.map answer, s.moved (before ++ rest.map effect) (log ++ rest.flatMap calls))
  | [], before, log, _ => by
    simp only [List.mapM_nil, List.map_nil, List.flatMap_nil, List.append_nil]
    rfl
  | pin :: rest, before, log, hnodup => by
    have hothers : ∀ q ∈ before ++ rest, q.cid ≠ pin.cid := fun q hq heq => by
      rw [List.map_append, List.map_cons] at hnodup
      have hnot := (List.nodup_cons.1 (List.nodup_middle.1 hnodup)).1
      rw [← List.map_append] at hnot
      exact hnot (List.mem_map.2 ⟨q, hq, heq⟩)
    have hleft : ((before ++ [effect pin] ++ rest).map (·.cid)).Nodup := by
      simpa [h.cid_effect pin] using hnodup
    have ih := run_mapM_append h rest (before ++ [effect pin]) (log ++ calls pin) hleft
    rw [List.append_assoc, List.singleton_append] at ih
    rw [List.mapM_cons, run_bind_of_run (h.run_step log hothers), run_bind_of_run ih,
      List.append_assoc, List.append_assoc]
    rfl

/-- **A pass changes each pin in its place**, and leaves the order and the identifiers. -/
theorem run_mapM (h : InPlace s step answer effect calls) (hs : s.DistinctCids)
    (log : List Call) : (s.pins.mapM step).run (s.moved s.pins log)
      = (s.pins.map answer, s.moved (s.pins.map effect) (log ++ s.pins.flatMap calls)) :=
  h.run_mapM_append s.pins [] log hs

/-- **A pass does not ask for the same thing twice.** -/
theorem nodup_keys (h : InPlace s step answer effect calls) (hs : s.DistinctCids)
    {log : List Call} (hnone : ∀ x ∈ log, x.subject = none) (hlog : (log.map (·.key)).Nodup) :
    ((log ++ s.pins.flatMap calls).map (·.key)).Nodup := by
  have hcids : s.pins.Pairwise fun p q => p.cid ≠ q.cid := List.pairwise_map.1 hs
  rw [List.map_append, List.map_flatMap]
  have hkeys : (s.pins.flatMap fun pin => (calls pin).map (·.key)).Nodup := by
    refine List.nodup_flatMap.2 ⟨fun pin _ => (h.about_calls pin).nodup, hcids.imp ?_⟩
    intro p q hne k hp hq
    obtain ⟨x, hx, rfl⟩ := List.mem_map.1 hp
    obtain ⟨y, hy, hkey⟩ := List.mem_map.1 hq
    have hsubject : some q.cid = some p.cid := by
      rw [← (h.about_calls q).subject y hy, ← (h.about_calls p).subject x hx]
      exact congrArg Prod.snd hkey
    exact hne (Option.some.inj hsubject).symm
  refine List.nodup_append.2 ⟨hlog, hkeys, fun k hk l hl heq => ?_⟩
  obtain ⟨x, hx, rfl⟩ := List.mem_map.1 hk
  obtain ⟨pin, -, hl⟩ := List.mem_flatMap.1 hl
  obtain ⟨y, hy, rfl⟩ := List.mem_map.1 hl
  have hsubject : x.subject = some pin.cid :=
    (congrArg Prod.snd heq).trans ((h.about_calls pin).subject y hy)
  rw [hnone x hx] at hsubject
  cases hsubject

end InPlace

end Memory

end PinKeeper
