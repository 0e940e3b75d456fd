import Mathlib.Data.List.Forall2
import PinKeeper.Health
import PinKeeper.Proofs.Dict
import PinKeeper.Proofs.Maintenance.Lost

/-!
# Proofs/Health/Rows — the rows of a health report count exactly

A report has one row for each id that is listed, in the order of the ids.  Of several listings of
one id the last counts (`LastListed`), and a pin counts for a peer by what is reported under its id
(`countPins_eq_countP`).

The records are made apart from the rows, one for each report of the error class and also for peers
that are not listed.  That the two agree is a double counting: nothing is reported twice about one
pin under one id, so the failures of all pins with the id of a row are as many as the pins that the
row counts (`countP_allFailures`).
-/

namespace PinKeeper

namespace Health

/-! ## The peers by their ids -/

/-- A peer is listed, and none that is listed after it has its id. -/
def LastListed (peers : List Peer) (p : Peer) : Prop :=
  ∃ before after, peers = before ++ p :: after ∧ ∀ q ∈ after, q.peerId ≠ p.peerId

section ById

variable {peers : List Peer} {p : Peer} {id : String}

theorem LastListed.mem (h : LastListed peers p) : p ∈ peers := by
  obtain ⟨before, after, rfl, -⟩ := h
  exact List.mem_append_right _ List.mem_cons_self

/-- Where no id is listed twice, every listing counts. -/
theorem lastListed_of_nodup (h : (peers.map (·.peerId)).Nodup) (hp : p ∈ peers) :
    LastListed peers p := by
  obtain ⟨before, after, rfl⟩ := List.append_of_mem hp
  refine ⟨before, after, rfl, fun q hq heq => ?_⟩
  rw [List.map_append, List.map_cons] at h
  have hnot := (List.nodup_cons.1 (List.nodup_append.1 h).2.1).1
  exact hnot (List.mem_map.2 ⟨q, hq, heq⟩)

theorem find?_byId_eq_some_iff :
    (byId peers).find? id = some p ↔ p.peerId = id ∧ LastListed peers p := by
  rw [byId, Dict.find?_ofList, ← List.map_reverse, List.find?_map, Option.map_map,
    Function.comp_def, Option.map_id', List.find?_eq_some_iff_append]
  constructor
  · rintro ⟨hid, before, after, heq, hbefore⟩
    have hid : p.peerId = id := of_decide_eq_true hid
    refine ⟨hid, after.reverse, before.reverse, ?_, fun q hq heq => ?_⟩
    · rw [← List.reverse_inj, heq]
      simp
    · have hnot := hbefore q (List.mem_reverse.1 hq)
      simp [heq, hid] at hnot
  · rintro ⟨rfl, before, after, rfl, hafter⟩
    refine ⟨decide_eq_true rfl, after.reverse, before.reverse, by simp, fun q hq => ?_⟩
    simpa using hafter q (List.mem_reverse.1 hq)

/-- The peers that count are those of the map. -/
theorem mem_values_byId : p ∈ (byId peers).values ↔ LastListed peers p := by
  rw [Dict.values, List.mem_map]
  constructor
  · rintro ⟨⟨id, p⟩, hmem, rfl⟩
    exact (find?_byId_eq_some_iff.1 (Dict.find?_eq_some_iff.2 hmem)).2
  · intro h
    exact ⟨(p.peerId, p), Dict.find?_eq_some_iff.1 (find?_byId_eq_some_iff.2 ⟨rfl, h⟩), rfl⟩

/-- Every id that is listed has a listing that counts. -/
theorem exists_lastListed_iff :
    (∃ p, LastListed peers p ∧ p.peerId = id) ↔ ∃ p ∈ peers, p.peerId = id := by
  have hcontains : (byId peers).contains id = true ↔ ∃ p ∈ peers, p.peerId = id := by
    rw [byId, Dict.contains_ofList, List.map_map]
    exact List.mem_map
  rw [← hcontains, Dict.contains, Option.isSome_iff_exists]
  exact exists_congr fun p => by rw [find?_byId_eq_some_iff, and_comm]

/-- The peers stand in the order of their ids. -/
theorem pairwise_values_byId (peers : List Peer) :
    (byId peers).values.Pairwise fun p q => p.peerId < q.peerId := by
  rw [Dict.values, List.pairwise_map]
  refine (byId peers).ascending.imp_of_mem fun {a b} ha hb hab => ?_
  have key {e : String × Peer} (he : e ∈ (byId peers).entries) : e.2.peerId = e.1 :=
    (find?_byId_eq_some_iff.1 (Dict.find?_eq_some_iff.2 he)).1
  rwa [key ha, key hb]

end ById

/-! ## Counting the reports -/

section Count

variable {pins : List Pin} {id : String} {kind : PinState → Bool}

theorem countPins_eq_countP (pins : List Pin) (id : String) (kind : PinState → Bool) :
    countPins pins id kind = pins.countP fun pin => (pin.stateOf id).any kind :=
  List.countP_eq_length_filter.symm

/-- **A pin counts for a peer by what is reported under its id.** -/
theorem countPins_beq (pins : List Pin) (id : String) (x : PinState) :
    countPins pins id (· == x) = pins.countP fun pin => pin.stateOf id = some x := by
  rw [countPins_eq_countP]
  refine List.countP_congr fun pin _ => ?_
  cases pin.stateOf id <;> simp

/-- Failures of a pin: the reports of the error class, in the order of the peer ids. -/
def failures (pin : Pin) : List (String × PeerStatus) :=
  pin.peerMap.entries.filter fun e => e.2.state.isError

theorem mem_failures {pin : Pin} {s : PeerStatus} :
    (id, s) ∈ failures pin ↔ pin.peerMap.find? id = some s ∧ s.state.isError = true := by
  rw [failures, List.mem_filter, Dict.find?_eq_some_iff]

/-- A peer has at most one failure of a pin, and one exactly if what it reports is an error. -/
theorem countP_failures_pin (pin : Pin) (id : String) : (failures pin).countP (·.1 = id)
    = if (pin.stateOf id).any PinState.isError then 1 else 0 := by
  have hnodup : ((failures pin).map Prod.fst).Nodup :=
    pin.peerMap.nodup_keys.sublist ((List.filter_sublist ..).map Prod.fst)
  have hmem : id ∈ (failures pin).map Prod.fst
      ↔ (pin.stateOf id).any PinState.isError = true := by
    rw [Pin.stateOf, Option.any_map, Option.any_eq_true, List.mem_map]
    constructor
    · rintro ⟨⟨id, s⟩, hs, rfl⟩
      exact ⟨s, mem_failures.1 hs⟩
    · rintro ⟨s, hs⟩
      exact ⟨(id, s), mem_failures.2 hs, rfl⟩
  calc (failures pin).countP (·.1 = id)
    _ = ((failures pin).map Prod.fst).count id := by
      rw [List.count, List.countP_map]
      exact List.countP_congr fun e _ => by simp
    _ = if id ∈ (failures pin).map Prod.fst then 1 else 0 := hnodup.count
    _ = _ := if_congr hmem rfl rfl

/-- Failures of pins, each with its pin, in the order of the pins and then of the peer ids. -/
def allFailures (pins : List Pin) : List (Pin × String × PeerStatus) :=
  pins.flatMap fun pin => (failures pin).map fun e => (pin, e)

/-- **Failures and pins are counted alike**: the failures of all pins under one id are as many as
the pins of which an error is reported under it. -/
theorem countP_allFailures (pins : List Pin) (id : String) :
    (allFailures pins).countP (·.2.1 = id) = countPins pins id PinState.isError := by
  rw [countPins_eq_countP, allFailures]
  induction pins with
  | nil => rfl
  | cons pin pins ih =>
    have hpin : ((failures pin).map fun e => (pin, e)).countP (·.2.1 = id) = _ :=
      List.countP_map.trans (countP_failures_pin pin id)
    rw [List.flatMap_cons, List.countP_append, ih, hpin, List.countP_cons, Nat.add_comm]

end Count

/-! ## The records -/

/-- A record tells of a failure: the peer goes by the name that it is listed with, if it has one
there. -/
structure Tells (peers : List Peer) (pin : Pin) (id : String) (s : PeerStatus)
    (r : PinErrorRecord) : Prop where
  cid : r.cid = shortCid pin.cid
  node : ∀ p, LastListed peers p → p.peerId = id →
    r.node = if p.name = "" then s.peername else p.name
  stranger : (∀ p ∈ peers, p.peerId ≠ id) → r.node = s.peername
  error : r.error = s.error.getD s.state.name

/-- **There is one record for each failure, in the same order.** -/
theorem forall₂_tells (peers : List Peer) (pins : List Pin) (errors : List String) :
    List.Forall₂ (fun f r => Tells peers f.1 f.2.1 f.2.2 r) (allFailures pins)
      (aggregate peers pins errors).pinErrors := by
  have hrecords : (aggregate peers pins errors).pinErrors = (allFailures pins).map fun f =>
      ⟨shortCid f.1.cid, recordName (byId peers) f.2.1 f.2.2,
        f.2.2.error.getD f.2.2.state.name⟩ := by
    rw [allFailures, List.map_flatMap]
    simp only [List.map_map]
    rfl
  rw [hrecords, List.forall₂_map_right_iff, List.forall₂_same]
  intro f _
  refine ⟨rfl, fun p hp hid => ?_, fun hnone => ?_, rfl⟩
  · rw [recordName, find?_byId_eq_some_iff.2 ⟨hid, hp⟩]
    simp only [String.isEmpty_iff]
  · have habsent : (byId peers).find? f.2.1 = none :=
      Option.eq_none_iff_forall_ne_some.2 fun p hp => by
        obtain ⟨hid, hlast⟩ := find?_byId_eq_some_iff.1 hp
        exact hnone p hlast.mem hid
    rw [recordName, habsent]

/-! ## The report -/

/-- A report counts exactly what is listed. -/
structure Report.Exact (peers : List Peer) (pins : List Pin) (r : Report) : Prop where
  /-- There is one row for each id, in the order of the ids. -/
  ascending : r.nodes.Pairwise fun n n' => n.peerId < n'.peerId
  listed : ∀ id, (∃ n ∈ r.nodes, n.peerId = id) ↔ ∃ p ∈ peers, p.peerId = id
  /-- It describes the peer as it was listed last. -/
  described : ∀ n ∈ r.nodes, ∃ p, LastListed peers p ∧ n.peerId = p.peerId ∧ n.name = p.name ∧
    n.error = p.error ∧ n.online = p.error.isNone
  pinned : ∀ n ∈ r.nodes, n.pinned = pins.countP fun pin => pin.stateOf n.peerId = some .pinned
  remote : ∀ n ∈ r.nodes, n.remote = pins.countP fun pin => pin.stateOf n.peerId = some .remote
  pinError : ∀ n ∈ r.nodes,
    n.pinError = pins.countP fun pin => (pin.stateOf n.peerId).any PinState.isError
  degraded : ∀ n ∈ r.nodes, n.status = .degraded ↔ n.online = true ∧ 0 < n.pinError
  /-- There is one record for each failure, of peers that are not listed too. -/
  records : List.Forall₂ (fun f e => Tells peers f.1 f.2.1 f.2.2 e) (allFailures pins) r.pinErrors
  /-- So the records of a peer with a row are as many as the row says. -/
  recorded : ∀ n ∈ r.nodes, (allFailures pins).countP (·.2.1 = n.peerId) = n.pinError
  total : r.total = r.nodes.length
  online : r.online = r.nodes.countP (·.online)
  split : r.total = r.online + r.offline
  pins : r.pins = pins.length

theorem status_eq_degraded_iff (n : NodeHealth) :
    n.status = .degraded ↔ n.online = true ∧ 0 < n.pinError := by
  rw [NodeHealth.status]
  cases n.online <;> simp

theorem mem_nodes_iff {peers : List Peer} {pins : List Pin} {errors : List String}
    {n : NodeHealth} :
    n ∈ (aggregate peers pins errors).nodes ↔ ∃ p, LastListed peers p ∧ n = row pins p := by
  refine List.mem_map.trans (exists_congr fun p => ?_)
  rw [mem_values_byId, eq_comm]

/-- **A report counts exactly.** -/
theorem exact_aggregate (peers : List Peer) (pins : List Pin) (errors : List String) :
    (aggregate peers pins errors).Exact peers pins where
  ascending := (pairwise_values_byId peers).map _ fun _ _ h => h
  listed id := by
    rw [← exists_lastListed_iff]
    constructor
    · rintro ⟨n, hn, rfl⟩
      obtain ⟨p, hp, rfl⟩ := mem_nodes_iff.1 hn
      exact ⟨p, hp, rfl⟩
    · rintro ⟨p, hp, rfl⟩
      exact ⟨row pins p, mem_nodes_iff.2 ⟨p, hp, rfl⟩, rfl⟩
  described n hn := by
    obtain ⟨p, hp, rfl⟩ := mem_nodes_iff.1 hn
    exact ⟨p, hp, rfl, rfl, rfl, rfl⟩
  pinned n hn := by
    obtain ⟨p, -, rfl⟩ := mem_nodes_iff.1 hn
    exact countPins_beq pins p.peerId .pinned
  remote n hn := by
    obtain ⟨p, -, rfl⟩ := mem_nodes_iff.1 hn
    exact countPins_beq pins p.peerId .remote
  pinError n hn := by
    obtain ⟨p, -, rfl⟩ := mem_nodes_iff.1 hn
    exact countPins_eq_countP pins p.peerId PinState.isError
  degraded n _ := status_eq_degraded_iff n
  records := forall₂_tells peers pins errors
  recorded n hn := by
    obtain ⟨p, -, rfl⟩ := mem_nodes_iff.1 hn
    exact countP_allFailures pins p.peerId
  total := rfl
  online := (List.countP_eq_length_filter ..).symm
  split := by
    have hle : (aggregate peers pins errors).online ≤ (aggregate peers pins errors).nodes.length :=
      List.length_filter_le ..
    exact (Nat.add_sub_cancel' hle).symm
  pins := rfl

/-- **The order of the pins shows in the order of the records**, and nowhere else. -/
theorem aggregate_of_perm (peers : List Peer) {pins pins' : List Pin} (errors : List String)
    (h : pins.Perm pins') :
    (aggregate peers pins errors).pinErrors.Perm (aggregate peers pins' errors).pinErrors ∧
      { aggregate peers pins errors with pinErrors := (aggregate peers pins' errors).pinErrors }
        = aggregate peers pins' errors := by
  have hrecords : (pins.flatMap (recordsOf (byId peers))).Perm
      (pins'.flatMap (recordsOf (byId peers))) := h.flatMap_right _
  have hrow : row pins = row pins' := by
    funext p
    simp only [row, countPins_eq_countP, h.countP_eq]
  refine ⟨hrecords, ?_⟩
  simp only [aggregate, overall, hrow, hrecords.isEmpty_eq, h.length_eq]

/-- **The rows and records of a report are exact**, whatever peers and pins are listed, and the
order of the pins makes no difference but to the order of the records. -/
theorem aggregate_counts_exactly (peers : List Peer) (pins : List Pin) (errors : List String) :
    (aggregate peers pins errors).Exact peers pins ∧
      ∀ pins', pins.Perm pins' →
        (aggregate peers pins errors).pinErrors.Perm (aggregate peers pins' errors).pinErrors ∧
          { aggregate peers pins errors with pinErrors := (aggregate peers pins' errors).pinErrors }
            = aggregate peers pins' errors :=
  ⟨exact_aggregate peers pins errors, fun _ h => aggregate_of_perm peers errors h⟩

end Health

/-- Listing of peers in which one id stands twice and one is empty. -/
def Sample.crowd : List Peer :=
  [⟨"alpha", "A", [], some "dial backoff"⟩, ⟨"beta", "B", [], none⟩, ⟨"", "", [], some "no id"⟩,
    ⟨"anew", "A", [], none⟩]

theorem Health.aggregate_counts_exactly_sample :
    let report (pins : List Pin) := aggregate Sample.crowd pins []
    let pins := Sample.unsure :: Sample.memory.pins
    pins.Perm pins.reverse ∧ (report pins).Exact Sample.crowd pins ∧
      (report pins).nodes.map (fun n => (n.peerId, n.name, n.pinned, n.pinError))
        = [("", "", 0, 0), ("A", "anew", 0, 5), ("B", "beta", 4, 0)] ∧
      (report pins).pinErrors ≠ (report pins.reverse).pinErrors ∧
      { report pins with pinErrors := (report pins.reverse).pinErrors } = report pins.reverse := by
  intro report pins
  have hperm : pins.Perm pins.reverse := pins.reverse_perm.symm
  obtain ⟨hexact, hpermuted⟩ := aggregate_counts_exactly Sample.crowd pins []
  exact ⟨hperm, hexact, by decide, by decide, (hpermuted _ hperm).2⟩

end PinKeeper
