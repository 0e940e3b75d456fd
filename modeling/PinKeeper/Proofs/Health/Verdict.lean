import PinKeeper.Proofs.Health.Rows

/-!
# Proofs/Health/Verdict — what the state of the whole says

The state of the whole goes by two questions, of which the first comes before the second
(`Verdict`): whether a peer is offline, and whether a pin failed on a peer.  The second is answered
by all that is reported, whether or not the peer is listed (`pinErrors_ne_nil_iff`).  The
first is answered by the rows, and so by the listing of an id that counts (`offline_pos_iff`): where
an id is listed twice, a peer that is offline may be masked by a later one that is not
(`offline_peer_masked`).

A listing that fails leaves a report without peers or without pins that says so, and is not fine
either way; both failing leave no report (`check_by_listings`).
-/

namespace PinKeeper

namespace Health

/-! ## Two questions -/

/-- State of the whole by whether a peer is offline and whether a pin failed. -/
structure Verdict (offline broken : Prop) (x : Status) : Prop where
  error : x = .error ↔ offline
  degraded : x = .degraded ↔ ¬offline ∧ broken
  ok : x = .ok ↔ ¬offline ∧ ¬broken

theorem Verdict.congr {offline broken offline' broken' : Prop} {x : Status}
    (h : Verdict offline broken x) (hoffline : offline ↔ offline') (hbroken : broken ↔ broken') :
    Verdict offline' broken' x := by
  rwa [← propext hoffline, ← propext hbroken]

theorem verdict_ite (offline broken : Bool) : Verdict (offline = true) (broken = true)
    (if offline then .error else if broken then .degraded else .ok) := by
  cases offline <;> cases broken <;> exact ⟨by simp, by simp, by simp⟩

/-- A listing that failed is no better than a failed pin, and without peers no better than one that
is offline. -/
theorem verdict_overall (offline : Nat) (peersListed : Bool) (pinErrors : List PinErrorRecord)
    (errors : List String) :
    Verdict (0 < offline ∨ errors ≠ [] ∧ peersListed = false) (pinErrors ≠ [] ∨ errors ≠ [])
      (overall offline peersListed pinErrors errors) :=
  (verdict_ite _ _).congr (by simp) (by simp)

section Aggregate

variable (peers : List Peer) (pins : List Pin) (errors : List String)

/-- **A peer counts as offline if the listing of its id that counts says so.** -/
theorem offline_pos_iff : 0 < (aggregate peers pins errors).offline
    ↔ ∃ p, LastListed peers p ∧ p.error.isSome = true := by
  have hexact := exact_aggregate peers pins errors
  have hall : (aggregate peers pins errors).offline = 0
      ↔ ∀ n ∈ (aggregate peers pins errors).nodes, n.online = true := by
    rw [← List.countP_eq_length, ← hexact.online, ← hexact.total, hexact.split]
    omega
  rw [Nat.pos_iff_ne_zero, Ne, hall]
  constructor
  · intro hnot
    by_contra hnone
    refine hnot fun n hn => ?_
    obtain ⟨p, hp, rfl⟩ := mem_nodes_iff.1 hn
    by_contra hoffline
    have herror : p.error ≠ none := by simpa [row, Peer.isOnline] using hoffline
    exact hnone ⟨p, hp, Option.isSome_iff_ne_none.2 herror⟩
  · rintro ⟨p, hp, herror⟩ hall
    have honline := hall (row pins p) (mem_nodes_iff.2 ⟨p, hp, rfl⟩)
    simp [row, Peer.isOnline, Option.isSome_iff_ne_none.1 herror] at honline

/-- **There is a record exactly if an error is reported of a pin**, by a listed peer or not. -/
theorem pinErrors_ne_nil_iff : (aggregate peers pins errors).pinErrors ≠ []
    ↔ ∃ pin ∈ pins, pin.Reports PinState.isError := by
  have hlength := (forall₂_tells peers pins errors).length_eq
  rw [Ne, ← List.length_eq_zero_iff, ← hlength, List.length_eq_zero_iff, allFailures,
    List.flatMap_eq_nil_iff]
  simp only [List.map_eq_nil_iff, failures, Pin.filter_entries_eq_nil_iff]
  push Not
  rfl

theorem verdict_aggregate : Verdict
    ((∃ p, LastListed peers p ∧ p.error.isSome = true) ∨ errors ≠ [] ∧ peers = [])
    ((∃ pin ∈ pins, pin.Reports PinState.isError) ∨ errors ≠ [])
    (aggregate peers pins errors).status := by
  refine (verdict_overall _ _ _ _).congr (or_congr (offline_pos_iff peers pins errors) ?_)
    (or_congr_left (pinErrors_ne_nil_iff peers pins errors))
  rw [Bool.not_eq_false', List.isEmpty_iff]

/-- **Of listings that did not fail the verdict is on the peers as they were listed last.** -/
theorem verdict_of_listed : Verdict (∃ p, LastListed peers p ∧ p.error.isSome = true)
    (∃ pin ∈ pins, pin.Reports PinState.isError) (aggregate peers pins []).status := by
  refine (verdict_aggregate peers pins []).congr ?_ ?_ <;> simp

variable {peers} in
/-- Where no id is listed twice, no listing is masked by another. -/
theorem exists_lastListed_iff_of_nodup (h : (peers.map (·.peerId)).Nodup) (P : Peer → Prop) :
    (∃ p, LastListed peers p ∧ P p) ↔ ∃ p ∈ peers, P p :=
  exists_congr fun _ => and_congr_left' ⟨LastListed.mem, lastListed_of_nodup h⟩

end Aggregate

/-! ## The check -/

/-- **A check reports on what was listed**, unless neither the peers nor the pins were.  Where both
were, an offline peer comes before a failed pin, and a peer is offline if the last listing of its id
says so; where one was not, the report says which, and is not fine. -/
theorem check_by_listings {σ : Type} (cluster : Cluster (StateM σ)) (s : σ) :
    let peers? := (cluster.peers.run s).1
    let pins? := (cluster.pins.run (cluster.peers.run s).2).1
    let answer := ((check cluster).run s).1
    (∀ peers pins, peers? = .ok peers → pins? = .ok pins →
        ∃ report, answer = .ok report ∧ report.errors = [] ∧
          Verdict (∃ p, LastListed peers p ∧ p.error.isSome = true)
            (∃ pin ∈ pins, pin.Reports PinState.isError) report.status ∧
          ((peers.map (·.peerId)).Nodup → Verdict (∃ p ∈ peers, p.error.isSome = true)
            (∃ pin ∈ pins, pin.Reports PinState.isError) report.status)) ∧
      (∀ peers e, peers? = .ok peers → pins? = .error e →
        ∃ report, answer = .ok report ∧ report.errors = ["pins: " ++ e.message] ∧
          report.status ≠ .ok) ∧
      (∀ e pins, peers? = .error e → pins? = .ok pins →
        ∃ report, answer = .ok report ∧ report.errors = ["peers: " ++ e.message] ∧
          report.status ≠ .ok) ∧
      ((∃ e, answer = .error e) ↔ (∃ e, peers? = .error e) ∧ ∃ e, pins? = .error e) := by
  intro peers? pins? answer
  have hanswer : answer = ofListings peers? pins? := rfl
  have hfine (peers : List Peer) (pins : List Pin) (e : String) :
      (aggregate peers pins [e]).status ≠ .ok := fun hok =>
    ((verdict_aggregate peers pins [e]).ok.1 hok).2 (.inr (List.cons_ne_nil e []))
  rw [hanswer]
  refine ⟨fun peers pins hpeers hpins => ?_, fun peers e hpeers hpins => ?_,
    fun e pins hpeers hpins => ?_, ?_⟩
  · rw [hpeers, hpins]
    have hverdict := verdict_of_listed peers pins
    exact ⟨_, rfl, rfl, hverdict, fun hnodup =>
      hverdict.congr (exists_lastListed_iff_of_nodup hnodup _) Iff.rfl⟩
  · rw [hpeers, hpins]
    exact ⟨_, rfl, rfl, hfine peers [] _⟩
  · rw [hpeers, hpins]
    exact ⟨_, rfl, rfl, hfine [] pins _⟩
  · cases peers? <;> cases pins? <;> simp [ofListings]

/-- Of two peers that are listed without an id the later one counts: the first, which is offline,
shows neither in the verdict nor in the counts. -/
theorem offline_peer_masked :
    let s : Memory := { Memory.empty with
      peers := [⟨"alpha", "", [], some "dial backoff"⟩, ⟨"beta", "", [], none⟩] }
    (∃ p ∈ s.peers, p.error.isSome = true) ∧
      ((check (Memory.cluster "alpha")).run s).1.map (fun r => (r.status, r.offline, r.errors))
        = .ok (.ok, 0, []) := by
  decide

theorem check_by_listings_sample :
    let s : Memory := { Sample.memory with peers := Sample.crowd }
    let refused : ClusterError := .api 503 "unavailable"
    let answer (s : Memory) := ((check (Memory.cluster "alpha")).run s).1
    (∃ report, answer s = .ok report ∧ report.status = .error) ∧
      (∃ report, answer { s with peers := s.peers.filter (·.isOnline) } = .ok report ∧
        report.status = .degraded) ∧
      (∃ report, answer { s with faults.pins := some refused } = .ok report ∧
        report.errors = ["pins: unavailable"] ∧ report.status ≠ .ok) ∧
      ∃ e, answer { s with faults.pins := some refused, faults.peers := some refused }
        = .error e := by
  intro s refused answer
  have hby (s : Memory) := check_by_listings (Memory.cluster "alpha") s
  refine ⟨?_, ?_, ?_, ?_⟩
  · obtain ⟨report, hreport, -, hverdict, -⟩ := (hby s).1 _ _ rfl rfl
    exact ⟨report, hreport, hverdict.error.2 ⟨⟨"", "", [], some "no id"⟩,
      ⟨Sample.crowd.take 2, Sample.crowd.drop 3, by decide, by decide⟩, by decide⟩⟩
  · obtain ⟨report, hreport, -, -, hverdict⟩ :=
      (hby { s with peers := s.peers.filter (·.isOnline) }).1 _ _ rfl rfl
    exact ⟨report, hreport, (hverdict (by decide)).degraded.2 ⟨by decide,
      Sample.pin "few" none ["D"], by decide, "A", _, rfl, by decide⟩⟩
  · exact (hby { s with faults.pins := some refused }).2.1 _ _ rfl rfl
  · exact (hby { s with faults.pins := some refused, faults.peers := some refused }).2.2.2.2
      ⟨⟨_, rfl⟩, _, rfl⟩

end Health

end PinKeeper
