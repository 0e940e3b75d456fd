import PinKeeper.Proofs.Answers
import PinKeeper.Proofs.Dict
import PinKeeper.Proofs.Placement.Required
import PinKeeper.Upload

/-!
# Proofs/Upload/Outcome — what an addition reports, by what it was answered

An addition asks three things of the world: what is at the path, the way to the cluster, and of the
cluster the upload and the status of the new pin.  Beside the policy only two of the answers count:
whether the upload was answered with any entries (`Answer`), and what the status of the last of them
says (`Status`).  Whatever comes before the answer stops the addition with a problem and nothing
else (`plain_of_unanswered`), and a status that is told is judged (`Status.judgement_add`).
`add_classified` sorts all runs by these facts.
-/

namespace PinKeeper

/-! ## Peers that hold a pin -/

namespace Pin

/-- Peers that report that they hold the content. -/
def pinnedOn (pin : Pin) : List String :=
  pin.peerMap.keys.filter fun peer => pin.stateOf peer == some .pinned

/-- Every peer reports once. -/
theorem length_pinnedOn (pin : Pin) : pin.pinnedOn.length = pin.pinnedCount := by
  have hstate : ∀ e ∈ pin.peerMap.entries, pin.stateOf e.1 = some e.2.state := by
    intro e he
    rw [stateOf, Dict.find?_eq_some_iff.2 he]
    rfl
  rw [pinnedOn, pinnedCount, holders, Dict.keys, Dict.values, List.filter_map, List.filter_map,
    List.length_map, List.length_map]
  refine congrArg List.length (List.filter_congr fun e he => ?_)
  rw [Function.comp_apply, Function.comp_apply, hstate e he]
  rfl

end Pin

namespace Upload

section Judging

variable {p : Policy} {a b : String} {pin : Pin}

/-- Both required peers hold the content, and enough peers do. -/
def Succeeds (required : List String) (pin : Pin) : Prop :=
  (∀ id ∈ required, pin.stateOf id = some .pinned) ∧ 3 ≤ pin.pinnedOn.length

/-- A required peer reports an error. -/
def Fails (required : List String) (pin : Pin) : Prop :=
  ∃ id ∈ required, ∃ state, pin.stateOf id = some state ∧ state.isError = true

/-- What a judgement says, by the outcome that it comes to. -/
inductive Judged (required : List String) (pin : Pin) : Judgement → Prop
  | failed (text : String) (h : Fails required pin) :
      Judged required pin ⟨.failed, some text, none, some 0⟩
  | pending (text : String) (hfails : ¬Fails required pin)
      (h : ¬∀ id ∈ required, pin.stateOf id = some .pinned) :
      Judged required pin ⟨.partialSuccess, some text, none, none⟩
  | short (text : String) (hfails : ¬Fails required pin)
      (h : pin.pinnedOn.length < 3) :
      Judged required pin ⟨.partialSuccess, some text, none, some pin.pinnedOn.length⟩
  | noted (text : String) (h : Succeeds required pin) (hcount : pin.pinnedOn.length = 3) :
      Judged required pin ⟨.success, none, some text, some pin.pinnedOn.length⟩
  | success (h : Succeeds required pin) (hcount : pin.pinnedOn.length ≠ 3) :
      Judged required pin ⟨.success, none, none, some pin.pinnedOn.length⟩

/-- Some side of an upload has a property exactly if a required peer has it. -/
theorem isEmpty_filter_sides (q : String → Bool) :
    (!((sides [a, b]).filter fun s => q s.2).isEmpty) = true ↔ ∃ id ∈ [a, b], q id = true := by
  have hsides : sides [a, b] = [("primary", a), ("backup", b)] := rfl
  rw [Bool.not_eq_true', List.isEmpty_eq_false_iff, Ne, List.filter_eq_nil_iff, hsides]
  simp only [List.mem_cons, List.not_mem_nil, or_false, forall_eq_or_imp, forall_eq,
    exists_eq_or_imp, exists_eq_left]
  tauto

theorem hasFailed_iff {id : String} :
    hasFailed pin id = true ↔ ∃ state, pin.stateOf id = some state ∧ state.isError = true := by
  rw [hasFailed, Option.any_eq_true_iff_get]
  simp [Option.eq_some_iff_get_eq]

theorem judged_judge : Judged [a, b] pin (judge p [a, b] pin) := by
  rw [judge]
  split
  · next h =>
    refine .failed _ ?_
    obtain ⟨id, hid, hfailed⟩ := (isEmpty_filter_sides _).1 h
    exact ⟨id, hid, hasFailed_iff.1 hfailed⟩
  · next h =>
    have hfails : ¬Fails [a, b] pin := by
      rintro ⟨id, hid, hstate⟩
      exact h ((isEmpty_filter_sides _).2 ⟨id, hid, hasFailed_iff.2 hstate⟩)
    split
    · next hpending =>
      obtain ⟨id, hid, hstate⟩ :=
        (isEmpty_filter_sides fun id => pin.stateOf id != some .pinned).1 hpending
      exact .pending _ hfails fun hall => bne_iff_ne.1 hstate (hall id hid)
    · next hpending =>
      have hall : ∀ id ∈ [a, b], pin.stateOf id = some .pinned := by
        intro id hid
        by_contra hstate
        exact hpending ((isEmpty_filter_sides fun id => pin.stateOf id != some .pinned).2
          ⟨id, hid, bne_iff_ne.2 hstate⟩)
      rw [← Pin.length_pinnedOn]
      split
      · next hcount => exact .short _ hfails hcount
      · next hcount =>
        have henough : Succeeds [a, b] pin := ⟨hall, Nat.le_of_not_lt hcount⟩
        split
        · next hthree => exact .noted _ henough hthree
        · next hthree => exact .success henough hthree

theorem not_fails_of_succeeds {required : List String} (h : Succeeds required pin) :
    ¬Fails required pin := by
  rintro ⟨id, hid, state, hstate, herror⟩
  rw [h.1 id hid, Option.some.injEq] at hstate
  subst hstate
  cases herror

namespace Judged

variable {required : List String} {j : Judgement}

theorem outcome_eq_success_iff (h : Judged required pin j) :
    j.outcome = .success ↔ Succeeds required pin := by
  cases h with
  | failed _ hfails => exact iff_of_false nofun fun hs => not_fails_of_succeeds hs hfails
  | pending _ _ hpending => exact iff_of_false nofun fun hs => hpending hs.1
  | short _ _ hshort => exact iff_of_false nofun fun hs => Nat.not_le_of_lt hshort hs.2
  | noted _ hs => exact iff_of_true rfl hs
  | success hs => exact iff_of_true rfl hs

theorem outcome_eq_failed_iff (h : Judged required pin j) :
    j.outcome = .failed ↔ Fails required pin := by
  cases h with
  | failed _ hfails => exact iff_of_true rfl hfails
  | pending _ hfails => exact iff_of_false nofun hfails
  | short _ hfails => exact iff_of_false nofun hfails
  | noted _ hs => exact iff_of_false nofun (not_fails_of_succeeds hs)
  | success hs => exact iff_of_false nofun (not_fails_of_succeeds hs)

theorem outcome_ne_configError (h : Judged required pin j) : j.outcome ≠ .configError := by
  cases h <;> exact nofun

theorem replicaCount_of_failed (h : Judged required pin j) (hfailed : j.outcome = .failed) :
    j.replicaCount = some 0 := by
  cases h <;> first | rfl | cases hfailed

theorem error_eq_none_iff (h : Judged required pin j) :
    j.error = none ↔ j.outcome = .success := by
  cases h with
  | failed => exact iff_of_false nofun nofun
  | pending => exact iff_of_false nofun nofun
  | short => exact iff_of_false nofun nofun
  | noted => exact iff_of_true rfl rfl
  | success => exact iff_of_true rfl rfl

theorem isSome_note_iff (h : Judged required pin j) :
    j.note.isSome = true ↔ Succeeds required pin ∧ pin.pinnedOn.length = 3 := by
  cases h with
  | failed _ hfails => exact iff_of_false nofun fun hs => not_fails_of_succeeds hs.1 hfails
  | pending _ _ hpending => exact iff_of_false nofun fun hs => hpending hs.1.1
  | short _ _ hshort => exact iff_of_false nofun fun hs => hshort.ne hs.2
  | noted _ hs hcount => exact iff_of_true rfl ⟨hs, hcount⟩
  | success _ hcount => exact iff_of_false nofun fun hs => hcount hs.2

theorem eq_of_replicaCount (h : Judged required pin j) {n : Nat} (hpos : 0 < n)
    (hn : j.replicaCount = some n) : pin.pinnedOn.length = n := by
  cases h with
  | failed => exact absurd (Option.some.inj hn) hpos.ne
  | pending => cases hn
  | short => exact Option.some.inj hn
  | noted => exact Option.some.inj hn
  | success => exact Option.some.inj hn

end Judged

end Judging

section Answers

variable {σ : Type} {lookup : String → StateM σ (Except FileError Entry)}
  {connect : String → StateM σ (Except ClusterError (Cluster (StateM σ)))} {p : Policy}
  {o : Options} {time : Time.Instant} {s : σ}

/-! ## What is answered -/

/-- There is something at the path, and the policy cannot place it. -/
def Unplaced (lookup : String → StateM σ (Except FileError Entry)) (p : Policy) (o : Options)
    (s : σ) : Prop :=
  (∃ entry, ((lookup o.path).run s).1 = .ok entry) ∧ ∃ e, p.requiredFor o.profile = .error e

/-- An upload that the cluster has answered, with all that led there. -/
structure Answer (lookup : String → StateM σ (Except FileError Entry))
    (connect : String → StateM σ (Except ClusterError (Cluster (StateM σ)))) (p : Policy)
    (o : Options) (s : σ) where
  entry : Entry
  required : List String
  host : String
  files : List LocalFile
  cluster : Cluster (StateM σ)
  added : List AddedEntry
  {looked connected uploaded : σ}
  found : (lookup o.path).run s = (.ok entry, looked)
  placed : p.requiredFor o.profile = .ok required
  target : p.targetHost (some o.profile) o.host = some host
  allowed : (entry.isDirectory && !o.recursive) = false
  walked : Walk.files o.path entry = .ok files
  reached : (connect host).run looked = (.ok cluster, connected)
  answered : (cluster.add (request o required files)).run connected = (.ok added, uploaded)

/-- An answered upload with the status of its last entry. -/
structure Status (lookup : String → StateM σ (Except FileError Entry))
    (connect : String → StateM σ (Except ClusterError (Cluster (StateM σ)))) (p : Policy)
    (o : Options) (s : σ) extends Answer lookup connect p o s where
  root : AddedEntry
  pin : Pin
  last : added.getLast? = some root
  status : ((cluster.pinStatus root.cid).run uploaded).1 = .ok pin

/-! ## Runs -/

/-- A result that tells of a problem and of nothing else. -/
structure Plain (outcome : AddOutcome) (r : AddResult) : Prop where
  outcome : r.outcome = outcome
  error : r.error.isSome = true
  note : r.note = none
  replicaCount : r.replicaCount = none

/-- What a result says of a new pin. -/
def judgement (r : AddResult) : Judgement := ⟨r.outcome, r.error, r.note, r.replicaCount⟩

theorem plain_of_unplaced (h : Unplaced lookup p o s) :
    Plain .configError ((add lookup connect p o time).run s).1 := by
  obtain ⟨⟨entry, hentry⟩, e, he⟩ := h
  have hlook : (lookup o.path).run s = (.ok entry, ((lookup o.path).run s).2) :=
    Prod.ext hentry rfl
  rw [add, run_bind_of_run hlook]
  simp only [he]
  exact ⟨rfl, rfl, rfl, rfl⟩

/-- Sending comes to nothing where the cluster cannot be reached or names no entry. -/
theorem plain_of_nothing_added {r : AddResult} {host : String} {files : List LocalFile}
    (hnote : r.note = none) (hcount : r.replicaCount = none)
    (h : ∀ cluster connected added uploaded, (connect host).run s = (.ok cluster, connected) →
      (cluster.add (request o r.allocations files)).run connected = (.ok added, uploaded) →
        added = []) :
    Plain .failed ((send connect p o r host files).run s).1 := by
  cases hreach : (connect host).run s with
  | mk reached connected =>
    rw [send, run_bind_of_run hreach]
    cases reached with
    | error e => exact ⟨rfl, rfl, hnote, hcount⟩
    | ok cluster =>
      cases hanswer : (cluster.add (request o r.allocations files)).run connected with
      | mk answer uploaded =>
        dsimp only
        rw [run_bind_of_run hanswer]
        cases answer with
        | error e => exact ⟨rfl, rfl, hnote, hcount⟩
        | ok added =>
          obtain rfl := h cluster connected added uploaded hreach hanswer
          exact ⟨rfl, rfl, hnote, hcount⟩

/-- **Without an answer that names an entry an addition fails**, unless the policy cannot place what
is there. -/
theorem plain_of_unanswered (hplaced : ¬Unplaced lookup p o s)
    (h : ∀ u : Answer lookup connect p o s, u.added = []) :
    Plain .failed ((add lookup connect p o time).run s).1 := by
  cases hlook : (lookup o.path).run s with
  | mk found looked =>
    rw [add, run_bind_of_run hlook]
    cases found with
    | error e => exact ⟨rfl, rfl, rfl, rfl⟩
    | ok entry =>
      dsimp only
      split
      · next e he => exact absurd ⟨⟨entry, by rw [hlook]⟩, e, he⟩ hplaced
      · next required hrequired =>
        split
        · next hnone =>
          have hhost := Policy.isSome_targetHost (Policy.isSome_profile_of_requiredFor hrequired)
            o.host
          rw [hnone] at hhost
          cases hhost
        · next host hhost =>
          split
          · exact ⟨rfl, rfl, rfl, rfl⟩
          · next hallowed =>
            split
            · exact ⟨rfl, rfl, rfl, rfl⟩
            · next files hwalk =>
              refine plain_of_nothing_added rfl rfl fun cluster connected added uploaded hreach
                hanswer => h ⟨entry, required, host, files, cluster, added, hlook, hrequired, hhost,
                  Bool.eq_false_iff.2 hallowed, hwalk, hreach, hanswer⟩

namespace Answer

/-- An answer that names an entry is followed by a request for the status of the last one. -/
theorem answer_add (u : Answer lookup connect p o s) {root : AddedEntry}
    (hlast : u.added.getLast? = some root) :
    ((add lookup connect p o time).run s).1 = ((verify u.cluster p { start p o time with
      allocations := u.required, rootCid := root.cid,
      entries := entriesOf root.cid u.added }).run u.uploaded).1 := by
  have hsend : (add lookup connect p o time).run s = (send connect p o
      { start p o time with allocations := u.required } u.host u.files).run u.looked := by
    rw [add, run_bind_of_run u.found]
    simp only [u.placed, u.target, u.allowed, u.walked]
    rfl
  rw [hsend, send, run_bind_of_run u.reached]
  dsimp only
  rw [run_bind_of_run u.answered]
  dsimp only
  rw [hlast]

/-- Where the status of the last entry cannot be told, the addition counts in part. -/
theorem plain_of_untold (u : Answer lookup connect p o s) (hadded : u.added ≠ [])
    (h : IsEmpty (Status lookup connect p o s)) :
    Plain .partialSuccess ((add lookup connect p o time).run s).1 := by
  obtain ⟨root, hlast⟩ : ∃ root, u.added.getLast? = some root :=
    ⟨_, List.getLast?_eq_some_getLast hadded⟩
  rw [u.answer_add hlast, verify]
  cases hstatus : (u.cluster.pinStatus root.cid).run u.uploaded with
  | mk told after =>
    rw [run_bind_of_run hstatus]
    cases told with
    | error e => exact ⟨rfl, rfl, rfl, rfl⟩
    | ok pin => exact h.elim ⟨u, root, pin, hlast, by rw [hstatus]⟩

end Answer

/-- **A status that is told is judged.** -/
theorem Status.judged_add (v : Status lookup connect p o s) :
    Judged v.required v.pin (judgement ((add lookup connect p o time).run s).1) := by
  have hstatus : (v.cluster.pinStatus v.root.cid).run v.uploaded
      = (.ok v.pin, ((v.cluster.pinStatus v.root.cid).run v.uploaded).2) :=
    Prod.ext v.status rfl
  rw [v.answer_add v.last, verify, run_bind_of_run hstatus]
  obtain ⟨a, b, -, -, hrequired⟩ := Policy.requiredFor_eq_ok_iff.1 v.placed
  rw [hrequired]
  exact judged_judge

/-! ## All runs -/

/-- What a result says of a run, and what a run gives as a result. -/
structure Classified (lookup : String → StateM σ (Except FileError Entry))
    (connect : String → StateM σ (Except ClusterError (Cluster (StateM σ)))) (p : Policy)
    (o : Options) (s : σ) (r : AddResult) : Prop where
  /-- A profile with its required peers has a host, so a missing one is never told of. -/
  host : ∀ required, p.requiredFor o.profile = .ok required →
    ∃ host, p.targetHost (some o.profile) o.host = some host
  configError : r.outcome = .configError ↔ Unplaced lookup p o s
  success : r.outcome = .success ↔
    ∃ v : Status lookup connect p o s, Succeeds v.required v.pin
  /-- That no peer holds the content is told exactly where a required peer reports an error. -/
  failedZero : r.outcome = .failed ∧ r.replicaCount = some 0 ↔
    ∃ v : Status lookup connect p o s, Fails v.required v.pin
  partialSuccess : r.outcome = .partialSuccess ↔
    (∃ u : Answer lookup connect p o s, u.added ≠ []) ∧
      ¬∃ v : Status lookup connect p o s, Succeeds v.required v.pin ∨ Fails v.required v.pin
  failed : r.outcome = .failed ↔ ¬Unplaced lookup p o s ∧
    ((∀ u : Answer lookup connect p o s, u.added = []) ∨
      ∃ v : Status lookup connect p o s, Fails v.required v.pin)
  error : r.error = none ↔ r.outcome = .success
  note : r.note.isSome = true ↔ ∃ v : Status lookup connect p o s,
    Succeeds v.required v.pin ∧ v.pin.pinnedOn.length = 3
  replicaCount : ∀ n, 0 < n → r.replicaCount = some n →
    ∃ v : Status lookup connect p o s, v.pin.pinnedOn.length = n

theorem exists_targetHost {required : List String} (h : p.requiredFor o.profile = .ok required) :
    ∃ host, p.targetHost (some o.profile) o.host = some host :=
  Option.isSome_iff_exists.1
    (Policy.isSome_targetHost (Policy.isSome_profile_of_requiredFor h) o.host)

theorem Answer.not_unplaced (u : Answer lookup connect p o s) : ¬Unplaced lookup p o s := by
  rintro ⟨-, e, he⟩
  rw [u.placed] at he
  cases he

theorem Status.added_ne_nil (v : Status lookup connect p o s) : v.added ≠ [] := by
  intro hnil
  have hlast := v.last
  rw [hnil] at hlast
  cases hlast

/-- A run in which no status is told ends with a problem. -/
theorem classified_of_plain {r : AddResult} {outcome : AddOutcome} (hr : Plain outcome r)
    (hno : IsEmpty (Status lookup connect p o s)) (hsuccess : outcome ≠ .success)
    (hconfig : outcome = .configError ↔ Unplaced lookup p o s)
    (hpartial : outcome = .partialSuccess ↔ ∃ u : Answer lookup connect p o s, u.added ≠ [])
    (hfailed : outcome = .failed ↔
      ¬Unplaced lookup p o s ∧ ∀ u : Answer lookup connect p o s, u.added = []) :
    Classified lookup connect p o s r where
  host _ := exists_targetHost
  configError := by rw [hr.outcome, hconfig]
  success := by
    rw [hr.outcome]
    exact iff_of_false hsuccess fun ⟨v, _⟩ => hno.false v
  failedZero := by
    refine iff_of_false (fun h => ?_) fun ⟨v, _⟩ => hno.false v
    rw [hr.replicaCount] at h
    cases h.2
  partialSuccess := by
    rw [hr.outcome, hpartial]
    exact (and_iff_left fun ⟨v, _⟩ => hno.false v).symm
  failed := by
    rw [hr.outcome, hfailed, or_iff_left fun ⟨v, _⟩ => hno.false v]
  error := by
    rw [hr.outcome]
    exact iff_of_false (Option.isSome_iff_ne_none.1 hr.error) hsuccess
  note := by
    rw [hr.note]
    exact iff_of_false nofun fun ⟨v, _⟩ => hno.false v
  replicaCount n _ hn := by
    rw [hr.replicaCount] at hn
    cases hn

/-- A run in which a status is told goes by it. -/
theorem classified_of_judged {r : AddResult} (v : Status lookup connect p o s)
    (hr : ∀ v : Status lookup connect p o s, Judged v.required v.pin (judgement r)) :
    Classified lookup connect p o s r where
  host _ := exists_targetHost
  configError := iff_of_false (hr v).outcome_ne_configError v.not_unplaced
  success := ⟨fun h => ⟨v, (hr v).outcome_eq_success_iff.1 h⟩,
    fun ⟨w, hw⟩ => (hr w).outcome_eq_success_iff.2 hw⟩
  failedZero := ⟨fun h => ⟨v, (hr v).outcome_eq_failed_iff.1 h.1⟩, fun ⟨w, hw⟩ =>
    have hfailed := (hr w).outcome_eq_failed_iff.2 hw
    ⟨hfailed, (hr w).replicaCount_of_failed hfailed⟩⟩
  partialSuccess := by
    constructor
    · intro h
      refine ⟨⟨v.toAnswer, v.added_ne_nil⟩, ?_⟩
      rintro ⟨w, hw | hw⟩
      · exact absurd (((hr w).outcome_eq_success_iff.2 hw).symm.trans h) nofun
      · exact absurd (((hr w).outcome_eq_failed_iff.2 hw).symm.trans h) nofun
    · rintro ⟨-, hneither⟩
      cases houtcome : r.outcome with
      | success => exact absurd ⟨v, .inl ((hr v).outcome_eq_success_iff.1 houtcome)⟩ hneither
      | partialSuccess => rfl
      | failed => exact absurd ⟨v, .inr ((hr v).outcome_eq_failed_iff.1 houtcome)⟩ hneither
      | configError => exact absurd houtcome (hr v).outcome_ne_configError
  failed := by
    constructor
    · exact fun h => ⟨v.not_unplaced, .inr ⟨v, (hr v).outcome_eq_failed_iff.1 h⟩⟩
    · rintro ⟨-, hnothing | ⟨w, hw⟩⟩
      · exact absurd (hnothing v.toAnswer) v.added_ne_nil
      · exact (hr w).outcome_eq_failed_iff.2 hw
  error := (hr v).error_eq_none_iff
  note := ⟨fun h => ⟨v, (hr v).isSome_note_iff.1 h⟩, fun ⟨w, hw⟩ => (hr w).isSome_note_iff.2 hw⟩
  replicaCount _ hpos hn := ⟨v, (hr v).eq_of_replicaCount hpos hn⟩

/-- **The outcome of an addition tells what the world answered.**  It is a matter of the policy
exactly where there is something at the path that the policy cannot place; a success exactly where
the last entry of the answer is held by both required peers and by three peers at least; a failure
with no replicas exactly where one of the required peers reports an error; a success in part in all
other runs whose upload was answered with an entry; and a failure in the rest. -/
theorem add_classified (lookup : String → StateM σ (Except FileError Entry))
    (connect : String → StateM σ (Except ClusterError (Cluster (StateM σ)))) (p : Policy)
    (o : Options) (time : Time.Instant) (s : σ) :
    Classified lookup connect p o s ((add lookup connect p o time).run s).1 := by
  rcases isEmpty_or_nonempty (Status lookup connect p o s) with hno | ⟨⟨v⟩⟩
  · by_cases hunplaced : Unplaced lookup p o s
    · have hanswer (u : Answer lookup connect p o s) : False := u.not_unplaced hunplaced
      exact classified_of_plain (plain_of_unplaced hunplaced) hno nofun (iff_of_true rfl hunplaced)
        (iff_of_false nofun fun ⟨u, _⟩ => hanswer u)
        (iff_of_false nofun fun h => h.1 hunplaced)
    · by_cases hnothing : ∀ u : Answer lookup connect p o s, u.added = []
      · exact classified_of_plain (plain_of_unanswered hunplaced hnothing) hno nofun
          (iff_of_false nofun hunplaced)
          (iff_of_false nofun fun ⟨u, hu⟩ => hu (hnothing u))
          (iff_of_true rfl ⟨hunplaced, hnothing⟩)
      · obtain ⟨u, hu⟩ := not_forall.1 hnothing
        exact classified_of_plain (u.plain_of_untold hu hno) hno nofun
          (iff_of_false nofun hunplaced) (iff_of_true rfl ⟨u, hu⟩)
          (iff_of_false nofun fun h => hnothing h.2)
  · exact classified_of_judged v fun w => w.judged_add

end Answers

end Upload

end PinKeeper
