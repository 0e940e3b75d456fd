import PinKeeper.Proofs.Cluster.Recorded
import PinKeeper.Proofs.Upload.Outcome

/-!
# Proofs/Upload/Sent — what an addition sends, and how its result mirrors the answer

An addition looks before it sends: there must be something at the path, the policy must place it, a
directory must be allowed, and its files must be readable (`Ready`).  Where one of these is amiss it
makes no call (`recorded_of_not_ready`).  Otherwise it connects, once, and over that connection it
adds, once; the run may end behind each call (`Course`), and it goes by the answer to the upload
(`Ready.recorded_unreached`, `Ready.recorded_reached`, `Answer.exists_recorded`).  The calls are
those of a run with a record beside its state; what is looked up, how the cluster is reached and how
it answers is left open.  `add_sends` puts the runs together, and says of the result that its
entries are those of the answer.
-/

namespace PinKeeper

/-- True for the call that makes a connection. -/
def Call.isConnect : Call → Bool
  | .connect _ => true
  | _ => false

/-- True for the call that uploads. -/
def Call.isAdd : Call → Bool
  | .add _ _ => true
  | _ => false

namespace Upload

/-! ## Entries of a result -/

section Entries

variable {r : AddResult} {added : List AddedEntry}

/-- The entries of a result are those of an answer, one for one, and its root is the last of
them. -/
structure Mirrors (r : AddResult) (added : List AddedEntry) : Prop where
  entries : r.entries = added.map fun e => ⟨e.name, e.cid, e.size, e.cid == r.rootCid, none⟩
  rootCid : r.rootCid = ((added.getLast?).map (·.cid)).getD ""

theorem Mirrors.isRoot_eq (h : Mirrors r added) {e : CidEntry} (he : e ∈ r.entries) :
    e.isRoot = (e.cid == r.rootCid) := by
  rw [h.entries] at he
  obtain ⟨a, -, rfl⟩ := List.mem_map.1 he
  rfl

/-- The parts are the entries that are no roots. -/
theorem Mirrors.childEntries_eq (h : Mirrors r added) :
    r.childEntries = r.entries.filter fun e => !e.isRoot :=
  List.filter_congr fun _ he => congrArg not (h.isRoot_eq he).symm

/-- **Roots and parts are all entries**, each of them once. -/
theorem Mirrors.roots_append_childEntries (h : Mirrors r added) :
    ((r.entries.filter fun e => e.isRoot) ++ r.childEntries).Perm r.entries := by
  rw [h.childEntries_eq]
  exact List.filter_append_perm _ _

/-- The size of the parts and that of the roots are the size of all, if that fits in 64 bits. -/
theorem Mirrors.totalSize_add (h : Mirrors r added)
    (hfits : sumOf (r.entries.map (·.size)) ≤ Text.max64) :
    r.totalSize + sumOf ((r.entries.filter fun e => e.isRoot).map (·.size))
      = sumOf (r.entries.map (·.size)) := by
  have hsum : sumOf ((r.entries.filter fun e => e.isRoot).map (·.size))
      + sumOf (r.childEntries.map (·.size)) = sumOf (r.entries.map (·.size)) := by
    rw [← sumOf_append, ← List.map_append]
    exact sumOf_perm (h.roots_append_childEntries.map _)
  have hparts : sumOf (r.childEntries.map (·.size)) ≤ Text.max64 :=
    (hsum ▸ Nat.le_add_left _ _).trans hfits
  rw [AddResult.totalSize, sum64_eq_sumOf hparts, Nat.add_comm, hsum]

end Entries

section Runs

variable {σ : Type} {lookup : String → StateM σ (Except FileError Entry)}
  {connect : String → StateM σ (Except ClusterError (Cluster (StateM σ)))} {p : Policy}
  {o : Options} {time : Time.Instant} {s : σ}

/-! ## The record of a run -/

/-- The way to a cluster, in programs that keep a record of the calls. -/
def connectRecorded (connect : String → StateM σ (Except ClusterError (Cluster (StateM σ))))
    (host : String) : StateT (List Call) (StateM σ)
      (Except ClusterError (Cluster (StateT (List Call) (StateM σ)))) := do
  return (← (Call.connect host).recording (connect host)).map Cluster.recorded

/-- Result of an addition and the calls that it makes. -/
def recorded (lookup : String → StateM σ (Except FileError Entry))
    (connect : String → StateM σ (Except ClusterError (Cluster (StateM σ)))) (p : Policy)
    (o : Options) (time : Time.Instant) (s : σ) : AddResult × List Call :=
  (((add (fun path => liftM (lookup path)) (connectRecorded connect) p o time).run []).run s).1

theorem run_connectRecorded {host : String} {reached : Except ClusterError (Cluster (StateM σ))}
    {t : σ} (h : (connect host).run s = (reached, t)) (calls : List Call) :
    ((connectRecorded connect host).run calls).run s
      = ((reached.map Cluster.recorded, calls ++ [.connect host]), t) :=
  run_bind_of_run_run (run_recording h (.connect host) calls)

/-- All that an addition checks before it sends anything. -/
structure Ready (lookup : String → StateM σ (Except FileError Entry)) (p : Policy) (o : Options)
    (s : σ) where
  entry : Entry
  required : List String
  host : String
  files : List LocalFile
  {looked : σ}
  found : (lookup o.path).run s = (.ok entry, looked)
  placed : p.requiredFor o.profile = .ok required
  target : p.targetHost (some o.profile) o.host = some host
  allowed : (entry.isDirectory && !o.recursive) = false
  walked : Walk.files o.path entry = .ok files

def Answer.toReady (u : Answer lookup connect p o s) : Ready lookup p o s :=
  ⟨u.entry, u.required, u.host, u.files, u.found, u.placed, u.target, u.allowed, u.walked⟩

variable (connect time) in
/-- **Where something is amiss nothing is sent.** -/
theorem recorded_of_not_ready (h : IsEmpty (Ready lookup p o s)) :
    ∃ r, recorded lookup connect p o time s = (r, []) ∧ Mirrors r [] := by
  cases hlook : (lookup o.path).run s with
  | mk found looked =>
    rw [recorded, add, run_bind_of_run_run (run_run_liftM hlook [])]
    cases found with
    | error e => exact ⟨_, rfl, rfl, rfl⟩
    | ok entry =>
      dsimp only
      split
      · exact ⟨_, rfl, rfl, rfl⟩
      · next required hrequired =>
        split
        · exact ⟨_, rfl, rfl, rfl⟩
        · next host hhost =>
          split
          · exact ⟨_, rfl, rfl, rfl⟩
          · next hallowed =>
            split
            · exact ⟨_, rfl, rfl, rfl⟩
            · next files hwalk =>
              exact h.elim ⟨entry, required, host, files, hlook, hrequired, hhost,
                Bool.eq_false_iff.2 hallowed, hwalk⟩

/-- What an addition makes of the answer to the upload. -/
def conclude {m : Type → Type} [Monad m] (cluster : Cluster m) (p : Policy) (r : AddResult) :
    Except ClusterError (List AddedEntry) → m AddResult
  | .error e => return fail r .failed e.message
  | .ok added =>
    match added.getLast? with
    | none => return fail r .failed "No entries returned from cluster (possible server error)"
    | some root =>
      verify cluster p { r with rootCid := root.cid, entries := entriesOf root.cid added }

namespace Ready

variable (q : Ready lookup p o s)

/-- **Where nothing is amiss the files are sent.** -/
theorem recorded_eq : recorded lookup connect p o time s
    = (((send (connectRecorded connect) p o { start p o time with allocations := q.required }
        q.host q.files).run []).run q.looked).1 := by
  rw [recorded, add, run_bind_of_run_run (run_run_liftM q.found [])]
  simp only [q.placed, q.target, q.allowed, q.walked]
  rfl

variable (time) in
/-- Nothing is sent to a host that cannot be reached. -/
theorem recorded_unreached {e : ClusterError} {t : σ}
    (h : (connect q.host).run q.looked = (.error e, t)) :
    ∃ r, recorded lookup connect p o time s = (r, [.connect q.host]) ∧ Mirrors r [] := by
  rw [q.recorded_eq, send, run_bind_of_run_run (run_connectRecorded h [])]
  exact ⟨_, rfl, rfl, rfl⟩

/-- **Over a connection the files are uploaded**, and the addition goes by the answer. -/
theorem recorded_reached {cluster : Cluster (StateM σ)}
    {answer : Except ClusterError (List AddedEntry)} {t t' : σ}
    (hreach : (connect q.host).run q.looked = (.ok cluster, t))
    (h : (cluster.add (request o q.required q.files)).run t = (answer, t')) :
    recorded lookup connect p o time s =
      (((conclude cluster.recorded p { start p o time with allocations := q.required } answer).run
        [.connect q.host, .add cluster.host (request o q.required q.files)]).run t').1 := by
  have hadd : ((cluster.recorded.add (request o q.required q.files)).run [.connect q.host]).run t
      = ((answer, [.connect q.host, .add cluster.host (request o q.required q.files)]), t') :=
    run_recording h _ _
  rw [q.recorded_eq, send, run_bind_of_run_run (run_connectRecorded hreach [])]
  dsimp only [Except.map, List.nil_append]
  rw [run_bind_of_run_run hadd]
  cases answer <;> rfl

end Ready

/-- The status that is asked for at the end is that of the root, and it changes no entries. -/
theorem run_verify_recorded (cluster : Cluster (StateM σ)) (r : AddResult) (calls : List Call)
    (t : σ) : ∃ r', ((((verify cluster.recorded p r).run calls).run t).1
        = (r', calls ++ [.pinStatus r.rootCid])) ∧
      r'.entries = r.entries ∧ r'.rootCid = r.rootCid := by
  cases hstatus : (cluster.pinStatus r.rootCid).run t with
  | mk status told =>
    have hrun : ((cluster.recorded.pinStatus r.rootCid).run calls).run t
        = ((status, calls ++ [.pinStatus r.rootCid]), told) := run_recording hstatus _ _
    rw [verify, run_bind_of_run_run hrun]
    cases status with
    | error e => exact ⟨_, rfl, rfl, rfl⟩
    | ok pin => exact ⟨_, rfl, rfl, rfl⟩

/-- Calls of a run in which nothing is amiss: it may end behind each of them. -/
inductive Course (q : Ready lookup p o s) : List Call → Prop
  | unreached : Course q [.connect q.host]
  | refused (host : String) :
      Course q [.connect q.host, .add host (request o q.required q.files)]
  | answered (host cid : String) :
      Course q [.connect q.host, .add host (request o q.required q.files), .pinStatus cid]

variable (time) in
/-- **An upload that is answered is mirrored by the result**, and at most the status is asked for
then. -/
theorem Answer.exists_recorded (u : Answer lookup connect p o s) :
    ∃ r calls, recorded lookup connect p o time s = (r, calls) ∧ Course u.toReady calls ∧
      Mirrors r u.added := by
  rw [u.toReady.recorded_reached u.reached u.answered, conclude]
  cases hlast : u.added.getLast? with
  | none =>
    have hnil : u.added = [] := List.getLast?_eq_none_iff.1 hlast
    rw [hnil]
    exact ⟨_, _, rfl, .refused _, rfl, rfl⟩
  | some root =>
    obtain ⟨r, hrun, hentries, hroot⟩ := run_verify_recorded (p := p) u.cluster
      { start p o time with allocations := u.required, rootCid := root.cid,
                            entries := entriesOf root.cid u.added }
      [.connect u.host, .add u.cluster.host (request o u.required u.files)] u.uploaded
    refine ⟨r, _, hrun, .answered _ _, ?_, ?_⟩
    · rw [hentries, hroot]
      rfl
    · rw [hroot, hlast]
      rfl

variable (connect time) in
/-- A run in which nothing is amiss is mirrored by an answer, or comes to none. -/
theorem Ready.exists_recorded (q : Ready lookup p o s) :
    ∃ r calls, recorded lookup connect p o time s = (r, calls) ∧ Course q calls ∧
      (Mirrors r [] ∨ ∃ u : Answer lookup connect p o s, Mirrors r u.added) := by
  cases hreach : (connect q.host).run q.looked with
  | mk reached connected =>
    cases reached with
    | error e =>
      obtain ⟨r, hrun, hr⟩ := q.recorded_unreached time hreach
      exact ⟨r, _, hrun, .unreached, .inl hr⟩
    | ok cluster =>
      cases hanswer : (cluster.add (request o q.required q.files)).run connected with
      | mk answer uploaded =>
        cases answer with
        | error e =>
          rw [q.recorded_reached hreach hanswer]
          exact ⟨_, _, rfl, .refused _, .inl ⟨rfl, rfl⟩⟩
        | ok added =>
          let u : Answer lookup connect p o s := ⟨q.entry, q.required, q.host, q.files, cluster,
            added, q.found, q.placed, q.target, q.allowed, q.walked, hreach, hanswer⟩
          obtain ⟨r, calls, hrun, hcalls, hr⟩ := u.exists_recorded time
          exact ⟨r, calls, hrun, hcalls, .inr ⟨u, hr⟩⟩

/-! ## All runs -/

/-- The host that an addition is to go to: of the node that is asked for, or what is asked for
itself if it is no node's name; and else of the primary node of the profile. -/
def IsHost (p : Policy) (o : Options) (host : String) : Prop :=
  match o.host with
  | some name => (∀ n, p.node name = some n → host = n.host) ∧ (p.node name = none → host = name)
  | none => ∃ primary, p.primaryFor o.profile = some primary ∧ host = primary.host

/-- A request that carries what the policy and the files say. -/
structure Carries (p : Policy) (o : Options) (entry : Entry) (request : AddRequest) : Prop where
  allocations : p.requiredFor o.profile = .ok request.allocations
  onReceiver : request.onReceiver = true
  files : Walk.files o.path entry = .ok request.files
  /-- There are two tags: the profile and the bytes of the files that are sent, as they are counted
  in 64 bits. -/
  metadata : ∀ key, request.metadata.find? key =
    if key = orgKey then some o.profile
    else if key = sizeKey then some (Text.natural (sum64 (request.files.map (·.size))))
    else none
  /-- The bytes of the files are told as they are, if their number fits in 64 bits. -/
  size : sumOf (request.files.map (·.size)) ≤ Text.max64 →
    request.metadata.find? sizeKey = some (Text.natural (sumOf (request.files.map (·.size))))

/-- Calls that are made only when all is well before, each once, and carry what they should. -/
structure SendsOnce (lookup : String → StateM σ (Except FileError Entry)) (p : Policy)
    (o : Options) (s : σ) (calls : List Call) : Prop where
  connects : calls.countP Call.isConnect ≤ 1
  adds : calls.countP Call.isAdd ≤ 1
  /-- Nothing is sent unless all is well before, and then a connection is tried. -/
  ready : (∃ c ∈ calls, c.isConnect = true ∨ c.isAdd = true) ↔ Nonempty (Ready lookup p o s)
  host : ∀ host, Call.connect host ∈ calls → IsHost p o host
  request : ∀ host request, Call.add host request ∈ calls →
    ∃ entry looked, (lookup o.path).run s = (.ok entry, looked) ∧ Carries p o entry request

/-- The entries are those of the answer, and there are none where there is no answer. -/
structure MirrorsAnswer (lookup : String → StateM σ (Except FileError Entry))
    (connect : String → StateM σ (Except ClusterError (Cluster (StateM σ)))) (p : Policy)
    (o : Options) (s : σ) (r : AddResult) : Prop where
  answered : ∀ u : Answer lookup connect p o s, Mirrors r u.added
  unanswered : IsEmpty (Answer lookup connect p o s) → Mirrors r []

/-- Entries of a result that are parted in roots and parts. -/
structure Parted (r : AddResult) : Prop where
  isRoot : ∀ e ∈ r.entries, e.isRoot = true ↔ e.cid = r.rootCid
  childEntries : ∀ e ∈ r.childEntries, e.isRoot = false
  roots_append_childEntries :
    ((r.entries.filter fun e => e.isRoot) ++ r.childEntries).Perm r.entries
  totalSize_add : sumOf (r.entries.map (·.size)) ≤ Text.max64 →
    r.totalSize + sumOf ((r.entries.filter fun e => e.isRoot).map (·.size))
      = sumOf (r.entries.map (·.size))

theorem Ready.isHost (q : Ready lookup p o s) : IsHost p o q.host := by
  have htarget := q.target
  rw [IsHost]
  cases hover : o.host with
  | some name =>
    simp only [Policy.targetHost, hover, Option.map_some, Option.some.injEq, Policy.hostFor]
      at htarget
    refine ⟨fun n hn => ?_, fun hn => ?_⟩
    · rw [← htarget, hn]
      rfl
    · rw [← htarget, hn]
      rfl
  | none =>
    obtain ⟨a, -, ha, -⟩ := Policy.requiredFor_eq_ok_iff.1 q.placed
    obtain ⟨primary, hprimary, -⟩ := Option.bind_eq_some_iff.1 ha
    obtain ⟨owner, howner, hnode⟩ := Option.bind_eq_some_iff.1 hprimary
    simp only [Policy.targetHost, hover, Option.bind_some, howner, Option.map_some,
      Option.some.injEq, Policy.hostFor, hnode, Option.getD_some] at htarget
    exact ⟨primary, hprimary, htarget.symm⟩

/-- A request tells the bytes of its files, as they are counted in 64 bits. -/
theorem find?_sizeKey_request (o : Options) (allocations : List String) (files : List LocalFile) :
    (request o allocations files).metadata.find? sizeKey
      = some (Text.natural (sum64 (files.map (·.size)))) :=
  Dict.find?_insert_self ..

theorem Ready.carries (q : Ready lookup p o s) :
    Carries p o q.entry (Upload.request o q.required q.files) where
  allocations := q.placed
  onReceiver := rfl
  files := q.walked
  metadata key := by
    split
    · next h =>
      rw [h, Upload.request, Dict.find?_insert_of_ne _ (by decide), Dict.find?_insert_self]
    · next hne =>
      split
      · next h => exact h ▸ find?_sizeKey_request o q.required q.files
      · next h =>
        rw [Upload.request, Dict.find?_insert_of_ne _ h, Dict.find?_insert_of_ne _ hne]
        rfl
  size h := by
    rw [find?_sizeKey_request]
    exact congrArg (fun n => some (Text.natural n)) (sum64_eq_sumOf h)

theorem sendsOnce_of_not_ready (h : IsEmpty (Ready lookup p o s)) : SendsOnce lookup p o s [] where
  connects := Nat.zero_le 1
  adds := Nat.zero_le 1
  ready := iff_of_false (fun ⟨_, hc, _⟩ => absurd hc List.not_mem_nil) (not_nonempty_iff.2 h)
  host _ h := absurd h List.not_mem_nil
  request _ _ h := absurd h List.not_mem_nil

theorem Course.sendsOnce {q : Ready lookup p o s} {calls : List Call} (h : Course q calls) :
    SendsOnce lookup p o s calls where
  connects := by cases h <;> exact Nat.le_refl 1
  adds := by
    cases h with
    | unreached => exact Nat.zero_le 1
    | refused => exact Nat.le_refl 1
    | answered => exact Nat.le_refl 1
  ready := by
    refine iff_of_true ⟨.connect q.host, ?_, .inl rfl⟩ ⟨q⟩
    cases h <;> exact List.mem_cons_self
  host host hmem := by
    have heq : host = q.host := by
      cases h <;> simpa using hmem
    exact heq ▸ q.isHost
  request host request hmem := by
    have heq : request = Upload.request o q.required q.files := by
      cases h with
      | unreached => simp at hmem
      | refused => exact (show _ ∧ _ by simpa using hmem).2
      | answered => exact (show _ ∧ _ by simpa using hmem).2
    exact ⟨q.entry, q.looked, q.found, heq ▸ q.carries⟩

theorem Mirrors.parted {r : AddResult} {added : List AddedEntry} (h : Mirrors r added) :
    Parted r where
  isRoot _ he := by rw [h.isRoot_eq he, beq_iff_eq]
  childEntries e he := by
    rw [h.childEntries_eq, List.mem_filter, Bool.not_eq_true'] at he
    exact he.2
  roots_append_childEntries := h.roots_append_childEntries
  totalSize_add := h.totalSize_add

end Runs

end Upload

end PinKeeper
