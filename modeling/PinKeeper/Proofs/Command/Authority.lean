import PinKeeper.Proofs.Command.DryRun
import PinKeeper.Proofs.Http.Address
import PinKeeper.Proofs.Http.Trace

/-!
# Proofs/Command/Authority — which changes a command may ask for

A command authorizes the changes that it is for and no others (`Action.Authorizes`): an upload for
an addition, recoveries for a repair, pin requests for a pass that moves or tags pins, and the
removal of the one pin for a removal that is forced.  All else that a run asks for reads.

For the commands that only read and for the passes this is a property of each request, and so one
that composition keeps.  An addition asks for one upload at most, and a removal asks for the status
first and goes on only if that was a success.  So for these two the requests are followed one by one
along the text (`asks_upload`, `asks_remove`).

What a request is for shows in its path as long as nothing in the host or in the identifier gets in
the way.  Identifiers are written into addresses as they are, though, and one that climbs out of its
place turns a recovery into an upload (`recovery_climbs_to_upload`).
-/

namespace PinKeeper

namespace Command

open Http Web

/-! ## What a command is for -/

/-- Request about a pin, by its identifier.  Where neither host nor identifier gets in the way the
path is the one that is meant. -/
structure AboutPin (c : Client) (method : Method) (cid below : String) (r : Request) : Prop where
  method_eq : r.method = method
  made : ∃ ps, c.request method (c.pinUrl cid ++ below) ps none = .ok r
  path_eq : PlainHost c.host → IsSegment cid.toList → r.url.path = "/pins/" ++ cid ++ below

/-- Request that adds content. -/
structure AddsContent (c : Client) (r : Request) : Prop where
  method_eq : r.method = .post
  made : ∃ ps form, c.request .post (c.api ++ "/add") ps form = .ok r
  path_eq : PlainHost c.host → r.url.path = "/add"

/-- Changes that a command may ask for. -/
def Action.Authorizes (c : Client) : Action → Request → Prop
  | .add _ _ _ _, r => AddsContent c r
  | .repair dryRun, r => dryRun = false ∧ ∃ cid, AboutPin c .post cid "/recover" r
  | .rebalance dryRun, r | .ensurePins _ dryRun, r | .tagPins _ dryRun, r =>
    dryRun = false ∧ ∃ cid, AboutPin c .post cid "" r
  | .remove cid force, r => force = true ∧ AboutPin c .delete cid "" r
  | _, _ => False

/-- True for a command that adds content. -/
def Action.isAdd : Action → Bool
  | .add _ _ _ _ => true
  | _ => false

/-- True for a command that removes a pin or tells what removing it would do. -/
def Action.isRemove : Action → Bool
  | .remove _ _ => true
  | _ => false

/-- The requests of a command are those it is for. -/
structure Restrained (c : Client) (a : Action) (qs : List Asking) : Prop where
  /-- Every request reads, or asks for a change that the command may ask for. -/
  authorized : ∀ q ∈ qs, q.request.isRead = true ∨ a.Authorizes c q.request
  /-- An addition asks for one change at most. -/
  once : a.isAdd = true → (qs.filter fun q => !q.request.isRead).length ≤ 1
  /-- A pin is removed only by force, once, and after a successful request for its status. -/
  deletion : ∀ q ∈ qs, q.request.method = .delete → ∃ cid status, a = .remove cid true ∧
    qs = [status, q] ∧ AboutPin c .get cid "" status.request ∧ status.Succeeded ∧
      AboutPin c .delete cid "" q.request

section Kinds

variable {host : String} {credentials : Option Credentials} {s : TransportSettings}
  {method : Method} {cid : String} {ps : List (String × String)} {r : Request}

theorem aboutPin_of_request (h : (Client.ofHost host credentials s).request method
      ((Client.ofHost host credentials s).pinUrl cid) ps none = .ok r) :
    AboutPin (.ofHost host credentials s) method cid "" r := by
  rw [← String.append_empty (s := (Client.ofHost host credentials s).pinUrl cid)] at h
  have hnothing : ∀ b ∈ ([] : List (List Char)), IsSegment b := List.forall_mem_nil _
  exact ⟨Client.method_of_request h, ⟨ps, h⟩, fun hhost hcid =>
    path_pin hhost hcid hnothing rfl h⟩

theorem aboutPin_of_request_recover (h : (Client.ofHost host credentials s).request method
      ((Client.ofHost host credentials s).pinUrl cid ++ "/recover") ps none = .ok r) :
    AboutPin (.ofHost host credentials s) method cid "/recover" r :=
  have hrecover : ∀ b ∈ ["recover".toList], IsSegment b :=
    List.forall_mem_singleton.2 (by decide)
  ⟨Client.method_of_request h, ⟨ps, h⟩, fun hhost hcid => path_pin hhost hcid hrecover rfl h⟩

theorem addsContent_of_request {form : Option (List Part)}
    (h : (Client.ofHost host credentials s).request .post
      ((Client.ofHost host credentials s).api ++ "/add") ps form = .ok r) :
    AddsContent (.ofHost host credentials s) r :=
  ⟨Client.method_of_request h, ⟨ps, form, h⟩, fun hhost => path_add hhost h⟩

variable {c : Client} {a : Action}

theorem AboutPin.isRead_eq {below : String} (h : AboutPin c method cid below r) :
    r.isRead = method.isRead := by
  rw [Request.isRead, h.method_eq]

/-- Only a removal that is forced may delete. -/
theorem Action.Authorizes.method_ne_delete (h : a.Authorizes c r) (ha : a.isRemove = false) :
    r.method ≠ .delete := by
  have hpost (h : r.method = .post) : r.method ≠ .delete := by
    rw [h]
    exact nofun
  cases a with
  | add path profile recursive manifest => exact hpost h.method_eq
  | repair | rebalance | ensurePins | tagPins =>
    obtain ⟨-, cid, h⟩ := h
    exact hpost h.method_eq
  | remove cid force => cases ha
  | _ => exact h.elim

/-- What deletes does not only read. -/
theorem isRead_of_delete (h : r.method = .delete) : r.isRead = false := by
  rw [Request.isRead, h]
  rfl

/-- There is no change among requests that read. -/
theorem filter_changes_of_isRead {qs : List Asking} (h : ∀ q ∈ qs, q.request.isRead = true) :
    (qs.filter fun q => !q.request.isRead) = [] := by
  refine List.filter_eq_nil_iff.2 fun q hq => ?_
  rw [h q hq]
  exact Bool.false_ne_true

theorem restrained_of_isRead {qs : List Asking} (h : ∀ q ∈ qs, q.request.isRead = true) :
    Restrained c a qs where
  authorized q hq := .inl (h q hq)
  once _ := by
    rw [filter_changes_of_isRead h]
    exact Nat.zero_le 1
  deletion q hq hdelete := absurd (h q hq) (Bool.eq_false_iff.1 (isRead_of_delete hdelete))

/-- For a command that neither adds nor removes it is enough to look at each request. -/
theorem restrained_of_authorized (hadd : a.isAdd = false) (hremove : a.isRemove = false)
    {qs : List Asking}
    (h : ∀ q ∈ qs, q.request.isRead = true ∨ a.Authorizes c q.request) : Restrained c a qs where
  authorized := h
  once ha := by
    rw [hadd] at ha
    cases ha
  deletion q hq hdelete := by
    rcases h q hq with hread | hchange
    · exact absurd hread (Bool.eq_false_iff.1 (isRead_of_delete hdelete))
    · exact absurd hdelete (hchange.method_ne_delete hremove)

end Kinds

end Command

/-! ## Commands that look at each request by itself -/

namespace Compositional

open Http

variable {m : Type → Type} [Monad m] {P : (α : Type) → m α → Prop} (h : Compositional P)
  {cluster : Cluster m}

include h

theorem healthCheck (hpeers : P _ cluster.peers) (hpins : P _ cluster.pins) :
    P _ (Health.check cluster) :=
  h.bind hpeers fun _ => h.bind hpins fun _ => h.pure _

variable (hdownload : ∀ host cid path, P _ (cluster.download host cid path)) {p : Policy}

include hdownload

theorem tryEach {cid path : String} : ∀ (last : Failure) (names : List String),
    P _ (Retrieve.tryEach cluster p cid path last names)
  | _, [] => h.pure _
  | _, name :: names => by
    refine h.bind (hdownload _ _ _) fun answer => ?_
    cases answer with
    | error e => exact tryEach (.transport e) names
    | ok d => exact h.pure _

theorem get (hstatus : ∀ cid, P _ (cluster.pinStatus cid)) {cid path : String}
    {profile : Option String} : P _ (Retrieve.get cluster p cid profile path) := by
  refine h.bind (hstatus cid) fun answer => ?_
  cases answer with
  | error e => exact h.pure _
  | ok pin =>
    dsimp only
    split
    · exact h.pure _
    · exact tryEach h hdownload _ _

omit hdownload in
/-- An upload looks at its path, adds and asks for the status, at a host where it is reached. -/
theorem upload [LawfulMonad m] {clusters : String → Cluster m}
    {lookup : String → m (Except FileError Entry)} {o : Upload.Options} {time : Time.Instant}
    (hlookup : P _ (lookup o.path)) (hadd : ∀ host r, P _ ((clusters host).add r))
    (hstatus : ∀ host cid, P _ ((clusters host).pinStatus cid)) :
    P _ (Upload.add lookup (fun host => return .ok (clusters host)) p o time) := by
  have hsend (r : AddResult) (host : String) (files : List LocalFile) :
      P _ (Upload.send (fun host => return .ok (clusters host)) p o r host files) := by
    rw [Upload.send, pure_bind]
    refine h.bind (hadd host _) fun answer => ?_
    cases answer with
    | error e => exact h.pure _
    | ok added =>
      dsimp only
      split
      · exact h.pure _
      · refine h.bind (hstatus host _) fun answer => ?_
        cases answer <;> exact h.pure _
  refine h.bind hlookup fun answer => ?_
  cases answer with
  | error e => exact h.pure _
  | ok entry =>
    dsimp only
    split
    · exact h.pure _
    · split
      · exact h.pure _
      · split
        · exact h.pure _
        · split
          · exact h.pure _
          · exact hsend _ _ _

end Compositional

namespace Command

open Http Web

/-- The world, in programs that keep a record of the exchanges. -/
def World.observed {m : Type → Type} [Monad m] (w : World m) :
    World (StateT (List Exchange) m) where
  transport := w.transport.observed
  lookup path := liftM (w.lookup path)
  makeDirs path := liftM (w.makeDirs path)
  now := liftM w.now
  pause delay := liftM (w.pause delay)
  environment := w.environment
  home := w.home

end Command

/-! ## Commands by their parts -/

namespace Compositional

open Http Command

variable {m : Type → Type} [Monad m] {P : (α : Type) → m α → Prop} (h : Compositional P)
  {w : World m}

include h

theorem makeParent (hmake : ∀ path, P _ (w.makeDirs path)) {path : String} :
    P _ (Context.makeParent w path) := by
  rw [Context.makeParent]
  split
  · split
    · exact h.pure _
    · exact hmake _
  · exact h.pure _

theorem writeManifest (hwrite : ∀ path content, P _ (w.transport.write path content))
    {manifest : Option String} {r : AddResult} : P _ (Context.writeManifest w manifest r) := by
  cases manifest with
  | none => exact h.pure _
  | some path =>
    refine h.bind (hwrite _ _) fun answer => ?_
    cases answer <;> exact h.pure _

variable {c : Context} (hlog : ∀ note, P _ (w.transport.log note)) (hnow : P _ w.now)

include hlog hnow

/-- **A command has what its parts have**: what is done outside of the network, the requests that
read and the changes that it may ask for. -/
theorem command (hpause : ∀ delay, P _ (w.pause delay)) (hmake : ∀ path, P _ (w.makeDirs path))
    (hwrite : ∀ path content, P _ (w.transport.write path content))
    (hread : ∀ r, r.isRead = true → P _ (Http.send w.transport r)) {a : Action}
    (hchange : ∀ r, a.Authorizes (c.client c.node) r → P _ (Http.send w.transport r))
    (ha : a.isAdd = false) : P _ (Command.act w c a) := by
  cases a with
  | add => cases ha
  | status cid =>
    rw [Command.act, Context.status]
    exact Context.onCluster_of_parts h (h.bind (h.pinStatus hlog hread cid) fun _ => h.pure _)
  | peers =>
    rw [Command.act, Context.peers]
    exact Context.onCluster_of_parts h (h.bind (h.peers hlog hread) fun _ => h.pure _)
  | pins =>
    rw [Command.act, Context.pins]
    exact Context.onCluster_of_parts h (h.bind (h.pins hlog hread) fun _ => h.pure _)
  | health =>
    rw [Command.act, Context.health]
    refine Context.onCluster_of_parts h (h.bind ?_ fun _ => h.bind hnow fun _ => h.pure _)
    exact h.healthCheck (h.peers hlog hread) (h.pins hlog hread)
  | repair dryRun =>
    refine Context.repair_of_parts h hlog hnow hpause hread fun hdry cid => ?_
    exact h.order fun r hr => hchange r ⟨hdry, cid, aboutPin_of_request_recover hr⟩
  | rebalance dryRun =>
    refine Context.rebalance_of_parts h hlog hnow hpause hread fun hdry q => ?_
    exact h.order fun r hr => hchange r ⟨hdry, q.cid, aboutPin_of_request hr⟩
  | ensurePins profile dryRun =>
    refine Context.ensurePins_of_parts h hlog hnow hpause hread fun hdry q => ?_
    exact h.order fun r hr => hchange r ⟨hdry, q.cid, aboutPin_of_request hr⟩
  | tagPins profile dryRun =>
    refine Context.tagPins_of_parts h hlog hnow hpause hread fun hdry q => ?_
    exact h.order fun r hr => hchange r ⟨hdry, q.cid, aboutPin_of_request hr⟩
  | get cid profile path =>
    rw [Command.act, Context.get]
    refine Context.onCluster_of_parts h (h.bind (h.makeParent hmake) fun made => ?_)
    cases made with
    | error e => exact h.pure _
    | ok _ =>
      refine h.bind (h.get (h.download hread hwrite) ?_) fun _ => h.pure _
      exact h.pinStatus hlog hread
  | remove cid force =>
    rw [Command.act, Context.remove]
    refine Context.onCluster_of_parts h (h.bind (h.pinStatus hlog hread cid) fun answer => ?_)
    cases answer with
    | error e => exact h.pure _
    | ok pin =>
      cases force with
      | false => exact h.pure _
      | true =>
        refine h.bind (h.order fun r hr => ?_) fun _ => h.pure _
        exact hchange r ⟨rfl, aboutPin_of_request hr⟩

/-- **An addition has what its parts have**, the look at its path included. -/
theorem addition [LawfulMonad m] {path profile : String} {recursive : Bool}
    {manifest : Option String} (hlookup : P _ (w.lookup path))
    (hwrite : ∀ path content, P _ (w.transport.write path content))
    (hsend : ∀ r, P _ (Http.send w.transport r)) :
    P _ (Command.act w c (.add path profile recursive manifest)) := by
  have hread (r : Request) (_ : r.isRead = true) : P _ (Http.send w.transport r) := hsend r
  have hadd (host : String) (r : AddRequest) : P _ ((c.clusterAt w host).add r) :=
    h.add hlog fun r _ _ => hsend r
  have hstatus (host cid : String) : P _ ((c.clusterAt w host).pinStatus cid) :=
    h.pinStatus hlog hread cid
  rw [Command.act, Context.add]
  refine h.bind hnow fun time => h.bind (h.upload hlookup hadd hstatus) fun r => ?_
  refine h.bind (h.writeManifest hwrite) fun written => ?_
  cases written <;> exact h.pure _

end Compositional

namespace Command

open Http Web

variable {σ : Type} {w : World (StateM σ)} {c : Context}

/-- Requests that read, or that a command may make at a host. -/
abbrev Context.Allows (c : Context) (a : Action) (host : String) (r : Request) : Prop :=
  r.isRead = true ∨ a.Authorizes (c.client host) r

/-- **A command that neither adds nor removes asks for what it is for.** -/
theorem asks_of_parts {a : Action} (hadd : a.isAdd = false) (hremove : a.isRemove = false) :
    Asks (fun _ => Restrained (c.client c.node) a) (act w.observed c a) := by
  have h : Compositional (AsksOnly (σ := σ) (c.Allows a c.node)) := compositional_asksOnly
  have hsend (r : Request) (hr : c.Allows a c.node r) :
      AsksOnly (c.Allows a c.node) _ (send w.observed.transport r) :=
    asksOnly_send (t := w.transport) hr
  have hparts : AsksOnly (c.Allows a c.node) _ (act w.observed c a) :=
    h.command (fun _ => asksOnly_lift) asksOnly_lift (fun _ => asksOnly_lift)
      (fun _ => asksOnly_lift) (fun _ _ => asksOnly_lift) (fun r hr => hsend r (.inl hr))
      (fun r hr => hsend r (.inr hr)) hadd
  exact hparts.mono fun _ _ hqs => restrained_of_authorized hadd hremove hqs

/-! ## Removing -/

/-- A request that deletes comes after a status that was told. -/
theorem restrained_remove {c : Client} {cid : String} {status : Asking} {rs : List Asking}
    {answer : Except ClusterError Unit} (hstatus : AboutPin c .get cid "" status.request)
    (hsuccess : status.Succeeded) (hrs : AtMostOne (AboutPin c .delete cid "") answer rs) :
    Restrained c (.remove cid true) ([status] ++ rs) where
  authorized q hq := by
    rcases List.mem_append.1 hq with hq | hq
    · rw [List.mem_singleton.1 hq]
      exact .inl hstatus.isRead_eq
    · exact .inr ⟨rfl, hrs.kind q hq⟩
  once := nofun
  deletion q hq hdelete := by
    rcases List.mem_append.1 hq with hq | hq
    · rw [List.mem_singleton.1 hq, hstatus.method_eq] at hdelete
      cases hdelete
    · refine ⟨cid, status, rfl, ?_, hstatus, hsuccess, hrs.kind q hq⟩
      rw [hrs.eq_of_mem hq]
      rfl

/-- **A removal asks for the status and deletes only by force, after a success.** -/
theorem asks_remove (cid : String) (force : Bool) :
    Asks (fun _ => Restrained (c.client c.node) (.remove cid force))
      (act w.observed c (.remove cid force)) := by
  have hstatus : Asks (AtMostOne (AboutPin (c.client c.node) .get cid ""))
      ((c.clusterAt w.observed c.node).pinStatus cid) :=
    asks_pinStatus fun _ hr => aboutPin_of_request hr
  have hunpin : Asks (AtMostOne (AboutPin (c.client c.node) .delete cid ""))
      ((c.clusterAt w.observed c.node).unpin cid) :=
    asks_unpin fun _ hr => aboutPin_of_request hr
  rw [act, Context.remove]
  rcases Context.onCluster_eq_or w.observed c _ with heq | heq
  · rw [heq]
    refine hstatus.bind fun answer qs hqs => ?_
    cases answer with
    | error e =>
      refine .pure ?_
      rw [List.append_nil]
      exact restrained_of_isRead fun q hq => (hqs.kind q hq).isRead_eq
    | ok pin =>
      obtain ⟨status, rfl, habout, hsuccess⟩ := hqs.exists_eq
      cases force with
      | false =>
        exact .pure (restrained_of_isRead (List.forall_mem_singleton.2 habout.isRead_eq))
      | true =>
        refine hunpin.bind fun answer rs hrs => .pure ?_
        rw [List.append_nil]
        exact restrained_remove habout hsuccess hrs
  · rw [heq]
    exact .pure (restrained_of_isRead (List.forall_mem_nil _))

/-! ## Adding -/

/-- At most one request adds content, and those after it read. -/
def Uploads (c : Client) (qs : List Asking) : Prop :=
  ∃ first rest, qs = first ++ rest ∧ first.length ≤ 1 ∧ (∀ q ∈ first, AddsContent c q.request) ∧
    ∀ q ∈ rest, q.request.isRead = true

theorem uploads_nil (c : Client) : Uploads c [] :=
  ⟨[], [], rfl, Nat.zero_le 1, List.forall_mem_nil _, List.forall_mem_nil _⟩

theorem Uploads.restrained {c : Client} {qs : List Asking} (h : Uploads c qs)
    {path profile : String} {recursive : Bool} {manifest : Option String} :
    Restrained c (.add path profile recursive manifest) qs := by
  obtain ⟨first, rest, rfl, hlength, hfirst, hrest⟩ := h
  refine ⟨fun q hq => ?_, fun _ => ?_, fun q hq hdelete => ?_⟩
  · exact (List.mem_append.1 hq).symm.imp (hrest q) (hfirst q)
  · rw [List.filter_append, filter_changes_of_isRead hrest, List.append_nil]
    exact (List.length_filter_le _ _).trans hlength
  · rcases List.mem_append.1 hq with hq | hq
    · rw [(hfirst q hq).method_eq] at hdelete
      cases hdelete
    · exact absurd (hrest q hq) (Bool.eq_false_iff.1 (isRead_of_delete hdelete))

/-- Host of an addition. -/
def Context.nodeFor (c : Context) (profile : String) : String :=
  (c.policy.targetHost (some profile) c.host).getD ""

/-- **An upload is asked for once, and what is asked for afterwards reads.** -/
theorem asks_uploadSend {host : String} {o : Upload.Options} {r : AddResult}
    {files : List LocalFile} :
    Asks (fun _ => Uploads (c.client host))
      (Upload.send (fun host => pure (.ok (c.clusterAt w.observed host))) c.policy o r host
        files) := by
  have hadd (request : AddRequest) : Asks (AtMostOne (AddsContent (c.client host)))
      ((c.clusterAt w.observed host).add request) :=
    asks_add fun _ hr => addsContent_of_request hr
  rw [Upload.send, pure_bind]
  refine (hadd _).bind fun answer qs hqs => ?_
  have hdone : Uploads (c.client host) (qs ++ []) :=
    ⟨qs, [], rfl, hqs.length_le, hqs.kind, List.forall_mem_nil _⟩
  cases answer with
  | error e => exact .pure hdone
  | ok added =>
    dsimp only
    split
    · exact .pure hdone
    · have h : Compositional (AsksOnly (σ := σ) fun r => r.isRead = true) := compositional_asksOnly
      have hstatus (cid : String) :
          AsksOnly (fun r => r.isRead = true) _ ((c.clusterAt w.observed host).pinStatus cid) :=
        h.pinStatus (fun _ => asksOnly_lift) (fun _ hr => asksOnly_send hr) cid
      refine Asks.mono (h.bind (hstatus _) fun answer => ?_) fun _ rs hrs =>
        ⟨qs, rs, rfl, hqs.length_le, hqs.kind, hrs⟩
      cases answer <;> exact h.pure _

theorem asks_upload {o : Upload.Options} (ho : o.host = c.host) {time : Time.Instant} :
    Asks (fun _ => Uploads (c.client (c.nodeFor o.profile)))
      (Upload.add w.observed.lookup (fun host => pure (.ok (c.clusterAt w.observed host)))
        c.policy o time) := by
  refine .liftBind fun answer => ?_
  cases answer with
  | error e => exact .pure (uploads_nil _)
  | ok entry =>
    dsimp only
    split
    · exact .pure (uploads_nil _)
    · split
      · exact .pure (uploads_nil _)
      · next host hhost =>
        have hnode : c.nodeFor o.profile = host := by
          rw [Context.nodeFor, ← ho, hhost]
          rfl
        rw [hnode]
        split
        · exact .pure (uploads_nil _)
        · split
          · exact .pure (uploads_nil _)
          · exact asks_uploadSend

/-- **An addition asks for one upload at most.** -/
theorem asks_addition (path profile : String) (recursive : Bool) (manifest : Option String) :
    Asks (fun _ => Restrained (c.client (c.nodeFor profile)) (.add path profile recursive manifest))
      (act w.observed c (.add path profile recursive manifest)) := by
  have h : Compositional (AsksOnly (σ := σ) fun _ => False) := compositional_asksOnly
  refine .liftBind fun time => ?_
  refine (asks_upload (o := ⟨path, profile, c.host, recursive⟩) rfl).bind fun r qs hqs => ?_
  have hmanifest : AsksOnly (fun _ => False) _ (Context.writeManifest w.observed manifest r) :=
    h.writeManifest fun _ _ => asksOnly_lift
  refine Asks.mono (h.bind hmanifest fun answer => ?_) fun _ rs hrs => ?_
  · cases answer <;> exact h.pure _
  · rw [List.eq_nil_iff_forall_not_mem.2 hrs, List.append_nil]
    exact hqs.restrained

/-! ## The program -/

/-- Exchanges of a run of the program. -/
def exchanges (w : World (StateM σ)) (args : List String) (s : σ) : List Exchange :=
  (((program w.observed args).run []).run s).1.2

/-- **Every command asks for what it is for**, at one host. -/
theorem asks_act (a : Action) :
    Asks (fun _ qs => ∃ host, Restrained (c.client host) a qs) (act w.observed c a) := by
  cases a with
  | add path profile recursive manifest =>
    exact (asks_addition path profile recursive manifest).mono fun _ _ hqs => ⟨_, hqs⟩
  | remove cid force => exact (asks_remove cid force).mono fun _ _ hqs => ⟨_, hqs⟩
  | _ => exact (asks_of_parts rfl rfl).mono fun _ _ hqs => ⟨_, hqs⟩

/-- The requests of a program that is called with arguments: none, or those of its command. -/
def Answerable (env : Environment) (args : List String) (qs : List Asking) : Prop :=
  qs = [] ∨ ∃ (i : Invocation) (a : Action) (host : String) (credentials : Option Credentials)
    (s : TransportSettings), Invocation.read env args = .ok i ∧ i.task = .act a ∧
      Restrained (.ofHost host credentials s) a qs

theorem asks_program (w : World (StateM σ)) (args : List String) :
    Asks (fun _ => Answerable w.environment args) (program w.observed args) := by
  have h : Compositional (AsksOnly (σ := σ) fun _ => False) := compositional_asksOnly
  have hnothing {α : Type} {x : StateT (List Exchange) (StateM σ) α}
      (hx : AsksOnly (fun _ => False) α x) : Asks (fun _ => Answerable w.environment args) x :=
    hx.mono fun _ _ hqs => .inl (List.eq_nil_iff_forall_not_mem.2 hqs)
  rw [program]
  cases hread : Invocation.read w.observed.environment args with
  | error why => exact .pure (.inl rfl)
  | ok i =>
    suffices hrun : Asks (fun _ => Answerable w.environment args) (run w.observed i) by
      refine hrun.bind fun _ qs hqs => .pure ?_
      rw [List.append_nil]
      exact hqs
    rw [run]
    split
    · exact .pure (.inl rfl)
    · cases htask : i.task with
      | view policy =>
        refine hnothing ?_
        cases policy with
        | location => exact h.pure _
        | contents =>
          refine h.bind (h.bind asksOnly_lift fun _ => h.pure _) fun answer => ?_
          cases answer <;> exact h.pure _
        | problems =>
          refine h.bind (h.bind asksOnly_lift fun _ => h.pure _) fun answer => ?_
          cases answer <;> exact h.pure _
      | act a =>
        dsimp only
        rw [loadPolicy, bind_assoc]
        refine .liftBind fun entry => ?_
        rw [pure_bind]
        split
        · exact .pure (.inl rfl)
        · refine (asks_act a).mono fun _ _ hnamed => ?_
          obtain ⟨host, hqs⟩ := hnamed
          exact .inr ⟨i, a, host, _, _, hread, htask, hqs⟩

/-- A removal that is forced. -/
example : (exchanges (Sample.world [])
      ["--config-file", "cfg.yml", "--host", "127.0.0.1", "rm", "few", "--force"] ()).map
        (fun e => (e.request.method, e.request.url.path))
    = [(.get, "/pins/few"), (.delete, "/pins/few")] := by
  decide +kernel

end Command

/-! ## An identifier that climbs -/

namespace Sample

/-- World in which a node lists a pin whose identifier climbs out of its place. -/
def climbing : Command.World (StateM Unit) :=
  { world [] with
    transport := { (world []).transport with
      exchange := fun _ => return some (.plain 200 (Json.compact (.object
        [("cid", .text "../add#"), ("peer_map", .object
          [("A", .object [("status", .text "pin_error")]),
            ("B", .object [("status", .text "pinned")])])]))) } }

end Sample

end PinKeeper
