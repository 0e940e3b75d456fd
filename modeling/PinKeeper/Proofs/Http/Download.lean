import PinKeeper.Http.Script
import PinKeeper.Proofs.Answers
import PinKeeper.Proofs.Files.Path
import PinKeeper.Proofs.Http.Call
import PinKeeper.Proofs.Maintenance.Rebalance
import PinKeeper.Retrieve

/-!
# Proofs/Http/Download — what a fetch leaves at the destination

A transport may keep its files on a disk (`OnDisk`): then an exchange and a note leave the disk as
it is, and a write is refused, or breaks off, or writes all.  What a program asks for and what it
makes of the disk are followed together (`Does`), as programs are composed.  A download writes when
both of its requests have been answered, and not before (`does_download`); so after one that failed
the next source finds the disk as it was, but for what a write has left that broke off (`Abandons`),
and the one that serves writes all (`does_tryEach`).  What a fetch that is served leaves at the path
is the content, and nothing of before; one that fails leaves all as it was, or the beginning of a
content where a write broke off (`get_all_or_nothing`).

A body that breaks off is another exception: what came of it is on the disk (`Broken`).
-/

namespace PinKeeper

namespace Http

variable {σ α β : Type}

/-! ## Programs over a disk -/

/-- A transport that keeps its files on a disk. -/
structure OnDisk (t : Transport (StateM σ)) (disk : σ → Disk) : Prop where
  exchange : ∀ r s, disk ((t.exchange r).run s).2 = disk s
  log : ∀ note s, disk ((t.log note).run s).2 = disk s
  write : ∀ path content s, (disk s).Writes path content ((t.write path content).run s).1
    (disk ((t.write path content).run s).2)

/-- A write that broke off: it failed, but has left the first bytes of what was to be written. -/
structure BrokeOff (t : Transport (StateM σ)) (disk : σ → Disk) (path : String) (content : Content)
    (n : Nat) (before after : Disk) : Prop where
  failed : ∃ s s' e, disk s = before ∧ (t.write path content).run s = (.error e, s') ∧
    disk s' = after
  left : before.write path (content.take n) = .ok after

namespace Session

theorem run_get (s : Session) : (get : StateM Session Session).run s = (s, s) := rfl

theorem run_writeUntil (stop : Option Disk.Break) (path : String) (content : Content)
    (s : Session) : (Session.writeUntil stop path content).run s
      = ((s.disk.writeUntil stop path content).1,
        { s with disk := (s.disk.writeUntil stop path content).2 }) := by
  rw [Session.writeUntil, run_bind_of_run (run_get s)]
  rfl

/-- **The files of a scripted session are on its disk**, wherever its writes break off. -/
theorem onDisk (stop : Option Disk.Break) : OnDisk (transportUntil stop) Session.disk where
  exchange r s := by
    change ((Session.exchange r).run s).2.disk = s.disk
    rw [Session.exchange, run_bind_of_run (run_get s)]
    split <;> rfl
  log _ _ := rfl
  write path content s := by
    change s.disk.Writes path content ((Session.writeUntil stop path content).run s).1
      ((Session.writeUntil stop path content).run s).2.disk
    rw [run_writeUntil]
    exact s.disk.writes_writeUntil stop path content

end Session

section Disks

variable {disk : σ → Disk}

variable (disk) in
/-- Whatever is outside, a program leaves the disk as it is. -/
def Leaves (α : Type) (x : StateT (List Exchange) (StateM σ) α) : Prop :=
  ∀ (record : List Exchange) (s : σ), disk ((x.run record).run s).2 = disk s

theorem compositional_leaves : Compositional (Leaves disk) where
  pure _ _ _ := rfl
  bind hx hf record s := by
    rw [run_bind]
    exact (hf _ _ _).trans (hx record s)

variable (disk) in
/-- Whatever is outside, what a program asks for and what it makes of the disk are as `A` has it for
what the program gives. -/
def Does (A : α → List Asking → Disk → Disk → Prop) (x : StateT (List Exchange) (StateM σ) α) :
    Prop :=
  ∀ (record : List Exchange) (s : σ), ∃ qs es,
    ((x.run record).run s).1.2 = record ++ es ∧ TookAll qs es ∧
      A ((x.run record).run s).1.1 qs (disk s) (disk ((x.run record).run s).2)

namespace Does

variable {A B : α → List Asking → Disk → Disk → Prop} {C : β → List Asking → Disk → Disk → Prop}
  {x : StateT (List Exchange) (StateM σ) α} {f : α → StateT (List Exchange) (StateM σ) β}

theorem mono (hx : Does disk A x) (h : ∀ a qs d d', A a qs d d' → B a qs d d') :
    Does disk B x := by
  intro record s
  obtain ⟨qs, es, hrecord, htook, hqs⟩ := hx record s
  exact ⟨qs, es, hrecord, htook, h _ _ _ _ hqs⟩

theorem pure {a : α} (h : ∀ d, A a [] d d) :
    Does disk A (pure a : StateT (List Exchange) (StateM σ) α) := by
  intro record s
  rw [run_pure]
  exact ⟨[], [], (List.append_nil record).symm, .nil, h _⟩

/-- A program that leaves the disk does what it asks for. -/
theorem of_asks {Q : α → List Asking → Prop} (hx : Asks Q x) (hdisk : Leaves disk α x) :
    Does disk (fun a qs d d' => Q a qs ∧ d' = d) x := by
  intro record s
  obtain ⟨qs, es, hrecord, htook, hqs⟩ := hx record s
  exact ⟨qs, es, hrecord, htook, hqs, hdisk record s⟩

/-- What is done outside of the transport asks for nothing. -/
theorem lift {y : StateM σ α} (h : ∀ s, A (y.run s).1 [] (disk s) (disk (y.run s).2)) :
    Does disk A (liftM y : StateT (List Exchange) (StateM σ) α) := by
  intro record s
  rw [run_liftM]
  exact ⟨[], [], (List.append_nil record).symm, .nil, h s⟩

/-- What follows a program finds the disk as that has left it. -/
theorem bind (hx : Does disk A x)
    (hf : ∀ a qs d d', A a qs d d' →
      Does disk (fun b rs e e' => e = d' → C b (qs ++ rs) d e') (f a)) :
    Does disk C (x >>= f) := by
  intro record s
  obtain ⟨qs, es, hrecord, htook, hqs⟩ := hx record s
  obtain ⟨rs, fs, hrecord', htook', hrs⟩ :=
    hf _ _ _ _ hqs ((x.run record).run s).1.2 ((x.run record).run s).2
  rw [run_bind]
  refine ⟨qs ++ rs, es ++ fs, ?_, htook.append htook', hrs rfl⟩
  rw [hrecord', hrecord, List.append_assoc]

end Does

end Disks

/-! ## One download -/

section Downloads

variable {disk : σ → Disk} {t : Transport (StateM σ)} {c : Client}

/-- A header value of visible characters, blanks and tabs. -/
def Shown (v : String) : Prop := ∀ ch ∈ v.toList, ch = '\t' ∨ ' ' ≤ ch ∧ ch ≤ '~'

/-- **A page tells so in its content type.** -/
theorem isPage_iff {headers : List (String × String)} :
    isPage headers = true ↔ ∃ v, header? headers "Content-Type" = some v ∧ Shown v ∧
      "text/html".toList <+: v.toList := by
  rw [isPage, Option.any_eq_true]
  refine exists_congr fun v => and_congr_right fun _ => ?_
  rw [Bool.and_eq_true, Text.startsWith, List.isPrefixOf_iff_prefix, isShowable, List.all_eq_true]
  refine and_congr_left fun _ => forall₂_congr fun ch _ => ?_
  rw [Bool.or_eq_true, beq_iff_eq, Bool.and_eq_true, decide_eq_true_iff, decide_eq_true_iff]

/-- Content of a body that did not break off. -/
def Body.content? : Body → Option Content
  | .whole content => some content
  | .cut _ => none

theorem Body.content?_eq_some_iff {body : Body} {content : Content} :
    body.content? = some content ↔ body = .whole content := by
  cases body with
  | whole other => rw [content?, Option.some.injEq, whole.injEq]
  | cut other => exact ⟨fun h => absurd h.symm (Option.some_ne_none content), fun h => by cases h⟩

/-- The answer to a request came with a body that broke off. -/
def Broken (qs : List Asking) : Prop :=
  ∃ q ∈ qs, ∃ a content, q.answer = some a ∧ a.body = .cut content

/-- The answer that came has a body that came whole. -/
def Exchange.Whole (e : Exchange) : Prop := ∀ a ∈ e.answer?, a.body.content?.isSome = true

instance : DecidablePred Exchange.Whole := fun e =>
  inferInstanceAs (Decidable (∀ a ∈ e.answer?, a.body.content?.isSome = true))

/-- What a request came to is the answer of one of its exchanges. -/
theorem Took.exists_answer {r : Request} {a : Answer} {last : Option Answer} {es : List Exchange}
    (h : Took r last es) (hlast : last = some a) : ∃ e ∈ es, e.answer? = some a := by
  induction h with
  | own e => exact ⟨e, List.mem_singleton_self e, hlast⟩
  | sentOn _ _ _ ih =>
    obtain ⟨e, he, ha⟩ := ih hlast
    exact ⟨e, List.mem_cons_of_mem _ he, ha⟩

theorem TookAll.not_broken {qs : List Asking} {es : List Exchange} (h : TookAll qs es)
    (hwhole : ∀ e ∈ es, e.Whole) : ¬Broken qs := by
  induction h with
  | nil => exact fun ⟨_, hq, _⟩ => nomatch hq
  | cons htook _ ih =>
    obtain ⟨hfirst, hrest⟩ := List.forall_mem_append.1 hwhole
    rintro ⟨q, hq, a, content, ha, hbody⟩
    obtain rfl | hq := List.mem_cons.1 hq
    · obtain ⟨e, he, hanswer⟩ := htook.exists_answer ha
      have hisWhole := hfirst e he a hanswer
      rw [hbody] at hisWhole
      cases hisWhole
    · exact ih hrest ⟨q, hq, a, content, ha, hbody⟩

theorem Broken.append_right {qs : List Asking} (h : Broken qs) (rs : List Asking) :
    Broken (qs ++ rs) :=
  h.imp fun _ h => ⟨List.mem_append_left rs h.1, h.2⟩

theorem Broken.append_left {rs : List Asking} (h : Broken rs) (qs : List Asking) :
    Broken (qs ++ rs) :=
  h.imp fun _ h => ⟨List.mem_append_right qs h.1, h.2⟩

/-- A download that a host has served: the request for the headers, the request for the content, and
what is written. -/
structure Served (c : Client) (host cid path : String) (q q' : Asking) (d : Download)
    (content : Content) (before after : Disk) : Prop where
  head : c.request .head (Client.contentUrl (c.gatewayOf host) cid) [] none = .ok q.request
  get : c.request .get (Client.contentUrl (c.gatewayOf host) cid)
    (if d.isDirectory then [("format", "tar")] else []) none = .ok q'.request
  isDirectory : d.isDirectory = true ↔ ∃ a, q.success? = some a ∧
    ∃ v, header? a.headers "Content-Type" = some v ∧ Shown v ∧ "text/html".toList <+: v.toList
  answer : ∃ a, q'.success? = some a ∧ a.body = .whole content
  written : before.write path content = .ok after
  bytes : d.bytes = content.length
  path : d.path = path

/-- What downloads that failed make of the disk: they leave it as it was, but for writes that broke
off, each of what came for a request for the content. -/
inductive Abandons (t : Transport (StateM σ)) (disk : σ → Disk) (c : Client) (cid path : String)
    (qs : List Asking) : Disk → Disk → Prop
  | untouched {d : Disk} : Abandons t disk c cid path qs d d
  | begun {host : String} {ps : List (String × String)} {q : Asking} {a : Answer}
      {content : Content} {n : Nat} {before middle after : Disk}
      (h : Abandons t disk c cid path qs before middle) (hq : q ∈ qs)
      (hget : c.request .get (Client.contentUrl (c.gatewayOf host) cid) ps none = .ok q.request)
      (ha : q.success? = some a) (hbody : a.body = .whole content)
      (hbroke : BrokeOff t disk path content n middle after) :
      Abandons t disk c cid path qs before after

namespace Abandons

variable {cid path : String} {qs rs : List Asking} {before middle after : Disk}

theorem mono (h : Abandons t disk c cid path qs before after) (hqs : ∀ q ∈ qs, q ∈ rs) :
    Abandons t disk c cid path rs before after := by
  induction h with
  | untouched => exact .untouched
  | begun _ hq hget ha hbody hbroke ih => exact .begun ih (hqs _ hq) hget ha hbody hbroke

theorem trans (h : Abandons t disk c cid path qs before middle)
    (h' : Abandons t disk c cid path rs middle after) :
    Abandons t disk c cid path (qs ++ rs) before after := by
  induction h' with
  | untouched => exact h.mono fun _ => List.mem_append_left rs
  | begun _ hq hget ha hbody hbroke ih =>
    exact .begun (ih h) (List.mem_append_right qs hq) hget ha hbody hbroke

theorem entry_ne_device (h : Abandons t disk c cid path qs before after)
    (hdevice : before.entry path ≠ .ok .device) : after.entry path ≠ .ok .device := by
  induction h with
  | untouched => exact hdevice
  | begun _ _ _ _ _ hbroke ih => exact Disk.entry_write_ne_device hbroke.left (ih hdevice)

end Abandons

/-- How a download ends, what it asks for, and what it makes of the disk. -/
inductive Downloads (t : Transport (StateM σ)) (disk : σ → Disk) (c : Client)
    (host cid path : String) : Except ClusterError Download → List Asking → Disk → Disk → Prop
  | failed {e : ClusterError} {qs : List Asking} {before after : Disk}
      (h : Abandons t disk c cid path qs before after) :
      Downloads t disk c host cid path (.error e) qs before after
  | broken {e : ClusterError} {qs : List Asking} {before after : Disk} (h : Broken qs) :
      Downloads t disk c host cid path (.error e) qs before after
  | served {d : Download} {q q' : Asking} {content : Content} {before after : Disk}
      (h : Served c host cid path q q' d content before after) :
      Downloads t disk c host cid path (.ok d) [q, q'] before after

/-- What storing a body makes of the disk. -/
inductive Stores (t : Transport (StateM σ)) (disk : σ → Disk) (path : String)
    (isDirectory : Bool) : Body → Except ClusterError Download → Disk → Disk → Prop
  | refused {body : Body} {e : ClusterError} {d : Disk} :
      Stores t disk path isDirectory body (.error e) d d
  | brokeOff {content : Content} {e : ClusterError} {n : Nat} {before after : Disk}
      (h : BrokeOff t disk path content n before after) :
      Stores t disk path isDirectory (.whole content) (.error e) before after
  | whole {content : Content} {before after : Disk} (h : before.write path content = .ok after) :
      Stores t disk path isDirectory (.whole content)
        (.ok ⟨path, content.length, isDirectory⟩) before after
  | cut {content : Content} {e : ClusterError} {before after : Disk} :
      Stores t disk path isDirectory (.cut content) (.error e) before after

theorem does_write (ht : OnDisk t disk) (path : String) (content : Content) :
    Does disk (fun answer qs before after => qs = [] ∧
      ((∃ e, answer = .error e ∧
        (after = before ∨ ∃ n, BrokeOff t disk path content n before after)) ∨
        answer = .ok () ∧ before.write path content = .ok after))
      (t.observed.write path content) := by
  refine .lift fun s => ⟨rfl, ?_⟩
  have hwrites := ht.write path content s
  obtain ⟨answer, s', hrun⟩ : ∃ answer s', (t.write path content).run s = (answer, s') :=
    ⟨_, _, rfl⟩
  rw [hrun] at hwrites ⊢
  dsimp only at hwrites ⊢
  generalize hafter : disk s' = after at hwrites ⊢
  cases hwrites with
  | refused e => exact .inl ⟨e, rfl, .inl rfl⟩
  | brokeOff e h => exact .inl ⟨e, rfl, .inr ⟨_, ⟨s, s', e, rfl, hrun, hafter⟩, h⟩⟩
  | whole h => exact .inr ⟨rfl, h⟩

theorem does_store (ht : OnDisk t disk) (path : String) (isDirectory : Bool) (body : Body) :
    Does disk (fun answer qs before after => qs = [] ∧
      Stores t disk path isDirectory body answer before after)
      (Client.store t.observed path isDirectory body) := by
  unfold Client.store
  refine (does_write ht path _).bind ?_
  rintro answer qs before after ⟨rfl, ⟨e, rfl, hfailed⟩ | ⟨rfl, hwritten⟩⟩
  · refine .pure fun d hd => ⟨rfl, ?_⟩
    subst hd
    cases body with
    | whole content =>
      obtain rfl | ⟨n, hbroke⟩ := hfailed
      · exact .refused
      · exact .brokeOff hbroke
    | cut content => exact .cut
  · cases body with
    | whole content => exact .pure fun d hd => ⟨rfl, hd ▸ .whole hwritten⟩
    | cut content => exact .pure fun d hd => ⟨rfl, .cut⟩

theorem leaves_send (ht : OnDisk t disk) (r : Request) (hr : r.isRead = true) :
    Leaves disk _ (send t.observed r) := by
  refine compositional_leaves.send_of_isRead (fun note _ _ => ht.log note _) ?_ r hr
  intro r _ record s
  rw [t.run_observed]
  exact ht.exchange r s

variable (c) in
/-- What is asked leaves the disk as it is. -/
theorem leaves_ask (ht : OnDisk t disk) {method : Method} (hmethod : method.isRead = true)
    (url : String) (ps : List (String × String)) :
    Leaves disk _ (c.ask t.observed method url ps) :=
  compositional_leaves.ask_of_isRead (leaves_send ht) hmethod url ps

theorem leaves_pinStatus (ht : OnDisk t disk) (cid : String) :
    Leaves disk _ ((c.cluster t.observed).pinStatus cid) :=
  compositional_leaves.pinStatus (fun note _ _ => ht.log note _) (leaves_send ht) cid

theorem does_ask (ht : OnDisk t disk) {method : Method} (hmethod : method.isRead = true)
    (url : String) (ps : List (String × String)) :
    Does disk (fun answer qs before after =>
      Answered (c.request method url ps none) some answer.toOption qs ∧ after = before)
      (c.ask t.observed method url ps) :=
  .of_asks answered_ask (leaves_ask c ht hmethod url ps)

/-- **A download writes once both of its requests are answered**, and only then. -/
theorem does_download (ht : OnDisk t disk) (host cid path : String) :
    Does disk (Downloads t disk c host cid path)
      ((c.cluster t.observed).download host cid path) := by
  change Does disk (Downloads t disk c host cid path) (c.download t.observed host cid path)
  rw [Client.download]
  refine (does_ask ht rfl _ _).bind ?_
  rintro answer qs before after ⟨hhead, rfl⟩
  cases answer with
  | error e => exact .pure fun d hd => hd ▸ .failed .untouched
  | ok a =>
    obtain ⟨q, rfl, hq, ha⟩ := hhead.exists_of_some
    rw [Option.bind_fun_some] at ha
    refine (does_ask ht rfl _ _).bind ?_
    rintro answer rs d d' ⟨hget, rfl⟩
    cases answer with
    | error e => exact .pure fun d hd hd' => hd' ▸ hd ▸ .failed .untouched
    | ok a' =>
      obtain ⟨q', rfl, hq', ha'⟩ := hget.exists_of_some
      rw [Option.bind_fun_some] at ha'
      refine (does_store ht path (isPage a.headers) a'.body).mono ?_
      rintro answer _ before after ⟨rfl, hstored⟩ rfl rfl
      rw [List.append_nil]
      have hmem : q' ∈ [q] ++ [q'] := List.mem_append_right [q] (List.mem_singleton_self q')
      generalize hbody : a'.body = body at hstored
      cases hstored with
      | refused => exact .failed .untouched
      | brokeOff hbroke => exact .failed (.begun .untouched hmem hq' ha' hbody hbroke)
      | cut => exact .broken ⟨q', hmem, a', _, (Asking.success?_eq_some_iff.1 ha').1, hbody⟩
      | whole hwritten =>
        refine .served (q := q) ⟨hq, hq', ?_, ⟨a', ha', hbody⟩, hwritten, rfl, rfl⟩
        refine isPage_iff.trans ⟨fun h => ⟨a, ha, h⟩, ?_⟩
        rintro ⟨b, hb, h⟩
        obtain rfl := Option.some.inj (ha.symm.trans hb)
        exact h

/-- What a write makes of a download. -/
def written (path : String) (isDirectory : Bool) (content : Content) :
    Except FileError Unit → Except ClusterError Download
  | .error e => .error (.io e.message)
  | .ok () => .ok ⟨path, content.length, isDirectory⟩

/-- **A download whose two requests are answered goes by the write.** -/
theorem run_download {host cid path : String} {content : Content}
    {record record' record'' : List Exchange} {s s' s'' s₃ : σ} {a a' : Answer}
    {answer : Except FileError Unit}
    (hhead : ((c.ask t.observed .head (Client.contentUrl (c.gatewayOf host) cid) []).run
      record).run s = ((.ok a, record'), s'))
    (hget : ((c.ask t.observed .get (Client.contentUrl (c.gatewayOf host) cid)
      (if isPage a.headers then [("format", "tar")] else [])).run record').run s'
        = ((.ok a', record''), s''))
    (hbody : a'.body = .whole content) (hwrite : (t.write path content).run s'' = (answer, s₃)) :
    (((c.cluster t.observed).download host cid path).run record).run s
      = ((written path (isPage a.headers) content answer, record''), s₃) := by
  have hwritten : ((t.observed.write path content).run record'').run s''
      = ((answer, record''), s₃) := run_run_liftM hwrite record''
  change ((c.download t.observed host cid path).run record).run s = _
  rw [Client.download, run_bind_of_run_run hhead]
  dsimp only
  rw [run_bind_of_run_run hget]
  dsimp only
  rw [hbody]
  unfold Client.store
  rw [run_bind_of_run_run hwritten]
  cases answer <;> rfl

end Downloads

/-! ## One source after the other -/

section Fetches

open Retrieve

variable {disk : σ → Disk} {t : Transport (StateM σ)} {c : Client} {p : Policy} {cid path : String}

/-- How a fetch from sources ends, what it asks for, and what it makes of the disk. -/
inductive Fetches (t : Transport (StateM σ)) (disk : σ → Disk) (c : Client) (p : Policy)
    (cid path : String) (names : List String) :
    Except Failure Download → List Asking → Disk → Disk → Prop
  | failed {e : Failure} {qs : List Asking} {before after : Disk}
      (h : Abandons t disk c cid path qs before after) :
      Fetches t disk c p cid path names (.error e) qs before after
  | broken {result : Except Failure Download} {qs : List Asking} {before after : Disk}
      (h : Broken qs) : Fetches t disk c p cid path names result qs before after
  | served {name : String} {d : Download} {qs earlier : List Asking} {q q' : Asking}
      {content : Content} {before middle after : Disk} (hqs : qs = earlier ++ [q, q'])
      (hname : name ∈ names) (hearlier : Abandons t disk c cid path earlier before middle)
      (h : Served c (p.hostFor name) cid path q q' d content middle after) :
      Fetches t disk c p cid path names (.ok d) qs before after

/-- A source that fails is followed by the others, which find the disk as that has left it. -/
theorem Fetches.cons {name : String} {names : List String} {result : Except Failure Download}
    {qs rs : List Asking} {before middle after : Disk}
    (hqs : Abandons t disk c cid path qs before middle)
    (h : Fetches t disk c p cid path names result rs middle after) :
    Fetches t disk c p cid path (name :: names) result (qs ++ rs) before after := by
  cases h with
  | failed h => exact .failed (hqs.trans h)
  | broken h => exact .broken (h.append_left qs)
  | served hrs hname hearlier h =>
    exact .served (by rw [hrs, List.append_assoc]) (List.mem_cons_of_mem name hname)
      (hqs.trans hearlier) h

/-- **Only the source that serves writes all.** -/
theorem does_tryEach (ht : OnDisk t disk) : ∀ (last : Failure) (names : List String),
    Does disk (Fetches t disk c p cid path names)
      (tryEach (c.cluster t.observed) p cid path last names)
  | last, [] => .pure fun _ => .failed .untouched
  | last, name :: names => by
    rw [tryEach]
    refine (does_download ht (p.hostFor name) cid path).bind ?_
    rintro answer qs before after h
    cases h with
    | failed hqs => exact (does_tryEach ht _ names).mono fun _ _ _ _ h hd => .cons hqs (hd ▸ h)
    | broken hqs =>
      exact (does_tryEach ht _ names).mono fun _ rs _ _ _ _ => .broken (hqs.append_right rs)
    | served h =>
      refine .pure ?_
      rintro d rfl
      exact .served (List.nil_append _).symm List.mem_cons_self .untouched h

variable (t) in
/-- What is read of the status of a pin. -/
def pinOf? (a : Answer) : Option Pin :=
  (t.text? a).bind fun body => (Json.parse? body).bind (Pin.ofJson? 0)

/-- A fetch asks for the status of the pin, and then goes to the sources by that status. -/
inductive Gets (t : Transport (StateM σ)) (disk : σ → Disk) (c : Client) (p : Policy) (cid : String)
    (profile : Option String) (path : String) :
    Except Failure Download → List Asking → Disk → Disk → Prop
  | unknown {e : Failure} {qs : List Asking} {d : Disk} :
      Gets t disk c p cid profile path (.error e) qs d d
  | tried {status : Asking} {pin : Pin} {names : List String} {result : Except Failure Download}
      {rs : List Asking} {before after : Disk}
      (hstatus : c.request .get (c.pinUrl cid) [] none = .ok status.request)
      (hpin : status.success?.bind (pinOf? t) = some pin)
      (hnames : sources p pin profile = .ok names)
      (h : Fetches t disk c p cid path names result rs before after) :
      Gets t disk c p cid profile path result (status :: rs) before after

theorem does_get (ht : OnDisk t disk) (profile : Option String) :
    Does disk (Gets t disk c p cid profile path)
      (get (c.cluster t.observed) p cid profile path) := by
  have hstatus : AnsweredBy (c.request .get (c.pinUrl cid) [] none) (pinOf? t)
      ((c.cluster t.observed).pinStatus cid) := by
    rw [Client.cluster_pinStatus]
    exact answered_askFor
  rw [Retrieve.get]
  refine (Does.of_asks hstatus (leaves_pinStatus ht cid)).bind ?_
  rintro answer qs before _ ⟨hstatus, rfl⟩
  cases answer with
  | error e => exact .pure fun d hd => hd ▸ .unknown
  | ok pin =>
    obtain ⟨status, rfl, hmade, hpin⟩ := hstatus.exists_of_some
    dsimp only
    cases hnames : sources p pin profile with
    | error e => exact .pure fun d hd => hd ▸ .unknown
    | ok names =>
      exact (does_tryEach ht _ names).mono fun _ _ _ _ h hd => hd ▸ .tried hmade hpin hnames h

/-- There is the beginning of a content at a path, of what came for a request for it, and a write of
it broke off there. -/
def LeftOver (t : Transport (StateM σ)) (disk : σ → Disk) (c : Client) (cid path : String)
    (record : List Exchange) (after : Disk) : Prop :=
  ∃ qs q host ps a content n before, TookAll qs record ∧ q ∈ qs ∧
    c.request .get (Client.contentUrl (c.gatewayOf host) cid) ps none = .ok q.request ∧
    q.success? = some a ∧ a.body = .whole content ∧
    BrokeOff t disk path content n before after ∧ after.read path = .ok (content.take n)

theorem Abandons.eq_or_leftOver {qs : List Asking} {record : List Exchange} {before after : Disk}
    (h : Abandons t disk c cid path qs before after) (htook : TookAll qs record)
    (hdevice : before.entry path ≠ .ok .device) :
    after = before ∨ LeftOver t disk c cid path record after := by
  cases h with
  | untouched => exact .inl rfl
  | begun h hq hget ha hbody hbroke =>
    exact .inr ⟨qs, _, _, _, _, _, _, _, htook, hq, hget, ha, hbody, hbroke,
      Disk.read_write hbroke.left (h.entry_ne_device hdevice)⟩

/-- **A fetch leaves the disk alone, or leaves the content there.**  Where every body comes whole, a
fetch that fails leaves every file as it was, unless a write broke off: then the path holds the
beginning of a content.  One that succeeds was served by a source of the pin with its last two
requests: the path then holds what came for the second of them and nothing else, and what is said of
it, its length and whether it is a directory, is so.  A path to a device holds nothing. -/
theorem get_all_or_nothing (ht : OnDisk t disk) {profile : Option String} {s s' : σ}
    {result : Except Failure Download} {record : List Exchange}
    (hrun : ((get (c.cluster t.observed) p cid profile path).run []).run s = ((result, record), s'))
    (hwhole : ∀ e ∈ record, e.Whole) (hdevice : (disk s).entry path ≠ .ok .device) :
    (∀ e, result = .error e → disk s' = disk s ∨ LeftOver t disk c cid path record (disk s')) ∧
    ∀ d, result = .ok d → ∃ status earlier q q' pin names name content before,
      TookAll (status :: (earlier ++ [q, q'])) record ∧
      c.request .get (c.pinUrl cid) [] none = .ok status.request ∧
      status.success?.bind (pinOf? t) = some pin ∧ sources p pin profile = .ok names ∧
      name ∈ names ∧ Abandons t disk c cid path earlier (disk s) before ∧
      Served c (p.hostFor name) cid path q q' d content before (disk s') ∧
      (disk s').read path = .ok content := by
  obtain ⟨qs, es, hrecord, htook, hgets⟩ := does_get ht profile [] s
  rw [hrun] at hrecord hgets
  obtain rfl : record = es := hrecord
  have hqs : ¬Broken qs := htook.not_broken hwhole
  dsimp only at hgets
  generalize disk s = before, disk s' = after at hgets hdevice ⊢
  cases hgets with
  | unknown => exact ⟨fun _ _ => .inl rfl, nofun⟩
  | @tried status _ _ _ rs _ _ hstatus hpin hnames h =>
    cases h with
    | failed h =>
      have hall : Abandons t disk c cid path (status :: rs) before after :=
        h.mono fun _ => List.mem_cons_of_mem status
      exact ⟨fun _ _ => hall.eq_or_leftOver htook hdevice, nofun⟩
    | broken h => exact absurd (h.append_left [_]) hqs
    | served hqs hname hearlier h =>
      subst hqs
      refine ⟨nofun, ?_⟩
      rintro d ⟨⟩
      exact ⟨_, _, _, _, _, _, _, _, _, htook, hstatus, hpin, hnames, hname, hearlier, h,
        Disk.read_write h.written (hearlier.entry_ne_device hdevice)⟩

end Fetches

/-! ## A gateway that serves content -/

namespace Sample

open Retrieve

/-- Pin that a node holds. -/
def held : Pin :=
  { (default : Pin) with cid := "few", peerMap := .ofList [("A", ⟨"", .pinned, none⟩)] }

/-- Client of a node that is the gateway too. -/
def client : Client :=
  .ofUrls "alpha" "http://127.0.0.1:9094" "http://127.0.0.1:9094" none settings

/-- Gateway that tells a content type and has a page, and an archive of it. -/
def gateway (contentType : String) : Session where
  host := "127.0.0.1"
  port := 9094
  routes :=
    [⟨none, some "/pins/few", none, none, some (.plain 200
        "\x7b\"cid\":\"few\",\"peer_map\":\x7b\"A\":\x7b\"status\":\"pinned\"\x7d\x7d\x7d")⟩,
      ⟨some "HEAD", none, none, none, some ⟨200, [("Content-Type", contentType)], .ofText ""⟩⟩,
      ⟨some "GET", none, some "format=tar", none, some (.plain 200 "archive")⟩,
      ⟨some "GET", none, none, none, some (.plain 200 "page")⟩]
  disk := ⟨.directory [("null", .device)], []⟩
  requests := []
  notes := []

/-- Run of a program, with its exchanges. -/
abbrev Ran (α : Type) : Type := (α × List Exchange) × Session

section Gateway

variable (stop : Option Disk.Break) (contentType : String)

/-- Fetch from the gateway. -/
def fetch (path : String) : Ran (Except Failure Download) :=
  ((get (client.cluster (Session.transportUntil stop).observed) PinKeeper.Sample.policy "few" none
    path).run []).run (gateway contentType)

/-- The first request of a fetch. -/
def status : Ran (Except ClusterError Pin) :=
  (((client.cluster (Session.transportUntil stop).observed).pinStatus "few").run []).run
    (gateway contentType)

/-- The second request, for the headers. -/
def head : Ran (Except ClusterError Answer) :=
  ((client.ask (Session.transportUntil stop).observed .head
    (Client.contentUrl (client.gatewayOf "alpha") "few") []).run (status stop contentType).1.2).run
    (status stop contentType).2

/-- The last request, for the content. -/
def body (isDirectory : Bool) : Ran (Except ClusterError Answer) :=
  ((client.ask (Session.transportUntil stop).observed .get
    (Client.contentUrl (client.gatewayOf "alpha") "few")
    (if isDirectory then [("format", "tar")] else [])).run (head stop contentType).1.2).run
    (head stop contentType).2

end Gateway

/-- A run that has a result, in its parts. -/
theorem ran_eq {ran : Ran (Except ClusterError α)} {a : α} (h : ran.1.1.toOption = some a) :
    ran = ((.ok a, ran.1.2), ran.2) := by
  refine Prod.ext (Prod.ext ?_ rfl) rfl
  cases hran : ran.1.1 with
  | error e =>
    rw [hran] at h
    cases h
  | ok b =>
    rw [hran] at h
    exact congrArg Except.ok (Option.some.inj h)

/-- The node that holds the pin is the one source. -/
theorem sources_held : sources PinKeeper.Sample.policy held none = .ok ["alpha"] := by
  have hpinned : pinnedNodes PinKeeper.Sample.policy held = ["alpha"] := by decide
  rw [sources]
  dsimp only
  rw [hpinned, List.mergeSort_singleton]
  rfl

/-- The three requests of a fetch are answered: the first with the pin, the second for a page or
not, and the third with a content; and all that came for them came whole. -/
def Replied (stop : Option Disk.Break) (contentType : String) (isDirectory : Bool)
    (content : Content) : Prop :=
  (status stop contentType).1.1.toOption = some held ∧
    ((head stop contentType).1.1.toOption.map fun a => isPage a.headers) = some isDirectory ∧
    ((body stop contentType isDirectory).1.1.toOption.bind fun a => a.body.content?)
      = some content ∧
    ∀ e ∈ (body stop contentType isDirectory).1.2, e.Whole

instance {stop : Option Disk.Break} {contentType : String} {isDirectory : Bool}
    {content : Content} : Decidable (Replied stop contentType isDirectory content) :=
  inferInstanceAs (Decidable (_ ∧ _ ∧ _ ∧ _))

/-- How a fetch from the gateway goes of which all three requests are answered. -/
structure Fetched (stop : Option Disk.Break) (contentType path : String) (isDirectory : Bool)
    (content : Content) : Prop where
  result : (fetch stop contentType path).1.1 =
    (written path isDirectory content
      ((gateway contentType).disk.writeUntil stop path content).1).mapError .transport
  record : (fetch stop contentType path).1.2 = (body stop contentType isDirectory).1.2
  whole : ∀ e ∈ (fetch stop contentType path).1.2, e.Whole
  disk : (fetch stop contentType path).2.disk
    = ((gateway contentType).disk.writeUntil stop path content).2

/-- Where the three requests are answered the fetch goes by the write. -/
theorem fetched {stop : Option Disk.Break} {contentType : String} {isDirectory : Bool}
    {content : Content} (h : Replied stop contentType isDirectory content) (path : String) :
    Fetched stop contentType path isDirectory content := by
  obtain ⟨hstatus, hhead, hbody, hbodies⟩ := h
  obtain ⟨a, ha, rfl⟩ := Option.map_eq_some_iff.1 hhead
  obtain ⟨a', ha', hwhole⟩ := Option.bind_eq_some_iff.1 hbody
  have ht := Session.onDisk stop
  -- The requests leave the disk, so that the write finds the one of the gateway.
  have hdisk : (body stop contentType (isPage a.headers)).2.disk = (gateway contentType).disk :=
    ((leaves_ask client ht rfl _ _ _ _).trans (leaves_ask client ht rfl _ _ _ _)).trans
      (leaves_pinStatus ht "few" [] (gateway contentType))
  have hwrite := Session.run_writeUntil stop path content
    (body stop contentType (isPage a.headers)).2
  rw [hdisk] at hwrite
  have hdownload :=
    run_download (ran_eq ha) (ran_eq ha') (Body.content?_eq_some_iff.1 hwhole) hwrite
  have hfetch : fetch stop contentType path =
      (((written path (isPage a.headers) content
        ((gateway contentType).disk.writeUntil stop path content).1).mapError .transport,
        (body stop contentType (isPage a.headers)).1.2),
        { (body stop contentType (isPage a.headers)).2 with
          disk := ((gateway contentType).disk.writeUntil stop path content).2 }) := by
    rw [fetch, Retrieve.get, run_bind_of_run_run (ran_eq hstatus)]
    dsimp only
    rw [sources_held]
    dsimp only
    rw [tryEach]
    refine (run_bind_of_run_run hdownload).trans ?_
    cases ((gateway contentType).disk.writeUntil stop path content).1 <;> rfl
  rw [← congrArg (fun run => run.1.2) hfetch] at hbodies
  refine ⟨?_, ?_, hbodies, ?_⟩ <;> rw [hfetch]

/-- A file system that is full after two bytes. -/
def full : Disk.Break := ⟨2, .other "No space left on device (os error 28)"⟩

/-- The gateway has an archive for one that takes the content for a page, and a file for others. -/
theorem replied :
    Replied none "text/html" true (.ofText "archive") ∧
      Replied none "text/html; t=ü" false (.ofText "page") ∧
      Replied none "text/plain" false (.ofText "page") ∧
      Replied (some full) "text/plain" false (.ofText "page") := by
  decide +kernel

/-- There is nothing at the path yet. -/
theorem entry_out (contentType : String) :
    (gateway contentType).disk.entry "out" = .error .notFound :=
  Disk.entry_free (by decide) rfl rfl

theorem entry_out_ne_device (contentType : String) :
    (gateway contentType).disk.entry "out" ≠ .ok .device := by
  rw [entry_out]
  exact nofun

theorem write_out (contentType : String) (content : Content) :
    (gateway contentType).disk.write "out" content
      = .ok ((gateway contentType).disk.put ["out"] (.file content Disk.defaultMode)) :=
  Disk.write_free (by decide) rfl rfl

/-- The path leads to the device. -/
theorem locate_null (contentType : String) :
    (gateway contentType).disk.locate "null" = .ok (.entry ["null"]) :=
  Disk.locate_of_isName (by decide) rfl rfl fun _ h => by cases h

theorem write_null (contentType : String) (content : Content) :
    (gateway contentType).disk.write "null" content = .ok (gateway contentType).disk := by
  have hslash : ¬("null".toList.getLast? == some '/') = true :=
    Disk.getLast?_of_isName (by decide)
  rw [Disk.write, Disk.withoutEndSlashes_eq_self hslash, locate_null]
  change (if ("null".toList.getLast? == some '/') = true then Except.error FileError.notDirectory
    else Except.ok (gateway contentType).disk) = _
  exact if_neg hslash

theorem Fetched.result_out {contentType : String} {isDirectory : Bool} {content : Content}
    (h : Fetched none contentType "out" isDirectory content) :
    (fetch none contentType "out").1.1 = .ok ⟨"out", content.length, isDirectory⟩ := by
  rw [h.result, Disk.writeUntil, write_out]
  rfl

theorem Fetched.result_full {contentType : String} {isDirectory : Bool} {content : Content}
    (h : Fetched (some full) contentType "out" isDirectory content) :
    (fetch (some full) contentType "out").1.1
      = .error (.transport (.io "No space left on device (os error 28)")) := by
  rw [h.result, Disk.writeUntil, write_out]
  rfl

end Sample

open Http.Sample Retrieve in
/-- A fetch of a page, and one that finds the disk full. -/
theorem get_all_or_nothing_sample :
    (OnDisk Session.transport Session.disk ∧
      (∀ e ∈ (fetch none "text/html" "out").1.2, e.Whole) ∧
      (gateway "text/html").disk.entry "out" ≠ .ok .device ∧
      (fetch none "text/html" "out").1.1 = .ok ⟨"out", 7, true⟩ ∧
      ∃ status earlier q q' pin names name content before,
        TookAll (status :: (earlier ++ [q, q'])) (fetch none "text/html" "out").1.2 ∧
        client.request .get (client.pinUrl "few") [] none = .ok status.request ∧
        status.success?.bind (pinOf? Session.transport) = some pin ∧
        sources PinKeeper.Sample.policy pin none = .ok names ∧ name ∈ names ∧
        Abandons Session.transport Session.disk client "few" "out" earlier
          (gateway "text/html").disk before ∧
        Served client (PinKeeper.Sample.policy.hostFor name) "few" "out" q q' ⟨"out", 7, true⟩
          content before (fetch none "text/html" "out").2.disk ∧
        (fetch none "text/html" "out").2.disk.read "out" = .ok content) ∧
    OnDisk (Session.transportUntil (some full)) Session.disk ∧
      (∀ e ∈ (fetch (some full) "text/plain" "out").1.2, e.Whole) ∧
      (gateway "text/plain").disk.entry "out" ≠ .ok .device ∧
      (fetch (some full) "text/plain" "out").1.1
        = .error (.transport (.io "No space left on device (os error 28)")) ∧
      ((fetch (some full) "text/plain" "out").2.disk = (gateway "text/plain").disk ∨
        LeftOver (Session.transportUntil (some full)) Session.disk client "few" "out"
          (fetch (some full) "text/plain" "out").1.2
          (fetch (some full) "text/plain" "out").2.disk) := by
  have hrun (stop : Option Disk.Break) (contentType : String) :
      ((get (client.cluster (Session.transportUntil stop).observed) PinKeeper.Sample.policy "few"
        none "out").run []).run (gateway contentType) = (((fetch stop contentType "out").1.1,
          (fetch stop contentType "out").1.2), (fetch stop contentType "out").2) := rfl
  obtain ⟨harchive, -, -, hshort⟩ := replied
  have hpage := fetched harchive "out"
  have hlength : (Content.ofText "archive").length = 7 := by decide
  have hresult : (fetch none "text/html" "out").1.1 = .ok ⟨"out", 7, true⟩ := by
    rw [hpage.result_out, hlength]
  have hfull := fetched hshort "out"
  constructor
  · exact ⟨Session.onDisk none, hpage.whole, entry_out_ne_device _, hresult,
      (get_all_or_nothing (Session.onDisk none) (hrun none "text/html") hpage.whole
        (entry_out_ne_device _)).2 _ hresult⟩
  · exact ⟨Session.onDisk _, hfull.whole, entry_out_ne_device _, hfull.result_full,
      (get_all_or_nothing (Session.onDisk (some full)) (hrun (some full) "text/plain") hfull.whole
        (entry_out_ne_device _)).1 _ hfull.result_full⟩

open Http.Sample in
/-- **A content type that cannot be shown counts for none, a device keeps nothing, and a write that
breaks off leaves what was written.**  A page of which the type has a letter beyond the visible ones
is fetched as a file, what went to a device is not there, and on a full disk a fetch that failed has
made the file. -/
theorem get_unshown_page_and_device :
    let page := fetch none "text/html; t=ü" "out"
    let device := fetch none "text/plain" "null"
    let short := fetch (some full) "text/plain" "out"
    (page.1.1 = .ok ⟨"out", 4, false⟩ ∧ (∀ e ∈ page.1.2, e.Whole) ∧
      page.1.2.map (fun e => (e.request.method, e.request.url.path, e.request.url.query))
        = [(.get, "/pins/few", none), (.head, "/ipfs/few", none), (.get, "/ipfs/few", none)] ∧
      page.1.2.map (fun e => e.answer?.bind fun a => header? a.headers "Content-Type")
        = [none, some "text/html; t=ü", none] ∧
      "text/html".toList <+: "text/html; t=ü".toList) ∧
    (device.1.1 = .ok ⟨"null", 4, false⟩ ∧ (∀ e ∈ device.1.2, e.Whole) ∧
      (device.1.2.getLast?.bind fun e => e.answer?.bind fun a => a.body.content?)
        = some (.ofText "page") ∧
      device.2.disk.read "null" = .ok (.zeros 0)) ∧
    short.1.1 = .error (.transport (.io "No space left on device (os error 28)")) ∧
      (∀ e ∈ short.1.2, e.Whole) ∧ (gateway "text/plain").disk.read "out" = .error .notFound ∧
      short.2.disk.read "out" = .ok (.ofText "pa") := by
  intro page device short
  obtain ⟨-, hunshown, hplain, hfull⟩ := replied
  have hpage := fetched hunshown "out"
  have hdevice := fetched hplain "null"
  have hshort := fetched hfull "out"
  have hlength : (Content.ofText "page").length = 4 := by decide
  refine ⟨⟨?_, hpage.whole, ?_⟩, ⟨?_, hdevice.whole, ?_, ?_⟩, hshort.result_full, hshort.whole,
    ?_, ?_⟩
  · rw [hpage.result_out, hlength]
  · rw [hpage.record]
    decide +kernel
  · rw [hdevice.result, Disk.writeUntil, write_null, ← hlength]
    rfl
  · rw [hdevice.record]
    decide +kernel
  · rw [hdevice.disk, Disk.writeUntil, write_null, Disk.read,
      Disk.entry_of_locate (locate_null _) (show _ = some Entry.device from rfl)]
    rfl
  · rw [Disk.read, entry_out]
    rfl
  · have hbegun : Disk.Break.begun (some full) (.ofText "page") = .ofText "pa" := by
      decide +kernel
    rw [hshort.disk, Disk.writeUntil, hbegun, write_out]
    exact Disk.read_write (write_out "text/plain" (.ofText "pa")) (entry_out_ne_device _)

end Http

end PinKeeper
