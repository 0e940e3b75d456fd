import PinKeeper.Proofs.Http.Requests

/-!
# Proofs/Http/Trace — what a program asks for, redirections aside

The exchanges of a run are seen by a transport that writes them down (`Transport.observed`).  Not
every one of them is what the program asked for, as the server may send a request elsewhere.  An
`Asking` is a request that the program made with the answer that it came to, and `TookAll` says
which exchanges a list of them took.

What a program asks for is proved along its text: `Asks A x` says that the askings of `x` are as `A`
has it for what `x` gives, and it is kept by composition (`Asks.bind`).  A call to the cluster makes
one request at most, and gives what is read from the answer (`AnsweredBy`); so it has no result
unless that was a success (`AtMostOne`).
-/

namespace PinKeeper.Http

/-! ## Exchanges and askings -/

/-- A request with the reply that came, if one came. -/
structure Exchange where
  request : Request
  reply : Option Reply

/-- Answer that came for a request. -/
def Exchange.answer? (e : Exchange) : Option Answer :=
  e.reply.bind fun reply => reply.answer? e.request.method

/-- A request of a program, with the answer it came to in the end. -/
structure Asking where
  request : Request
  answer : Option Answer

/-- The answer is a success. -/
def Asking.Succeeded (q : Asking) : Prop :=
  ∃ a, q.answer = some a ∧ 200 ≤ a.status ∧ a.status < 300

/-- The answer, if it is a success. -/
def Asking.success? (q : Asking) : Option Answer :=
  q.answer.filter fun a => 200 ≤ a.status && a.status < 300

theorem Asking.success?_eq_some_iff {q : Asking} {a : Answer} :
    q.success? = some a ↔ q.answer = some a ∧ 200 ≤ a.status ∧ a.status < 300 := by
  rw [success?, Option.filter_eq_some_iff, Bool.and_eq_true, decide_eq_true_iff, decide_eq_true_iff]

/-- Exchanges that a request takes: its own, and those of the request that it becomes where it is
sent on. -/
inductive Took : Request → Option Answer → List Exchange → Prop
  | own (e : Exchange) : Took e.request e.answer? [e]
  | sentOn {e : Exchange} {a : Answer} {r : Request} {last : Option Answer} {es : List Exchange} :
      e.answer? = some a → e.request.next? a = some (.ok r) → Took r last es →
        Took e.request last (e :: es)

/-- Exchanges that requests take one after the other. -/
inductive TookAll : List Asking → List Exchange → Prop
  | nil : TookAll [] []
  | cons {q : Asking} {qs : List Asking} {es fs : List Exchange} :
      Took q.request q.answer es → TookAll qs fs → TookAll (q :: qs) (es ++ fs)

theorem TookAll.one {q : Asking} {es : List Exchange} (h : Took q.request q.answer es) :
    TookAll [q] es := by
  have hall := TookAll.cons h .nil
  rwa [List.append_nil] at hall

theorem TookAll.append {qs rs : List Asking} {es fs : List Exchange} (hqs : TookAll qs es)
    (hrs : TookAll rs fs) : TookAll (qs ++ rs) (es ++ fs) := by
  induction hqs with
  | nil => exact hrs
  | cons h _ ih =>
    rw [List.cons_append, List.append_assoc]
    exact .cons h ih

/-- The answer sends the request elsewhere. -/
def Exchange.SentOn (e : Exchange) : Prop :=
  ∃ a r, e.answer? = some a ∧ e.request.next? a = some (.ok r)

theorem Took.map_request {r : Request} {last : Option Answer} {es : List Exchange}
    (h : Took r last es) (hno : ∀ e ∈ es, ¬e.SentOn) : es.map (·.request) = [r] := by
  cases h with
  | own e => rfl
  | sentOn hanswer hnext _ => exact absurd ⟨_, _, hanswer, hnext⟩ (hno _ List.mem_cons_self)

/-- **Where nothing is sent elsewhere, the exchanges are the requests of the program.** -/
theorem TookAll.map_request {qs : List Asking} {es : List Exchange} (h : TookAll qs es)
    (hno : ∀ e ∈ es, ¬e.SentOn) : es.map (·.request) = qs.map (·.request) := by
  induction h with
  | nil => rfl
  | cons htook _ ih =>
    obtain ⟨hhead, htail⟩ := List.forall_mem_append.1 hno
    rw [List.map_append, ih htail, List.map_cons, htook.map_request hhead]
    rfl

/-- The transport, in programs that keep a record of the exchanges. -/
def Transport.observed {m : Type → Type} [Monad m] (t : Transport m) :
    Transport (StateT (List Exchange) m) where
  exchange r := do
    let reply ← liftM (t.exchange r)
    modify (· ++ [⟨r, reply⟩])
    return reply
  write path content := liftM (t.write path content)
  log note := liftM (t.log note)
  decode := t.decode

variable {σ α β : Type}

/-! ## Along the text of a program -/

theorem run_pure (a : α) (record : List Exchange) (s : σ) :
    ((pure a : StateT (List Exchange) (StateM σ) α).run record).run s = ((a, record), s) := rfl

theorem run_liftM (y : StateM σ α) (record : List Exchange) (s : σ) :
    ((liftM y : StateT (List Exchange) (StateM σ) α).run record).run s
      = (((y.run s).1, record), (y.run s).2) := rfl

theorem run_bind (x : StateT (List Exchange) (StateM σ) α)
    (f : α → StateT (List Exchange) (StateM σ) β) (record : List Exchange) (s : σ) :
    ((x >>= f).run record).run s
      = ((f ((x.run record).run s).1.1).run ((x.run record).run s).1.2).run
          ((x.run record).run s).2 := rfl

/-- Whatever is outside, the exchanges of a program are those of requests that are as `A` has it for
what the program gives. -/
def Asks (A : α → List Asking → Prop) (x : StateT (List Exchange) (StateM σ) α) : Prop :=
  ∀ (record : List Exchange) (s : σ), ∃ qs es,
    ((x.run record).run s).1.2 = record ++ es ∧ TookAll qs es ∧
      A ((x.run record).run s).1.1 qs

namespace Asks

variable {A B : α → List Asking → Prop} {C : β → List Asking → Prop}
  {x : StateT (List Exchange) (StateM σ) α} {f : α → StateT (List Exchange) (StateM σ) β}

theorem mono (hx : Asks A x) (h : ∀ a qs, A a qs → B a qs) : Asks B x := by
  intro record s
  obtain ⟨qs, es, hrecord, htook, hqs⟩ := hx record s
  exact ⟨qs, es, hrecord, htook, h _ _ hqs⟩

theorem pure {a : α} (h : A a []) :
    Asks A (pure a : StateT (List Exchange) (StateM σ) α) := by
  intro record s
  rw [run_pure]
  exact ⟨[], [], (List.append_nil record).symm, .nil, h⟩

/-- What is done outside of the transport asks for nothing. -/
theorem lift {y : StateM σ α} (h : ∀ a, A a []) :
    Asks A (liftM y : StateT (List Exchange) (StateM σ) α) := by
  intro record s
  rw [run_liftM]
  exact ⟨[], [], (List.append_nil record).symm, .nil, h _⟩

theorem bind (hx : Asks A x)
    (hf : ∀ a qs, A a qs → Asks (fun b rs => C b (qs ++ rs)) (f a)) : Asks C (x >>= f) := by
  intro record s
  obtain ⟨qs, es, hrecord, htook, hqs⟩ := hx record s
  obtain ⟨rs, fs, hrecord', htook', hrs⟩ :=
    hf _ _ hqs ((x.run record).run s).1.2 ((x.run record).run s).2
  rw [run_bind]
  refine ⟨qs ++ rs, es ++ fs, ?_, htook.append htook', hrs⟩
  rw [hrecord', hrecord, List.append_assoc]

theorem liftBind {y : StateM σ α} (hf : ∀ a, Asks C (f a)) :
    Asks C ((liftM y : StateT (List Exchange) (StateM σ) α) >>= f) := by
  intro record s
  rw [run_bind, run_liftM]
  exact hf _ _ _

end Asks

/-! ## Requests of one kind -/

variable {K : Request → Prop}

/-- A program asks for nothing but requests of one kind. -/
def AsksOnly (K : Request → Prop) (α : Type) (x : StateT (List Exchange) (StateM σ) α) : Prop :=
  Asks (fun _ qs => ∀ q ∈ qs, K q.request) x

theorem compositional_asksOnly : Compositional (AsksOnly (σ := σ) K) where
  pure _ := .pure (List.forall_mem_nil _)
  bind hx hf := hx.bind fun a _ hqs => (hf a).mono fun _ _ hrs =>
    List.forall_mem_append.2 ⟨hqs, hrs⟩

theorem asksOnly_lift {y : StateM σ α} :
    AsksOnly K α (liftM y : StateT (List Exchange) (StateM σ) α) :=
  .lift fun _ => List.forall_mem_nil _

/-! ## One request -/

/-- There is at most one request, which is of a kind and a success if there is a result. -/
structure AtMostOne (K : Request → Prop) (answer : Except ClusterError α) (qs : List Asking) :
    Prop where
  length_le : qs.length ≤ 1
  kind : ∀ q ∈ qs, K q.request
  success : answer.isOk = true → ∃ q ∈ qs, q.Succeeded

namespace AtMostOne

/-- A request that was never sent. -/
theorem none (e : ClusterError) : AtMostOne K (.error e : Except ClusterError α) [] where
  length_le := Nat.zero_le 1
  kind := List.forall_mem_nil _
  success := nofun

/-- There is no other request. -/
theorem eq_of_mem {answer : Except ClusterError α} {q : Asking} {qs : List Asking}
    (h : AtMostOne K answer qs) (hq : q ∈ qs) : qs = [q] := by
  have hle := h.length_le
  cases qs with
  | nil => cases hq
  | cons q' qs =>
    have hnil : qs = [] := by
      rw [List.length_cons] at hle
      exact List.length_eq_zero_iff.1 (by omega)
    subst hnil
    rw [List.mem_singleton.1 hq]

/-- Where there is a result there is exactly one request. -/
theorem exists_eq {a : α} {qs : List Asking}
    (h : AtMostOne K (.ok a : Except ClusterError α) qs) :
    ∃ q, qs = [q] ∧ K q.request ∧ q.Succeeded := by
  obtain ⟨q, hq, hsuccess⟩ := h.success rfl
  exact ⟨q, h.eq_of_mem hq, h.kind q hq, hsuccess⟩

end AtMostOne

variable {t : Transport (StateM σ)}

variable (t) in
/-- Exchange that a request makes in a state. -/
def Transport.made (r : Request) (s : σ) : Exchange := ⟨r, ((t.exchange r).run s).1⟩

theorem Transport.run_observed (r : Request) (record : List Exchange) (s : σ) :
    ((t.observed.exchange r).run record).run s
      = (((t.made r s).reply, record ++ [t.made r s]), ((t.exchange r).run s).2) := rfl

/-- What asks for another address is no success. -/
theorem Request.next?_of_lt {r : Request} {a : Answer} (h : a.status < 300) : r.next? a = none := by
  have hstay : ¬r.canFollow a.status = true := by
    simp only [canFollow, Bool.or_eq_true, Bool.and_eq_true, decide_eq_true_iff]
    omega
  rw [next?, if_neg hstay]

/-- What a request gives is its last answer, and a last answer that is no redirection is given. -/
structure Settles (answer : Except ClusterError Answer) (last : Option Answer) : Prop where
  last_of_ok : ∀ a, answer = .ok a → last = some a
  ok_of_last : ∀ a, last = some a → a.status < 300 → answer = .ok a

theorem Settles.ok (a : Answer) : Settles (.ok a) (some a) :=
  ⟨fun _ h => congrArg some (Except.ok.inj h), fun _ h _ => congrArg Except.ok (Option.some.inj h)⟩

/-- A request that would have to be sent on gives nothing. -/
theorem Settles.error {r : Request} {a : Answer} (h : r.next? a ≠ none) (e : ClusterError) :
    Settles (.error e) (some a) where
  last_of_ok _ ha := nomatch ha
  ok_of_last _ hlast hlt := absurd (Request.next?_of_lt (Option.some.inj hlast ▸ hlt)) h

/-- Where nothing is given there was no success. -/
theorem Settles.success?_eq_none {e : ClusterError} {last : Option Answer}
    (h : Settles (.error e) last) (r : Request) : (⟨r, last⟩ : Asking).success? = none := by
  rw [Option.eq_none_iff_forall_ne_some]
  intro a ha
  obtain ⟨hanswer, -, hlt⟩ := Asking.success?_eq_some_iff.1 ha
  cases h.ok_of_last a hanswer hlt

/-- **What is sent takes its own exchange and those that it is sent on by.**  The induction is on
the number of exchanges that there is room for; where there is room for no more the request stands
as it was answered last. -/
theorem took_follow : ∀ (room : Nat) (r : Request) (record : List Exchange) (s : σ),
    ∃ last es,
      (((follow t.observed (room + 1) r).run record).run s).1.2 = record ++ es ∧ Took r last es ∧
        Settles (((follow t.observed (room + 1) r).run record).run s).1.1 last
  | room, r, record, s => by
    have hown := Took.own (t.made r s)
    have hread : (t.made r s).answer? = (t.made r s).reply.bind fun p => p.answer? r.method := rfl
    rw [follow, run_bind, t.run_observed, ← hread]
    cases hanswer : (t.made r s).answer? with
    | none =>
      exact ⟨none, [t.made r s], rfl, hanswer ▸ hown, nofun, nofun⟩
    | some a =>
      rw [hanswer] at hown
      dsimp only
      cases hnext : r.next? a with
      | none =>
        exact ⟨some a, [t.made r s], rfl, hown, .ok a⟩
      | some next =>
        have hleft : r.next? a ≠ none := fun h => Option.some_ne_none _ (hnext.symm.trans h)
        cases next with
        | error err => exact ⟨some a, [t.made r s], rfl, hown, .error hleft err⟩
        | ok r' =>
          cases room with
          | zero => exact ⟨some a, [t.made r s], rfl, hown, .error hleft _⟩
          | succ room =>
            obtain ⟨last, es, hrecord, htook, hlast⟩ :=
              took_follow room r' (record ++ [t.made r s]) ((t.exchange r).run s).2
            exact ⟨last, t.made r s :: es, hrecord.trans (List.append_assoc record [t.made r s] es),
              .sentOn hanswer hnext htook, hlast⟩

theorem asks_follow (r : Request) : Asks (fun answer qs => ∃ last, qs = [⟨r, last⟩] ∧
    Settles answer last) (follow t.observed maxRequests r) := by
  intro record s
  obtain ⟨last, es, hrecord, htook, hlast⟩ := took_follow 9 r record s
  exact ⟨[⟨r, last⟩], es, hrecord, .one htook, last, rfl, hlast⟩

/-- The one request of a call, if it could be made, with what is read from its answer. -/
inductive Answered (made : Except ClusterError Request) (read : Answer → Option α) :
    Option α → List Asking → Prop
  | unmade {e : ClusterError} : made = .error e → Answered made read none []
  | asked {q : Asking} {a : Option α} :
      made = .ok q.request → q.success?.bind read = a → Answered made read a [q]

/-- What was read is from the answer to the one request. -/
theorem Answered.exists_of_some {made : Except ClusterError Request} {read : Answer → Option α}
    {a : α} {qs : List Asking} (h : Answered made read (some a) qs) :
    ∃ q, qs = [q] ∧ made = .ok q.request ∧ q.success?.bind read = some a := by
  cases h with
  | asked hmade hread => exact ⟨_, rfl, hmade, hread⟩

/-- A call asks for the one request that was made, and gives what is read from its answer if that is
a success. -/
def AnsweredBy (made : Except ClusterError Request) (read : Answer → Option α)
    (x : StateT (List Exchange) (StateM σ) (Except ClusterError α)) : Prop :=
  Asks (fun answer qs => Answered made read answer.toOption qs) x

namespace AnsweredBy

variable {made : Except ClusterError Request} {read : Answer → Option α}
  {x : StateT (List Exchange) (StateM σ) (Except ClusterError α)}

/-- What follows the answer asks for nothing, and reads on. -/
theorem bind {f : Except ClusterError α → StateT (List Exchange) (StateM σ) (Except ClusterError β)}
    {g : α → Option β} (hx : AnsweredBy made read x)
    (hf : ∀ a, Asks (fun b rs => rs = [] ∧ b.toOption = a.toOption.bind g) (f a)) :
    AnsweredBy made (fun a => (read a).bind g) (x >>= f) := by
  refine Asks.bind hx fun a qs hqs => (hf a).mono ?_
  rintro b rs ⟨rfl, hb⟩
  rw [List.append_nil, hb]
  generalize a.toOption = given at hqs
  cases hqs with
  | unmade hmade => exact .unmade hmade
  | asked hmade hread => exact .asked hmade (by rw [← hread, Option.bind_assoc])

theorem atMostOne (hx : AnsweredBy made read x) (hK : ∀ r, made = .ok r → K r) :
    Asks (AtMostOne K) x := by
  refine hx.mono fun answer qs hqs => ?_
  generalize hgiven : answer.toOption = given at hqs
  cases hqs with
  | unmade hmade =>
    cases answer with
    | error e => exact .none e
    | ok a => cases hgiven
  | asked hmade hread =>
    refine ⟨Nat.le_refl 1, List.forall_mem_singleton.2 (hK _ hmade), fun hok => ?_⟩
    cases answer with
    | error e => cases hok
    | ok a =>
      obtain ⟨b, hb, -⟩ := Option.bind_eq_some_iff.1 (hread.trans hgiven.symm)
      exact ⟨_, List.mem_singleton_self _, b, Asking.success?_eq_some_iff.1 hb⟩

end AnsweredBy

/-- **A request that is sent is the one asking**, and gives its answer if that is a success. -/
theorem answered_send (r : Request) : AnsweredBy (.ok r) some (send t.observed r) := by
  refine (asks_follow r).bind fun answer qs hqs => ?_
  obtain ⟨last, rfl, hlast⟩ := hqs
  have hone {a : Except ClusterError Answer} (h : a.toOption = (⟨r, last⟩ : Asking).success?) :
      Answered (.ok r) some a.toOption ([⟨r, last⟩] ++ []) :=
    .asked rfl ((Option.bind_fun_some _).trans h.symm)
  cases answer with
  | error e => exact .pure (hone (hlast.success?_eq_none r).symm)
  | ok a =>
    have hanswer : last = some a := hlast.last_of_ok a rfl
    subst hanswer
    dsimp only
    split
    · next h => exact .pure (hone (if_pos h).symm)
    · next h => exact .liftBind fun _ => .pure (hone (if_neg h).symm)

theorem asksOnly_send {r : Request} (hr : K r) : AsksOnly K _ (send t.observed r) :=
  ((answered_send r).atMostOne fun _ h => Except.ok.inj h ▸ hr).mono fun _ _ hqs => hqs.kind

/-! ## Calls -/

theorem answered_sendForText (r : Request) :
    AnsweredBy (.ok r) t.text? (sendForText t.observed r) := by
  refine (answered_send r).bind fun answer => ?_
  cases answer with
  | error e => exact .pure ⟨rfl, rfl⟩
  | ok a =>
    dsimp only
    split
    · next h => exact .pure ⟨rfl, h.symm⟩
    · next h => exact .liftBind fun _ => .pure ⟨rfl, h.symm⟩

variable {c : Client} {method : Method} {url : String} {ps : List (String × String)}

theorem answered_ask :
    AnsweredBy (c.request method url ps none) some (c.ask t.observed method url ps) := by
  rw [Client.ask]
  cases c.request method url ps none with
  | error e => exact .pure (.unmade rfl)
  | ok r => exact answered_send r

theorem answered_order : AnsweredBy (c.request method url ps none) (fun _ => some ())
    (c.order t.observed method url ps) := by
  refine answered_ask.bind (g := fun _ => some ()) fun answer => ?_
  cases answer <;> exact .pure ⟨rfl, rfl⟩

theorem toOption_decoded (v : Option α) : (decoded v).toOption = v := by
  cases v <;> rfl

/-- A request for a text that is read. -/
theorem answered_read {read : String → Option α} (r : Request) :
    AnsweredBy (.ok r) (fun a => (t.text? a).bind read) (do
      match ← sendForText t.observed r with
      | .error e => return .error e
      | .ok body => return decoded (read body)) := by
  refine (answered_sendForText r).bind fun answer => ?_
  cases answer with
  | error e => exact .pure ⟨rfl, rfl⟩
  | ok body => exact .pure ⟨rfl, toOption_decoded (read body)⟩

theorem answered_askFor {read : String → Option α} :
    AnsweredBy (c.request .get url ps none) (fun a => (t.text? a).bind read)
      (c.askFor t.observed url ps read) := by
  rw [Client.askFor]
  cases c.request .get url ps none with
  | error e => exact .pure (.unmade rfl)
  | ok r => exact answered_read r

/-! The operations of a cluster that are followed one by one, as the client makes them. -/

section Operations

variable {m : Type → Type} [Monad m] (c : Client) (t : Transport m)

theorem Client.cluster_pinStatus (cid : String) : (c.cluster t).pinStatus cid
    = c.askFor t (c.pinUrl cid) [] fun body => (Json.parse? body).bind (Pin.ofJson? 0) := by
  rw [Client.cluster]

theorem Client.cluster_unpin (cid : String) : (c.cluster t).unpin cid
    = c.order t .delete (c.pinUrl cid) [] := by
  rw [Client.cluster]

theorem Client.cluster_add (request : AddRequest) : (c.cluster t).add request
    = c.add t request := by
  rw [Client.cluster]

end Operations

theorem asks_pinStatus {cid : String}
    (hK : ∀ r, c.request .get (c.pinUrl cid) [] none = .ok r → K r) :
    Asks (AtMostOne K) ((c.cluster t.observed).pinStatus cid) := by
  rw [Client.cluster_pinStatus]
  exact answered_askFor.atMostOne hK

theorem asks_unpin {cid : String}
    (hK : ∀ r, c.request .delete (c.pinUrl cid) [] none = .ok r → K r) :
    Asks (AtMostOne K) ((c.cluster t.observed).unpin cid) := by
  rw [Client.cluster_unpin]
  exact answered_order.atMostOne hK

theorem answered_add (request : AddRequest) :
    AnsweredBy
      (c.request .post (c.api ++ "/add") (addParameters request) (some (parts request.files)))
      (fun a => (t.text? a).bind (listing? AddedEntry.ofJson?))
      ((c.cluster t.observed).add request) := by
  rw [Client.cluster_add, Client.add]
  cases c.request .post (c.api ++ "/add") (addParameters request)
    (some (parts request.files)) with
  | error e => exact .pure (.unmade rfl)
  | ok r => exact answered_read r

theorem asks_add {request : AddRequest}
    (hK : ∀ r, c.request .post (c.api ++ "/add") (addParameters request)
      (some (parts request.files)) = .ok r → K r) :
    Asks (AtMostOne K) ((c.cluster t.observed).add request) :=
  (answered_add request).atMostOne hK

end PinKeeper.Http
