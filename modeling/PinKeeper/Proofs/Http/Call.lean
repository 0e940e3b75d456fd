import PinKeeper.Proofs.Http.Trace

/-!
# Proofs/Http/Call — the one request of a call

Most operations of a cluster take one request: the client makes it, sends it and reads the answer.
`Calls made x` says so of a program, for a request that could be made or could not.  What the server
does with the request makes no difference, as what follows the answer asks for nothing
(`Calls.bind`).  So what is read from the answer may be left out (`AnsweredBy.calls`): of these
operations only the request is left (`calls_pin` and the others), and where it could be made they
ask for it and for no other (`AsksOne`).
-/

namespace PinKeeper.Http

variable {σ α β : Type} {made : Except ClusterError Request} {P : Request → Prop}

/-- A program asks for the one request that was made, and for none if none could be made. -/
def Calls (made : Except ClusterError Request) (x : StateT (List Exchange) (StateM σ) α) : Prop :=
  Asks (fun _ qs => qs.map (·.request) = made.toOption.toList) x

/-- A program asks for exactly one request, and that is of a kind. -/
def AsksOne (P : Request → Prop) (x : StateT (List Exchange) (StateM σ) α) : Prop :=
  Asks (fun _ qs => ∃ r, qs.map (·.request) = [r] ∧ P r) x

theorem AsksOne.mono {Q : Request → Prop} {x : StateT (List Exchange) (StateM σ) α}
    (hx : AsksOne P x) (h : ∀ r, P r → Q r) : AsksOne Q x :=
  Asks.mono hx fun _ _ ⟨r, hqs, hr⟩ => ⟨r, hqs, h r hr⟩

namespace Calls

variable {x : StateT (List Exchange) (StateM σ) α}
  {f : α → StateT (List Exchange) (StateM σ) β}

/-- What follows the answer asks for nothing. -/
theorem bind (hx : Calls made x) (hf : ∀ a, Asks (fun _ rs => rs = []) (f a)) :
    Calls made (x >>= f) := by
  refine Asks.bind hx fun a qs hqs => (hf a).mono ?_
  rintro b rs rfl
  rw [List.append_nil]
  exact hqs

/-- A request that could be made is the one that is asked. -/
theorem asksOne {r : Request} (hx : Calls made x) (hmade : made = .ok r) (hr : P r) :
    AsksOne P x := by
  refine hx.mono fun _ qs hqs => ⟨r, ?_, hr⟩
  rw [hqs, hmade]
  rfl

end Calls

/-- A call that is answered by one request asks for that request. -/
theorem AnsweredBy.calls {read : Answer → Option α}
    {x : StateT (List Exchange) (StateM σ) (Except ClusterError α)} (hx : AnsweredBy made read x) :
    Calls made x := by
  refine hx.mono fun answer qs hqs => ?_
  generalize answer.toOption = given at hqs
  cases hqs with
  | unmade hmade =>
    rw [hmade]
    rfl
  | asked hmade _ =>
    rw [hmade]
    rfl

/-- Where an address can be read a request can be made. -/
theorem Client.request_of_parse {c : Client} {url : String} {u : Web.Url}
    (hu : Web.Url.parse url = .ok u) (method : Method) (ps : List (String × String))
    (form : Option (List Part)) :
    ∃ q, c.request method url ps form = .ok q ∧ q.url = u.withParameters ps := by
  rw [Client.request, hu]
  exact ⟨_, rfl, rfl⟩

/-! ## Operations -/

variable (t : Transport (StateM σ)) (c : Client)

theorem calls_pinStatus (cid : String) :
    Calls (c.request .get (c.pinUrl cid) [] none) ((c.cluster t.observed).pinStatus cid) := by
  rw [Client.cluster]
  exact answered_askFor.calls

theorem calls_unpin (cid : String) :
    Calls (c.request .delete (c.pinUrl cid) [] none) ((c.cluster t.observed).unpin cid) := by
  rw [Client.cluster]
  exact answered_order.calls

theorem calls_recover (cid : String) :
    Calls (c.request .post (c.pinUrl cid ++ "/recover") [] none)
      ((c.cluster t.observed).recover cid) := by
  rw [Client.cluster]
  exact answered_order.calls

theorem calls_pin (r : PinRequest) :
    Calls (c.request .post (c.pinUrl r.cid) (pinParameters r) none)
      ((c.cluster t.observed).pin r) := by
  rw [Client.cluster]
  exact answered_order.calls

theorem calls_add (r : AddRequest) :
    Calls (c.request .post (c.api ++ "/add") (addParameters r) (some (parts r.files)))
      ((c.cluster t.observed).add r) :=
  (answered_add r).calls

/-! ## A node to ask -/

namespace Sample

/-- Settings where the environment says nothing. -/
def settings : TransportSettings := ⟨9094, 8080, 300, 1⟩

/-- Client of a node on this machine. -/
def node : Client := .ofHost "127.0.0.1" none settings

/-- World in which no reply ever comes. -/
def silent : Transport (StateM Unit) :=
  ⟨fun _ => pure none, fun _ _ => pure (.ok ()), fun _ => pure (), bodyText⟩

end Sample

end PinKeeper.Http
