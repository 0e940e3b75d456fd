import PinKeeper.Http.Client

/-!
# Proofs/Http/Anonymous — what a server does that does not look at the credentials

A request without what authorizes it is bare (`Request.bare`), and most that is made of a request is
made of the bare one as well: where it is sent on to (`Request.next?_bare`), and with a server that
ignores the credentials what comes back (`send_bare`).  So for such a server it makes no difference
to the cluster which credentials a client has (`Client.cluster_anonymous`).
-/

namespace PinKeeper.Http

variable {m : Type → Type} [Monad m] {t : Transport m}

/-! ## Bare requests -/

/-- Request without what authorizes it. -/
def Request.bare (r : Request) : Request := { r with authorization := none }

theorem Request.redirected_bare (r : Request) (status : Nat) (url : Web.Url) :
    r.bare.redirected status url = (r.redirected status url).bare := by
  have hnone : (if r.url.sameServer url then (none : Option String) else none) = none :=
    ite_self none
  rw [redirected, redirected, bare, bare, hnone]

/-- **A bare request is sent on to the same address.** -/
theorem Request.next?_bare (r : Request) (a : Answer) :
    r.bare.next? a = (r.next? a).map fun next => next.map bare := by
  have hfollow : r.bare.canFollow a.status = r.canFollow a.status := rfl
  have hurl : r.bare.url = r.url := rfl
  rw [next?, next?, hfollow, hurl]
  split
  · split
    · rfl
    · split
      · rw [redirected_bare]
        rfl
      · rfl
      · rfl
  · rfl

/-- Nothing comes back but what comes back to the bare request. -/
def Transport.IgnoresCredentials (t : Transport m) : Prop :=
  ∀ r : Request, t.exchange r.bare = t.exchange r

section Ignored

variable (ht : t.IgnoresCredentials)

include ht

theorem follow_bare : ∀ (room : Nat) (r : Request), follow t room r.bare = follow t room r
  | 0, _ => rfl
  | room + 1, r => by
    have hmethod : r.bare.method = r.method := rfl
    rw [follow, follow, ht r, hmethod]
    refine bind_congr fun reply => ?_
    split
    · rfl
    · next a _ =>
      rw [r.next?_bare a]
      cases r.next? a with
      | none => rfl
      | some next =>
        cases next with
        | error e => rfl
        | ok r' => exact follow_bare room r'

theorem send_bare (r : Request) : send t r.bare = send t r := by
  rw [send, send, follow_bare ht]

theorem sendForText_bare (r : Request) : sendForText t r.bare = sendForText t r := by
  rw [sendForText, sendForText, send_bare ht]

end Ignored

/-! ## Clients without credentials -/

namespace Client

variable (c : Client)

/-- Access to the same node without credentials. -/
def anonymous : Client := { c with credentials := none }

@[simp] theorem host_anonymous : c.anonymous.host = c.host := rfl

@[simp] theorem api_anonymous : c.anonymous.api = c.api := rfl

@[simp] theorem gateway_anonymous : c.anonymous.gateway = c.gateway := rfl

@[simp] theorem gatewayOf_anonymous (host : String) :
    c.anonymous.gatewayOf host = c.gatewayOf host := rfl

@[simp] theorem pinUrl_anonymous (cid : String) : c.anonymous.pinUrl cid = c.pinUrl cid := rfl

/-- **Credentials decide on nothing of a request** but what authorizes it. -/
theorem request_anonymous (method : Method) (url : String) (ps : List (String × String))
    (form : Option (List Part)) :
    (∃ e, c.anonymous.request method url ps form = .error e ∧
      c.request method url ps form = .error e) ∨
    ∃ r r', c.anonymous.request method url ps form = .ok r' ∧
      c.request method url ps form = .ok r ∧ r'.bare = r.bare := by
  rw [request, request]
  split
  · exact .inl ⟨_, rfl, rfl⟩
  · exact .inr ⟨_, _, rfl, rfl, rfl⟩

section Ignored

variable (ht : t.IgnoresCredentials)

include ht

theorem ask_anonymous (method : Method) (url : String) (ps : List (String × String)) :
    c.anonymous.ask t method url ps = c.ask t method url ps := by
  rw [ask, ask]
  obtain ⟨e, h', h⟩ | ⟨r, r', h', h, hbare⟩ := c.request_anonymous method url ps none
  · rw [h', h]
  · rw [h', h]
    dsimp only
    rw [← send_bare ht r', hbare, send_bare ht]

theorem askFor_anonymous {α : Type} (url : String) (ps : List (String × String))
    (read : String → Option α) : c.anonymous.askFor t url ps read = c.askFor t url ps read := by
  rw [askFor, askFor]
  obtain ⟨e, h', h⟩ | ⟨r, r', h', h, hbare⟩ := c.request_anonymous .get url ps none
  · rw [h', h]
  · rw [h', h]
    dsimp only
    rw [← sendForText_bare ht r', hbare, sendForText_bare ht]

theorem add_anonymous (r : AddRequest) : c.anonymous.add t r = c.add t r := by
  rw [add, add, api_anonymous]
  obtain ⟨e, h', h⟩ | ⟨q, q', h', h, hbare⟩ := c.request_anonymous .post (c.api ++ "/add")
    (addParameters r) (some (parts r.files))
  · rw [h', h]
  · rw [h', h]
    dsimp only
    rw [← sendForText_bare ht q', hbare, sendForText_bare ht]

/-- **The cluster does not go by the credentials** where the server ignores them. -/
theorem cluster_anonymous : c.anonymous.cluster t = c.cluster t := by
  have horder (method : Method) (url : String) (ps : List (String × String)) :
      c.anonymous.order t method url ps = c.order t method url ps := by
    rw [order, order, ask_anonymous c ht]
  have hsize : c.anonymous.dagSize t = c.dagSize t := by
    funext cid
    simp only [dagSize, askFor_anonymous c ht, ask_anonymous c ht, gateway_anonymous]
  have hdownload : c.anonymous.download t = c.download t := by
    funext host cid path
    simp only [download, ask_anonymous c ht, gatewayOf_anonymous]
  have hadd : c.anonymous.add t = c.add t := funext (add_anonymous c ht)
  simp only [cluster, askFor_anonymous c ht, horder, hsize, hdownload, hadd, host_anonymous,
    api_anonymous, pinUrl_anonymous]

end Ignored

end Client

end PinKeeper.Http
