import PinKeeper.Http.Client
import PinKeeper.Proofs.Compositional

/-!
# Proofs/Http/Requests — the requests that the transport makes of a call

A request that is sent may be sent on, and a call to the cluster may take several.  A property of
programs that holds of each exchange of some requests holds of what begins with one of them, as long
as a redirection does not lead out of them (`Compositional.send`).  A redirection never makes a
request that reads one that writes (`Request.isRead_of_next?`), and most calls only take requests
that read.

Which requests a program sends shows when they are recorded (`Transport.recorded`), and that all of
them are of some kind is such a property (`SendsOnly`).
-/

namespace PinKeeper

namespace Http

/-- True for a method that asks for no change. -/
def Method.isRead : Method → Bool
  | .get | .head => true
  | .post | .delete => false

/-- True for a request that asks for no change. -/
def Request.isRead (r : Request) : Bool := r.method.isRead

/-- **A redirection does not turn a request that reads into one that writes.** -/
theorem Request.isRead_of_next? {r r' : Request} {a : Answer} (hr : r.isRead = true)
    (h : r.next? a = some (.ok r')) : r'.isRead = true := by
  have hredirected (status : Nat) (url : Web.Url) : (r.redirected status url).isRead = true := by
    rw [isRead, redirected]
    split
    · rfl
    · exact hr
  rw [next?] at h
  split at h
  · split at h
    · cases h
    · split at h
      · rw [← Except.ok.inj (Option.some.inj h)]
        exact hredirected _ _
      · cases h
      · cases h
  · cases h

theorem Client.method_of_request {c : Client} {method : Method} {url : String}
    {ps : List (String × String)} {form : Option (List Part)} {r : Request}
    (h : c.request method url ps form = .ok r) : r.method = method := by
  rw [request] at h
  split at h
  · cases h
  · rw [← Except.ok.inj h]

end Http

namespace Compositional

open Http

variable {m : Type → Type} [Monad m] {P : (α : Type) → m α → Prop} (h : Compositional P)
  {t : Transport m} (hlog : ∀ note, P _ (t.log note))

include h

/-! ## What is sent and sent on -/

section Kind

variable {A : Request → Prop} (hexchange : ∀ r, A r → P _ (t.exchange r))
  (hnext : ∀ r r' a, A r → r.next? a = some (.ok r') → A r')

include hexchange hnext

theorem follow : ∀ (room : Nat) {r : Request}, A r → P _ (follow t room r)
  | 0, _, _ => h.pure _
  | room + 1, r, hr => by
    -- Whatever comes back, either nothing more is sent or a request of the kind again.
    refine h.bind (hexchange r hr) fun reply => ?_
    split
    · exact h.pure _
    · next a _ =>
      split
      · exact h.pure _
      · exact h.pure _
      · next r' hr' => exact follow room (hnext r r' a hr hr')

include hlog

theorem send {r : Request} (hr : A r) : P _ (send t r) := by
  refine h.bind (follow h hexchange hnext maxRequests hr) fun answer => ?_
  cases answer with
  | error e => exact h.pure _
  | ok a =>
    dsimp only
    split
    · exact h.pure _
    · exact h.bind (hlog _) fun _ => h.pure _

end Kind

include hlog in
/-- What is sent reads as long as every exchange that reads may be made. -/
theorem send_of_isRead (hexchange : ∀ r, r.isRead = true → P _ (t.exchange r)) (r : Request)
    (hr : r.isRead = true) : P _ (Http.send t r) :=
  send h hlog hexchange (fun _ _ _ => Request.isRead_of_next?) hr

/-! ## Calls

From here on a request counts with all that it takes to send it. -/

include hlog in
theorem sendForText {r : Request} (hsend : P _ (Http.send t r)) : P _ (sendForText t r) := by
  refine h.bind hsend fun answer => ?_
  cases answer with
  | error e => exact h.pure _
  | ok a =>
    dsimp only
    split
    · exact h.pure _
    · exact h.bind (hlog _) fun _ => h.pure _

section Call

variable {c : Client} {url : String} {ps : List (String × String)}

theorem ask {method : Method}
    (hsend : ∀ r, c.request method url ps none = .ok r → P _ (Http.send t r)) :
    P _ (c.ask t method url ps) := by
  rw [Client.ask]
  split
  · exact h.pure _
  · next r heq => exact hsend r heq

theorem order {method : Method}
    (hsend : ∀ r, c.request method url ps none = .ok r → P _ (Http.send t r)) :
    P _ (c.order t method url ps) :=
  h.bind (ask h hsend) fun _ => h.pure _

include hlog in
theorem askFor {α : Type} (read : String → Option α)
    (hsend : ∀ r, c.request .get url ps none = .ok r → P _ (Http.send t r)) :
    P _ (c.askFor t url ps read) := by
  rw [Client.askFor]
  split
  · exact h.pure _
  · next r heq =>
    refine h.bind (sendForText h hlog (hsend r heq)) fun answer => ?_
    cases answer <;> exact h.pure _

include hlog in
theorem add {r : AddRequest}
    (hsend : ∀ q form, c.request .post (c.api ++ "/add") (addParameters r) form = .ok q →
      P _ (Http.send t q)) : P _ ((c.cluster t).add r) := by
  change P _ (c.add t r)
  rw [Client.add]
  split
  · exact h.pure _
  · next q heq =>
    refine h.bind (sendForText h hlog (hsend q _ heq)) fun answer => ?_
    cases answer <;> exact h.pure _

end Call

/-! ## Calls that read -/

section Read

variable (hread : ∀ r, r.isRead = true → P _ (Http.send t r)) {c : Client}

include hread

theorem ask_of_isRead {method : Method} (hmethod : method.isRead = true) (url : String)
    (ps : List (String × String)) : P _ (c.ask t method url ps) :=
  ask h fun r hr => hread r (by rw [Request.isRead, Client.method_of_request hr, hmethod])

theorem download (hstore : ∀ path content, P _ (t.write path content)) (host cid path : String) :
    P _ ((c.cluster t).download host cid path) := by
  refine h.bind (ask_of_isRead h hread rfl _ _) fun answer => ?_
  cases answer with
  | error e => exact h.pure _
  | ok a =>
    refine h.bind (ask_of_isRead h hread rfl _ _) fun answer => ?_
    cases answer with
    | error e => exact h.pure _
    | ok a =>
      refine h.bind (hstore _ _) fun written => ?_
      cases written with
      | error e => exact h.pure _
      | ok _ => cases a.body <;> exact h.pure _

include hlog

theorem askFor_of_isRead {α : Type} (url : String) (ps : List (String × String))
    (read : String → Option α) : P _ (c.askFor t url ps read) :=
  askFor h hlog read fun r hr => hread r (by rw [Request.isRead, Client.method_of_request hr]; rfl)

theorem peers : P _ (c.cluster t).peers := askFor_of_isRead h hlog hread _ _ _

theorem pins : P _ (c.cluster t).pins := askFor_of_isRead h hlog hread _ _ _

theorem pinStatus (cid : String) : P _ ((c.cluster t).pinStatus cid) :=
  askFor_of_isRead h hlog hread _ _ _

theorem freeSpace : P _ (c.cluster t).freeSpace := askFor_of_isRead h hlog hread _ _ _

theorem dagSize (cid : String) : P _ ((c.cluster t).dagSize cid) := by
  refine h.bind (askFor_of_isRead h hlog hread _ _ _) fun answer => ?_
  split
  · exact h.pure _
  · exact h.bind (ask_of_isRead h hread rfl _ _) fun _ => h.pure _
  · exact h.pure _

end Read

end Compositional

/-! ## The record of the requests -/

namespace Http

/-- The transport, in programs that keep a record of the requests. -/
def Transport.recorded {m : Type → Type} [Monad m] (t : Transport m) :
    Transport (StateT (List Request) m) where
  exchange r := do
    modify (· ++ [r])
    liftM (t.exchange r)
  write path content := liftM (t.write path content)
  log note := liftM (t.log note)
  decode := t.decode

variable {σ : Type} {A : Request → Prop}

/-- Whatever is outside, a program adds requests of one kind to the record, and no other. -/
def SendsOnly (A : Request → Prop) (α : Type) (x : StateT (List Request) (StateM σ) α) : Prop :=
  ∀ (record : List Request) (s : σ),
    ∃ sent, ((x.run record).run s).1.2 = record ++ sent ∧ ∀ r ∈ sent, A r

theorem compositional_sendsOnly : Compositional (SendsOnly (σ := σ) A) where
  pure _ record _ := ⟨[], (List.append_nil record).symm, nofun⟩
  bind {α β x f} hx hf record s := by
    obtain ⟨sent, hrecord, hsent⟩ := hx record s
    obtain ⟨more, hrecord', hmore⟩ := hf ((x.run record).run s).1.1 (record ++ sent)
      ((x.run record).run s).2
    refine ⟨sent ++ more, ?_, List.forall_mem_append.2 ⟨hsent, hmore⟩⟩
    rw [← List.append_assoc, ← hrecord', ← hrecord]
    rfl

/-- What is done outside of the transport sends nothing. -/
theorem sendsOnly_lift {α : Type} (x : StateM σ α) :
    SendsOnly A α (liftM x : StateT (List Request) (StateM σ) α) :=
  fun record _ => ⟨[], (List.append_nil record).symm, nofun⟩

theorem sendsOnly_exchange (t : Transport (StateM σ)) {r : Request} (hr : A r) :
    SendsOnly A _ (t.recorded.exchange r) :=
  fun _ _ => ⟨[r], rfl, List.forall_mem_singleton.2 hr⟩

end Http

end PinKeeper
