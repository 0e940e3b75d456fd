import PinKeeper.Proofs.Http.Address
import PinKeeper.Proofs.Http.Call
import PinKeeper.Proofs.Web.Names

/-!
# Proofs/Http/Resource — which pin a request is about

A server takes the pin that a request is about from the names in its path.  The client writes the
identifier into the address as it is, so that the path may name another pin than the one that is
meant, or none at all (`identifier_climbs`).  At a node with a plain host the path has the
identifier for a name exactly if it stands for itself and, where nothing follows it, ends visibly
(`own_pin_iff`).  Requests about such identifiers never meet at one path.
-/

namespace PinKeeper.Http

open Web

/-! ## Calls about one pin -/

/-- Call about one pin. -/
inductive PinCall where
  | status (cid : String)
  | unpin (cid : String)
  | recover (cid : String)
  | pin (request : PinRequest)

namespace PinCall

def cid : PinCall → String
  | .status cid | .unpin cid | .recover cid => cid
  | .pin r => r.cid

def method : PinCall → Method
  | .status _ => .get
  | .unpin _ => .delete
  | .recover _ | .pin _ => .post

/-- What is asked for below the pin. -/
def below : PinCall → List String
  | .recover _ => ["recover"]
  | .status _ | .unpin _ | .pin _ => []

def parameters : PinCall → List (String × String)
  | .pin r => pinParameters r
  | .status _ | .unpin _ | .recover _ => []

/-- Query that has the parameters and nothing else. -/
def query (call : PinCall) : Option String :=
  if call.parameters.isEmpty then none else some (String.ofList (Form.encode call.parameters))

/-- Address that the client makes. -/
def address (c : Client) : PinCall → String
  | .recover cid => c.pinUrl cid ++ "/recover"
  | call => c.pinUrl call.cid

/-- The identifier stands for itself where it is written. -/
def Clear (call : PinCall) : Prop :=
  IsName call.cid ∧ (call.below = [] → EndsVisibly call.cid.toList)

instance (call : PinCall) : Decidable call.Clear :=
  inferInstanceAs (Decidable (_ ∧ (_ → _)))

/-- Makes the call, whatever comes of it. -/
def run {m : Type → Type} [Monad m] (c : Client) (t : Transport m) : PinCall → m Unit
  | .status cid => do let _ ← (c.cluster t).pinStatus cid
  | .unpin cid => do let _ ← (c.cluster t).unpin cid
  | .recover cid => do let _ ← (c.cluster t).recover cid
  | .pin r => do let _ ← (c.cluster t).pin r

end PinCall

variable {σ : Type}

theorem calls_run (t : Transport (StateM σ)) (c : Client) (call : PinCall) :
    Calls (c.request call.method (call.address c) call.parameters none)
      (call.run c t.observed) := by
  cases call with
  | status cid => exact (calls_pinStatus t c cid).bind fun _ => .pure rfl
  | unpin cid => exact (calls_unpin t c cid).bind fun _ => .pure rfl
  | recover cid => exact (calls_recover t c cid).bind fun _ => .pure rfl
  | pin r => exact (calls_pin t c r).bind fun _ => .pure rfl

/-- The request is for the pin of a call: its path names the pin and what is below, and all else of
the address is the parameters. -/
structure Request.IsFor (q : Request) (call : PinCall) : Prop where
  names : q.url.names = ("pins" :: call.cid :: call.below).map some
  query : q.url.query = call.query

/-! ## Addresses -/

theorem endsVisibly_append_slash (front cs : List Char) :
    EndsVisibly (front ++ '/' :: cs) ↔ EndsVisibly cs := by
  cases cs with
  | nil => simp [EndsVisibly]
  | cons c cs => simp [EndsVisibly, List.getLast?_append, List.getLast?_cons]

theorem endsVisibly_spelled (call : PinCall) :
    EndsVisibly (Url.spelled "pins" (call.cid :: call.below))
      ↔ (call.below = [] → EndsVisibly call.cid.toList) := by
  have hlast (cid : String) : EndsVisibly (Url.spelled "pins" [cid]) ↔ EndsVisibly cid.toList := by
    have hspelled : Url.spelled "pins" [cid] = "pins".toList ++ '/' :: cid.toList := by
      simp [Url.spelled, Text.separated]
    rw [hspelled, endsVisibly_append_slash]
  cases call with
  | recover cid =>
    have hbelow : Url.spelled "pins" [cid, "recover"]
        = Url.spelled "pins" [cid] ++ '/' :: "recover".toList := by
      simp [Url.spelled, Text.separated]
    have hvisible : EndsVisibly "recover".toList := by decide
    simp only [PinCall.cid, PinCall.below, hbelow, endsVisibly_append_slash, hvisible,
      List.cons_ne_nil, false_implies]
  | status cid | unpin cid => simp [PinCall.cid, PinCall.below, hlast]
  | pin r => simp [PinCall.cid, PinCall.below, hlast]

theorem forall_isName_iff (call : PinCall) :
    (∀ m ∈ "pins" :: call.cid :: call.below, IsName m) ↔ IsName call.cid := by
  have hpins : IsName "pins" := by decide
  have hbelow : ∀ m ∈ call.below, IsName m := by
    have hrecover : IsName "recover" := by decide
    cases call <;> simp [PinCall.below, hrecover]
  simp only [List.forall_mem_cons, hpins, true_and]
  exact ⟨fun h => h.1, fun h => ⟨h, hbelow⟩⟩

section Node

variable {host : String} {credentials : Option Credentials} {s : TransportSettings}

theorem address_ofHost (call : PinCall) : call.address (.ofHost host credentials s)
    = String.ofList ("http://".toList ++ (site host s.apiPort
        ++ '/' :: Url.spelled "pins" (call.cid :: call.below))) := by
  have hapi := api_ofHost host credentials s
  rw [serviceUrl_eq] at hapi
  rw [← String.toList_inj]
  cases call <;>
    simp [PinCall.address, PinCall.below, PinCall.cid, Client.pinUrl, hapi, Url.spelled,
      Text.separated]

theorem parse_address (hhost : PlainHost host) {base : Url}
    (hbase : Url.parse (serviceUrl host s.apiPort) = .ok base) (call : PinCall) :
    Url.parse (call.address (.ofHost host credentials s)) = .ok (base.beneath
      (Url.cleanEnd (Url.spelled "pins" (call.cid :: call.below)))) := by
  have hne : site host s.apiPort ≠ [] :=
    List.append_ne_nil_of_right_ne_nil _ (List.cons_ne_nil _ _)
  rw [address_ofHost, Url.parse_append (fun c hc => isPlainInHost_of_mem_site hhost hc) hne,
    ← serviceUrl_eq, hbase]
  rfl

/-- **A call is about its own pin exactly if the identifier stands for itself.**  The names in the
path are read as they are meant, and then nothing but the parameters is left for the query. -/
theorem isFor_iff {base u : Url} {call : PinCall} {q : Request}
    (hu : u = base.beneath (Url.cleanEnd (Url.spelled "pins" (call.cid :: call.below))))
    (hq : q.url = u.withParameters call.parameters) : q.IsFor call ↔ call.Clear := by
  have hnames : q.url.names = u.names := by
    rw [hq, Url.names, path_withParameters, Url.names]
  have hiff : q.url.names = ("pins" :: call.cid :: call.below).map some ↔ call.Clear := by
    rw [hnames, hu, Url.names_beneath_iff, forall_isName_iff, endsVisibly_spelled]
    rfl
  refine ⟨fun h => hiff.1 h.names, fun h => ⟨hiff.2 h, ?_⟩⟩
  have hnone : u.query = none := by
    rw [hu]
    exact base.query_beneath ((forall_isName_iff call).2 h.1) ((endsVisibly_spelled call).2 h.2)
  rw [hq, Url.withParameters, PinCall.query]
  split
  · exact hnone
  · rw [hnone]
    rfl

/-- **A request is about the pin that it is meant for exactly if the identifier stands for itself.**
Every call about a pin, at a node whose host is plain, asks for one request.  Its path has the
identifier for a name, with all else of it in place and nothing of it in the query, if and only if
the identifier has no separators, line breaks, tabs or escapes, is no dot segment and, where it
comes last, ends visibly.  Requests that are so for different identifiers have different paths. -/
theorem own_pin_iff (host : String) (credentials : Option Credentials) (s : TransportSettings)
    (hhost : PlainHost host) {base : Url}
    (hbase : Url.parse (serviceUrl host s.apiPort) = .ok base) (t : Transport (StateM σ)) :
    (∀ call : PinCall, ∃ q,
      AsksOne (· = q) (call.run (.ofHost host credentials s) t.observed) ∧
        (q.IsFor call ↔ call.Clear)) ∧
    ∀ (call call' : PinCall) (q q' : Request), q.IsFor call → q'.IsFor call' →
      q.url.path = q'.url.path → call.cid = call'.cid := by
  refine ⟨fun call => ?_, fun call call' q q' hq hq' hpath => ?_⟩
  · obtain ⟨q, hmade, hurl⟩ := (Client.ofHost host credentials s).request_of_parse
      (parse_address hhost hbase call) call.method call.parameters none
    exact ⟨q, (calls_run t _ call).asksOne hmade rfl, isFor_iff rfl hurl⟩
  · have hnames : q.url.names = q'.url.names := by rw [Url.names, hpath, Url.names]
    rw [hq.names, hq'.names] at hnames
    simp only [List.map_cons, List.cons.injEq, Option.some.injEq] at hnames
    exact hnames.2.1

end Node

namespace Sample

/-- Pin request for an identifier that stands for itself, though not all of it goes unescaped. -/
def upsert : PinRequest := ⟨"größe π", some "n", ["A"], none, some 2, .empty⟩

end Sample

theorem own_pin_iff_sample :
    PlainHost "127.0.0.1" ∧
      Url.parse (serviceUrl "127.0.0.1" Sample.settings.apiPort)
        = .ok ⟨false, none, "127.0.0.1", 9094, "/", none⟩ ∧
      ∃ q, AsksOne (· = q) ((PinCall.pin Sample.upsert).run Sample.node Sample.silent.observed) ∧
        q.IsFor (.pin Sample.upsert) := by
  have hhost : PlainHost "127.0.0.1" := by decide +kernel
  have hbase : Url.parse (serviceUrl "127.0.0.1" Sample.settings.apiPort)
      = .ok ⟨false, none, "127.0.0.1", 9094, "/", none⟩ := by decide +kernel
  have hclear : (PinCall.pin Sample.upsert).Clear := by decide +kernel
  obtain ⟨q, hq, hiff⟩ := (own_pin_iff "127.0.0.1" none Sample.settings hhost hbase
    Sample.silent).1 (.pin Sample.upsert)
  exact ⟨hhost, hbase, q, hq, hiff.2 hclear⟩

/-- **An identifier that climbs names another pin**: the request to unpin it removes that one. -/
theorem identifier_climbs :
    "lost/../few" ≠ "few" ∧
      AsksOne (fun q => q.method = .delete ∧ q.url.path = "/pins/few" ∧
          ¬q.IsFor (.unpin "lost/../few") ∧ q.IsFor (.unpin "few"))
        ((Sample.node.cluster Sample.silent.observed).unpin "lost/../few") := by
  have hu : Url.parse (Sample.node.pinUrl "lost/../few")
      = .ok ⟨false, none, "127.0.0.1", 9094, "/pins/few", none⟩ := by decide +kernel
  obtain ⟨q, hq, hurl⟩ := Sample.node.request_of_parse hu .delete [] none
  have hnames : q.url.names = [some "pins", some "few"] := by
    rw [hurl]
    decide +kernel
  refine ⟨by decide, (calls_unpin Sample.silent Sample.node "lost/../few").asksOne hq
    ⟨Client.method_of_request hq, by rw [hurl]; rfl, fun h => ?_, ⟨hnames, by rw [hurl]; rfl⟩⟩⟩
  exact absurd (hnames.symm.trans h.names) (by decide)

end PinKeeper.Http
