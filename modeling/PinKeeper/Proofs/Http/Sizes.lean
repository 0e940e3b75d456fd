import PinKeeper.Proofs.Http.Call
import PinKeeper.Proofs.Maintenance.Tags

/-!
# Proofs/Http/Sizes — where a size that is tagged comes from

The size of what an identifier stands for is asked of the gateway, in one request or in two: first
for the links, and if there are none for the length of the content itself.  `Sizing` says what comes
of the answers.  Where there is no answer that can be read there is no size, but an answer about
the content that does not tell its length makes it zero (`Sizing.untold`).

A run that adds tags asks for the pins, and then about each pin by itself: for its size if it has no
size tag, and then for the tags that were found missing (`Tagging`).  So a size that is tagged is
the sum of links or a length that the gateway told, or it is the zero of an answer that told nothing
(`tagPins_asks_gateway`, `untold_size_tagged`).
-/

namespace PinKeeper

namespace Http

open Migrate

variable {σ α : Type} {t : Transport (StateM σ)} {c : Client} {cid profile : String} {pin : Pin}

/-! ## The size of content -/

/-- Request for the links of what an identifier stands for. -/
def Client.linksRequest (c : Client) (cid : String) : Except ClusterError Request :=
  c.request .get (contentUrl c.gateway cid) [("format", "dag-json")] none

/-- Request for the headers of what an identifier stands for. -/
def Client.lengthRequest (c : Client) (cid : String) : Except ClusterError Request :=
  c.request .head (contentUrl c.gateway cid) [] none

variable (t) in
/-- Sizes of the links that an answer tells. -/
def linksOf? (a : Answer) : Option (List Nat) :=
  (t.text? a).bind fun body => (Json.parse? body).bind linkSizes?

/-- What comes of asking the gateway for the size of what an identifier stands for. -/
inductive Sizing (t : Transport (StateM σ)) (c : Client) (cid : String) :
    Option Nat → List Asking → Prop
  /-- The links have a size in all, as it is counted in 64 bits. -/
  | links {q : Asking} {ns : List Nat} : c.linksRequest cid = .ok q.request →
      q.success?.bind (linksOf? t) = some ns → ns ≠ [] → Sizing t c cid (some (sum64 ns)) [q]
  /-- There are no links, and the content has a length. -/
  | length {q q' : Asking} {a : Answer} {n : Nat} : c.linksRequest cid = .ok q.request →
      q.success?.bind (linksOf? t) = some [] → c.lengthRequest cid = .ok q'.request →
      q'.success? = some a → toldLength? a.headers = some n → Sizing t c cid (some n) [q, q']
  /-- There are no links, and the content is there but its length is not told. -/
  | untold {q q' : Asking} {a : Answer} : c.linksRequest cid = .ok q.request →
      q.success?.bind (linksOf? t) = some [] → c.lengthRequest cid = .ok q'.request →
      q'.success? = some a → toldLength? a.headers = none → Sizing t c cid (some 0) [q, q']
  /-- No request could be made. -/
  | unmade {e : ClusterError} : c.linksRequest cid = .error e → Sizing t c cid none []
  /-- There is no answer about the links that can be read. -/
  | unread {q : Asking} : c.linksRequest cid = .ok q.request → q.success?.bind (linksOf? t) = none →
      Sizing t c cid none [q]
  /-- There are no links, and no answer about the content. -/
  | unanswered {q q' : Asking} : c.linksRequest cid = .ok q.request →
      q.success?.bind (linksOf? t) = some [] → c.lengthRequest cid = .ok q'.request →
      q'.success? = none → Sizing t c cid none [q, q']

/-- Where one request can be made to an address, another can. -/
theorem Client.exists_request {method : Method} {url : String} {ps : List (String × String)}
    {form : Option (List Part)} {r : Request} (h : c.request method url ps form = .ok r)
    (method' : Method) (ps' : List (String × String)) (form' : Option (List Part)) :
    ∃ r', c.request method' url ps' form' = .ok r' := by
  cases hu : Web.Url.parse url with
  | error e =>
    rw [Client.request, hu] at h
    cases h
  | ok u =>
    obtain ⟨r', hr', -⟩ := Client.request_of_parse (c := c) hu method' ps' form'
    exact ⟨r', hr'⟩

/-- What an answer about the content makes of its size. -/
theorem sizing_of_answered {q : Asking} {a? : Option Answer} {qs : List Asking}
    (hmade : c.linksRequest cid = .ok q.request) (hnone : q.success?.bind (linksOf? t) = some [])
    (h : Answered (c.lengthRequest cid) some a? qs) :
    Sizing t c cid (a?.map fun a => (toldLength? a.headers).getD 0) ([q] ++ qs) := by
  cases h with
  | unmade hnot =>
    obtain ⟨r', hr'⟩ := Client.exists_request hmade .head [] none
    rw [Client.lengthRequest, hr'] at hnot
    cases hnot
  | asked hmade' hread =>
    rw [Option.bind_fun_some] at hread
    cases a? with
    | none => exact .unanswered hmade hnone hmade' hread
    | some a =>
      cases hlength : toldLength? a.headers with
      | none =>
        rw [Option.map_some, hlength]
        exact .untold hmade hnone hmade' hread hlength
      | some n =>
        rw [Option.map_some, hlength]
        exact .length hmade hnone hmade' hread hlength

/-- **The size of content is asked for in one request or two**, and comes of their answers. -/
theorem asks_dagSize (cid : String) : Asks (fun answer qs => Sizing t c cid answer.toOption qs)
    ((c.cluster t.observed).dagSize cid) := by
  rw [Client.cluster]
  change Asks _ (c.dagSize t.observed cid)
  rw [Client.dagSize]
  refine Asks.bind answered_askFor fun answer qs hqs => ?_
  cases answer with
  | error e =>
    refine .pure ?_
    generalize hgiven : (Except.error e : Except ClusterError (List Nat)).toOption = given at hqs
    cases hqs with
    | unmade hmade => exact .unmade hmade
    | asked hmade hread => exact .unread hmade (hread.trans hgiven.symm)
  | ok ns =>
    generalize hgiven : (Except.ok ns : Except ClusterError (List Nat)).toOption = given at hqs
    cases hqs with
    | unmade hmade => cases hgiven
    | asked hmade hread =>
      have hlinks := hread.trans hgiven.symm
      cases ns with
      | nil =>
        refine Asks.bind answered_ask fun answer rs hrs => .pure ?_
        rw [List.append_nil]
        have hsizing := sizing_of_answered hmade hlinks hrs
        cases answer <;> exact hsizing
      | cons n ns => exact .pure (.links hmade hlinks (List.cons_ne_nil n ns))

/-! ## The tags of a pin -/

/-- What is asked about the size of a pin, with what is found: a pin with a size tag is not asked
about. -/
def Looked (t : Transport (StateM σ)) (c : Client) (pin : Pin) (size : Option Nat)
    (qs : List Asking) : Prop :=
  if pin.sizeTag.isSome then size = none ∧ qs = [] else Sizing t c pin.cid size qs

/-- What is asked to have a pin tagged: nothing if there is nothing to add, and else for the pin as
it is with the tags that it lacked. -/
def Posted (c : Client) (profile : String) (pin : Pin) (size : Option Nat) (qs : List Asking) :
    Prop :=
  if pin.org.isSome && size.isNone then qs = []
  else ∃ metadata, Filled profile size pin metadata ∧
    let request := { PinRequest.ofPin pin with metadata := metadata }
    qs.map (·.request)
      = (c.request .post (c.pinUrl pin.cid) (pinParameters request) none).toOption.toList

/-- What is asked about a pin in a run that adds tags: first for its size, and then for its tags. -/
def Tagging (t : Transport (StateM σ)) (c : Client) (profile : String) (pin : Pin)
    (qs : List Asking) : Prop :=
  ∃ size looked posted,
    Looked t c pin size looked ∧ Posted c profile pin size posted ∧ qs = looked ++ posted

theorem asks_missingSize (pin : Pin) :
    Asks (Looked t c pin) (missingSize (c.cluster t.observed) pin) := by
  rw [missingSize]
  split
  · next htag => exact .pure (by rw [Looked, if_pos htag]; exact ⟨rfl, rfl⟩)
  · next htag =>
    refine (asks_dagSize pin.cid).bind fun answer qs hqs => ?_
    have hlooked : Looked t c pin answer.toOption (qs ++ []) := by
      rw [Looked, if_neg htag, List.append_nil]
      exact hqs
    cases answer <;> exact .pure hlooked

variable {pause : StateM σ Unit}

theorem calls_sendRequest {request : PinRequest} : Calls
    (c.request .post (c.pinUrl request.cid) (pinParameters request) none)
    (Migrate.send (c.cluster t.observed) ⟨false, liftM pause⟩ request) := by
  rw [Migrate.send, if_neg Bool.false_ne_true]
  refine (calls_pin t c request).bind fun answer => ?_
  refine .liftBind fun _ => ?_
  cases answer <;> exact .pure rfl

theorem asks_tagPin (pin : Pin) : Asks (fun _ qs => Tagging t c profile pin qs)
    (tagPin (c.cluster t.observed) ⟨false, liftM pause⟩ profile pin) := by
  rw [tagPin]
  split
  · next htags =>
    obtain ⟨horg, hsize⟩ := Bool.and_eq_true_iff.1 htags
    refine .pure ⟨none, [], [], ?_, ?_, rfl⟩
    · rw [Looked, if_pos hsize]
      exact ⟨rfl, rfl⟩
    · rw [Posted, horg]
      rfl
  · refine (asks_missingSize pin).bind fun size qs hqs => ?_
    split
    · next hnone =>
      exact .pure ⟨size, qs, [], hqs, by rw [Posted, if_pos hnone], rfl⟩
    · next hsome =>
      refine calls_sendRequest.mono fun _ rs hrs => ⟨size, qs, rs, hqs, ?_, rfl⟩
      rw [Posted, if_neg hsome]
      exact ⟨_, filled_tagged profile size pin, hrs⟩

/-! ## A run -/

/-- **What a pass asks is what its step asks about each pin**, in the order of the pins. -/
theorem asks_forEach {step : Pin → StateT (List Exchange) (StateM σ) Outcome}
    {A : Pin → List Asking → Prop} (h : ∀ pin, Asks (fun _ qs => A pin qs) (step pin)) :
    ∀ pins, Asks (fun log qs => log.length = pins.length ∧
      ∃ asked, List.Forall₂ A pins asked ∧ qs = asked.flatten) (forEach step pins)
  | [] => .pure ⟨rfl, [], .nil, rfl⟩
  | pin :: pins => by
    rw [forEach]
    refine (h pin).bind fun _ qs hqs => ?_
    refine (asks_forEach h pins).bind fun log rs hrs => ?_
    obtain ⟨hlength, asked, hasked, rfl⟩ := hrs
    exact .pure ⟨congrArg (· + 1) hlength, qs :: asked, .cons hqs hasked, by simp⟩

/-- What is asked in a run that adds tags: for the pins, and about each if they are listed. -/
inductive TaggingAll (t : Transport (StateM σ)) (c : Client) (profile : String) :
    Except Failure TagReport → List Asking → Prop
  | unlisted {e : Failure} {qs : List Asking} :
      Answered (c.request .get (c.api ++ "/pins") [] none)
        (fun a => (t.text? a).bind (listing? Pin.ofJson?)) none qs →
      TaggingAll t c profile (.error e) qs
  | listed {report : TagReport} {pins : List Pin} {qs : List Asking} {asked : List (List Asking)} :
      Answered (c.request .get (c.api ++ "/pins") [] none)
        (fun a => (t.text? a).bind (listing? Pin.ofJson?)) (some pins) qs →
      report.total = pins.length → List.Forall₂ (Tagging t c profile) pins asked →
      TaggingAll t c profile (.ok report) (qs ++ asked.flatten)

/-- **A run that adds tags asks the gateway for each size that it adds.**  It asks for the pins, and
about each that is listed: for the size if it has none, and then for just the tags that it lacked,
of which the size is the one that the answers of the gateway came to. -/
theorem tagPins_asks_gateway (c : Client) (t : Transport (StateM σ)) (p : Policy) (profile : String)
    (pause : StateM σ Unit) (hprofile : (p.profile profile).isSome = true) :
    Asks (TaggingAll t c profile)
      (tagPins (c.cluster t.observed) p profile ⟨false, liftM pause⟩) := by
  rw [tagPins, Option.isNone_eq_false_iff.2 hprofile, if_neg Bool.false_ne_true]
  have hpins : AnsweredBy (c.request .get (c.api ++ "/pins") [] none)
      (fun a => (t.text? a).bind (listing? Pin.ofJson?)) (c.cluster t.observed).pins := by
    rw [Client.cluster]
    exact answered_askFor
  refine Asks.bind hpins fun answer qs hqs => ?_
  cases answer with
  | error e => exact .pure (by rw [List.append_nil]; exact .unlisted hqs)
  | ok pins =>
    refine (asks_forEach asks_tagPin pins).bind fun log rs hrs => ?_
    obtain ⟨hlength, asked, hasked, rfl⟩ := hrs
    exact .pure (by rw [List.append_nil]; exact .listed hqs hlength hasked)

namespace Sample

/-- Server with one pin, of which the gateway tells neither links nor a length. -/
def mute : Transport (StateM Unit) where
  exchange r := pure <| some <| match r.method, r.url.path with
    | .get, "/pins" => .plain 200 "\x7b\"cid\":\"few\",\"allocations\":[\"A\"]\x7d"
    | .get, _ => .plain 200 "\x7b\"Links\":[]\x7d"
    | _, _ => .plain 200 ""
  write _ _ := pure (.ok ())
  log _ := pure ()
  decode := bodyText

end Sample

theorem tagPins_asks_gateway_sample :
    (PinKeeper.Sample.policy.profile "acme").isSome = true ∧
      Asks (TaggingAll Sample.mute Sample.node "acme")
        (tagPins (Sample.node.cluster Sample.mute.observed) PinKeeper.Sample.policy "acme"
          ⟨false, liftM (pure () : StateM Unit Unit)⟩) := by
  have hprofile : (PinKeeper.Sample.policy.profile "acme").isSome = true := by decide
  exact ⟨hprofile, tagPins_asks_gateway Sample.node Sample.mute PinKeeper.Sample.policy "acme"
    (pure ()) hprofile⟩

/-- **A size that was not told is tagged as zero**: the gateway answers about content without links,
but says nothing of its length. -/
theorem untold_size_tagged :
    let run := tagPins (Sample.node.cluster Sample.mute.observed) PinKeeper.Sample.policy "acme"
      (.plain false)
    let exchanges := ((run.run []).run ()).1.2
    exchanges.map (fun e => (e.request.method, e.request.url.path, e.request.url.query))
        = [(.get, "/pins", none), (.get, "/ipfs/few", some "format=dag-json"),
          (.head, "/ipfs/few", none),
          (.post, "/pins/few",
            some "mode=recursive&allocations=A&meta-org=acme&meta-size=0")] ∧
      exchanges.map (fun e =>
          e.answer?.map fun a => (linksOf? Sample.mute a, toldLength? a.headers))
        = [some (some [], none), some (some [], none), some (none, none), some (none, none)] := by
  decide +kernel

end Http

end PinKeeper
