import PinKeeper.Proofs.Dict
import PinKeeper.Proofs.Http.Call
import PinKeeper.Proofs.Text.Decimal
import PinKeeper.Proofs.Web.Form

/-!
# Proofs/Http/Query — what a server reads in the query of a request

The fields of a pin request and of an upload are sent in the query of an address.  `Query` is what a
server takes from there, and `Query.ofParameters` how it does so: each field has a parameter of its
own, a parameter that is missing means nothing, and all that begins with `meta-` is metadata.

The parameters of a request are read back as its fields (`ofParameters_pinParameters`,
`ofParameters_addParameters`), as long as no peer has a comma in its identifier.  They are written
behind those that the address has already (`said_withParameters`), and an address gets some of its
own where an identifier has a question mark (`identifier_names_pin`).  All in all the query of a
request says what the request says, and nothing else, if its address says nothing
(`queries_faithful`).
-/

namespace PinKeeper

namespace Http

open Web

/-! ## Reading -/

/-- Fields of a pin or of an upload, as a query has them. -/
structure Query where
  mode : Option String
  name : Option String
  allocations : List String
  replicationMin : Option Int
  replicationMax : Option Int
  onReceiver : Bool
  metadata : Dict String
deriving DecidableEq

namespace Query

/-- Texts between commas. -/
def peers (s : String) : List String := (Text.splitAt ',' s.toList).map String.ofList

/-- Entry of the metadata that a parameter is, if its name begins so. -/
def metadata? (p : String × String) : Option (String × String) :=
  match p.1.toList with
  | 'm' :: 'e' :: 't' :: 'a' :: '-' :: key => some (String.ofList key, p.2)
  | _ => none

/-- Reads parameters; of several with one name the first counts. -/
def ofParameters (ps : List (String × String)) : Query where
  mode := Dict.lookupIn "mode" ps
  name := Dict.lookupIn "name" ps
  allocations := ((Dict.lookupIn "allocations" ps).map peers).getD []
  replicationMin := (Dict.lookupIn "replication-min" ps).bind Text.integer?
  replicationMax := (Dict.lookupIn "replication-max" ps).bind Text.integer?
  onReceiver := Dict.lookupIn "local" ps == some "true"
  metadata := Dict.ofList (ps.filterMap metadata?)

/-- What a pin request says. -/
def ofPin (r : PinRequest) : Query :=
  ⟨some "recursive", r.name, r.allocations, r.replicationMin, r.replicationMax, false, r.metadata⟩

/-- What an upload says. -/
def ofAdd (r : AddRequest) : Query :=
  ⟨none, some r.name, r.allocations, none, none, r.onReceiver, r.metadata⟩

/-! ## Metadata -/

theorem metadata?_meta (e : String × String) : metadata? ("meta-" ++ e.1, e.2) = some e := by
  have hlist : ("meta-" ++ e.1).toList = 'm' :: 'e' :: 't' :: 'a' :: '-' :: e.1.toList :=
    String.toList_append
  rw [metadata?, hlist]
  exact congrArg some (Prod.ext String.ofList_toList rfl)

/-- Names of all that is not metadata. -/
def fieldNames : List String :=
  ["mode", "name", "allocations", "replication-min", "replication-max", "local"]

theorem metadata?_of_mem_fieldNames {k : String} (hk : k ∈ fieldNames) (v : String) :
    metadata? (k, v) = none := by
  simp only [fieldNames, List.mem_cons, List.not_mem_nil, or_false] at hk
  rcases hk with rfl | rfl | rfl | rfl | rfl | rfl <;> simp [metadata?]

/-- **The metadata is read back.** -/
theorem filterMap_metadataParameters (d : Dict String) :
    (metadataParameters d).filterMap metadata? = d.entries := by
  rw [metadataParameters, List.filterMap_map]
  exact (List.filterMap_congr fun e _ => metadata?_meta e).trans List.filterMap_some

/-- Metadata is none of the other fields. -/
theorem lookupIn_metadataParameters {k : String} (hk : k ∈ fieldNames) (d : Dict String) :
    Dict.lookupIn k (metadataParameters d) = none := by
  rw [metadataParameters]
  induction d.entries with
  | nil => rfl
  | cons e es ih =>
    rw [List.map_cons, Dict.lookupIn, if_neg, ih]
    rintro rfl
    exact Option.some_ne_none e ((metadata?_meta e).symm.trans (metadata?_of_mem_fieldNames hk e.2))

/-! ## Fields -/

/-- Parameters of fields whose values may be missing. -/
def fields (fs : List (String × Option String)) : List (String × String) :=
  fs.flatMap fun f => optionalParameter f.1 f.2

/-- Value of a field: the first that is there under its name. -/
def valueIn (k : String) : List (String × Option String) → Option String
  | [] => none
  | f :: fs => (if f.1 = k then f.2 else none).or (valueIn k fs)

theorem lookupIn_fields (k : String) (fs : List (String × Option String)) :
    Dict.lookupIn k (fields fs) = valueIn k fs := by
  induction fs with
  | nil => rfl
  | cons f fs ih =>
    have hfirst : Dict.lookupIn k (optionalParameter f.1 f.2) = if f.1 = k then f.2 else none := by
      rcases f with ⟨name, _ | v⟩
      · rw [ite_self]
        rfl
      · rfl
    rw [fields, List.flatMap_cons, Dict.lookupIn_append, ← fields, ih, hfirst, valueIn]

theorem filterMap_fields {fs : List (String × Option String)} (hfs : ∀ f ∈ fs, f.1 ∈ fieldNames) :
    (fields fs).filterMap metadata? = [] := by
  rw [List.filterMap_eq_nil_iff]
  intro p hp
  obtain ⟨⟨name, v⟩, hf, hp⟩ := List.mem_flatMap.1 hp
  cases v with
  | none => cases hp
  | some v =>
    rw [List.mem_singleton.1 hp]
    exact metadata?_of_mem_fieldNames (hfs _ hf) v

/-- **Fields in front of metadata are read as they are**, and the metadata as it is. -/
theorem ofParameters_fields {fs : List (String × Option String)} (hfs : ∀ f ∈ fs, f.1 ∈ fieldNames)
    (d : Dict String) : ofParameters (fields fs ++ metadataParameters d) =
      { mode := valueIn "mode" fs
        name := valueIn "name" fs
        allocations := ((valueIn "allocations" fs).map peers).getD []
        replicationMin := (valueIn "replication-min" fs).bind Text.integer?
        replicationMax := (valueIn "replication-max" fs).bind Text.integer?
        onReceiver := valueIn "local" fs == some "true"
        metadata := d } := by
  have hlookup : ∀ k ∈ fieldNames,
      Dict.lookupIn k (fields fs ++ metadataParameters d) = valueIn k fs := by
    intro k hk
    rw [Dict.lookupIn_append, lookupIn_metadataParameters hk, Option.or_none, lookupIn_fields]
  have hmetadata : (fields fs ++ metadataParameters d).filterMap metadata? = d.entries := by
    rw [List.filterMap_append, filterMap_fields hfs, filterMap_metadataParameters, List.nil_append]
  simp only [fieldNames, List.forall_mem_cons] at hlookup
  obtain ⟨hmode, hname, hpeers, hleast, hmost, hlocal, -⟩ := hlookup
  rw [ofParameters, hmode, hname, hpeers, hleast, hmost, hlocal, hmetadata, Dict.ofList_entries]

/-- Peers are a field like others, which is missing where there is none. -/
def peersValue (ps : List String) : Option String :=
  if ps.isEmpty then none else some (Text.joined "," ps)

theorem allocationParameter_eq (ps : List String) :
    allocationParameter ps = optionalParameter "allocations" (peersValue ps) := by
  rw [allocationParameter, peersValue]
  split <;> rfl

/-- **The peers are read back**, none as well as one without a name. -/
theorem peers_peersValue {ps : List String} (hcomma : ∀ p ∈ ps, ',' ∉ p.toList) :
    ((peersValue ps).map peers).getD [] = ps := by
  rw [peersValue]
  split
  · next hempty => exact (List.isEmpty_iff.1 hempty).symm
  · next hne =>
    rw [List.isEmpty_iff] at hne
    rw [Option.map_some, Option.getD_some, peers, Text.splitAt_joined rfl hne hcomma, List.map_map]
    exact (List.map_congr_left fun p _ => String.ofList_toList).trans (List.map_id ps)

theorem bind_integer? (i : Option Int) : (i.map Text.integer).bind Text.integer? = i := by
  cases i with
  | none => rfl
  | some i => exact Text.integer?_integer i

/-! ## Requests -/

/-- **The parameters of a pin request are read as what it says.** -/
theorem ofParameters_pinParameters {r : PinRequest}
    (hcomma : ∀ p ∈ r.allocations, ',' ∉ p.toList) :
    ofParameters (pinParameters r) = ofPin r := by
  have hparameters : pinParameters r = fields
      [("mode", some "recursive"), ("name", r.name), ("allocations", peersValue r.allocations),
        ("replication-min", r.replicationMin.map Text.integer),
        ("replication-max", r.replicationMax.map Text.integer)]
      ++ metadataParameters r.metadata := by
    simp [pinParameters, fields, allocationParameter_eq, optionalParameter]
  rw [hparameters, ofParameters_fields (by simp [fieldNames])]
  simp [valueIn, ofPin, peers_peersValue hcomma, bind_integer?]

/-- **The parameters of an upload are read as what it says.** -/
theorem ofParameters_addParameters {r : AddRequest}
    (hcomma : ∀ p ∈ r.allocations, ',' ∉ p.toList) :
    ofParameters (addParameters r) = ofAdd r := by
  have hparameters : addParameters r = fields
      [("name", some r.name), ("allocations", peersValue r.allocations),
        ("local", if r.onReceiver then some "true" else none)]
      ++ metadataParameters r.metadata := by
    cases hreceiver : r.onReceiver <;>
      simp [addParameters, fields, allocationParameter_eq, optionalParameter, hreceiver]
  rw [hparameters, ofParameters_fields (by simp [fieldNames])]
  cases hreceiver : r.onReceiver <;>
    simp [valueIn, ofAdd, peers_peersValue hcomma, hreceiver]

end Query

end Http

/-! ## Addresses -/

namespace Web.Url

open Http

/-- Parameters that the query of an address is read as. -/
def said (u : Url) : Option (List (String × String)) := Form.decode? (u.query.getD "").toList

/-- The query of an address is read as some fields. -/
def Says (u : Url) (q : Query) : Prop := u.said.map Query.ofParameters = some q

instance (u : Url) (q : Query) : Decidable (u.Says q) := inferInstanceAs (Decidable (_ = _))

/-- **A query says one thing.** -/
theorem Says.eq {u u' : Url} {q q' : Query} (h : u.Says q) (h' : u'.Says q')
    (hquery : u.query = u'.query) : q = q' := by
  rw [Says, said, hquery] at h
  exact Option.some.inj (h.symm.trans h')

/-- **Parameters are written behind those that an address has.** -/
theorem said_withParameters {u : Url} {own : List (String × String)} (h : u.said = some own)
    (ps : List (String × String)) : (u.withParameters ps).said = some (own ++ ps) := by
  rw [withParameters]
  split
  · next hempty => rw [List.isEmpty_iff.1 hempty, List.append_nil, h]
  · rw [said] at h ⊢
    dsimp only [Option.getD_some]
    rw [String.toList_ofList]
    split
    · next hold =>
      rw [List.isEmpty_iff.1 hold] at h
      obtain rfl : [] = own := Option.some.inj h
      exact Form.decode?_encode ps
    · rw [Form.decode?_append, h, Form.decode?_encode]
      rfl

/-- No query begins but at a question mark. -/
theorem queryOf_of_notMem {cs : List Char} (h : '?' ∉ cs) : queryOf cs = none := by
  rw [queryOf]
  split
  · next q hq =>
    have hmem : '?' ∈ cs.takeWhile (· != '#') := hq ▸ List.mem_cons_self
    exact absurd (List.takeWhile_subset _ hmem) h
  · rfl

theorem query_of_ofAuthority {secure : Bool} {cs : List Char} {u : Url} (h : '?' ∉ cs)
    (hu : ofAuthority secure cs = .ok u) : u.query = none := by
  have hrest (p q : Char → Bool) : '?' ∉ (cs.dropWhile p).dropWhile q := fun hmem =>
    h ((List.dropWhile_suffix p).subset ((List.dropWhile_suffix q).subset hmem))
  simp only [ofAuthority, splitPath] at hu
  split at hu
  · rw [← Except.ok.inj hu]
    exact queryOf_of_notMem (hrest _ _)
  · cases hu

theorem clean_subset (s : String) : clean s ⊆ s.toList := by
  intro c hc
  rw [clean, List.mem_filter, List.mem_reverse] at hc
  have hback := (List.dropWhile_suffix _).subset hc.1
  exact (List.dropWhile_suffix _).subset (List.mem_reverse.1 hback)

theorem subset_of_scheme? {cs rest : List Char} {scheme : String}
    (h : scheme? cs = some (scheme, rest)) : rest ⊆ cs := by
  rw [scheme?] at h
  split at h
  · next hdrop =>
    split at h
    · rw [← (Prod.mk.inj (Option.some.inj h)).2]
      intro c hc
      have hmem := List.mem_cons_of_mem ':' hc
      rw [← hdrop] at hmem
      exact (List.dropWhile_suffix _).subset hmem
    · cases h
  · cases h

/-- **An address without a question mark says nothing.** -/
theorem said_of_parse {url : String} {u : Url} (h : '?' ∉ url.toList) (hu : parse url = .ok u) :
    u.said = some [] := by
  have hquery : u.query = none := by
    rw [parse] at hu
    split at hu
    · cases hu
    · next scheme rest hscheme =>
      split at hu
      · refine query_of_ofAuthority (fun hmem => h ?_) hu
        exact clean_subset url (subset_of_scheme? hscheme ((List.dropWhile_suffix _).subset hmem))
      · cases hu
  rw [said, hquery]
  rfl

end Web.Url

namespace Http

open Web

/-! ## Requests that are sent -/

variable {σ : Type}

/-- The parameters of a pin request are all there, behind those that the address of the pin has. -/
theorem asksOne_pin (t : Transport (StateM σ)) {c : Client} {r : PinRequest} {u : Url}
    {own : List (String × String)} (hu : Url.parse (c.pinUrl r.cid) = .ok u)
    (hown : u.said = some own) :
    AsksOne (fun q => q.url.said = some (own ++ pinParameters r))
      ((c.cluster t.observed).pin r) := by
  obtain ⟨q, hq, hurl⟩ := c.request_of_parse hu .post (pinParameters r) none
  refine (calls_pin t c r).asksOne hq ?_
  rw [hurl, Url.said_withParameters hown]

theorem asksOne_add (t : Transport (StateM σ)) {c : Client} {r : AddRequest} {u : Url}
    {own : List (String × String)} (hu : Url.parse (c.api ++ "/add") = .ok u)
    (hown : u.said = some own) :
    AsksOne (fun q => q.url.said = some (own ++ addParameters r))
      ((c.cluster t.observed).add r) := by
  obtain ⟨q, hq, hurl⟩ := c.request_of_parse hu .post (addParameters r) (some (parts r.files))
  refine (calls_add t c r).asksOne hq ?_
  rw [hurl, Url.said_withParameters hown]

/-- **The query of a request says what the request says, and nothing else**: no name, peer, key or
value adds, drops or changes a parameter.  A client whose address has no question mark asks for one
upload as it is meant, and for one pin request if the identifier has none either; in any case the
parameters are all there, behind those that the address of the pin has of its own.  So requests that
differ have queries that differ. -/
theorem queries_faithful (c : Client) (t : Transport (StateM σ)) (hapi : '?' ∉ c.api.toList) :
    (∀ (r : PinRequest) (u : Url), Url.parse (c.pinUrl r.cid) = .ok u →
      (∀ p ∈ r.allocations, ',' ∉ p.toList) → '?' ∉ r.cid.toList →
      AsksOne (fun q => q.url.Says (.ofPin r)) ((c.cluster t.observed).pin r)) ∧
    (∀ (r : AddRequest) (u : Url), Url.parse (c.api ++ "/add") = .ok u →
      (∀ p ∈ r.allocations, ',' ∉ p.toList) →
      AsksOne (fun q => q.url.Says (.ofAdd r)) ((c.cluster t.observed).add r)) ∧
    (∀ (r : PinRequest) (u : Url) (own : List (String × String)),
      Url.parse (c.pinUrl r.cid) = .ok u → u.said = some own →
      AsksOne (fun q => q.url.said = some (own ++ pinParameters r))
        ((c.cluster t.observed).pin r)) ∧
    (∀ (u u' : Url) (r r' : PinRequest), u.Says (.ofPin r) → u'.Says (.ofPin r') →
      u.query = u'.query → r' = { r with cid := r'.cid }) ∧
    (∀ (u u' : Url) (r r' : AddRequest), u.Says (.ofAdd r) → u'.Says (.ofAdd r') →
      u.query = u'.query → r' = { r with path := r'.path, files := r'.files }) := by
  refine ⟨fun r u hu hcomma hcid => ?_, fun r u hu hcomma => ?_,
    fun r u own hu hown => asksOne_pin t hu hown, fun u u' r r' hr hr' hquery => ?_,
    fun u u' r r' hr hr' hquery => ?_⟩
  · have hnone : '?' ∉ (c.pinUrl r.cid).toList := by simp [Client.pinUrl, hapi, hcid]
    refine (asksOne_pin t hu (Url.said_of_parse hnone hu)).mono fun q hq => ?_
    rw [Url.Says, hq, List.nil_append, Option.map_some, Query.ofParameters_pinParameters hcomma]
  · have hnone : '?' ∉ (c.api ++ "/add").toList := by simp [hapi]
    refine (asksOne_add t hu (Url.said_of_parse hnone hu)).mono fun q hq => ?_
    rw [Url.Says, hq, List.nil_append, Option.map_some, Query.ofParameters_addParameters hcomma]
  · have heq := hr.eq hr' hquery
    simp only [Query.ofPin, Query.mk.injEq] at heq
    obtain ⟨-, hname, hpeers, hleast, hmost, -, hmetadata⟩ := heq
    rw [hname, hpeers, hleast, hmost, hmetadata]
  · have heq := hr.eq hr' hquery
    simp only [Query.ofAdd, Query.mk.injEq, Option.some.injEq] at heq
    obtain ⟨-, hname, hpeers, -, -, hreceiver, hmetadata⟩ := heq
    rw [hname, hpeers, hreceiver, hmetadata]

namespace Sample

/-- Pin request with marks that have a meaning in a query. -/
def marked : PinRequest :=
  ⟨"few", some "a&name=b", ["A", "B=1&mode=direct"], some (-1), none,
    Dict.ofList [("org", "é + 50%25#"), ("x=y&local", "")]⟩

/-- Upload with marks that have a meaning in a query. -/
def markedUpload : AddRequest := ⟨"x", "a&local=false", [], [""], true, .ofList [("+", "&=")]⟩

/-- Pin request without a name, for an identifier with a question mark. -/
def disguised : PinRequest := ⟨"few?name=evil", none, ["A"], none, none, .empty⟩

end Sample

theorem queries_faithful_sample :
    '?' ∉ Sample.node.api.toList ∧
      AsksOne (fun q => q.url.Says (.ofPin Sample.marked))
        ((Sample.node.cluster Sample.silent.observed).pin Sample.marked) ∧
      AsksOne (fun q => q.url.Says (.ofAdd Sample.markedUpload))
        ((Sample.node.cluster Sample.silent.observed).add Sample.markedUpload) := by
  have hapi : '?' ∉ Sample.node.api.toList := by decide +kernel
  have hpin : Url.parse (Sample.node.pinUrl Sample.marked.cid)
      = .ok ⟨false, none, "127.0.0.1", 9094, "/pins/few", none⟩ := by decide +kernel
  have hadd : Url.parse (Sample.node.api ++ "/add")
      = .ok ⟨false, none, "127.0.0.1", 9094, "/add", none⟩ := by decide +kernel
  obtain ⟨hpins, hadds, -⟩ := queries_faithful Sample.node Sample.silent hapi
  exact ⟨hapi, hpins Sample.marked _ hpin (by decide +kernel) (by decide +kernel),
    hadds Sample.markedUpload _ hadd (by decide +kernel)⟩

/-- **An identifier with a question mark brings parameters of its own**: here it gives the pin a
name that the request does not have. -/
theorem identifier_names_pin :
    (∀ p ∈ Sample.disguised.allocations, ',' ∉ p.toList) ∧
      AsksOne (fun q => ¬q.url.Says (.ofPin Sample.disguised) ∧
          q.url.Says { Query.ofPin Sample.disguised with name := some "evil" })
        ((Sample.node.cluster Sample.silent.observed).pin Sample.disguised) := by
  have hu : Url.parse (Sample.node.pinUrl Sample.disguised.cid)
      = .ok ⟨false, none, "127.0.0.1", 9094, "/pins/few", some "name=evil"⟩ := by decide +kernel
  obtain ⟨q, hq, hurl⟩ :=
    Sample.node.request_of_parse hu .post (pinParameters Sample.disguised) none
  refine ⟨by decide +kernel, (calls_pin Sample.silent Sample.node Sample.disguised).asksOne hq ?_⟩
  rw [hurl]
  decide +kernel

end Http

end PinKeeper
