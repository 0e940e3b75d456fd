import PinKeeper.Http.Client
import PinKeeper.Proofs.Text.Decimal
import PinKeeper.Proofs.Web.Url

/-!
# Proofs/Http/Address — where the requests of a client go

A client makes the address of a pin by writing the identifier behind that of the node, as it is.
At a node with a plain host, and for an identifier that stands for itself, the path of the request
is the one that is meant (`path_pin`).  The path of an upload needs the plain host alone
(`path_add`).
-/

namespace PinKeeper

namespace Http

open Web

/-- A host name that ends only where it should. -/
def PlainHost (host : String) : Prop := ∀ c ∈ host.toList, isPlainInHost c = true

instance (host : String) : Decidable (PlainHost host) :=
  decidable_of_iff (host.toList.all isPlainInHost = true) List.all_eq_true

theorem isPlainInHost_of_mem_digits {n : Nat} {c : Char} (h : c ∈ Text.digits n) :
    isPlainInHost c = true := by
  obtain ⟨d, hd, rfl⟩ := Text.mem_digits h
  exact (by decide : ∀ d < 10, isPlainInHost (Text.digitChar d) = true) d hd

/-! ## Nodes -/

/-- Host and port of a service, as they stand in its address. -/
def site (host : String) (port : Nat) : List Char := host.toList ++ ':' :: Text.digits port

theorem isPlainInHost_of_mem_site {host : String} {port : Nat} (h : PlainHost host) {c : Char}
    (hc : c ∈ site host port) : isPlainInHost c = true := by
  rcases List.mem_append.1 hc with hc | hc
  · exact h c hc
  · rcases List.mem_cons.1 hc with rfl | hc
    · decide
    · exact isPlainInHost_of_mem_digits hc

theorem serviceUrl_eq (host : String) (port : Nat) :
    serviceUrl host port = String.ofList ("http://".toList ++ site host port) := by
  rw [← String.toList_inj]
  simp [serviceUrl, site, Text.natural]

/-- The address of a service ends in a digit. -/
theorem withoutSlash_serviceUrl (host : String) (port : Nat) :
    withoutSlash (serviceUrl host port) = serviceUrl host port := by
  have hkept : ((serviceUrl host port).toList.reverse.dropWhile (· == '/'))
      = (serviceUrl host port).toList.reverse := by
    obtain ⟨ds, d, hdigits⟩ : ∃ ds d, Text.digits port = ds ++ [d] :=
      ⟨_, _, (List.dropLast_append_getLast (Text.digits_ne_nil port)).symm⟩
    have hd : (d == '/') ≠ true := by
      have hmem : d ∈ Text.digits port := hdigits ▸ List.mem_append_right ds List.mem_cons_self
      have hplain := isPlainInHost_of_mem_digits hmem
      rw [Ne, beq_iff_eq]
      rintro rfl
      exact absurd hplain (by decide)
    rw [serviceUrl_eq, String.toList_ofList, site, hdigits, ← List.cons_append,
      ← List.append_assoc, ← List.append_assoc, List.reverse_append, List.reverse_singleton,
      List.singleton_append]
    exact List.dropWhile_cons_of_neg hd
  rw [withoutSlash, hkept, List.reverse_reverse, String.ofList_toList]

theorem api_ofHost (host : String) (credentials : Option Credentials) (s : TransportSettings) :
    (Client.ofHost host credentials s).api = serviceUrl host s.apiPort :=
  withoutSlash_serviceUrl host s.apiPort

/-! ## Requests -/

section Request

variable {host : String} {credentials : Option Credentials} {s : TransportSettings}
  {method : Method} {ps : List (String × String)} {form : Option (List Part)} {r : Request}

theorem path_withParameters (u : Url) (ps : List (String × String)) :
    (u.withParameters ps).path = u.path := by
  rw [Url.withParameters]
  split <;> rfl

/-- **A request for a path of plain segments at a plain host goes to that path.** -/
theorem path_of_request (hhost : PlainHost host) {x : List Char} {xs : List (List Char)}
    (hxs : ∀ y ∈ x :: xs, IsSegment y) {path : String}
    (hpath : path = String.ofList (Url.written (x :: xs)))
    (h : (Client.ofHost host credentials s).request method
      ((Client.ofHost host credentials s).api ++ path) ps form = .ok r) : r.url.path = path := by
  subst hpath
  have haddress : (Client.ofHost host credentials s).api ++ String.ofList (Url.written (x :: xs))
      = String.ofList ("http://".toList ++ (site host s.apiPort ++ Url.written (x :: xs))) := by
    rw [api_ofHost, serviceUrl_eq, ← String.ofList_append, List.append_assoc]
  rw [haddress, Client.request] at h
  split at h
  · cases h
  · next u hu =>
    have hne : site host s.apiPort ≠ [] :=
      List.append_ne_nil_of_right_ne_nil _ (List.cons_ne_nil _ _)
    rw [← Except.ok.inj h, path_withParameters]
    exact Url.path_of_parse (fun c hc => isPlainInHost_of_mem_site hhost hc) hne hxs hu

/-- **The path of a request about a pin is the one that is written**: the identifier and what is
below it. -/
theorem path_pin (hhost : PlainHost host) {cid below : String} (hcid : IsSegment cid.toList)
    {bs : List (List Char)} (hbs : ∀ b ∈ bs, IsSegment b)
    (hbelow : below = String.ofList (Url.written bs))
    (h : (Client.ofHost host credentials s).request method
      ((Client.ofHost host credentials s).pinUrl cid ++ below) ps form = .ok r) :
    r.url.path = "/pins/" ++ cid ++ below := by
  have hsegments : ∀ y ∈ "pins".toList :: cid.toList :: bs, IsSegment y :=
    List.forall_mem_cons.2 ⟨by decide, List.forall_mem_cons.2 ⟨hcid, hbs⟩⟩
  have hpath : "/pins/" ++ cid ++ below
      = String.ofList (Url.written ("pins".toList :: cid.toList :: bs)) := by
    rw [hbelow, ← String.toList_inj]
    simp [Url.written]
  have haddress (c : Client) : c.pinUrl cid ++ below = c.api ++ ("/pins/" ++ cid ++ below) := by
    simp only [Client.pinUrl, String.append_assoc]
  rw [haddress] at h
  exact path_of_request hhost hsegments hpath h

/-- The path of a request to add content. -/
theorem path_add (hhost : PlainHost host)
    (h : (Client.ofHost host credentials s).request method
      ((Client.ofHost host credentials s).api ++ "/add") ps form = .ok r) :
    r.url.path = "/add" := by
  have hsegments : ∀ y ∈ ["add".toList], IsSegment y :=
    List.forall_mem_singleton.2 (by decide)
  exact path_of_request hhost hsegments rfl h

end Request

end Http

end PinKeeper
