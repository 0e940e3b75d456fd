import PinKeeper.Pin.Wire
import PinKeeper.Proofs.Json.Record
import PinKeeper.Proofs.Time.Instant

/-!
# Proofs/Pin/Wire — reading settles what may be written in many ways

A lenient reader takes many texts for one value, so a text need not come back from what was read.
The value does: each field that was read is in a form that its reader leaves alone, because a name
or an error that is there is not empty, a number has the width that the reader accepts, and a time
is one of a clock (`Pin.Normal`).  A record in that form is taken back from what it is written as
(`Pin.ofJson?_toJson`, and so for a peer and an added entry).  So reading again changes nothing more
(`read_settles`), with one restriction: the text of a time has four digits for the year.
-/

namespace PinKeeper

open Json

/-! ## Fields -/

section Fields

variable {α : Type} {P : α → Prop} {read : Json → Option α} {default : α}

theorem nullOr_of_read {v : Json} {a : α} (hv : v ≠ .null) (h : read v = some a) :
    nullOr default read v = some a := by
  rw [nullOr, nullable_some hv h]
  rfl

theorem forall_nullOr (hdefault : P default) (hread : ∀ v, ∀ a ∈ read v, P a) (v : Json) :
    ∀ a ∈ nullOr default read v, P a := by
  intro a ha
  obtain ⟨o, ho, rfl⟩ := Option.map_eq_some_iff.1 ha
  cases o with
  | none => exact hdefault
  | some b => exact forall_nullable hread v _ ho b rfl

theorem nonEmpty?_ne (o : Option String) : nonEmpty? o ≠ some "" := by
  cases o with
  | none => exact (Option.some_ne_none "").symm
  | some s =>
    rw [nonEmpty?]
    split
    · exact (Option.some_ne_none "").symm
    · next hne => exact fun h => hne (Option.some.inj h ▸ rfl)

theorem nonEmpty?_eq_self {o : Option String} (h : o ≠ some "") : nonEmpty? o = o := by
  cases o with
  | none => rfl
  | some s => exact if_neg fun hs => h (congrArg some (String.isEmpty_iff.1 hs))

theorem filledText?_ne (v : Json) : ∀ o ∈ filledText? v, o ≠ some "" := by
  intro o ho
  obtain ⟨t, -, rfl⟩ := Option.map_eq_some_iff.1 ho
  exact nonEmpty?_ne t

theorem filledText?_optionalText {o : Option String} (h : o ≠ some "") :
    filledText? (optionalText o) = some o := by
  rw [filledText?, nullable_optionalText, Option.map_some, nonEmpty?_eq_self h]

/-- Numbers of 32 bits. -/
def InWord (n : Int) : Prop := -2147483648 ≤ n ∧ n ≤ 2147483647

theorem inWord_of_factor? (v : Json) : ∀ o ∈ factor? v, ∀ n ∈ o, InWord n :=
  forall_nullable forall_asInt v

theorem le_of_natural? {max n : Nat} {s : String} (h : Text.natural? max s = some n) :
    n ≤ max := by
  unfold Text.natural? at h
  extract_lets body at h
  split at h
  · obtain ⟨hle, hn⟩ := Option.ite_none_right_eq_some.1 h
    exact Option.some.inj hn ▸ hle
  · cases h

theorem le_of_size? (v : Json) : ∀ n ∈ size? v, n ≤ Text.max64 := by
  intro n hn
  unfold size? at hn
  split at hn
  · exact Option.mem_some_iff.1 hn ▸ Nat.zero_le _
  · next s =>
    obtain rfl := Option.mem_some_iff.1 hn
    cases hread : Text.natural? Text.max64 s with
    | none => exact Nat.zero_le _
    | some n => exact le_of_natural? hread
  · exact forall_asNat _ n hn

theorem factor?_elim {o : Option Int} (h : ∀ n ∈ o, InWord n) :
    factor? (o.elim .null .int) = some o := by
  cases o with
  | none => rfl
  | some n => exact nullable_some nofun (asInt_int (h n rfl))

theorem legible_elim {o : Option Int} (h : ∀ n ∈ o, InWord n) :
    (o.elim .null .int : Json).Legible := by
  cases o with
  | none => exact .null
  | some n =>
    have hn := h n rfl
    unfold InWord at hn
    refine .int (overflows_digits_of_le (Nat.le_trans ?_ (by decide : 2147483648 ≤ Text.max64)))
    omega

theorem instant?_text {o : Option Time.Instant} (hvalid : ∀ t ∈ o, t.valid = true)
    (hyear : ∀ t ∈ o, t.InFourDigits) : instant? (optionalText (o.map (·.text))) = some o := by
  rw [instant?, nullable_optionalText, Option.map_some]
  cases o with
  | none => rfl
  | some t =>
    rw [Option.map_some, Option.bind_some, Time.strict?_text (hvalid t rfl) (hyear t rfl)]

theorem valid_of_instant? (v : Json) : ∀ o ∈ instant? v, ∀ t ∈ o, t.valid = true := by
  intro o ho t ht
  obtain ⟨s, -, rfl⟩ := Option.map_eq_some_iff.1 ho
  obtain ⟨text, -, htext⟩ := Option.bind_eq_some_iff.1 ht
  exact Time.valid_of_strict? text t htext

end Fields

/-! ## Statuses -/

namespace PeerStatus

variable {s : PeerStatus}

theorem error_ne_of_ofJson? (v : Json) : ∀ s ∈ ofJson? v, s.error ≠ some "" := by
  intro s hs
  simp only [ofJson?, Option.bind_eq_bind, Option.mem_def, Option.bind_eq_some_iff] at hs
  obtain ⟨fields, -, hs⟩ := hs
  split at hs
  · simp only [Option.bind_eq_some_iff] at hs
    obtain ⟨_, -, _, -, error, herror, hs⟩ := hs
    obtain rfl := Option.some.inj hs
    exact forall_orDefault nofun filledText?_ne error herror
  · cases hs

theorem legible_toJson (s : PeerStatus) : s.toJson.Legible := by
  refine .object ?_
  simp only [List.forall_mem_cons]
  exact ⟨.text _, .text _, legible_optionalText _, List.forall_mem_nil _⟩

theorem ofJson?_toJson (h : s.error ≠ some "") : ofJson? s.toJson = some s := by
  have hslots : slots [["peername"], ["status"], ["error"]] s.toJson
      = some [some (.text s.peername), some s.state.toJson, some (optionalText s.error)] := rfl
  have hstate : PinState.ofJson? s.state.toJson = some s.state :=
    congrArg some (PinState.ofName_name s.state)
  rw [ofJson?, hslots]
  simp only [Option.bind_eq_bind, Option.bind_some, orDefault, asText, hstate,
    filledText?_optionalText h]

end PeerStatus

/-! ## Pins -/

namespace Pin

/-- Form in which a pin is once it was read. -/
structure Normal (p : Pin) : Prop where
  name : p.name ≠ some ""
  least : ∀ n ∈ p.replicationMin, InWord n
  most : ∀ n ∈ p.replicationMax, InWord n
  errors : ∀ e ∈ p.peerMap.entries, e.2.error ≠ some ""
  created : ∀ t ∈ p.created, t.valid = true

variable {p : Pin}

theorem normal_of_ofJson? (opened : Nat) (v : Json) : ∀ p ∈ ofJson? opened v, p.Normal := by
  intro p hp
  simp only [ofJson?, Option.bind_eq_bind, Option.mem_def, Option.bind_eq_some_iff] at hp
  obtain ⟨fields, -, hp⟩ := hp
  split at hp
  · simp only [Option.bind_eq_some_iff] at hp
    obtain ⟨_, -, name, hname, _, -, _, -, least, hleast, most, hmost, peers, hpeers, created,
      hcreated, hp⟩ := hp
    obtain rfl := Option.some.inj hp
    exact {
      name := forall_orDefault nofun filledText?_ne name hname
      least := forall_orDefault nofun inWord_of_factor? least hleast
      most := forall_orDefault nofun inWord_of_factor? most hmost
      errors := forall_orDefault nofun
        (forall_nullOr nofun (forall_asDict PeerStatus.error_ne_of_ofJson?)) peers hpeers
      created := forall_orDefault nofun valid_of_instant? created hcreated }
  · cases hp

theorem toJson_eq (p : Pin) :
    p.toJson = .object [("cid", .text p.cid), ("name", optionalText p.name),
      ("allocations", texts p.allocations),
      ("metadata", .object (p.metadata.entries.map fun e => (e.1, .text e.2))),
      ("replication_factor_min", p.replicationMin.elim .null .int),
      ("replication_factor_max", p.replicationMax.elim .null .int),
      ("peer_map", .object (p.peerMap.entries.map fun e => (e.1, e.2.toJson))),
      ("created", optionalText (p.created.map (·.text)))] := by
  obtain ⟨_, _, _, _, least, most, _, _⟩ := p
  cases least <;> cases most <;> rfl

theorem legible_toJson (h : p.Normal) : p.toJson.Legible := by
  rw [toJson_eq]
  refine .object ?_
  simp only [List.forall_mem_cons]
  refine ⟨.text _, legible_optionalText _, legible_texts _, ?_, legible_elim h.least,
    legible_elim h.most, ?_, legible_optionalText _, List.forall_mem_nil _⟩
  · exact legible_object_map fun _ _ => .text _
  · exact legible_object_map fun e _ => PeerStatus.legible_toJson e.2

/-- **A pin that was read once is read back.** -/
theorem ofJson?_toJson (opened : Nat) (h : p.Normal) (hyear : ∀ t ∈ p.created, t.InFourDigits) :
    ofJson? opened p.toJson = some p := by
  have hallocations : nullOr [] (asList asText) (texts p.allocations) = some p.allocations :=
    nullOr_of_read nofun (asList_texts p.allocations)
  have hmetadata : nullOr ∅ (asDict asText)
      (.object (p.metadata.entries.map fun e => (e.1, .text e.2))) = some p.metadata :=
    nullOr_of_read nofun (asDict_map fun _ _ => rfl)
  have hpeers : nullOr ∅ (asDict PeerStatus.ofJson?)
      (.object (p.peerMap.entries.map fun e => (e.1, e.2.toJson))) = some p.peerMap :=
    nullOr_of_read nofun (asDict_map fun e he => PeerStatus.ofJson?_toJson (h.errors e he))
  have hslots : slots [["cid"], ["name"], ["allocations"], ["metadata"],
      ["replication_factor_min"], ["replication_factor_max"], ["peer_map"], ["created"]] p.toJson
      = some [some (.text p.cid), some (optionalText p.name), some (texts p.allocations),
        some (.object (p.metadata.entries.map fun e => (e.1, .text e.2))),
        some (p.replicationMin.elim .null .int), some (p.replicationMax.elim .null .int),
        some (.object (p.peerMap.entries.map fun e => (e.1, e.2.toJson))),
        some (optionalText (p.created.map (·.text)))] := by
    rw [toJson_eq]
    rfl
  rw [ofJson?, hslots]
  simp only [Option.bind_eq_bind, Option.bind_some, orDefault, cid?,
    filledText?_optionalText h.name, hallocations, hmetadata, factor?_elim h.least,
    factor?_elim h.most, hpeers, instant?_text h.created hyear]

end Pin

/-! ## Peers -/

namespace Peer

variable {p : Peer}

theorem error_ne_of_ofJson? (v : Json) : ∀ p ∈ ofJson? v, p.error ≠ some "" := by
  intro p hp
  simp only [ofJson?, Option.bind_eq_bind, Option.mem_def, Option.bind_eq_some_iff] at hp
  obtain ⟨fields, -, hp⟩ := hp
  split at hp
  · simp only [Option.bind_eq_some_iff] at hp
    obtain ⟨_, -, _, -, _, -, error, herror, hp⟩ := hp
    obtain rfl := Option.some.inj hp
    exact forall_orDefault nofun filledText?_ne error herror
  · cases hp

theorem legible_toJson (p : Peer) : p.toJson.Legible := by
  refine .object ?_
  simp only [List.forall_mem_cons]
  exact ⟨.text _, .text _, legible_texts _, legible_optionalText _, List.forall_mem_nil _⟩

theorem ofJson?_toJson (h : p.error ≠ some "") : ofJson? p.toJson = some p := by
  have hslots : slots [["name", "peername"], ["peer_id", "id"], ["addresses"], ["error"]] p.toJson
      = some [some (.text p.name), some (.text p.peerId), some (texts p.addresses),
        some (optionalText p.error)] := rfl
  have haddresses : nullOr [] (asList asText) (texts p.addresses) = some p.addresses :=
    nullOr_of_read nofun (asList_texts p.addresses)
  rw [ofJson?, hslots]
  simp only [Option.bind_eq_bind, Option.bind_some, orDefault, asText, haddresses,
    filledText?_optionalText h]

end Peer

/-! ## Added entries -/

namespace AddedEntry

variable {e : AddedEntry}

theorem size_le_of_ofJson? (opened : Nat) (v : Json) :
    ∀ e ∈ ofJson? opened v, e.size ≤ Text.max64 := by
  intro e he
  simp only [ofJson?, Option.bind_eq_bind, Option.mem_def, Option.bind_eq_some_iff] at he
  obtain ⟨fields, -, he⟩ := he
  split at he
  · simp only [Option.bind_eq_some_iff] at he
    obtain ⟨_, -, _, -, size, hsize, he⟩ := he
    obtain rfl := Option.some.inj he
    exact forall_orDefault (P := (· ≤ Text.max64)) (Nat.zero_le _) le_of_size? size hsize
  · cases he

theorem legible_toJson (h : e.size ≤ Text.max64) : e.toJson.Legible := by
  refine .object ?_
  simp only [List.forall_mem_cons]
  exact ⟨.text _, .text _, legible_count h, List.forall_mem_nil _⟩

theorem ofJson?_toJson (opened : Nat) (h : e.size ≤ Text.max64) :
    ofJson? opened e.toJson = some e := by
  have hslots : slots [["name"], ["cid"], ["size"]] e.toJson
      = some [some (.text e.name), some (.text e.cid), some (count e.size)] := rfl
  have hsize : size? (count e.size) = some e.size := asNat_count h
  rw [ofJson?, hslots]
  simp only [Option.bind_eq_bind, Option.bind_some, orDefault, asText, cid?, hsize]

end AddedEntry

/-! ## Reading once -/

/-- **Reading settles.**  What a text is accepted as is read back from what it is written as, a pin
if its time has a year of four digits; and no name and no error that was read is empty. -/
theorem read_settles (text : String) (opened : Nat) :
    (∀ p ∈ (parse? text).bind (Pin.ofJson? opened),
      p.name ≠ some "" ∧ (∀ s ∈ p.peerMap.values, s.error ≠ some "") ∧
        ((∀ t ∈ p.created, t.InFourDigits) → ReadsBack (Pin.ofJson? opened) p.toJson p)) ∧
    (∀ p ∈ (parse? text).bind Peer.ofJson?,
      p.error ≠ some "" ∧ ReadsBack Peer.ofJson? p.toJson p) ∧
    ∀ e ∈ (parse? text).bind (AddedEntry.ofJson? opened),
      ReadsBack (AddedEntry.ofJson? opened) e.toJson e := by
  refine ⟨fun p hp => ?_, fun p hp => ?_, fun e he => ?_⟩
  · obtain ⟨v, -, hread⟩ := Option.bind_eq_some_iff.1 hp
    have hnormal := Pin.normal_of_ofJson? opened v p hread
    refine ⟨hnormal.name, List.forall_mem_map.2 hnormal.errors, fun hyear => ?_⟩
    exact readsBack (Pin.legible_toJson hnormal) (Pin.ofJson?_toJson opened hnormal hyear)
  · obtain ⟨v, -, hread⟩ := Option.bind_eq_some_iff.1 hp
    have herror := Peer.error_ne_of_ofJson? v p hread
    exact ⟨herror, readsBack (Peer.legible_toJson p) (Peer.ofJson?_toJson herror)⟩
  · obtain ⟨v, -, hread⟩ := Option.bind_eq_some_iff.1 he
    have hsize := AddedEntry.size_le_of_ofJson? opened v e hread
    exact readsBack (AddedEntry.legible_toJson hsize) (AddedEntry.ofJson?_toJson opened hsize)

/-- A pin as an array, with a link, an empty name, an unknown state and a time with an offset. -/
def samplePinText : String :=
  "[\x7b\"/\":\"Qm\"\x7d,\"\",null,null,2,null,\x7b\"id\":[\"a\",\"?\",\"\"]\x7d," ++
    "\"2024-02-29 23:30:00.5-01:00\"]"

/-- What `samplePinText` is accepted as. -/
def samplePin : Pin where
  cid := "Qm"
  name := none
  allocations := []
  metadata := ∅
  replicationMin := some 2
  replicationMax := none
  peerMap := Dict.empty.insert "id" ⟨"a", .unknown, none⟩
  created := some ⟨⟨2024, 3, 1⟩, 0, 30, 0, 500000000⟩

theorem read_settles_sample :
    (parse? samplePinText).bind (Pin.ofJson? 0) = some samplePin ∧
      ReadsBack (Pin.ofJson? 0) samplePin.toJson samplePin := by
  have hread : (parse? samplePinText).bind (Pin.ofJson? 0) = some samplePin := by decide +kernel
  refine ⟨hread, ((read_settles samplePinText 0).1 samplePin hread).2.2 fun t ht => ?_⟩
  obtain rfl := Option.mem_some_iff.1 ht
  exact ⟨by decide, by decide⟩

end PinKeeper
