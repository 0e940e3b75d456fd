import Mathlib.Data.List.TakeWhile
import PinKeeper.Policy.Store
import PinKeeper.Proofs.Dict
import PinKeeper.Proofs.Files.Path

/-!
# Proofs/Policy/Store — what is saved is what is loaded

A policy and its document say the same, up to what a document cannot say: credentials with an empty
part, an empty peer id, and a name that is not the key.  So the way through the document brings a
policy to a normal form (`policy_ofPolicy`), and whatever was read from a text or a file is in it
(`Loaded.normalized_eq`).  The file adds three things that could go wrong and do not.  The written
text is not blank, which would be read as the policy that says nothing (`not_blank_of_write`); the
path leads to what was written, also once its permissions are set (`Disk.locate_write`,
`Disk.locate_setMode`); and all that is done before a policy turns out to be beyond its format is to
make directories, which hides no file (`Disk.Grows.entry`).  Beyond its format is a policy in just
one case: a number in it is too large for an integer of the format with tables (`isSome_write`).
That a format reads the text that it wrote of a document is assumed, of the one document that is
saved (`PolicyFormat.ReadsBack`), and of the place that it takes the whole text (`Writable`).
-/

namespace PinKeeper

/-! ## The normal form -/

namespace Policy

/-- Policy as its file says it: credentials with an empty part are none, an empty peer id is none,
and a profile or a node has the name of its key. -/
def normalized (p : Policy) : Policy :=
  { p with
    auth := p.auth.filter fun a => !a.user.isEmpty && !a.password.isEmpty
    profiles := p.profiles.mapEntries fun name q => { q with name := name }
    nodes := p.nodes.mapEntries fun name n =>
      { n with name := name, peerId := n.peerId.filter fun id => !id.isEmpty } }

end Policy

namespace PolicyDocument

theorem credentials_eq_filter (o : Option Credentials) :
    (o.map fun a => AuthSection.mk (some a.user) (some a.password)).bind (·.credentials)
      = o.filter fun a => !a.user.isEmpty && !a.password.isEmpty := by
  cases o with
  | none => rfl
  | some a =>
    rw [Option.map_some, Option.bind_some, AuthSection.credentials, Option.filter_some]
    dsimp only
    cases a.user.isEmpty <;> cases a.password.isEmpty <;> rfl

/-- **The document of a policy describes its normal form.** -/
theorem policy_ofPolicy (p : Policy) : (ofPolicy p).policy = p.normalized := by
  have hprofiles : (p.profiles.mapEntries fun _ q => q.primary).mapEntries Profile.mk
      = p.profiles.mapEntries fun name q => { q with name := name } :=
    Dict.mapEntries_mapEntries ..
  have hnodes : (p.nodes.mapEntries fun _ n => NodeSection.full (some n.host) n.peerId
        n.reservedGb).mapEntries NodeSection.node
      = p.nodes.mapEntries fun name n =>
        { n with name := name, peerId := n.peerId.filter fun id => !id.isEmpty } :=
    Dict.mapEntries_mapEntries ..
  rw [policy, ofPolicy, credentials_eq_filter, hprofiles, hnodes, Policy.normalized]

theorem nonEmpty_of_credentials {s : AuthSection} {a : Credentials} (h : s.credentials = some a) :
    (!a.user.isEmpty && !a.password.isEmpty) = true := by
  rw [AuthSection.credentials.eq_def] at h
  split at h
  · split at h
    · cases h
    · next hempty =>
      obtain rfl := Option.some.inj h
      rw [Bool.or_eq_true, not_or, Bool.not_eq_true, Bool.not_eq_true] at hempty
      rw [hempty.1, hempty.2]
      rfl
  · cases h

/-- **What a document describes is in normal form.** -/
theorem normalized_policy (d : PolicyDocument) : d.policy.normalized = d.policy := by
  have hauth : (d.cluster.bind (·.credentials)).filter
      (fun a => !a.user.isEmpty && !a.password.isEmpty) = d.cluster.bind (·.credentials) := by
    cases ha : d.cluster.bind (·.credentials) with
    | none => rfl
    | some a =>
      obtain ⟨s, -, hs⟩ := Option.bind_eq_some_iff.1 ha
      rw [Option.filter_some, if_pos (nonEmpty_of_credentials hs)]
  have hprofiles : (d.profiles.mapEntries Profile.mk).mapEntries
      (fun name q => { q with name := name }) = d.profiles.mapEntries Profile.mk :=
    Dict.mapEntries_mapEntries ..
  have hnodes : (d.nodes.mapEntries NodeSection.node).mapEntries (fun name n =>
        { n with name := name, peerId := n.peerId.filter fun id => !id.isEmpty })
      = d.nodes.mapEntries NodeSection.node := by
    rw [Dict.mapEntries_mapEntries]
    congr 1
    funext name n
    cases n <;> simp [NodeSection.node]
  rw [Policy.normalized, policy, hauth, hprofiles, hnodes]

end PolicyDocument

/-- A policy that a text or a file was read as. -/
inductive Policy.Loaded (p : Policy) : Prop
  | parsed (f : PolicyFormat) (text : String) (h : f.parse text = .ok p) : Loaded p
  | fromFile (d : Disk) (path : String) (h : PolicyFile.load d path = .ok p) : Loaded p

theorem normalized_of_parse {f : PolicyFormat} {text : String} {p : Policy}
    (h : f.parse text = .ok p) : p.normalized = p := by
  rw [PolicyFormat.parse] at h
  split at h
  · obtain rfl := Except.ok.inj h
    rfl
  · split at h
    · obtain rfl := Except.ok.inj h
      exact PolicyDocument.normalized_policy _
    · cases h

theorem Policy.Loaded.normalized_eq {p : Policy} (h : p.Loaded) : p.normalized = p := by
  cases h with
  | parsed f text h => exact normalized_of_parse h
  | fromFile d path h =>
    rw [PolicyFile.load, PolicyFile.ofEntry.eq_def] at h
    split at h
    · cases h
    split at h
    · cases h
    split at h
    · exact normalized_of_parse h
    · cases h

/-! ## The written text

A blank text is read as the policy that says nothing, so it matters that no document is written as
one.  Both formats mark a member with a character of their own, and the bounds of the number of
replicas are always written. -/

section Marks

theorem isEmpty_trim {s : List Char} {c : Char} (hmem : c ∈ s) (hc : Text.isBlank c = false) :
    (Text.trim s).isEmpty = false := by
  have hleft : c ∈ Text.trimLeft s := by
    rw [← List.takeWhile_append_dropWhile (p := Text.isBlank) (l := s)] at hmem
    refine (List.mem_append.1 hmem).resolve_left fun htake => ?_
    rw [List.mem_takeWhile_imp htake] at hc
    cases hc
  rw [List.isEmpty_eq_false_iff]
  intro hnil
  have hblank := List.dropWhile_eq_nil_iff.1 (List.reverse_eq_nil_iff.1 hnil) c
    (List.mem_reverse.2 hleft)
  rw [hc] at hblank
  cases hblank

theorem replicationMin_mem_outline (d : PolicyDocument) :
    ("replication_min", Outline.number d.replicationMin) ∈ d.outline := by
  simp [PolicyDocument.outline]

namespace Yaml

variable {indent : Nat} {k : String}

theorem colon_mem_keyChars : ':' ∈ keyChars indent k := by
  rw [keyChars]
  split <;> exact List.mem_append_right _ (List.mem_singleton_self _)

theorem mem_endLine {c : Char} {written : List Char} (h : c ∈ written) : c ∈ endLine written := by
  rw [endLine]
  split
  · exact h
  · exact List.mem_append_left _ h

theorem colon_mem_memberChars : ∀ o : Outline, ':' ∈ memberChars indent k o
  | .text _ => mem_endLine (List.mem_append_left _ colon_mem_keyChars)
  | .number _ => by simp [memberChars, colon_mem_keyChars]
  | .group [] => by simp [memberChars, colon_mem_keyChars]
  | .group ((_, _) :: _) => by simp [memberChars, colon_mem_keyChars]

theorem colon_mem_membersChars {o : Outline} : ∀ {ms : List (String × Outline)},
    (k, o) ∈ ms → ':' ∈ membersChars indent ms
  | (_, x) :: ms, h => by
    rw [membersChars]
    rcases List.mem_cons.1 h with h | h
    · exact List.mem_append_left _ (List.mem_append_right _ (colon_mem_memberChars x))
    · exact List.mem_append_right _ (colon_mem_membersChars h)

theorem colon_mem_print {o : Outline} {ms : List (String × Outline)} (h : (k, o) ∈ ms) :
    ':' ∈ (print ms).toList := by
  rw [print, String.toList_ofList]
  exact List.mem_append_left _ (colon_mem_membersChars h)

end Yaml

namespace Toml

variable {k : String} {n : Nat}

theorem equals_mem_printedValues : ∀ {ms : List (String × Outline)} {own : List Char},
    (k, .number n) ∈ ms → printedValues ms = some own → '=' ∈ own
  | (_, .text _) :: _, _, hmem, h => by
    obtain ⟨rest, hrest, h⟩ := Option.bind_eq_some_iff.1 h
    obtain rfl := Option.some.inj h
    simp
  | (_, .number _) :: _, _, hmem, h => by
    rw [printedValues] at h
    obtain ⟨-, h⟩ := Option.ite_none_left_eq_some.1 h
    obtain ⟨rest, hrest, h⟩ := Option.bind_eq_some_iff.1 h
    obtain rfl := Option.some.inj h
    simp
  | (_, .group _) :: _, _, hmem, h =>
    equals_mem_printedValues ((List.mem_cons.1 hmem).resolve_left nofun) h

theorem equals_mem_print {ms : List (String × Outline)} {text : String}
    (h : (k, .number n) ∈ ms) (htext : print? ms = some text) : '=' ∈ text.toList := by
  obtain ⟨own, hown, htext⟩ := Option.bind_eq_some_iff.1 htext
  obtain ⟨inner, -, htext⟩ := Option.bind_eq_some_iff.1 htext
  obtain rfl := Option.some.inj htext
  have hmark := equals_mem_printedValues h hown
  have hsome : ¬own.isEmpty = true := fun hnil =>
    absurd (List.isEmpty_iff.1 hnil ▸ hmark) List.not_mem_nil
  rw [String.toList_ofList, if_neg hsome]
  cases inner with
  | nil => exact List.mem_append_left [] hmark
  | cons block blocks => exact List.mem_append_left _ hmark

end Toml

end Marks

/-! ## What a format can say

A block document says any number, but an integer of the format with tables has 64 bits and one of
them is the sign.  That is the one thing that keeps a policy from being written. -/

namespace Outline

mutual

/-- Numbers in an outline, in order. -/
def numbers : Outline → List Nat
  | .text _ => []
  | .number n => [n]
  | .group ms => numbersIn ms

/-- Numbers in some members. -/
def numbersIn : List (String × Outline) → List Nat
  | [] => []
  | (_, o) :: ms => o.numbers ++ numbersIn ms

end

theorem numbersIn_append (ms ms' : List (String × Outline)) :
    numbersIn (ms ++ ms') = numbersIn ms ++ numbersIn ms' := by
  induction ms with
  | nil => rfl
  | cons m ms ih => rw [List.cons_append, numbersIn, numbersIn, ih, List.append_assoc]

end Outline

section Numbers

open Outline

namespace Toml

/-- An integer of this format: 64 bits, one of them for the sign. -/
def Fits (n : Nat) : Prop := (n : Int) ≤ maxInt

instance : DecidablePred Fits := fun n => inferInstanceAs (Decidable ((n : Int) ≤ maxInt))

variable {k : String} {n : Nat} {path : List String} {o : Outline} {ms : List (String × Outline)}

theorem isSome_printedValues_text {s : String} :
    (printedValues ((k, .text s) :: ms)).isSome = (printedValues ms).isSome := by
  rw [printedValues]
  cases printedValues ms <;> rfl

theorem isSome_printedValues_number :
    (printedValues ((k, .number n) :: ms)).isSome ↔ Fits n ∧ (printedValues ms).isSome := by
  rw [printedValues, Fits]
  by_cases h : maxInt < n
  · simp [h]
  · cases printedValues ms <;> simp [h, Int.not_lt.1 h]

theorem isSome_printedGroup_leaf (h : o.isGroup = false) : (printedGroup path o).isSome := by
  cases o with
  | text s => simp [printedGroup]
  | number n => simp [printedGroup]
  | group ms => cases h

theorem isSome_printedGroup :
    (printedGroup path (.group ms)).isSome
      ↔ (printedValues ms).isSome ∧ (printedGroups path ms).isSome := by
  rw [printedGroup]
  cases printedValues ms with
  | none => simp
  | some own =>
    cases printedGroups path ms with
    | none => simp
    | some inner =>
      rw [Option.bind_eq_bind, Option.bind_some, Option.bind_eq_bind, Option.bind_some]
      split <;> simp

theorem isSome_printedGroups_cons :
    (printedGroups path ((k, o) :: ms)).isSome
      ↔ (printedGroup (path ++ [k]) o).isSome ∧ (printedGroups path ms).isSome := by
  rw [printedGroups]
  cases printedGroup (path ++ [k]) o <;> cases printedGroups path ms <;> simp

/-- **Members are written exactly if each number in them is an integer of the format.** -/
theorem isSome_printed (path : List String) : ∀ ms : List (String × Outline),
    ((printedValues ms).isSome ∧ (printedGroups path ms).isSome) ↔ ∀ n ∈ numbersIn ms, Fits n
  | [] => by simp [printedValues, printedGroups, numbersIn]
  | (k, .text s) :: ms => by
    rw [isSome_printedValues_text, isSome_printedGroups_cons,
      and_iff_right (isSome_printedGroup_leaf rfl), isSome_printed path ms, numbersIn, numbers,
      List.nil_append]
  | (k, .number n) :: ms => by
    rw [isSome_printedValues_number, isSome_printedGroups_cons,
      and_iff_right (isSome_printedGroup_leaf rfl), and_assoc, isSome_printed path ms, numbersIn,
      numbers, List.singleton_append, List.forall_mem_cons]
  | (k, .group inner) :: ms => by
    rw [isSome_printedGroups_cons, isSome_printedGroup, isSome_printed (path ++ [k]) inner,
      and_left_comm, printedValues, isSome_printed path ms, numbersIn, numbers,
      List.forall_mem_append]

theorem isSome_print : (print? ms).isSome ↔ ∀ n ∈ numbersIn ms, Fits n := by
  rw [← isSome_printed [] ms, print?]
  cases printedValues ms <;> cases printedGroups [] ms <;> simp

end Toml

/-- Numbers of a policy: the bounds of the number of replicas, and what is kept free on the
nodes. -/
def Policy.numbers (p : Policy) : List Nat :=
  p.replicationMin :: p.replicationMax :: p.nodes.values.map (·.reservedGb)

namespace PolicyDocument

theorem numbersIn_optional (name : String) (text : Option String) :
    numbersIn (Outline.optional name text) = [] := by
  cases text <;> rfl

theorem numbersIn_groupUnlessEmpty (name : String) (ms : List (String × Outline)) :
    numbersIn (groupUnlessEmpty name ms) = numbersIn ms := by
  cases ms with
  | nil => rfl
  | cons m ms => simp [groupUnlessEmpty, numbersIn, numbers]

theorem numbersIn_map {α : Type} (f : α → String × Outline) (es : List α) :
    numbersIn (es.map f) = es.flatMap fun e => (f e).2.numbers := by
  induction es with
  | nil => rfl
  | cons e es ih => rw [List.map_cons, numbersIn, ih, List.flatMap_cons]

theorem fits_nodeOutline {host peerId : Option String} {reservedGb : Nat} :
    (∀ n ∈ (nodeOutline (.full host peerId reservedGb)).numbers, Toml.Fits n)
      ↔ Toml.Fits reservedGb := by
  rw [nodeOutline, numbers, numbersIn_append, numbersIn_append, numbersIn_optional,
    numbersIn_optional]
  split
  · next hzero => simp [numbersIn, hzero, Toml.Fits, Toml.maxInt]
  · simp [numbersIn, numbers]

/-- **A document says the numbers of its policy**, so they fit together. -/
theorem fits_outline (p : Policy) :
    (∀ n ∈ numbersIn (ofPolicy p).outline, Toml.Fits n) ↔ ∀ n ∈ p.numbers, Toml.Fits n := by
  simp only [outline, ofPolicy, Dict.mapEntries, Dict.values, Policy.numbers, List.map_map,
    numbersIn_append, numbersIn_optional, numbersIn_groupUnlessEmpty, numbersIn_map,
    List.forall_mem_append, List.forall_mem_cons, List.forall_mem_flatMap, List.forall_mem_map,
    Function.comp_apply, fits_nodeOutline]
  cases p.auth <;>
    simp [numbersIn, numbers, numbersIn_append, numbersIn_optional, and_assoc]

end PolicyDocument

end Numbers

namespace PolicyFormat

/-- The format reads the document from the text that it writes of it. -/
def ReadsBack (f : PolicyFormat) (d : PolicyDocument) : Prop :=
  ∀ text, f.write d = some text → f.read text = some d

theorem readsBack_of_bind {f : PolicyFormat} {d : PolicyDocument}
    (h : (f.write d).bind f.read = some d) : f.ReadsBack d := by
  intro text htext
  rwa [htext] at h

end PolicyFormat

namespace PolicyFile

open PolicyDocument

variable {p : Policy} {path text : String}

/-- **No document is written as a blank text.** -/
theorem not_blank_of_write {d : PolicyDocument} (h : (format path).write d = some text) :
    (Text.trim text.toList).isEmpty = false := by
  have hmem := replicationMin_mem_outline d
  rw [format] at h
  split at h
  · exact isEmpty_trim (Toml.equals_mem_print hmem h) rfl
  · obtain rfl := Option.some.inj h
    exact isEmpty_trim (Yaml.colon_mem_print hmem) rfl

/-- What was printed of a policy is parsed as its normal form. -/
theorem parse_print (hread : (format path).ReadsBack (ofPolicy p))
    (h : (format path).print p = .ok text) : (format path).parse text = .ok p.normalized := by
  rw [PolicyFormat.print] at h
  split at h
  · next written hwrite =>
    obtain rfl := Except.ok.inj h
    rw [PolicyFormat.parse, not_blank_of_write hwrite, if_neg Bool.false_ne_true, hread _ hwrite]
    exact congrArg Except.ok (policy_ofPolicy p)
  · cases h

/-! ## Saving -/

/-- A place where a file can be kept: the directories above it can be made, anything can be written
to it then to the end, and it is not a device, which keeps nothing. -/
def Writable (d : Disk) (path : String) : Prop :=
  ∃ d', makeAbove path d = .ok d' ∧ (∀ content, ∃ d'', d'.write path content = .ok d'') ∧
    d'.entry path ≠ .ok .device

theorem grows_makeAbove {d d' : Disk} (h : makeAbove path d = .ok d') : d.Grows d' := by
  rw [makeAbove] at h
  split at h
  · exact Disk.grows_makeDirs h
  · obtain rfl := Except.ok.inj h
    exact .refl d

theorem run_onDisk_bind {d d' : Disk} {f : Disk → Except FileError Disk}
    {rest : EStateM Failure Disk Unit} (h : f d = .ok d') :
    (onDisk f >>= fun _ => rest).run d = rest.run d' := by
  simp only [bind, EStateM.bind, EStateM.run, onDisk, h]

theorem text?_ofText (s : String) : (Content.ofText s).text? = some s := by
  rw [Content.text?, Content.ofText, Content.toBytes, Text.decoded?, String.fromUTF8?]
  exact dif_pos s.isValidUTF8

theorem load_of_locate {d : Disk} {place : List String} {mode : Nat}
    (h : d.locate path = .ok (.entry place))
    (hat : d.root.at? place = some (.file (.ofText text) mode)) :
    load d path = (format path).parse text := by
  rw [load, Disk.entry_of_locate h hat, ofEntry, Entry.read]
  dsimp only
  rw [text?_ofText]

/-- A policy that the file at a path can say: one without a number beyond the integers of the format
with tables, if the file is in that format. -/
def Expressible (path : String) (p : Policy) : Prop :=
  Path.extension? path = some "toml" → ∀ n ∈ p.numbers, Toml.Fits n

instance : Decidable (Expressible path p) :=
  inferInstanceAs (Decidable (Path.extension? path = some "toml" → ∀ n ∈ p.numbers, Toml.Fits n))

/-- **A policy is written exactly if its file can say it.** -/
theorem isSome_write : ((format path).write (ofPolicy p)).isSome ↔ Expressible path p := by
  rw [format, Expressible]
  split
  · next htoml =>
    rw [beq_iff_eq] at htoml
    rw [PolicyFormat.toml, Toml.isSome_print, fits_outline]
    exact ⟨fun h _ => h, fun h => h htoml⟩
  · next hyaml =>
    rw [beq_iff_eq] at hyaml
    exact ⟨fun _ htoml => absurd htoml hyaml, fun _ => rfl⟩

theorem exists_print_of_expressible (h : Expressible path p) :
    ∃ text, (format path).print p = .ok text := by
  obtain ⟨text, htext⟩ := Option.isSome_iff_exists.1 (isSome_write.2 h)
  exact ⟨text, by rw [PolicyFormat.print, htext]⟩

theorem write_eq_none (h : ¬Expressible path p) : (format path).write (ofPolicy p) = none := by
  rwa [← isSome_write, Option.not_isSome_iff_eq_none] at h

theorem exists_refusal_of_not_expressible (h : ¬Expressible path p) :
    ∃ reason, (format path).print p = .error (.serialization reason) :=
  ⟨_, by rw [PolicyFormat.print, write_eq_none h]⟩

/-- **A saved policy is loaded as its normal form**, and one that was loaded as it was.  Only a
policy that its file cannot say is not saved, and then no file is touched. -/
theorem store_outcome {d : Disk} (hpath : Writable d path)
    (hread : (format path).ReadsBack (ofPolicy p)) :
    (Expressible path p →
      ∃ d', (store p path).run d = .ok () d' ∧ load d' path = .ok p.normalized ∧
        (p.Loaded → load d' path = .ok p)) ∧
    (¬Expressible path p →
      ∃ reason d', (store p path).run d = .error (.serialization reason) d' ∧
        ∀ q e, d.entry q = .ok e → e.isDirectory = false → d'.entry q = .ok e) := by
  obtain ⟨d₁, habove, hwrite, hdevice⟩ := hpath
  refine ⟨fun hsays => ?_, fun hnot => ?_⟩
  · obtain ⟨text, hprint⟩ := exists_print_of_expressible hsays
    obtain ⟨d₂, hd₂⟩ := hwrite (.ofText text)
    obtain ⟨place, mode, hplace, hat⟩ := Disk.locate_write hd₂ hdevice
    obtain ⟨d₃, hd₃, hplace', hat'⟩ := Disk.locate_setMode ownerOnly hplace hat
    have hload : load d₃ path = .ok p.normalized := by
      rw [load_of_locate hplace' hat', parse_print hread hprint]
    refine ⟨d₃, ?_, hload, fun hp => hload.trans (congrArg _ hp.normalized_eq)⟩
    rw [store, run_onDisk_bind habove, hprint]
    refine (run_onDisk_bind hd₂).trans ?_
    rw [EStateM.run, onDisk, hd₃]
  · obtain ⟨reason, hprint⟩ := exists_refusal_of_not_expressible hnot
    refine ⟨reason, d₁, ?_, fun q e he hfile => (grows_makeAbove habove).entry he hfile⟩
    rw [store, run_onDisk_bind habove, hprint]
    rfl

/-- A policy that is not in normal form: without a password, with an empty peer id and with names
that are not the keys. -/
def samplePolicy : Policy where
  auth := some ⟨"admin", ""⟩
  backupNode := some "b"
  defaultNode := none
  replicationMin := 2
  replicationMax := 5
  profiles := Dict.empty.insert "music" ⟨"", "a"⟩
  nodes := Dict.empty.insert "a" ⟨"x", "a.example", some "", 7⟩

/-- A disk without any file. -/
def emptyDisk : Disk := ⟨.directory [], []⟩

theorem writable_emptyDisk : Writable emptyDisk "ccs.toml" := by
  have hname : Path.IsName "ccs.toml" := by decide
  have hparent : Path.parent? "ccs.toml" = some "" := by decide +kernel
  refine ⟨emptyDisk, ?_, fun content => ⟨_, Disk.write_free hname rfl rfl⟩, ?_⟩
  · rw [makeAbove, hparent]
    rfl
  · rw [Disk.entry_free hname rfl rfl]
    exact nofun

/-- The sample with more to be kept free on its node than an integer of 64 bits with a sign says. -/
def oversizedPolicy : Policy :=
  { samplePolicy with nodes := Dict.empty.insert "a" ⟨"a", "a.example", none, 9223372036854775808⟩ }

/-- The sample is saved and loaded in its normal form, in which it is saved and loaded as it is;
with the oversized reserve it is refused. -/
theorem store_outcome_sample :
    Writable emptyDisk "ccs.toml" ∧
    ((format "ccs.toml").ReadsBack (ofPolicy samplePolicy) ∧
      ∃ d', (store samplePolicy "ccs.toml").run emptyDisk = .ok () d' ∧
        load d' "ccs.toml" = .ok samplePolicy.normalized) ∧
    ((format "ccs.toml").ReadsBack (ofPolicy samplePolicy.normalized) ∧
      ∃ d', (store samplePolicy.normalized "ccs.toml").run emptyDisk = .ok () d' ∧
        load d' "ccs.toml" = .ok samplePolicy.normalized) ∧
    (format "ccs.toml").ReadsBack (ofPolicy oversizedPolicy) ∧
      ∃ reason d', (store oversizedPolicy "ccs.toml").run emptyDisk
        = .error (.serialization reason) d' := by
  have hformat : format "ccs.toml" = .toml := if_pos (by decide +kernel)
  have hbind {d : PolicyDocument} (h : (PolicyFormat.toml.write d).bind PolicyFormat.toml.read
      = some d) : (format "ccs.toml").ReadsBack d := by
    rw [hformat]
    exact PolicyFormat.readsBack_of_bind h
  have hread : (format "ccs.toml").ReadsBack (ofPolicy samplePolicy) :=
    hbind (by decide +kernel)
  have hread' : (format "ccs.toml").ReadsBack (ofPolicy samplePolicy.normalized) :=
    hbind (by decide +kernel)
  have hsays : Expressible "ccs.toml" samplePolicy := by decide +kernel
  have hsays' : Expressible "ccs.toml" samplePolicy.normalized := by decide +kernel
  have hnot : ¬Expressible "ccs.toml" oversizedPolicy := by decide +kernel
  have hunread : (format "ccs.toml").ReadsBack (ofPolicy oversizedPolicy) :=
    fun text htext => by cases (write_eq_none hnot).symm.trans htext
  have hloaded : samplePolicy.normalized.Loaded := by
    obtain ⟨text, htext⟩ := exists_print_of_expressible hsays
    exact .parsed _ text (parse_print hread htext)
  obtain ⟨d₁, hrun₁, hload₁, -⟩ := (store_outcome writable_emptyDisk hread).1 hsays
  obtain ⟨d₂, hrun₂, -, hload₂⟩ := (store_outcome writable_emptyDisk hread').1 hsays'
  obtain ⟨reason, d₃, hrun₃, -⟩ := (store_outcome writable_emptyDisk hunread).2 hnot
  exact ⟨writable_emptyDisk, ⟨hread, d₁, hrun₁, hload₁⟩, ⟨hread', d₂, hrun₂, hload₂ hloaded⟩,
    hunread, reason, d₃, hrun₃⟩

end PolicyFile

end PinKeeper
