import PinKeeper.Http.Client
import PinKeeper.Proofs.Json.Record
import PinKeeper.Proofs.Json.Rest
import PinKeeper.Proofs.Text.Blank
import PinKeeper.Proofs.Text.Split

/-!
# Proofs/Http/Listing — both forms of a list are read alike, and all of it or nothing

A list of values is given by the texts of the values (`ObjectText`), and a body has them as the
items of one array (`ArrayForm`) or on lines of their own (`LineForm`).  Between two texts there may
be blanks: those of the format in an array, any white space around lines.

The lines that are not blank are the same whether the body is trimmed first or not
(`filledLines_trim`), and since no text has a line feed in it they are the texts.  In the array it
is the brace at the end of a text that ends the item, whatever comes behind it.  One difference
remains: the array is a container of its own, so an identifier that is a link object has room for
one container less in it (`WireType.hasRoom`).
-/

namespace PinKeeper.Http

open Json Text

/-! ## Lines -/

section Lines

variable {c : Char} {cs : List Char}

/-- Pieces of a text that are not blank, without the blanks around them: the carriage return that a
line may end with is one of these. -/
theorem filledLines_eq (cs : List Char) :
    filledLines cs = ((splitAt '\n' cs).map trim).filter fun line => !line.isEmpty := by
  rw [filledLines, lines, List.map_map]
  exact congrArg (List.filter _) (List.map_congr_left fun line _ => trim_dropReturn line)

/-- A blank in front of a text is in front of its first line, or a blank line. -/
theorem filledLines_cons (h : isBlank c = true) : filledLines (c :: cs) = filledLines cs := by
  rw [filledLines_eq, filledLines_eq, splitAt]
  split
  · rfl
  · obtain ⟨p, ps, hs⟩ := List.exists_cons_of_ne_nil (splitAt_ne_nil '\n' cs)
    rw [hs, List.map_cons, List.map_cons, trim_cons_of_isBlank h]

/-- A character at the end of a text ends its last line. -/
theorem splitAt_append_singleton {sep : Char} (h : c ≠ sep) (s : List Char) :
    ∃ ps p, splitAt sep s = ps ++ [p] ∧ splitAt sep (s ++ [c]) = ps ++ [p ++ [c]] := by
  induction s with
  | nil => exact ⟨[], [], rfl, by rw [List.nil_append, splitAt, if_neg h]; rfl⟩
  | cons d s ih =>
    obtain ⟨ps, p, hs, hsc⟩ := ih
    rw [List.cons_append, splitAt, splitAt, hs, hsc]
    split
    · exact ⟨[] :: ps, p, rfl, rfl⟩
    · cases ps with
      | nil => exact ⟨[], d :: p, rfl, rfl⟩
      | cons q ps => exact ⟨(d :: q) :: ps, p, rfl, rfl⟩

theorem filledLines_append_singleton (h : isBlank c = true) :
    filledLines (cs ++ [c]) = filledLines cs := by
  rw [filledLines_eq, filledLines_eq]
  by_cases hc : c = '\n'
  · rw [hc, splitAt_append, List.map_append, List.filter_append]
    exact List.append_nil _
  · obtain ⟨ps, p, hs, hsc⟩ := splitAt_append_singleton hc cs
    rw [hs, hsc, List.map_append, List.map_append, List.map_singleton, List.map_singleton,
      trim_append_singleton h]

/-- **Trimming a body takes no line from it but blank ones.** -/
theorem filledLines_trim (cs : List Char) : filledLines (trim cs) = filledLines cs := by
  obtain ⟨before, after, hcs, hbefore, hafter⟩ := exists_eq_append_trim cs
  conv_rhs => rw [hcs, eq_around filledLines_cons filledLines_append_singleton hbefore hafter]

end Lines

/-! ## Texts of values -/

/-- Kinds of values that come in lists. -/
inductive WireType where
  | pin
  | peer
  | entry
  | metric

namespace WireType

/-- What a value of the kind is read as. -/
def Value : WireType → Type
  | pin => Pin
  | peer => Peer
  | entry => AddedEntry
  | metric => String × Nat

/-- Reads a value of the kind, told how many containers are open around it. -/
def read : (w : WireType) → (opened : Nat) → Json → Option w.Value
  | pin => Pin.ofJson?
  | peer => fun _ => Peer.ofJson?
  | entry => AddedEntry.ofJson?
  | metric => fun _ => metric?

/-- True for a value that may stand in an array: an identifier in it fits what the array and the
value itself leave of the nesting. -/
def hasRoom : WireType → Json → Bool
  | pin, .object ms | entry, .object ms =>
    ms.all fun m => m.1 != "cid" || m.2.fits (maxNesting - 2)
  | _, _ => true

end WireType

/-- A text of a value of the kind: an object without a line feed in it. -/
structure ObjectText (w : WireType) where
  chars : List Char
  json : Json
  value : w.Value
  head : chars.head? = some '{'
  last : chars.getLast? = some '}'
  unbroken : '\n' ∉ chars
  parsed : parse? (String.ofList chars) = some json
  read : w.read 0 json = some value

/-- A text with blanks of some sort around it. -/
def Padded (blank : Char → Bool) (text padded : List Char) : Prop :=
  ∃ before after, padded = before ++ text ++ after ∧
    (∀ c ∈ before, blank c = true) ∧ ∀ c ∈ after, blank c = true

theorem padded_self (blank : Char → Bool) (text : List Char) : Padded blank text text :=
  ⟨[], [], (List.append_nil _).symm, List.forall_mem_nil _, List.forall_mem_nil _⟩

/-! ## The form of an array -/

section Arrays

variable {w : WireType} {rest : List Char}

/-- A text that holds one value is read up to blanks. -/
theorem exists_value_of_parse? {cs : List Char} {v : Json}
    (h : parse? (String.ofList cs) = some v) :
    ∃ g, Gap g ∧ Json.value (cs.length + 1) cs = some (v, g) := by
  rw [parse?, String.toList_ofList] at h
  split at h
  · next v' g hread =>
    split at h
    · next hg =>
      obtain rfl := Option.some.inj h
      exact ⟨g, List.dropWhile_eq_nil_iff.1 (List.isEmpty_iff.1 hg), hread⟩
    · cases h
  · cases h

/-- **The text of a value is read as it stands in an array**, whatever comes behind it. -/
theorem ObjectText.exists_value_padded (t : ObjectText w) {q : List Char}
    (hq : Padded isGap t.chars q) {fuel : Nat} (hfuel : q.length + 1 ≤ fuel) :
    ∃ g, Gap g ∧ Json.value fuel (q ++ rest) = some (t.json, g ++ rest) := by
  obtain ⟨before, after, rfl, hbefore, hafter⟩ := hq
  obtain ⟨g, hg, hread⟩ := exists_value_of_parse? t.parsed
  obtain ⟨cs, hcs⟩ := List.head?_eq_some_iff.1 t.head
  refine ⟨g ++ after, List.forall_mem_append.2 ⟨hg, hafter⟩, ?_⟩
  rw [List.append_assoc, List.append_assoc, value_append hbefore, List.append_assoc g]
  refine value_append_rest ?_ hread fun _ => ?_
  · simp only [List.length_append] at hfuel
    omega
  · rw [hcs, skipGap_cons rfl]
    rfl

variable (rest) in
/-- Texts with commas between them and a bracket behind are the items of an array. -/
theorem items_separated {given : List (ObjectText w)} {q : List Char} {qs : List (List Char)}
    {fuel : Nat} (hgiven : List.Forall₂ (fun t q => Padded isGap t.chars q) given (q :: qs))
    (hfuel : (separated ',' q qs).length + 2 ≤ fuel) :
    items fuel (separated ',' q qs ++ ']' :: rest) = some (given.map (·.json), rest) := by
  obtain ⟨fuel, rfl⟩ : ∃ n, fuel = n + 1 :=
    Nat.exists_eq_add_one_of_ne_zero (Nat.ne_zero_of_lt hfuel)
  induction qs generalizing given q fuel with
  | nil =>
    obtain ⟨t, ts, hq, hts, rfl⟩ := List.forall₂_cons_right_iff.1 hgiven
    obtain rfl := List.forall₂_nil_right_iff.1 hts
    rw [separated, List.flatMap_nil, List.append_nil] at hfuel ⊢
    obtain ⟨g, hg, hread⟩ := t.exists_value_padded hq (Nat.le_of_succ_le_succ hfuel)
    exact items_last hg hread
  | cons p qs ih =>
    obtain ⟨t, ts, hq, hts, rfl⟩ := List.forall₂_cons_right_iff.1 hgiven
    rw [separated_cons] at hfuel ⊢
    rw [List.length_append, List.length_cons] at hfuel
    obtain ⟨fuel, rfl⟩ : ∃ n, fuel = n + 1 := ⟨fuel - 1, by omega⟩
    obtain ⟨g, hg, hread⟩ := t.exists_value_padded hq (show _ ≤ fuel + 1 by omega)
    rw [List.append_assoc, List.cons_append]
    exact items_next hg hread (ih hts fuel (by omega))

/-- A body that has the texts as the items of an array, with white space around the array. -/
def ArrayForm (given : List (ObjectText w)) (body : List Char) : Prop :=
  ∃ inner, Padded isBlank ('[' :: inner ++ [']']) body ∧
    (given = [] ∧ Gap inner ∨
      ∃ q qs, inner = separated ',' q qs ∧
        List.Forall₂ (fun t q => Padded isGap t.chars q) given (q :: qs))

/-- **An array of texts is read item by item.** -/
theorem parse?_array {given : List (ObjectText w)} {inner : List Char}
    (h : given = [] ∧ Gap inner ∨
      ∃ q qs, inner = separated ',' q qs ∧
        List.Forall₂ (fun t q => Padded isGap t.chars q) given (q :: qs)) :
    parse? (String.ofList ('[' :: inner ++ [']'])) = some (.array (given.map (·.json))) := by
  have hlength : ('[' :: inner ++ [']']).length = inner.length + 2 := by
    rw [List.length_append, List.length_cons, List.length_singleton]
  have hread : Json.value (inner.length + 2 + 1) ('[' :: inner ++ [']'])
      = some (.array (given.map (·.json)), []) := by
    rw [List.cons_append]
    obtain ⟨rfl, hinner⟩ | ⟨q, qs, rfl, hqs⟩ := h
    · rw [value_bracket, skipGap_append hinner, skipGap_cons rfl]
      rfl
    · have hitems := items_separated [] hqs (Nat.le_refl _)
      obtain ⟨t, _, ⟨before, after, rfl, hbefore, -⟩, -, -⟩ := List.forall₂_cons_right_iff.1 hqs
      obtain ⟨cs, hcs⟩ := List.head?_eq_some_iff.1 t.head
      rw [separated, hcs, List.append_assoc, List.append_assoc, List.append_assoc,
        items_append hbefore] at hitems
      rw [separated, hcs, List.append_assoc, List.append_assoc, List.append_assoc]
      exact value_items hbefore rfl (by decide) hitems
  rw [parse?, String.toList_ofList, hlength, hread]
  rfl

end Arrays

/-! ## Room for an identifier -/

section Room

variable {ms : List (String × Json)}

/-- An identifier that is read with fewer containers open around it is read with more of them if it
fits what they leave. -/
theorem cid?_eq {v : Json} {c : String} {opened : Nat} (h : cid? opened v = some c) (more : Nat) :
    cid? more v = if v.fits (maxNesting - more) then some c else none := by
  cases v with
  | object ms =>
    rw [cid?] at h ⊢
    split at h
    · rw [h]
    · cases h
  | null => exact h
  | text s => exact h
  | _ => cases h

/-- What a slot holds is the value of the only member of its name. -/
theorem all_slot {key : String} {o : Option Json} (h : slot [key] ms = some o) (P : Json → Bool) :
    o.all P = ms.all fun m => m.1 != key || P m.2 := by
  have hfilter : (ms.all fun m => m.1 != key || P m.2)
      = (ms.filter fun m => [key].contains m.1).all fun m => P m.2 := by
    rw [List.all_filter]
    congr 1
    funext m
    rw [List.contains_cons, List.contains_nil, Bool.or_false, bne]
  rw [hfilter]
  rw [slot] at h
  split at h
  · next hnil =>
    obtain rfl := Option.some.inj h
    rw [hnil]
    rfl
  · next m hm =>
    obtain rfl := Option.some.inj h
    rw [hm, List.all_cons, List.all_nil, Bool.and_true]
    rfl
  · cases h

/-- **The identifier of a record is read in an array as well if it fits there**, and not
otherwise. -/
theorem orDefault_cid?_eq {o : Option Json} (hslot : slot ["cid"] ms = some o) {c : String}
    (h : orDefault "" (cid? 1) o = some c) : orDefault "" (cid? 2) o
      = if ms.all fun m => m.1 != "cid" || m.2.fits (maxNesting - 2) then some c else none := by
  rw [← all_slot hslot]
  cases o with
  | none => exact h
  | some v => exact cid?_eq h 2

theorem pin_read {p : Pin} (h : Pin.ofJson? 0 (.object ms) = some p) :
    Pin.ofJson? 1 (.object ms)
      = if WireType.pin.hasRoom (.object ms) then some p else none := by
  obtain ⟨vs, hvs, h⟩ := Option.bind_eq_some_iff.1 h
  rw [Pin.ofJson?, hvs, Option.bind_eq_bind, Option.bind_some]
  split at h
  · obtain ⟨c, hc, h⟩ := Option.bind_eq_some_iff.1 h
    have hslot := (List.cons.inj (mapM_eq_some_iff.1 hvs)).1
    rw [orDefault_cid?_eq hslot hc, WireType.hasRoom]
    split
    · exact h
    · rfl
  · cases h

theorem entry_read {e : AddedEntry} (h : AddedEntry.ofJson? 0 (.object ms) = some e) :
    AddedEntry.ofJson? 1 (.object ms)
      = if WireType.entry.hasRoom (.object ms) then some e else none := by
  obtain ⟨vs, hvs, h⟩ := Option.bind_eq_some_iff.1 h
  rw [AddedEntry.ofJson?, hvs, Option.bind_eq_bind, Option.bind_some]
  split at h
  · obtain ⟨name, hname, h⟩ := Option.bind_eq_some_iff.1 h
    obtain ⟨c, hc, h⟩ := Option.bind_eq_some_iff.1 h
    have hslot := (List.cons.inj (List.cons.inj (mapM_eq_some_iff.1 hvs)).2).1
    rw [hname, Option.bind_eq_bind, Option.bind_some, orDefault_cid?_eq hslot hc, WireType.hasRoom]
    split
    · exact h
    · rfl
  · cases h

/-- A text that starts with a brace is that of an object, unless nothing can be read from it. -/
theorem parse?_brace {cs : List Char} {v : Json}
    (h : parse? (String.ofList ('{' :: cs)) = some v) : v = .unreadable ∨ ∃ ms, v = .object ms := by
  obtain ⟨g, -, hread⟩ := exists_value_of_parse? h
  rw [List.length_cons, value_brace] at hread
  split at hread
  · obtain ⟨rfl, -⟩ := Prod.mk.inj (Option.some.inj hread)
    exact .inr ⟨[], rfl⟩
  · obtain ⟨⟨ms, r⟩, -, hread⟩ := Option.map_eq_some_iff.1 hread
    obtain ⟨rfl, -⟩ := Prod.mk.inj hread
    rw [objectOf]
    split
    · exact .inr ⟨_, rfl⟩
    · exact .inl rfl

theorem WireType.read_unreadable (w : WireType) (opened : Nat) :
    w.read opened .unreadable = none := by
  cases w <;> rfl

/-- **A value is read in an array as it is read on its own if its identifier has room**, and not at
all otherwise. -/
theorem ObjectText.read_one {w : WireType} (t : ObjectText w) :
    w.read 1 t.json = if w.hasRoom t.json then some t.value else none := by
  obtain ⟨cs, hcs⟩ := List.head?_eq_some_iff.1 t.head
  have hread := t.read
  obtain hv | ⟨ms, hms⟩ := parse?_brace (hcs ▸ t.parsed)
  · rw [hv, w.read_unreadable] at hread
    cases hread
  · rw [hms] at hread ⊢
    cases w with
    | pin => exact pin_read hread
    | entry => exact entry_read hread
    | peer => exact hread
    | metric => exact hread

end Room

/-! ## Both forms -/

section Forms

variable {w : WireType} {given : List (ObjectText w)}

/-- A text of a value has no blank at its ends. -/
theorem ObjectText.trim_padded (t : ObjectText w) {line : List Char}
    (h : Padded isBlank t.chars line) : trim line = t.chars := by
  obtain ⟨before, after, rfl, hbefore, hafter⟩ := h
  rw [trim_append_append hbefore hafter]
  refine trim_eq_self (fun c hc => ?_) fun c hc => ?_
  · rw [t.head] at hc
    obtain rfl := Option.mem_some_iff.1 hc
    rfl
  · rw [t.last] at hc
    obtain rfl := Option.mem_some_iff.1 hc
    rfl

/-- **The form of an array gives every value in order**, unless one of them has no room in it. -/
theorem listing?_array {body : String} (h : ArrayForm given body.toList) :
    listing? w.read body
      = if given.all fun t => w.hasRoom t.json then some (given.map (·.value)) else none := by
  obtain ⟨inner, ⟨before, after, hbody, hbefore, hafter⟩, hinner⟩ := h
  have htrim : trim body.toList = '[' :: inner ++ [']'] := by
    rw [hbody, trim_append_append hbefore hafter]
    refine trim_eq_self (fun c hc => ?_) fun c hc => ?_
    · obtain rfl := Option.mem_some_iff.1 hc
      rfl
    · rw [List.getLast?_append_of_ne_nil _ (List.cons_ne_nil _ _)] at hc
      obtain rfl := Option.mem_some_iff.1 hc
      rfl
  have hhead : (('[' :: inner ++ [']']).head? == some '[') = true := rfl
  rw [listing?, htrim, if_pos hhead, parse?_array hinner, Option.bind_some, asList, List.mapM_map]
  split
  · next hroom =>
    refine mapM_eq_some_iff.2 ?_
    rw [List.map_map]
    refine List.map_congr_left fun t ht => ?_
    exact t.read_one.trans (if_pos (List.all_eq_true.1 hroom t ht))
  · next hroom =>
    rw [Bool.not_eq_true, List.all_eq_false] at hroom
    obtain ⟨t, ht, hroom⟩ := hroom
    exact mapM_eq_none_iff.2 ⟨t, ht, t.read_one.trans (if_neg hroom)⟩

/-- Lines that have the texts on lines of their own, with white space around them and blank lines
anywhere. -/
inductive Lines : List (ObjectText w) → List (List Char) → Prop
  | nil : Lines [] []
  | blank {line : List Char} {given : List (ObjectText w)} {lines : List (List Char)}
      (hblank : ∀ c ∈ line, isBlank c = true) (hunbroken : '\n' ∉ line) (h : Lines given lines) :
      Lines given (line :: lines)
  | text {t : ObjectText w} {line : List Char} {given : List (ObjectText w)}
      {lines : List (List Char)} (hline : Padded isBlank t.chars line) (hunbroken : '\n' ∉ line)
      (h : Lines given lines) : Lines (t :: given) (line :: lines)

theorem Lines.unbroken {lines : List (List Char)} (h : Lines given lines) :
    ∀ line ∈ lines, '\n' ∉ line := by
  induction h with
  | nil => exact List.forall_mem_nil _
  | blank _ hunbroken _ ih => exact List.forall_mem_cons.2 ⟨hunbroken, ih⟩
  | text _ hunbroken _ ih => exact List.forall_mem_cons.2 ⟨hunbroken, ih⟩

/-- Of such lines the texts are left. -/
theorem Lines.filter_trim {lines : List (List Char)} (h : Lines given lines) :
    ((lines.map trim).filter fun line => !line.isEmpty) = given.map (·.chars) := by
  induction h with
  | nil => rfl
  | blank hblank _ _ ih =>
    rw [List.map_cons, trim_of_forall_isBlank hblank]
    exact ih
  | @text t _ _ _ hline _ _ ih =>
    obtain ⟨cs, hcs⟩ := List.head?_eq_some_iff.1 t.head
    rw [List.map_cons, t.trim_padded hline, List.filter_cons_of_pos, ih, List.map_cons]
    rw [hcs]
    rfl

/-- A body that has the texts on lines of their own. -/
def LineForm (given : List (ObjectText w)) (body : List Char) : Prop :=
  ∃ line lines, body = separated '\n' line lines ∧ Lines given (line :: lines)

/-- The first character of such lines that is no blank is a brace. -/
theorem Lines.find?_ne {lines : List (List Char)} (h : Lines given lines) :
    ((lines.flatMap fun line => '\n' :: line).find? fun c => !isBlank c) ≠ some '[' := by
  induction h with
  | nil => exact nofun
  | @blank line _ _ hblank _ _ ih =>
    have hnone : (line.find? fun c => !isBlank c) = none :=
      List.find?_eq_none.2 fun c hc => by rw [hblank c hc]; exact Bool.false_ne_true
    rw [List.flatMap_cons, List.cons_append, List.find?_cons_of_neg (by decide), List.find?_append,
      hnone]
    exact ih
  | @text t line _ _ hline _ _ _ =>
    have hbrace : (line.find? fun c => !isBlank c) = some '{' := by
      rw [← head?_trim, t.trim_padded hline, t.head]
    rw [List.flatMap_cons, List.cons_append, List.find?_cons_of_neg (by decide), List.find?_append,
      hbrace]
    exact fun h => absurd (Option.some.inj h) (by decide)

theorem LineForm.find?_ne {body : List Char} (h : LineForm given body) :
    (body.find? fun c => !isBlank c) ≠ some '[' := by
  obtain ⟨line, lines, rfl, h⟩ := h
  have hbody := h.find?_ne
  rwa [List.flatMap_cons, List.cons_append, List.find?_cons_of_neg (by decide)] at hbody

theorem LineForm.filledLines_eq {body : List Char} (h : LineForm given body) :
    filledLines body = given.map (·.chars) := by
  obtain ⟨line, lines, rfl, h⟩ := h
  obtain ⟨hline, hlines⟩ := List.forall_mem_cons.1 h.unbroken
  rw [Http.filledLines_eq, splitAt_separated hline hlines, h.filter_trim]

/-- A body whose first character says that it is no array is read line by line. -/
theorem listing?_of_find? {read : Nat → Json → Option α} {body : String}
    (h : (body.toList.find? fun c => !isBlank c) ≠ some '[') :
    listing? read body = (filledLines body.toList).mapM fun line =>
      (parse? (String.ofList line)).bind (read 0) := by
  rw [← head?_trim] at h
  rw [listing?, if_neg (fun hhead => h (eq_of_beq hhead)), filledLines_trim]

/-- **The form of lines gives every value in order.** -/
theorem listing?_lines {body : String} (h : LineForm given body.toList) :
    listing? w.read body = some (given.map (·.value)) := by
  rw [listing?_of_find? h.find?_ne, h.filledLines_eq, List.mapM_map]
  refine mapM_eq_some_iff.2 ?_
  rw [List.map_map]
  refine List.map_congr_left fun t _ => ?_
  rw [Function.comp_apply, t.parsed]
  exact t.read

/-- An empty body is the empty list, and so is one of white space. -/
theorem listing?_blank {body : String} (h : ∀ c ∈ body.toList, isBlank c = true) :
    listing? w.read body = some [] := by
  rw [listing?, trim_of_forall_isBlank h]
  rfl

end Forms

/-! ## All or nothing -/

section AllOrNothing

variable (w : WireType)

/-- Value that a line holds, with the white space around it left out. -/
def WireType.lineValue? (line : List Char) : Option w.Value :=
  (parse? (String.ofList (trim line))).bind (w.read 0)

/-- Lines of a body that are not blank. -/
def writtenLines (body : String) : List (List Char) :=
  (lines body.toList).filter fun line => !(trim line).isEmpty

theorem listing?_eq_mapM {body : String} (h : (body.toList.find? fun c => !isBlank c) ≠ some '[') :
    listing? w.read body = (writtenLines body).mapM w.lineValue? := by
  rw [listing?_of_find? h, filledLines, List.filter_map, List.mapM_map]
  rfl

/-- **Both forms of a list are read alike, and all of it or nothing.**  An array gives its values in
order, except that it is not read where an identifier has no room in it; lines give theirs
whatever blanks there are; and a body that is no array is refused as soon as one line that is not
blank makes no sense, and otherwise gives a value for each of them. -/
theorem listing?_all_or_nothing :
    (∀ (given : List (ObjectText w)) (body : String), ArrayForm given body.toList →
      listing? w.read body
        = if given.all fun t => w.hasRoom t.json then some (given.map (·.value)) else none) ∧
    (∀ (given : List (ObjectText w)) (body : String), LineForm given body.toList →
      listing? w.read body = some (given.map (·.value))) ∧
    (∀ body : String, (∀ c ∈ body.toList, isBlank c = true) → listing? w.read body = some []) ∧
    ∀ body : String, (body.toList.find? fun c => !isBlank c) ≠ some '[' →
      (listing? w.read body = none ↔ ∃ line ∈ writtenLines body, w.lineValue? line = none) ∧
      ∀ values, listing? w.read body = some values ↔
        (writtenLines body).map w.lineValue? = values.map some := by
  refine ⟨fun _ _ => listing?_array, fun _ _ => listing?_lines, fun _ => listing?_blank,
    fun body h => ?_⟩
  rw [listing?_eq_mapM w h]
  exact ⟨mapM_eq_none_iff, fun _ => mapM_eq_some_iff⟩

/-- A text of an added entry of which the identifier is told. -/
def fewText : ObjectText .entry where
  chars := compactChars (.object [("cid", .text "few")])
  json := .object [("cid", .text "few")]
  value := { (default : AddedEntry) with cid := "few" }
  head := rfl
  last := by decide
  unbroken := by decide
  parsed := parse?_compact (.object (List.forall_mem_singleton.2 (.text _)))
  read := rfl

/-- Both forms of a list with the entry twice, a blank list, and a list that breaks off. -/
theorem listing?_all_or_nothing_sample :
    listing? WireType.entry.read "\r\n[\x7b\"cid\":\"few\"\x7d ,\n\x7b\"cid\":\"few\"\x7d]"
      = some [fewText.value, fewText.value] ∧
    listing? WireType.entry.read "\r\n\x7b\"cid\":\"few\"\x7d\r\n \n\x7b\"cid\":\"few\"\x7d"
      = some [fewText.value, fewText.value] ∧
    listing? WireType.entry.read " \r\n" = some [] ∧
    listing? WireType.entry.read "\x7b\"cid\":\"few\"\x7d\n\x7b" = none := by
  obtain ⟨harray, hlines, hblank, hrest⟩ := listing?_all_or_nothing .entry
  refine ⟨harray [fewText, fewText] _ ?_, hlines [fewText, fewText] _ ?_,
    hblank _ (List.all_eq_true.1 (by decide +kernel)),
    (hrest _ (by decide +kernel)).1.2 ⟨['{'], by decide +kernel, rfl⟩⟩
  · have hfirst : Padded isGap fewText.chars (fewText.chars ++ [' ']) :=
      ⟨[], [' '], rfl, List.all_eq_true.1 rfl, List.all_eq_true.1 rfl⟩
    have hsecond : Padded isGap fewText.chars ('\n' :: fewText.chars) :=
      ⟨['\n'], [], (List.append_nil _).symm, List.all_eq_true.1 rfl, List.all_eq_true.1 rfl⟩
    exact ⟨separated ',' (fewText.chars ++ [' ']) ['\n' :: fewText.chars],
      ⟨['\r', '\n'], [], by decide +kernel, List.all_eq_true.1 rfl, List.all_eq_true.1 rfl⟩,
      .inr ⟨_, _, rfl, .cons hfirst (.cons hsecond .nil)⟩⟩
  · have hreturn : Padded isBlank fewText.chars (fewText.chars ++ ['\r']) :=
      ⟨[], ['\r'], rfl, List.all_eq_true.1 rfl, List.all_eq_true.1 rfl⟩
    have hlast : Lines [fewText] [fewText.chars] := .text (padded_self _ _) fewText.unbroken .nil
    exact ⟨['\r'], [fewText.chars ++ ['\r'], [' '], fewText.chars], by decide +kernel,
      .blank (List.all_eq_true.1 rfl) (by decide)
        (.text hreturn (by decide) (.blank (List.all_eq_true.1 rfl) (by decide) hlast))⟩

/-- Arrays in one another, `n` of them around the innermost. -/
def nested : Nat → Json
  | 0 => .array []
  | n + 1 => .array [nested n]

theorem legible_nested : ∀ n, (nested n).Legible
  | 0 => .array (List.forall_mem_nil _)
  | n + 1 => .array (List.forall_mem_singleton.2 (legible_nested n))

/-- An identifier given as a link object in which as many containers are open as may be. -/
def deepLink : Json := .object [("/", .text "few"), ("x", nested 124)]

theorem legible_deepLink : deepLink.Legible :=
  .object (List.forall_mem_cons.2 ⟨.text _, List.forall_mem_singleton.2 (legible_nested 124)⟩)

/-- A pin with such an identifier. -/
def deepPin : ObjectText .pin where
  chars := compactChars (.object [("cid", deepLink)])
  json := .object [("cid", deepLink)]
  value := { (default : Pin) with cid := "few" }
  head := rfl
  last := by decide +kernel
  unbroken := by decide +kernel
  parsed := parse?_compact (.object (List.forall_mem_singleton.2 legible_deepLink))
  read := show Pin.ofJson? 0 _ = some { (default : Pin) with cid := "few" } by decide +kernel

/-- **A link object that is just not too deep on a line of its own is too deep in an array.** -/
theorem listing?_deepPin :
    ArrayForm [deepPin] ('[' :: deepPin.chars ++ [']']) ∧
    listing? WireType.pin.read (String.ofList ('[' :: deepPin.chars ++ [']'])) = none ∧
    LineForm [deepPin] deepPin.chars ∧
    listing? WireType.pin.read (String.ofList deepPin.chars) = some [deepPin.value] := by
  have harray : ArrayForm [deepPin] ('[' :: deepPin.chars ++ [']']) :=
    ⟨deepPin.chars, padded_self _ _,
      .inr ⟨deepPin.chars, [], (List.append_nil _).symm, .cons (padded_self _ _) .nil⟩⟩
  have hline : LineForm [deepPin] deepPin.chars :=
    ⟨deepPin.chars, [], (List.append_nil _).symm, .text (padded_self _ _) deepPin.unbroken .nil⟩
  refine ⟨harray, ?_, hline, ?_⟩
  · rw [listing?_array (show ArrayForm [deepPin] _ by rwa [String.toList_ofList])]
    decide +kernel
  · exact listing?_lines (by rwa [String.toList_ofList])

end AllOrNothing

end PinKeeper.Http

