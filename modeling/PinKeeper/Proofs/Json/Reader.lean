import PinKeeper.Json.Printer
import PinKeeper.Json.Reader
import PinKeeper.Proofs.Text.Decimal

/-!
# Proofs/Json/Reader — what is written is read back

The two layouts differ in where blanks stand, so it is said first which texts of a value there are
with any blanks between two tokens (`Written`).  The reader takes such a text for the value and
leaves what follows it (`value_of_written`).  More fuel than the text has characters is enough,
because each level of the recursion reads one character at least.  Both layouts give texts of that
kind (`written_compactChars`, `written_prettyChars`), as far as the value has nothing but readable
literals (`Legible`); so either is read back (`parse?_compact`, `parse?_pretty`).
-/

namespace PinKeeper.Json

/-! ## Strings -/

section Strings

/-- A control character is read back from the number it is escaped by. -/
theorem hexNumber?_escape : ∀ n < 0x20,
    Text.hexNumber? ['0', '0', Text.hexLower (n / 16), Text.hexLower (n % 16)] = some n := by
  decide

variable {c e : Char} {rest r : List Char} {ps : List Piece}

theorem pieces_short (hc : c ≠ 'u') (he : shortEscape? c = some e)
    (h : pieces rest = some (ps, r)) :
    pieces ('\\' :: c :: rest) = some (.char e :: ps, r) := by
  rw [pieces, he, h]
  · rfl
  · rintro _ _ _ _ _ rfl
    exact absurd rfl hc

theorem pieces_control (hlow : c.toNat < 0x20) (h : pieces rest = some (ps, r)) :
    pieces ('\\' :: 'u' :: '0' :: '0' :: Text.hexLower (c.toNat / 16) ::
      Text.hexLower (c.toNat % 16) :: rest) = some (.char c :: ps, r) := by
  have hunit : Piece.ofUnit c.toNat = .char c := by
    have hhalf : ¬(decide (0xD800 ≤ c.toNat) && decide (c.toNat ≤ 0xDFFF)) = true := by
      rw [Bool.and_eq_true, decide_eq_true_eq]
      omega
    rw [Piece.ofUnit, if_neg hhalf, Char.ofNat_toNat]
  rw [pieces, hexNumber?_escape _ hlow, h, ← hunit]
  rfl

theorem pieces_self (hquote : c ≠ '"') (hslash : c ≠ '\\') (hlow : ¬c.toNat < 0x20)
    (h : pieces rest = some (ps, r)) : pieces (c :: rest) = some (.char c :: ps, r) := by
  rw [pieces, if_neg hlow, h]
  · rfl
  · exact hquote
  · exact fun _ _ _ _ _ hc => absurd hc hslash
  · exact fun _ _ hc => absurd hc hslash

/-- **An escaped character is read back.** -/
theorem pieces_escaped (c : Char) (h : pieces rest = some (ps, r)) :
    pieces (escaped c ++ rest) = some (.char c :: ps, r) := by
  rw [escaped]
  -- The seven characters that have a letter of their own, then the other control characters.
  iterate 7
    split
    · next hc =>
      subst hc
      exact pieces_short (by decide) rfl h
  split
  · next hlow => exact pieces_control hlow h
  · next hquote hslash _ _ _ _ _ hlow => exact pieces_self hquote hslash hlow h

theorem text?_map_char (cs : List Char) : Piece.text? (cs.map .char) = some cs := by
  induction cs with
  | nil => rfl
  | cons c cs ih => rw [List.map_cons, Piece.text?, ih, Option.map_some]

/-- **A string literal is read back**, and what follows it is left. -/
theorem stringLiteral_escaped (s : String) (rest : List Char) :
    stringLiteral (s.toList.flatMap escaped ++ '"' :: rest) = some (some s, rest) := by
  have hpieces (cs : List Char) :
      pieces (cs.flatMap escaped ++ '"' :: rest) = some (cs.map .char, rest) := by
    induction cs with
    | nil => rfl
    | cons c cs ih =>
      rw [List.flatMap_cons, List.append_assoc]
      exact pieces_escaped c ih
  have htext : (Piece.text? (s.toList.map .char)).map String.ofList = some s := by
    rw [text?_map_char, Option.map_some, String.ofList_toList]
  rw [stringLiteral, hpieces, Option.map_some, ← htext]

end Strings

/-! ## Numbers -/

section Numbers

/-- A text that does not go on with a number. -/
def EndsNumber (rest : List Char) : Prop :=
  ∀ c ∈ rest.head?, c.isDigit = false ∧ c ≠ '.' ∧ c ≠ 'e' ∧ c ≠ 'E'

variable {rest : List Char}

theorem EndsNumber.endsDigits (h : EndsNumber rest) : Text.EndsDigits rest := fun c hc => (h c hc).1

theorem wholePart_digits (n : Nat) (h : EndsNumber rest) :
    wholePart (Text.digits n ++ rest) = some (Text.digits n, rest) := by
  have hspan : digitSpan (Text.digits n ++ rest) = (Text.digits n, rest) :=
    Prod.ext
      (Text.takeWhile_isDigit_append (fun _ => Text.isDigit_of_mem_digits) h.endsDigits)
      (Text.dropWhile_isDigit_append (fun _ => Text.isDigit_of_mem_digits) h.endsDigits)
  rw [wholePart, hspan]
  split
  · next hnil => exact absurd (Prod.mk.inj hnil).1 (Text.digits_ne_nil n)
  · next hzero =>
    obtain ⟨hdigits, rfl⟩ := Prod.mk.inj hzero
    rw [hdigits]
  · next ds _ hne hzero =>
    exact absurd (Text.eq_of_digits_eq_zero_cons (Prod.mk.inj hzero).1) hne
  · next heq =>
    obtain ⟨rfl, rfl⟩ := Prod.mk.inj heq
    rfl

/-- Value of a whole number that is not too great. -/
theorem numberOf_digits {negative : Bool} {n : Nat} (hzero : negative = true → n ≠ 0)
    (hfinite : Text.overflows (Text.digits n) 0 = false) :
    numberOf negative (Text.digits n) none none = .int (if negative then -(n : Int) else n) := by
  have hsign : ¬(negative && decide (n = 0)) = true := by
    rw [Bool.and_eq_true, decide_eq_true_eq]
    exact fun h => hzero h.1 h.2
  unfold numberOf
  dsimp only
  rw [Text.ofDigits_digits, if_neg hsign, hfinite, if_neg Bool.false_ne_true]

theorem number_digits (negative : Bool) (n : Nat) (h : EndsNumber rest) :
    number ((if negative then ['-'] else []) ++ (Text.digits n ++ rest))
      = some (numberOf negative (Text.digits n) none none, rest) := by
  have hpart : fractionPart rest = some (none, rest) := by
    rw [fractionPart]
    rintro r rfl
    exact absurd rfl (h '.' rfl).2.1
  have hpower : exponentPart rest = some (none, rest) := by
    rw [exponentPart]
    · rintro r rfl
      exact absurd rfl (h 'e' rfl).2.2.1
    · rintro r rfl
      exact absurd rfl (h 'E' rfl).2.2.2
  cases negative with
  | true =>
    rw [if_pos rfl, List.singleton_append, number]
    simp only [wholePart_digits n h, hpart, hpower, Option.bind_eq_bind, Option.bind_some]
  | false =>
    rw [if_neg Bool.false_ne_true, List.nil_append, number]
    · simp only [wholePart_digits n h, hpart, hpower, Option.bind_eq_bind, Option.bind_some]
    · intro r hr
      obtain ⟨hnil, -⟩ | ⟨ds, hds, -⟩ := List.append_eq_cons_iff.1 hr
      · exact Text.digits_ne_nil n hnil
      · have hminus := Text.isDigit_of_mem_digits (n := n) (hds ▸ List.mem_cons_self)
        cases hminus

/-- **A whole number is read back**, unless it exceeds every double-precision number. -/
theorem number_integer {i : Int} (hfinite : Text.overflows (Text.digits i.natAbs) 0 = false)
    (h : EndsNumber rest) : number ((Text.integer i).toList ++ rest) = some (.int i, rest) := by
  by_cases hneg : i < 0
  · have htext : (Text.integer i).toList = '-' :: Text.digits i.natAbs := by
      rw [Text.integer, if_pos hneg]
      exact (String.toList_append ..).trans (congrArg _ (String.toList_ofList ..))
    have hi : -(i.natAbs : Int) = i := by omega
    have hread := number_digits true i.natAbs h
    rw [numberOf_digits (fun _ => by omega) hfinite, if_pos rfl, if_pos rfl, hi] at hread
    rw [htext]
    exact hread
  · have htext : (Text.integer i).toList = Text.digits i.natAbs := by
      rw [Text.integer, if_neg hneg]
      exact String.toList_ofList ..
    have hi : (i.natAbs : Int) = i := by omega
    have hread := number_digits false i.natAbs h
    rw [numberOf_digits (absurd · Bool.false_ne_true) hfinite, if_neg Bool.false_ne_true,
      if_neg Bool.false_ne_true, hi] at hread
    rw [htext]
    exact hread

/-- Numbers of 64 bits are none of those that exceed. -/
theorem overflows_digits_of_le {n : Nat} (h : n ≤ Text.max64) :
    Text.overflows (Text.digits n) 0 = false := by
  have hlength : (Text.digits n).length ≤ 20 :=
    Text.length_digits_le (by decide) (Nat.lt_of_le_of_lt h (by decide))
  rw [Text.overflows, Text.ofDigits_digits]
  split
  · rfl
  · rw [if_neg (by omega), if_pos (by omega)]

end Numbers

/-! ## Written texts -/

/-- Blanks only. -/
def Gap (g : List Char) : Prop := ∀ c ∈ g, isGap c = true

mutual

/-- A text of a value, with blanks between tokens. -/
inductive Written : Json → List Char → Prop
  | null : Written .null (scalar .null)
  | bool (b : Bool) : Written (.bool b) (scalar (.bool b))
  | int (i : Int) (h : Text.overflows (Text.digits i.natAbs) 0 = false) :
      Written (.int i) (scalar (.int i))
  | text (s : String) : Written (.text s) (scalar (.text s))
  | noItems {g : List Char} (hg : Gap g) : Written (.array []) ('[' :: g ++ [']'])
  | array {v : Json} {vs : List Json} {g cs ds : List Char} (hg : Gap g) (hv : Written v cs)
      (hvs : WrittenItems vs ds) : Written (.array (v :: vs)) ('[' :: g ++ cs ++ ds)
  | noMembers {g : List Char} (hg : Gap g) : Written (.object []) ('{' :: g ++ ['}'])
  | object {k : String} {v : Json} {ms : List (String × Json)} {g g' cs ds : List Char}
      (hg : Gap g) (hg' : Gap g') (hv : Written v cs) (hms : WrittenMembers ms ds) :
      Written (.object ((k, v) :: ms)) ('{' :: g ++ quoted k ++ ':' :: (g' ++ cs) ++ ds)

/-- A text of the further items of an array, with its closing bracket. -/
inductive WrittenItems : List Json → List Char → Prop
  | nil {g : List Char} (hg : Gap g) : WrittenItems [] (g ++ [']'])
  | cons {v : Json} {vs : List Json} {g cs ds : List Char} (hg : Gap g) (hv : Written v cs)
      (hvs : WrittenItems vs ds) : WrittenItems (v :: vs) (',' :: g ++ cs ++ ds)

/-- A text of the further members of an object, with its closing brace. -/
inductive WrittenMembers : List (String × Json) → List Char → Prop
  | nil {g : List Char} (hg : Gap g) : WrittenMembers [] (g ++ ['}'])
  | cons {k : String} {v : Json} {ms : List (String × Json)} {g g' cs ds : List Char}
      (hg : Gap g) (hg' : Gap g') (hv : Written v cs) (hms : WrittenMembers ms ds) :
      WrittenMembers ((k, v) :: ms) (',' :: g ++ quoted k ++ ':' :: (g' ++ cs) ++ ds)

end

/-! ## Blanks -/

section Blanks

variable {g s : List Char}

theorem gap_nil : Gap [] := fun _ h => absurd h List.not_mem_nil

theorem skipGap_append (hg : Gap g) : skipGap (g ++ s) = skipGap s := by
  rw [skipGap, List.dropWhile_append_of_pos hg]
  rfl

theorem skipGap_cons {c : Char} (hc : isGap c = false) : skipGap (c :: s) = c :: s :=
  List.dropWhile_cons_of_neg (Bool.eq_false_iff.1 hc)

theorem value_append (hg : Gap g) (fuel : Nat) : value fuel (g ++ s) = value fuel s := by
  cases fuel with
  | zero => rfl
  | succ fuel => rw [value, value, skipGap_append hg]

theorem items_append (hg : Gap g) (fuel : Nat) : items fuel (g ++ s) = items fuel s := by
  cases fuel with
  | zero => rfl
  | succ fuel => rw [items, items, value_append hg]

theorem members_append (hg : Gap g) (fuel : Nat) : members fuel (g ++ s) = members fuel s := by
  cases fuel with
  | zero => rfl
  | succ fuel => rw [members, members, skipGap_append hg]

end Blanks

/-! ## Reading -/

section Reading

variable {rest : List Char}

theorem endsNumber_cons {c : Char} (hc : isGap c = true ∨ c = ',' ∨ c = ']' ∨ c = '}') :
    EndsNumber (c :: rest) := by
  rintro d hd
  obtain rfl := Option.mem_some_iff.1 hd
  simp only [isGap, Bool.or_eq_true, decide_eq_true_eq] at hc
  rcases hc with (((rfl | rfl) | rfl) | rfl) | rfl | rfl | rfl <;> decide

theorem endsNumber_gap_append {g : List Char} {c : Char} (hg : Gap g)
    (hc : c = ',' ∨ c = ']' ∨ c = '}') : EndsNumber (g ++ [c] ++ rest) := by
  cases g with
  | nil => exact endsNumber_cons (.inr hc)
  | cons b g => exact endsNumber_cons (.inl (hg b List.mem_cons_self))

theorem WrittenItems.endsNumber {vs : List Json} {ds : List Char} (h : WrittenItems vs ds)
    (rest : List Char) : EndsNumber (ds ++ rest) := by
  cases h with
  | nil hg => exact endsNumber_gap_append hg (.inr (.inl rfl))
  | cons => exact endsNumber_cons (.inr (.inl rfl))

theorem WrittenMembers.endsNumber {ms : List (String × Json)} {ds : List Char}
    (h : WrittenMembers ms ds) (rest : List Char) : EndsNumber (ds ++ rest) := by
  cases h with
  | nil hg => exact endsNumber_gap_append hg (.inr (.inr rfl))
  | cons => exact endsNumber_cons (.inr (.inl rfl))

theorem exists_integer_eq_cons (i : Int) :
    ∃ c cs, (Text.integer i).toList = c :: cs ∧ (c.isDigit = true ∨ c = '-') := by
  rw [Text.integer]
  split
  · exact ⟨'-', _, String.toList_append .., .inr rfl⟩
  · cases hdigits : Text.digits i.natAbs with
    | nil => exact absurd hdigits (Text.digits_ne_nil _)
    | cons c cs =>
      refine ⟨c, cs, (String.toList_ofList ..).trans hdigits, .inl ?_⟩
      exact Text.isDigit_of_mem_digits (hdigits ▸ List.mem_cons_self)

theorem isGap_of_isDigit {c : Char} (hc : c.isDigit = true ∨ c = '-') : isGap c = false := by
  rw [Bool.eq_false_iff]
  intro h
  simp only [isGap, Bool.or_eq_true, decide_eq_true_eq] at h
  rcases h with ((rfl | rfl) | rfl) | rfl <;> revert hc <;> decide

/-- What starts with a digit or a minus sign is read as a number. -/
theorem value_eq_number {c : Char} {s : List Char} (hc : c.isDigit = true ∨ c = '-')
    (fuel : Nat) : value (fuel + 1) (c :: s) = number (c :: s) := by
  have hne {d : Char} {r : List Char} (heq : c :: s = d :: r) : d.isDigit = true ∨ d = '-' :=
    (List.cons.inj heq).1 ▸ hc
  rw [value, skipGap_cons (isGap_of_isDigit hc)]
  split
  · next heq => exact absurd (hne heq) (by decide)
  · next heq => exact absurd (hne heq) (by decide)
  · next heq => exact absurd (hne heq) (by decide)
  · next heq => exact absurd (hne heq) (by decide)
  · next heq => exact absurd (hne heq) (by decide)
  · next heq => exact absurd (hne heq) (by decide)
  · rfl

/-- A written value starts with its first token, which closes nothing. -/
theorem Written.exists_eq_cons {v : Json} {cs : List Char} (h : Written v cs) :
    ∃ c cs', cs = c :: cs' ∧ isGap c = false ∧ c ≠ ']' := by
  cases h with
  | null => exact ⟨'n', _, rfl, rfl, by decide⟩
  | bool b =>
    cases b with
    | true => exact ⟨'t', _, rfl, rfl, by decide⟩
    | false => exact ⟨'f', _, rfl, rfl, by decide⟩
  | int i =>
    obtain ⟨c, cs, hcs, hc⟩ := exists_integer_eq_cons i
    exact ⟨c, cs, hcs, isGap_of_isDigit hc, fun h => absurd (h ▸ hc) (by decide)⟩
  | text => exact ⟨'"', _, rfl, rfl, by decide⟩
  | noItems => exact ⟨'[', _, rfl, rfl, by decide⟩
  | array => exact ⟨'[', _, rfl, rfl, by decide⟩
  | noMembers => exact ⟨'{', _, rfl, rfl, by decide⟩
  | object => exact ⟨'{', _, rfl, rfl, by decide⟩

theorem value_quoted (s : String) (fuel : Nat) :
    value (fuel + 1) (quoted s ++ rest) = some (.text s, rest) := by
  have hread {β : Type} (f : Option String × List Char → β) :
      (stringLiteral (s.toList.flatMap escaped ++ '"' :: rest)).map f
        = some (f (some s, rest)) := by
    rw [stringLiteral_escaped, Option.map_some]
  have htext : quoted s ++ rest = '"' :: (s.toList.flatMap escaped ++ '"' :: rest) := by
    rw [quoted, List.cons_append, List.cons_append, List.append_assoc, List.singleton_append]
  rw [htext, value, skipGap_cons rfl]
  exact hread _

/-- What each element is written as is read back, so the list is. -/
theorem mapM_map_of_forall {α β : Type} {read : β → Option α} {write : α → β} :
    ∀ {as : List α}, (∀ a ∈ as, read (write a) = some a) → (as.map write).mapM read = some as
  | [], _ => rfl
  | a :: as, h => by
    have ⟨ha, has⟩ := List.forall_mem_cons.1 h
    rw [List.map_cons, List.mapM_cons, ha, mapM_map_of_forall has]
    rfl

/-- An object with readable keys is read as it stands. -/
theorem objectOf_some (ms : List (String × Json)) :
    objectOf (ms.map fun m => (some m.1, m.2)) = .object ms := by
  have hmembers : (ms.map fun m => (some m.1, m.2)).mapM (fun m : Option String × Json =>
      m.1.map fun k => (k, m.2)) = some ms :=
    mapM_map_of_forall fun _ _ => rfl
  rw [objectOf, hmembers]

section Items

variable {fuel : Nat} {s r g : List Char} {c : Char} {k : String} {v : Json} {vs : List Json}
  {ms : List (Option String × Json)}

theorem value_bracket (r : List Char) : value (fuel + 1) ('[' :: r) =
    match skipGap r with
    | ']' :: r => some (.array [], r)
    | r => (items fuel r).map fun (vs, r) => (.array vs, r) := by
  rw [value, skipGap_cons rfl]
  rfl

theorem value_brace (r : List Char) : value (fuel + 1) ('{' :: r) =
    match skipGap r with
    | '}' :: r => some (.object [], r)
    | r => (members fuel r).map fun (ms, r) => (objectOf ms, r) := by
  rw [value, skipGap_cons rfl]
  rfl

/-- An array whose first token closes nothing is read item by item. -/
theorem value_items (hg : Gap g) (hc : isGap c = false) (hclose : c ≠ ']')
    (hvs : items fuel (c :: s) = some (vs, rest)) :
    value (fuel + 1) ('[' :: (g ++ c :: s)) = some (.array vs, rest) := by
  rw [value_bracket, skipGap_append hg, skipGap_cons hc]
  split
  · next heq => exact absurd (List.cons.inj heq).1 hclose
  · rw [hvs]
    rfl

/-- An object with a key in it is read member by member. -/
theorem value_members (hg : Gap g)
    (hms : members fuel (quoted k ++ s) = some (ms, rest)) :
    value (fuel + 1) ('{' :: (g ++ (quoted k ++ s))) = some (objectOf ms, rest) := by
  rw [quoted, List.cons_append, List.cons_append] at hms ⊢
  rw [value_brace, skipGap_append hg, skipGap_cons rfl]
  exact congrArg (Option.map _) hms

theorem items_last (hg : Gap g) (hv : value fuel s = some (v, g ++ ']' :: rest)) :
    items (fuel + 1) s = some ([v], rest) := by
  rw [items, hv]
  dsimp only [Option.bind_eq_bind, Option.bind_some]
  rw [skipGap_append hg, skipGap_cons rfl]
  rfl

theorem items_next (hg : Gap g) (hv : value fuel s = some (v, g ++ ',' :: r))
    (hvs : items fuel r = some (vs, rest)) : items (fuel + 1) s = some (v :: vs, rest) := by
  rw [items, hv]
  dsimp only [Option.bind_eq_bind, Option.bind_some]
  rw [skipGap_append hg, skipGap_cons rfl]
  exact congrArg (Option.bind · _) hvs

/-- A member is its key, its value and what the closing brace or the comma behind it leads to. -/
theorem members_quoted : members (fuel + 1) (quoted k ++ ':' :: s) = (do
    let (v, r) ← value fuel s
    match skipGap r with
    | ',' :: r => do
      let (ms, r) ← members fuel r
      some ((some k, v) :: ms, r)
    | '}' :: r => some ([(some k, v)], r)
    | _ => none) := by
  have htext : quoted k ++ ':' :: s = '"' :: (k.toList.flatMap escaped ++ '"' :: ':' :: s) := by
    rw [quoted, List.cons_append, List.cons_append, List.append_assoc, List.singleton_append]
  have hread {β : Type} (f : Option String × List Char → Option β) :
      (stringLiteral (k.toList.flatMap escaped ++ '"' :: ':' :: s)).bind f
        = f (some k, ':' :: s) := by
    rw [stringLiteral_escaped, Option.bind_some]
  rw [htext, members, skipGap_cons rfl]
  refine (hread _).trans ?_
  dsimp only
  rw [skipGap_cons rfl]
  rfl

theorem members_last (hg : Gap g) (hv : value fuel s = some (v, g ++ '}' :: rest)) :
    members (fuel + 1) (quoted k ++ ':' :: s) = some ([(some k, v)], rest) := by
  rw [members_quoted, hv]
  dsimp only [Option.bind_eq_bind, Option.bind_some]
  rw [skipGap_append hg, skipGap_cons rfl]
  rfl

theorem members_next (hv : value fuel s = some (v, ',' :: r))
    (hms : members fuel r = some (ms, rest)) :
    members (fuel + 1) (quoted k ++ ':' :: s) = some ((some k, v) :: ms, rest) := by
  rw [members_quoted, hv]
  dsimp only [Option.bind_eq_bind, Option.bind_some]
  rw [skipGap_cons rfl]
  exact congrArg (Option.bind · _) hms

end Items

theorem WrittenItems.length_pos {vs : List Json} {ds : List Char} (h : WrittenItems vs ds) :
    0 < ds.length := by
  cases h with
  | nil => simp
  | cons => simp

theorem WrittenMembers.length_pos {ms : List (String × Json)} {ds : List Char}
    (h : WrittenMembers ms ds) : 0 < ds.length := by
  cases h with
  | nil => simp
  | cons => simp

mutual

/-- **A written value is read back**, with more fuel than its text has characters. -/
theorem value_of_written : ∀ {v : Json} {cs : List Char}, Written v cs →
    ∀ (fuel : Nat) (rest : List Char), cs.length < fuel → EndsNumber rest →
      value fuel (cs ++ rest) = some (v, rest)
  | _, _, .null, fuel + 1, rest, _, _ => rfl
  | _, _, .bool true, fuel + 1, rest, _, _ => rfl
  | _, _, .bool false, fuel + 1, rest, _, _ => rfl
  | _, _, .int i h, fuel + 1, rest, _, hrest => by
    obtain ⟨c, cs, hcs, hc⟩ := exists_integer_eq_cons i
    rw [← number_integer h hrest, scalar, hcs]
    exact value_eq_number hc fuel
  | _, _, .text s, fuel + 1, rest, _, _ => value_quoted s fuel
  | _, _, .noItems hg, fuel + 1, rest, _, _ => by
    rw [List.cons_append, List.cons_append, List.append_assoc, value_bracket, skipGap_append hg]
    rfl
  | _, _, .array hg hv hvs, fuel + 1, rest, hfuel, _ => by
    simp only [List.cons_append, List.append_assoc, List.length_cons, List.length_append] at hfuel ⊢
    have hpos := hvs.length_pos
    obtain ⟨fuel, rfl⟩ : ∃ f, fuel = f + 1 := ⟨fuel - 1, by omega⟩
    have hread := value_of_written hv fuel _ (by omega) (hvs.endsNumber rest)
    have hitems := items_of_written hvs (by omega) hread
    obtain ⟨c, cs', rfl, hc, hclose⟩ := hv.exists_eq_cons
    exact value_items hg hc hclose hitems
  | _, _, .noMembers hg, fuel + 1, rest, _, _ => by
    rw [List.cons_append, List.cons_append, List.append_assoc, value_brace, skipGap_append hg]
    rfl
  | _, _, .object hg hg' hv hms, fuel + 1, rest, hfuel, _ => by
    simp only [List.cons_append, List.append_assoc, List.length_cons, List.length_append] at hfuel ⊢
    have hpos := hms.length_pos
    obtain ⟨fuel, rfl⟩ : ∃ f, fuel = f + 1 := ⟨fuel - 1, by omega⟩
    have hread := value_of_written hv fuel _ (by omega) (hms.endsNumber rest)
    rw [← value_append hg'] at hread
    refine (value_members hg (members_of_written hms (by omega) hread)).trans ?_
    rw [objectOf_some]

/-- The items behind a value that is read are read back. -/
theorem items_of_written : ∀ {vs : List Json} {ds : List Char}, WrittenItems vs ds →
    ∀ {fuel : Nat} {v : Json} {s rest : List Char}, ds.length ≤ fuel →
      value fuel s = some (v, ds ++ rest) → items (fuel + 1) s = some (v :: vs, rest)
  | _, _, .nil hg, fuel, v, s, rest, _, hvalue => by
    rw [List.append_assoc] at hvalue
    exact items_last hg hvalue
  | _, _, .cons hg hv hvs, fuel, v, s, rest, hfuel, hvalue => by
    simp only [List.cons_append, List.append_assoc, List.length_cons, List.length_append]
      at hvalue hfuel
    have hpos := hvs.length_pos
    obtain ⟨fuel, rfl⟩ : ∃ f, fuel = f + 1 := ⟨fuel - 1, by omega⟩
    have hread := value_of_written hv fuel _ (by omega) (hvs.endsNumber rest)
    refine items_next gap_nil hvalue ?_
    rw [items_append hg]
    exact items_of_written hvs (by omega) hread

/-- The members behind a value that is read are read back. -/
theorem members_of_written : ∀ {ms : List (String × Json)} {ds : List Char}, WrittenMembers ms ds →
    ∀ {fuel : Nat} {k : String} {v : Json} {s rest : List Char}, ds.length ≤ fuel →
      value fuel s = some (v, ds ++ rest) →
        members (fuel + 1) (quoted k ++ ':' :: s)
          = some (((k, v) :: ms).map fun m => (some m.1, m.2), rest)
  | _, _, .nil hg, fuel, k, v, s, rest, _, hvalue => by
    rw [List.append_assoc] at hvalue
    exact members_last hg hvalue
  | _, _, .cons hg hg' hv hms, fuel, k, v, s, rest, hfuel, hvalue => by
    simp only [List.cons_append, List.append_assoc, List.length_cons, List.length_append]
      at hvalue hfuel
    have hpos := hms.length_pos
    obtain ⟨fuel, rfl⟩ : ∃ f, fuel = f + 1 := ⟨fuel - 1, by omega⟩
    have hread := value_of_written hv fuel _ (by omega) (hms.endsNumber rest)
    rw [← value_append hg'] at hread
    refine members_next hvalue ?_
    rw [members_append hg]
    exact members_of_written hms (by omega) hread

end

end Reading

/-! ## Both layouts -/

/-- Values whose literals can all be read: numbers are whole and not too great. -/
inductive Legible : Json → Prop
  | null : Legible .null
  | bool (b : Bool) : Legible (.bool b)
  | int {i : Int} (h : Text.overflows (Text.digits i.natAbs) 0 = false) : Legible (.int i)
  | text (s : String) : Legible (.text s)
  | array {vs : List Json} (h : ∀ v ∈ vs, Legible v) : Legible (.array vs)
  | object {ms : List (String × Json)} (h : ∀ m ∈ ms, Legible m.2) : Legible (.object ms)

section Layouts

theorem gap_blank : Gap [' '] := fun _ h => List.mem_singleton.1 h ▸ rfl

theorem gap_newline (depth : Nat) : Gap (newline depth) := by
  intro c hc
  obtain rfl | hc := List.mem_cons.1 hc
  · rfl
  · exact List.eq_of_mem_replicate hc ▸ rfl

mutual

theorem written_compactChars : ∀ v : Json, v.Legible → Written v (compactChars v)
  | .null, _ => .null
  | .bool b, _ => .bool b
  | .int i, .int h => .int i h
  | .text s, _ => .text s
  | .array [], _ => .noItems gap_nil
  | .array (v :: vs), .array h =>
    .array gap_nil (written_compactChars v (List.forall_mem_cons.1 h).1)
      (written_compactItems vs (List.forall_mem_cons.1 h).2)
  | .object [], _ => .noMembers gap_nil
  | .object ((_, v) :: ms), .object h =>
    .object gap_nil gap_nil (written_compactChars v (List.forall_mem_cons.1 h).1)
      (written_compactMembers ms (List.forall_mem_cons.1 h).2)

theorem written_compactItems : ∀ vs : List Json, (∀ v ∈ vs, v.Legible) →
    WrittenItems vs (compactItems vs)
  | [], _ => .nil gap_nil
  | v :: vs, h =>
    .cons gap_nil (written_compactChars v (List.forall_mem_cons.1 h).1)
      (written_compactItems vs (List.forall_mem_cons.1 h).2)

theorem written_compactMembers : ∀ ms : List (String × Json), (∀ m ∈ ms, m.2.Legible) →
    WrittenMembers ms (compactMembers ms)
  | [], _ => .nil gap_nil
  | (_, v) :: ms, h =>
    .cons gap_nil gap_nil (written_compactChars v (List.forall_mem_cons.1 h).1)
      (written_compactMembers ms (List.forall_mem_cons.1 h).2)

end

mutual

theorem written_prettyChars : ∀ (depth : Nat) (v : Json), v.Legible →
    Written v (prettyChars depth v)
  | _, .null, _ => .null
  | _, .bool b, _ => .bool b
  | _, .int i, .int h => .int i h
  | _, .text s, _ => .text s
  | _, .array [], _ => .noItems gap_nil
  | depth, .array (v :: vs), .array h =>
    .array (gap_newline _) (written_prettyChars (depth + 1) v (List.forall_mem_cons.1 h).1)
      (written_prettyItems depth vs (List.forall_mem_cons.1 h).2)
  | _, .object [], _ => .noMembers gap_nil
  | depth, .object ((_, v) :: ms), .object h =>
    .object (gap_newline _) gap_blank
      (written_prettyChars (depth + 1) v (List.forall_mem_cons.1 h).1)
      (written_prettyMembers depth ms (List.forall_mem_cons.1 h).2)

theorem written_prettyItems : ∀ (depth : Nat) (vs : List Json), (∀ v ∈ vs, v.Legible) →
    WrittenItems vs (prettyItems depth vs)
  | depth, [], _ => .nil (gap_newline depth)
  | depth, v :: vs, h =>
    .cons (gap_newline _) (written_prettyChars (depth + 1) v (List.forall_mem_cons.1 h).1)
      (written_prettyItems depth vs (List.forall_mem_cons.1 h).2)

theorem written_prettyMembers : ∀ (depth : Nat) (ms : List (String × Json)),
    (∀ m ∈ ms, m.2.Legible) → WrittenMembers ms (prettyMembers depth ms)
  | depth, [], _ => .nil (gap_newline depth)
  | depth, (_, v) :: ms, h =>
    .cons (gap_newline _) gap_blank
      (written_prettyChars (depth + 1) v (List.forall_mem_cons.1 h).1)
      (written_prettyMembers depth ms (List.forall_mem_cons.1 h).2)

end

theorem parse?_ofList {v : Json} {cs : List Char} (h : Written v cs) :
    parse? (String.ofList cs) = some v := by
  have hread := value_of_written h _ [] (Nat.lt_succ_self _) fun _ hc =>
    absurd hc (Option.not_mem_none _)
  rw [List.append_nil] at hread
  rw [parse?, String.toList_ofList, hread]
  rfl

/-- **What is written without blanks is read back.** -/
theorem parse?_compact {v : Json} (h : v.Legible) : parse? v.compact = some v :=
  parse?_ofList (written_compactChars v h)

/-- **What is written one item a line is read back.** -/
theorem parse?_pretty {v : Json} (h : v.Legible) : parse? v.pretty = some v :=
  parse?_ofList (written_prettyChars 0 v h)

end Layouts

end PinKeeper.Json
