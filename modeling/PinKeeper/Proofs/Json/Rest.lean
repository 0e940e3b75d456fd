import PinKeeper.Proofs.Json.Reader

/-!
# Proofs/Json/Rest — a reader looks no further than what it reads

What is read at the front of a text is read as well when more text follows it: the value is the
same, and what was left is left with the new text behind it (`value_append_rest`).  Only a number
can go on in the text that follows, so it has to be stopped by a character of its own; any other
value ends with a bracket, a brace, a quote or its last letter.  More fuel changes nothing.
-/

namespace PinKeeper.Json

variable {s r t : List Char}

/-! ## Blanks and strings -/

/-- Blanks in front of a token are skipped whatever follows the text. -/
theorem skipGap_append_of_eq_cons {c : Char} (h : skipGap s = c :: r) :
    skipGap (s ++ t) = c :: (r ++ t) := by
  have hne : ¬(s.dropWhile isGap).isEmpty = true := by
    rw [List.isEmpty_iff]
    exact fun hnil => List.cons_ne_nil c r (h.symm.trans hnil)
  rw [skipGap, List.dropWhile_append, if_neg hne, ← skipGap, h, List.cons_append]

/-- A token behind the blanks that closes nothing closes nothing whatever follows the text. -/
theorem skipGap_append_ne {close c : Char} {cs : List Char} (h : skipGap s = c :: cs)
    (hclose : ∀ w, skipGap s ≠ close :: w) (w : List Char) : skipGap (s ++ t) ≠ close :: w := by
  rw [skipGap_append_of_eq_cons h]
  rintro heq
  exact hclose cs (h.trans (congrArg (· :: cs) (List.cons.inj heq).1))

theorem pieces_append {ps : List Piece} (h : pieces s = some (ps, r)) :
    pieces (s ++ t) = some (ps, r ++ t) := by
  fun_induction pieces s generalizing ps r with
  | case1 => cases h
  | case2 rest =>
    obtain ⟨rfl, rfl⟩ := Prod.mk.inj (Option.some.inj h)
    rfl
  | case3 a b c d rest ih =>
    obtain ⟨unit, hunit, h⟩ := Option.bind_eq_some_iff.1 h
    obtain ⟨⟨qs, u⟩, hqs, h⟩ := Option.bind_eq_some_iff.1 h
    obtain ⟨rfl, rfl⟩ := Prod.mk.inj (Option.some.inj h)
    simp only [List.cons_append, pieces, hunit, ih hqs, Option.bind_eq_bind, Option.bind_some]
  | case4 c rest _ ih =>
    obtain ⟨e, he, h⟩ := Option.bind_eq_some_iff.1 h
    obtain ⟨⟨qs, u⟩, hqs, h⟩ := Option.bind_eq_some_iff.1 h
    obtain ⟨rfl, rfl⟩ := Prod.mk.inj (Option.some.inj h)
    have hletter : c ≠ 'u' := by
      rintro rfl
      cases he
    exact pieces_short hletter he (ih hqs)
  | case5 => cases h
  | case6 c rest hquote _ hshort hlow ih =>
    obtain ⟨⟨qs, u⟩, hqs, h⟩ := Option.bind_eq_some_iff.1 h
    obtain ⟨rfl, rfl⟩ := Prod.mk.inj (Option.some.inj h)
    have hslash : c ≠ '\\' := by
      rintro rfl
      cases rest with
      | nil => cases hqs
      | cons d rest => exact hshort d rest rfl rfl
    exact pieces_self hquote hslash hlow (ih hqs)

/-- **A string literal ends with its quote.** -/
theorem stringLiteral_append {o : Option String} (h : stringLiteral s = some (o, r)) :
    stringLiteral (s ++ t) = some (o, r ++ t) := by
  obtain ⟨⟨ps, u⟩, hps, h⟩ := Option.map_eq_some_iff.1 h
  obtain ⟨rfl, rfl⟩ := Prod.mk.inj h
  rw [stringLiteral, pieces_append hps, Option.map_some]

/-! ## Numbers -/

theorem digitSpan_append (h : (digitSpan s).2 ≠ []) :
    digitSpan (s ++ t) = ((digitSpan s).1, (digitSpan s).2 ++ t) := by
  have hdrop : (s ++ t).dropWhile Char.isDigit = s.dropWhile Char.isDigit ++ t := by
    rw [List.dropWhile_append, if_neg (by rwa [List.isEmpty_iff])]
  have htake : (s ++ t).takeWhile Char.isDigit = s.takeWhile Char.isDigit := by
    rw [List.takeWhile_append, if_neg]
    intro hlength
    have hs := congrArg List.length (List.takeWhile_append_dropWhile (p := Char.isDigit) (l := s))
    rw [List.length_append, hlength] at hs
    exact h (List.length_eq_zero_iff.1 (Nat.left_eq_add.1 hs.symm))
  rw [digitSpan, htake, hdrop]
  rfl

/-- Digits that are read are those at the front. -/
theorem digitSpan_of_wholePart {ds : List Char} (h : wholePart s = some (ds, r)) :
    digitSpan s = (ds, r) := by
  rw [wholePart] at h
  split at h
  · cases h
  · next heq => exact heq.trans (Option.some.inj h)
  · cases h
  · next heq => exact heq.trans (Option.some.inj h)

theorem wholePart_append {ds : List Char} (h : wholePart s = some (ds, r)) (hr : r ≠ []) :
    wholePart (s ++ t) = some (ds, r ++ t) := by
  have hspan := digitSpan_of_wholePart h
  rw [wholePart, digitSpan_append (by rwa [hspan]), hspan]
  rw [wholePart, hspan] at h
  dsimp only at h ⊢
  split at h
  · cases h
  · next heq =>
    obtain ⟨rfl, rfl⟩ := Prod.mk.inj heq
    rfl
  · cases h
  · next hnil hzero hzeros heq =>
    obtain ⟨rfl, rfl⟩ := Prod.mk.inj heq
    split
    · next heq => exact absurd (Prod.mk.inj heq).1 hnil
    · next heq => exact absurd (Prod.mk.inj heq).1 hzero
    · next heq => exact absurd (Prod.mk.inj heq).1 (hzeros _)
    · next heq => rw [heq]

/-- Digits at the front, at least one of which is there. -/
theorem digits_append {α : Type} {f : List Char → α} {a : α}
    (h : (match digitSpan s with
      | ([], _) => none
      | (ds, r) => some (f ds, r)) = some (a, r)) (hr : r ≠ []) :
    (match digitSpan (s ++ t) with
      | ([], _) => none
      | (ds, r) => some (f ds, r)) = some (a, r ++ t) := by
  have hspan : (digitSpan s).2 = r := by
    split at h
    · cases h
    · next heq => rw [heq, (Prod.mk.inj (Option.some.inj h)).2]
  rw [digitSpan_append (by rwa [hspan]), hspan]
  cases hds : (digitSpan s).1 with
  | nil =>
    rw [← Prod.eta (digitSpan s), hds] at h
    cases h
  | cons d ds =>
    rw [← Prod.eta (digitSpan s), hds] at h
    dsimp only at h ⊢
    rw [(Prod.mk.inj (Option.some.inj h)).1]

theorem fractionPart_append {o : Option (List Char)} (h : fractionPart s = some (o, r))
    (hr : r ≠ []) : fractionPart (s ++ t) = some (o, r ++ t) := by
  cases s with
  | nil => exact absurd (Prod.mk.inj (Option.some.inj h)).2.symm hr
  | cons c s =>
    by_cases hc : c = '.'
    · subst hc
      exact digits_append (f := some) h hr
    · have hnone (cs : List Char) : fractionPart (c :: cs) = some (none, c :: cs) := by
        rw [fractionPart]
        rintro u hu
        exact hc (List.cons.inj hu).1
      rw [hnone] at h
      obtain ⟨rfl, rfl⟩ := Prod.mk.inj (Option.some.inj h)
      exact hnone (s ++ t)

theorem exponentDigits_append {e : Bool × List Char} (h : exponentDigits s = some (e, r))
    (hr : r ≠ []) : exponentDigits (s ++ t) = some (e, r ++ t) := by
  cases s with
  | nil => cases h
  | cons c s =>
    by_cases hminus : c = '-'
    · subst hminus
      exact digits_append (f := (true, ·)) h hr
    by_cases hplus : c = '+'
    · subst hplus
      exact digits_append (f := (false, ·)) h hr
    · have hplain (cs : List Char) : exponentDigits (c :: cs) = match digitSpan (c :: cs) with
          | ([], _) => none
          | (ds, r) => some ((false, ds), r) :=
        exponentDigits.eq_3 (c :: cs) (fun _ hu => hminus (List.cons.inj hu).1) fun _ hu =>
          hplus (List.cons.inj hu).1
      rw [hplain] at h
      exact (hplain (s ++ t)).trans (digits_append (f := (false, ·)) h hr)

theorem exponentPart_append {o : Option (Bool × List Char)} (h : exponentPart s = some (o, r))
    (hr : r ≠ []) : exponentPart (s ++ t) = some (o, r ++ t) := by
  cases s with
  | nil => exact absurd (Prod.mk.inj (Option.some.inj h)).2.symm hr
  | cons c s =>
    by_cases hc : c = 'e' ∨ c = 'E'
    · have hdigits (cs : List Char) : exponentPart (c :: cs)
          = (exponentDigits cs).map fun d => (some d.1, d.2) := by
        obtain rfl | rfl := hc <;> rfl
      rw [hdigits] at h
      obtain ⟨⟨e, u⟩, he, h⟩ := Option.map_eq_some_iff.1 h
      obtain ⟨rfl, rfl⟩ := Prod.mk.inj h
      rw [List.cons_append, hdigits, exponentDigits_append he hr, Option.map_some]
    · rw [not_or] at hc
      have hnone (cs : List Char) : exponentPart (c :: cs) = some (none, c :: cs) := by
        rw [exponentPart]
        · exact fun _ hu => hc.1 (List.cons.inj hu).1
        · exact fun _ hu => hc.2 (List.cons.inj hu).1
      rw [hnone] at h
      obtain ⟨rfl, rfl⟩ := Prod.mk.inj (Option.some.inj h)
      exact hnone (s ++ t)

/-- A number behind its sign. -/
def unsigned (negative : Bool) (s : List Char) : Option (Json × List Char) := do
  let (whole, r) ← wholePart s
  let (part, r) ← fractionPart r
  let (power, r) ← exponentPart r
  some (numberOf negative whole part power, r)

theorem number_minus (s : List Char) : number ('-' :: s) = unsigned true s := rfl

theorem number_cons {c : Char} (hc : c ≠ '-') (s : List Char) :
    number (c :: s) = unsigned false (c :: s) := by
  rw [number]
  · rfl
  · exact fun _ hu => hc (List.cons.inj hu).1

theorem unsigned_append {negative : Bool} {v : Json} (h : unsigned negative s = some (v, r))
    (hr : r ≠ []) : unsigned negative (s ++ t) = some (v, r ++ t) := by
  obtain ⟨⟨whole, r₁⟩, hwhole, h⟩ := Option.bind_eq_some_iff.1 h
  obtain ⟨⟨part, r₂⟩, hpart, h⟩ := Option.bind_eq_some_iff.1 h
  obtain ⟨⟨power, r₃⟩, hpower, h⟩ := Option.bind_eq_some_iff.1 h
  obtain ⟨rfl, rfl⟩ := Prod.mk.inj (Option.some.inj h)
  have hr₂ : r₂ ≠ [] := by
    rintro rfl
    exact hr (Prod.mk.inj (Option.some.inj hpower)).2.symm
  have hr₁ : r₁ ≠ [] := by
    rintro rfl
    exact hr₂ (Prod.mk.inj (Option.some.inj hpart)).2.symm
  simp only [unsigned, wholePart_append hwhole hr₁, fractionPart_append hpart hr₂,
    exponentPart_append hpower hr, Option.bind_eq_bind, Option.bind_some]

/-- A number that does not end the text is read whatever follows it. -/
theorem number_append {v : Json} (h : number s = some (v, r)) (hr : r ≠ []) :
    number (s ++ t) = some (v, r ++ t) := by
  cases s with
  | nil => cases h
  | cons c s =>
    by_cases hc : c = '-'
    · subst hc
      rw [number_minus] at h
      rw [List.cons_append, number_minus]
      exact unsigned_append h hr
    · rw [number_cons hc] at h
      rw [List.cons_append, number_cons hc]
      exact unsigned_append h hr

/-! ## Values -/

theorem exists_eq_cons_of_number {v : Json} (h : number s = some (v, r)) :
    ∃ c cs, s = c :: cs ∧ (c.isDigit = true ∨ c = '-') := by
  cases s with
  | nil => cases h
  | cons c cs =>
    refine ⟨c, cs, rfl, ?_⟩
    by_contra hc
    rw [not_or, Bool.not_eq_true] at hc
    have hspan : digitSpan (c :: cs) = ([], c :: cs) := by
      rw [digitSpan, List.takeWhile_cons, List.dropWhile_cons, hc.1]
      rfl
    have hwhole : wholePart (c :: cs) = none := by
      rw [wholePart, hspan]
    rw [number_cons hc.2, unsigned, hwhole] at h
    cases h

theorem value_nil (fuel : Nat) : value fuel [] = none := by
  cases fuel <;> rfl

theorem value_of_skipGap {c : Char} (h : skipGap s = c :: r) (fuel : Nat) :
    value (fuel + 1) s = value (fuel + 1) (c :: r) := by
  have hc : isGap c = false := by
    have hhead := List.head?_dropWhile_not isGap s
    rwa [← skipGap, h] at hhead
  rw [value, value, h, skipGap_cons hc]

theorem exists_eq_cons_of_items {fuel : Nat} {x : List Json × List Char}
    (h : items fuel s = some x) : ∃ c cs, s = c :: cs := by
  cases s with
  | nil =>
    cases fuel with
    | zero => cases h
    | succ fuel =>
      rw [items, value_nil] at h
      cases h
  | cons c cs => exact ⟨c, cs, rfl⟩

theorem exists_eq_cons_of_members {fuel : Nat} {x : List (Option String × Json) × List Char}
    (h : members fuel s = some x) : ∃ c cs, s = c :: cs := by
  cases s with
  | nil => cases fuel <;> cases h
  | cons c cs => exact ⟨c, cs, rfl⟩

/-- The first member, and what the comma or the brace behind it leads to. -/
theorem members_succ {fuel : Nat} {a b d u : List Char} {key : Option String} {v : Json}
    (ha : skipGap s = '"' :: a) (hkey : stringLiteral a = some (key, b))
    (hcolon : skipGap b = ':' :: d) (hv : value fuel d = some (v, u)) :
    members (fuel + 1) s = (match skipGap u with
      | ',' :: r => do
        let (ms, r) ← members fuel r
        some ((key, v) :: ms, r)
      | '}' :: r => some ([(key, v)], r)
      | _ => none) := by
  have hmembers := members.eq_2 s fuel
  simp only [ha, hkey, hcolon, hv, Option.bind_eq_bind, Option.bind_some] at hmembers
  exact hmembers

/-- An object is read whatever follows it if its members are. -/
theorem value_brace_append {fuel fuel' : Nat} {u : List Char} {v : Json}
    (hmembers : ∀ s ms w, members fuel s = some (ms, w) →
      members fuel' (s ++ t) = some (ms, w ++ t))
    (h : value (fuel + 1) ('{' :: u) = some (v, r)) :
    value (fuel' + 1) ('{' :: (u ++ t)) = some (v, r ++ t) := by
  rw [value_brace] at h ⊢
  split at h
  · next w hw =>
    obtain ⟨rfl, rfl⟩ := Prod.mk.inj (Option.some.inj h)
    rw [skipGap_append_of_eq_cons hw]
    rfl
  · next hclose =>
    obtain ⟨⟨ms, w⟩, hms, h⟩ := Option.map_eq_some_iff.1 h
    obtain ⟨rfl, rfl⟩ := Prod.mk.inj h
    obtain ⟨c, cs, hc⟩ := exists_eq_cons_of_members hms
    split
    · next heq => exact absurd heq (skipGap_append_ne hc hclose _)
    · rw [skipGap_append_of_eq_cons hc, ← List.cons_append, ← hc, hmembers _ ms w hms,
        Option.map_some]

/-- An array is read whatever follows it if its items are. -/
theorem value_bracket_append {fuel fuel' : Nat} {u : List Char} {v : Json}
    (hitems : ∀ s vs w, items fuel s = some (vs, w) → items fuel' (s ++ t) = some (vs, w ++ t))
    (h : value (fuel + 1) ('[' :: u) = some (v, r)) :
    value (fuel' + 1) ('[' :: (u ++ t)) = some (v, r ++ t) := by
  rw [value_bracket] at h ⊢
  split at h
  · next w hw =>
    obtain ⟨rfl, rfl⟩ := Prod.mk.inj (Option.some.inj h)
    rw [skipGap_append_of_eq_cons hw]
    rfl
  · next hclose =>
    obtain ⟨⟨vs, w⟩, hvs, h⟩ := Option.map_eq_some_iff.1 h
    obtain ⟨rfl, rfl⟩ := Prod.mk.inj h
    obtain ⟨c, cs, hc⟩ := exists_eq_cons_of_items hvs
    split
    · next heq => exact absurd heq (skipGap_append_ne hc hclose _)
    · rw [skipGap_append_of_eq_cons hc, ← List.cons_append, ← hc, hitems _ vs w hvs,
        Option.map_some]

mutual

/-- **A value is read whatever follows it**, unless it is a number that ends the text. -/
theorem value_append_rest {v : Json} : ∀ {fuel fuel' : Nat} {s r : List Char}, fuel ≤ fuel' →
    value fuel s = some (v, r) → (r = [] → (skipGap s).head? = some '{') →
      value fuel' (s ++ t) = some (v, r ++ t)
  | fuel + 1, fuel' + 1, s, r, hfuel, h, hr => by
    have hinner := Nat.le_of_succ_le_succ hfuel
    have hvalue := h
    rw [value] at h
    split at h
    · next u hu =>
      rw [value_of_skipGap hu] at hvalue
      rw [value_of_skipGap (skipGap_append_of_eq_cons hu)]
      exact value_brace_append (fun _ _ _ => members_append_rest hinner) hvalue
    · next u hu =>
      rw [value_of_skipGap hu] at hvalue
      rw [value_of_skipGap (skipGap_append_of_eq_cons hu)]
      exact value_bracket_append (fun _ _ _ => items_append_rest hinner) hvalue
    · next u hu =>
      rw [value_of_skipGap (skipGap_append_of_eq_cons hu)]
      obtain ⟨⟨o, w⟩, ho, h⟩ := Option.map_eq_some_iff.1 h
      obtain ⟨rfl, rfl⟩ := Prod.mk.inj h
      rw [value, skipGap_cons rfl]
      exact congrArg (Option.map _) (stringLiteral_append ho)
    · next u hu =>
      obtain ⟨rfl, rfl⟩ := Prod.mk.inj (Option.some.inj h)
      rw [value_of_skipGap (skipGap_append_of_eq_cons hu)]
      rfl
    · next u hu =>
      obtain ⟨rfl, rfl⟩ := Prod.mk.inj (Option.some.inj h)
      rw [value_of_skipGap (skipGap_append_of_eq_cons hu)]
      rfl
    · next u hu =>
      obtain ⟨rfl, rfl⟩ := Prod.mk.inj (Option.some.inj h)
      rw [value_of_skipGap (skipGap_append_of_eq_cons hu)]
      rfl
    · next hobject _ _ _ _ _ =>
      obtain ⟨c, cs, hc, hnumber⟩ := exists_eq_cons_of_number h
      have hne : r ≠ [] := by
        intro hnil
        have hbrace := hr hnil
        rw [hc, List.head?_cons, Option.some.injEq] at hbrace
        exact hobject cs (hc.trans (congrArg (· :: cs) hbrace))
      rw [value_of_skipGap (skipGap_append_of_eq_cons hc), value_eq_number hnumber,
        ← List.cons_append, ← hc]
      exact number_append h hne

/-- The items of an array end with its bracket. -/
theorem items_append_rest {vs : List Json} : ∀ {fuel fuel' : Nat} {s r : List Char},
    fuel ≤ fuel' → items fuel s = some (vs, r) → items fuel' (s ++ t) = some (vs, r ++ t)
  | fuel + 1, fuel' + 1, s, r, hfuel, h => by
    have hfuel := Nat.le_of_succ_le_succ hfuel
    obtain ⟨⟨v, u⟩, hv, h⟩ := Option.bind_eq_some_iff.1 h
    dsimp only at h
    have hu : u ≠ [] := by
      rintro rfl
      cases h
    rw [items, value_append_rest hfuel hv (absurd · hu)]
    dsimp only [Option.bind_eq_bind, Option.bind_some]
    split at h
    · next w hw =>
      obtain ⟨⟨ws, x⟩, hws, h⟩ := Option.bind_eq_some_iff.1 h
      obtain ⟨rfl, rfl⟩ := Prod.mk.inj (Option.some.inj h)
      rw [skipGap_append_of_eq_cons hw]
      exact congrArg (Option.bind · _) (items_append_rest hfuel hws)
    · next w hw =>
      obtain ⟨rfl, rfl⟩ := Prod.mk.inj (Option.some.inj h)
      rw [skipGap_append_of_eq_cons hw]
      rfl
    · cases h

/-- The members of an object end with its brace. -/
theorem members_append_rest {ms : List (Option String × Json)} : ∀ {fuel fuel' : Nat}
    {s r : List Char}, fuel ≤ fuel' → members fuel s = some (ms, r) →
      members fuel' (s ++ t) = some (ms, r ++ t)
  | fuel + 1, fuel' + 1, s, r, hfuel, h => by
    have hfuel := Nat.le_of_succ_le_succ hfuel
    rw [members] at h
    split at h
    · next a ha =>
      obtain ⟨⟨key, b⟩, hkey, h⟩ := Option.bind_eq_some_iff.1 h
      dsimp only at h
      split at h
      · next d hd =>
        obtain ⟨⟨v, u⟩, hv, h⟩ := Option.bind_eq_some_iff.1 h
        dsimp only at h
        have hu : u ≠ [] := by
          rintro rfl
          cases h
        rw [members_succ (skipGap_append_of_eq_cons ha) (stringLiteral_append hkey)
          (skipGap_append_of_eq_cons hd) (value_append_rest hfuel hv (absurd · hu))]
        split at h
        · next w hw =>
          obtain ⟨⟨ws, x⟩, hws, h⟩ := Option.bind_eq_some_iff.1 h
          obtain ⟨rfl, rfl⟩ := Prod.mk.inj (Option.some.inj h)
          rw [skipGap_append_of_eq_cons hw]
          exact congrArg (Option.bind · _) (members_append_rest hfuel hws)
        · next w hw =>
          obtain ⟨rfl, rfl⟩ := Prod.mk.inj (Option.some.inj h)
          rw [skipGap_append_of_eq_cons hw]
          rfl
        · cases h
      · cases h
    · cases h

end

end PinKeeper.Json
