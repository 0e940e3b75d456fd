import Mathlib.Data.List.TakeWhile
import PinKeeper.Proofs.Text.Split
import PinKeeper.Proofs.Web.Percent
import PinKeeper.Web.Url

/-!
# Proofs/Web/Url — addresses that are read as they are written

Reading an address forgives much, so that what is written need not be what is asked for.  It is,
where the host and the segments of the path are plain: none of their characters separates parts of
an address, and no segment is a dot segment (`IsSegment`).  Then nothing is dropped in front of its
end (`clean_append`), the host ends where the path begins, the path has the segments that were
written (`segments_written`), and none of them is resolved away (`resolve_of_segments`).
-/

namespace PinKeeper.Web

/-- A character that no part of an address ends at, and that is never dropped. -/
def isPlainInHost (c : Char) : Bool :=
  0x20 < c.toNat && !Url.isSlash c && c != '?' && c != '#'

/-- A segment of a path that stands for itself. -/
structure IsSegment (cs : List Char) : Prop where
  plain : ∀ c ∈ cs, Url.isPlainInPath c = true ∧ Url.isSlash c = false
  ne_dot : Url.unescapedDots cs ≠ ['.']
  ne_dots : Url.unescapedDots cs ≠ ['.', '.']

instance (cs : List Char) : Decidable (IsSegment cs) :=
  decidable_of_iff ((cs.all fun c => Url.isPlainInPath c && !Url.isSlash c) = true ∧
      Url.unescapedDots cs ≠ ['.'] ∧ Url.unescapedDots cs ≠ ['.', '.']) <| by
    simp only [List.all_eq_true, Bool.and_eq_true, Bool.not_eq_true']
    exact ⟨fun h => ⟨h.1, h.2.1, h.2.2⟩, fun h => ⟨h.plain, h.ne_dot, h.ne_dots⟩⟩

namespace Url

/-! ## Characters -/

theorem isPlainInHost_iff {c : Char} :
    isPlainInHost c = true ↔ 0x20 < c.toNat ∧ isSlash c = false ∧ c ≠ '?' ∧ c ≠ '#' := by
  simp only [isPlainInHost, Bool.and_eq_true, decide_eq_true_iff, Bool.not_eq_true', bne_iff_ne,
    and_assoc]

/-- The name of a host goes on with a plain character. -/
theorem isAuthority_of_isPlainInHost {c : Char} (h : isPlainInHost c = true) :
    (!isSlash c && c != '?' && c != '#') = true := by
  obtain ⟨-, hslash, hquery, hfragment⟩ := isPlainInHost_iff.1 h
  rw [hslash, bne_iff_ne.2 hquery, bne_iff_ne.2 hfragment]
  rfl

theorem visible_of_isPlainInPath {c : Char} (h : isPlainInPath c = true) :
    0x20 < c.toNat ∧ c.toNat < 0x80 ∧ c ≠ '?' ∧ c ≠ '#' := by
  rw [isPlainInPath, Bool.and_eq_true, Bool.and_eq_true, decide_eq_true_iff,
    decide_eq_true_iff] at h
  obtain ⟨⟨hlow, hhigh⟩, hmarks⟩ := h
  refine ⟨hlow, by omega, ?_, ?_⟩
  · rintro rfl
    exact absurd hmarks (by decide)
  · rintro rfl
    exact absurd hmarks (by decide)

/-! ## The ends of an address -/

/-- True for a space or a control character, which are dropped at the ends of an address. -/
def isEdge (c : Char) : Bool := c.toNat ≤ 0x20

/-- True for a character that is dropped nowhere within an address. -/
def isNoBreak (c : Char) : Bool := c != '\t' && c != '\n' && c != '\r'

/-- End of an address, without what is dropped of it. -/
def cleanEnd (cs : List Char) : List Char := (cs.reverse.dropWhile isEdge).reverse.filter isNoBreak

@[simp] theorem cleanEnd_nil : cleanEnd [] = [] := rfl

theorem isNoBreak_of_visible {c : Char} (h : 0x20 < c.toNat) : isNoBreak c = true := by
  have hne {d : Char} (hd : d.toNat ≤ 0x20) : (c != d) = true := by
    rw [bne_iff_ne]
    rintro rfl
    exact absurd h (Nat.not_lt.2 hd)
  rw [isNoBreak, hne (by decide), hne (by decide), hne (by decide)]
  rfl

/-- **Nothing is dropped in front of the end of an address**, where a text without spaces and
control characters stands. -/
theorem clean_append {front : List Char} (hfront : ∀ c ∈ front, 0x20 < c.toNat) (hne : front ≠ [])
    (cs : List Char) : clean (String.ofList (front ++ cs)) = front ++ cleanEnd cs := by
  have hedge : ∀ c ∈ front, isEdge c ≠ true := fun c hc => by
    rw [isEdge, Ne, decide_eq_true_iff]
    exact Nat.not_le.2 (hfront c hc)
  have hbegin : (front ++ cs).dropWhile isEdge = front ++ cs := by
    obtain ⟨c, front, rfl⟩ := List.exists_cons_of_ne_nil hne
    exact List.dropWhile_cons_of_neg (hedge c List.mem_cons_self)
  have hback : front.reverse.dropWhile isEdge = front.reverse := by
    obtain ⟨c, back, hback⟩ := List.exists_cons_of_ne_nil (List.reverse_ne_nil_iff.2 hne)
    rw [hback]
    exact List.dropWhile_cons_of_neg (hedge c (List.mem_reverse.1 (hback ▸ List.mem_cons_self)))
  have hend : (front ++ cs).reverse.dropWhile isEdge
      = cs.reverse.dropWhile isEdge ++ front.reverse := by
    rw [List.reverse_append, List.dropWhile_append, hback]
    split
    · next hnil => rw [List.isEmpty_iff.1 hnil, List.nil_append]
    · rfl
  have hkept : front.filter isNoBreak = front :=
    List.filter_eq_self.2 fun c hc => isNoBreak_of_visible (hfront c hc)
  have hclean (s : String) : clean s
      = ((s.toList.dropWhile isEdge).reverse.dropWhile isEdge).reverse.filter isNoBreak := rfl
  rw [hclean, String.toList_ofList, hbegin, hend, List.reverse_append, List.reverse_reverse,
    List.filter_append, hkept, cleanEnd]

/-- The site of an address begins behind its scheme. -/
theorem parse_site {site front : List Char} (hsite : ∀ c ∈ site, isPlainInHost c = true)
    (hne : site ≠ []) (hfront : ∀ c ∈ front, 0x20 < c.toNat) (cs : List Char) :
    parse (String.ofList ("http://".toList ++ (site ++ (front ++ cs))))
      = ofAuthority false (site ++ (front ++ cleanEnd cs)) := by
  have hvisible : ∀ c ∈ "http://".toList ++ (site ++ front), 0x20 < c.toNat := by
    intro c hc
    rcases List.mem_append.1 hc with hc | hc
    · have hall : ("http://".toList.all fun c => 0x20 < c.toNat) = true := by decide
      exact of_decide_eq_true (List.all_eq_true.1 hall c hc)
    · rcases List.mem_append.1 hc with hc | hc
      · exact (isPlainInHost_iff.1 (hsite c hc)).1
      · exact hfront c hc
  have hclean : clean (String.ofList ("http://".toList ++ (site ++ (front ++ cs))))
      = "http://".toList ++ (site ++ (front ++ cleanEnd cs)) := by
    have h := clean_append hvisible (List.append_ne_nil_of_left_ne_nil (by decide) _) cs
    rwa [List.append_assoc, List.append_assoc, List.append_assoc, List.append_assoc] at h
  have hscheme (rest : List Char) :
      scheme? ("http://".toList ++ rest) = some ("http", '/' :: '/' :: rest) := rfl
  rw [parse, hclean, hscheme]
  obtain ⟨c, site, rfl⟩ := List.exists_cons_of_ne_nil hne
  have hc : isSlash c = false := (isPlainInHost_iff.1 (hsite c List.mem_cons_self)).2.1
  -- the two slashes of the scheme go by computation, and the site stops the rest
  change ofAuthority false ((c :: (site ++ (front ++ cleanEnd cs))).dropWhile isSlash) = _
  rw [List.dropWhile_cons_of_neg (Bool.eq_false_iff.1 hc)]
  rfl

/-! ## Segments -/

/-- Text of segments with a slash before each. -/
def written (ss : List (List Char)) : List Char := ss.flatMap fun s => '/' :: s

theorem mem_written {ss : List (List Char)} {c : Char} (h : c ∈ written ss) :
    c = '/' ∨ ∃ s ∈ ss, c ∈ s := by
  obtain ⟨s, hs, hc⟩ := List.mem_flatMap.1 h
  exact (List.mem_cons.1 hc).imp id fun hc => ⟨s, hs, hc⟩

/-- True for a segment that a path is freed of. -/
def isDots (s : List Char) : Bool := unescapedDots s == ['.', '.'] || unescapedDots s == ['.']

theorem isDots_iff {s : List Char} :
    isDots s = true ↔ unescapedDots s = ['.', '.'] ∨ unescapedDots s = ['.'] := by
  rw [isDots, Bool.or_eq_true, beq_iff_eq, beq_iff_eq]

/-- The path so far, backwards, after one more segment. -/
def enter (done : List (List Char)) (s : List Char) : List (List Char) :=
  if unescapedDots s = ['.', '.'] then climb done
  else if unescapedDots s = ['.'] then done
  else s :: done

theorem enter_of_not_isDots {s : List Char} (hs : isDots s = false) (done : List (List Char)) :
    enter done s = s :: done := by
  rw [Bool.eq_false_iff] at hs
  rw [enter, if_neg fun hdots => hs (isDots_iff.2 (.inl hdots)),
    if_neg fun hdot => hs (isDots_iff.2 (.inr hdot))]

theorem resolve_cons_cons (done : List (List Char)) (s x : List Char) (ss : List (List Char)) :
    resolve done (s :: x :: ss) = resolve (enter done s) (x :: ss) := by
  have hstep : resolve done (s :: x :: ss) =
      if unescapedDots s = ['.', '.'] then resolve (climb done) (x :: ss)
      else if unescapedDots s = ['.'] then resolve done (x :: ss)
      else resolve (s :: done) (x :: ss) := rfl
  rw [hstep, enter]
  split
  · rfl
  split
  · rfl
  · rfl

/-- A path that ends in a dot segment ends in a slash. -/
theorem resolve_singleton (done : List (List Char)) (s : List Char) : resolve done [s] =
    (if isDots s = true then [] :: enter done s else enter done s).reverse := by
  rw [resolve, enter]
  split
  · next hdots => rw [if_pos (isDots_iff.2 (.inl hdots)), List.reverse_cons]
  · next hdots =>
    split
    · next hdot => rw [if_pos (isDots_iff.2 (.inr hdot)), List.reverse_cons]
    · next hdot => rw [if_neg fun h => (isDots_iff.1 h).elim hdots hdot, List.reverse_cons]

/-- Where there are no dot segments nothing is resolved away. -/
theorem resolve_of_not_isDots : ∀ {ss : List (List Char)} (done : List (List Char)),
    (∀ s ∈ ss, isDots s = false) → resolve done ss = done.reverse ++ ss
  | [], done, _ => by rw [resolve, List.append_nil]
  | [s], done, h => by
    have hs := h s (List.mem_singleton_self s)
    rw [resolve_singleton, enter_of_not_isDots hs, hs, if_neg Bool.false_ne_true, List.reverse_cons]
  | s :: x :: ss, done, h => by
    obtain ⟨hs, hss⟩ := List.forall_mem_cons.1 h
    rw [resolve_cons_cons, enter_of_not_isDots hs, resolve_of_not_isDots (s :: done) hss,
      List.reverse_cons, List.append_assoc]
    rfl

theorem isDots_of_isSegment {s : List Char} (h : IsSegment s) : isDots s = false :=
  Bool.eq_false_iff.2 fun hdots => (isDots_iff.1 hdots).elim h.ne_dots h.ne_dot

/-- Segments that stand for themselves are not resolved away. -/
theorem resolve_of_segments {ss : List (List Char)} (done : List (List Char))
    (h : ∀ s ∈ ss, IsSegment s) : resolve done ss = done.reverse ++ ss :=
  resolve_of_not_isDots done fun s hs => isDots_of_isSegment (h s hs)

theorem slash_notMem {s : List Char} (h : IsSegment s) : '/' ∉ s := fun hmem =>
  absurd (h.plain '/' hmem).2 (by decide)

/-- **A path of segments that stand for themselves has these segments.** -/
theorem segments_written {s : List Char} {ss : List (List Char)} (hs : IsSegment s)
    (hss : ∀ x ∈ ss, IsSegment x) : segments (s ++ written ss) = s :: ss := by
  have hslashes : (s ++ written ss).map (fun c => if isSlash c then '/' else c)
      = s ++ written ss := by
    conv_rhs => rw [← List.map_id (s ++ written ss)]
    refine List.map_congr_left fun c hc => ?_
    have hsegment {x : List Char} (hx : IsSegment x) (hmem : c ∈ x) :
        (if isSlash c then '/' else c) = c := by
      rw [if_neg (Bool.eq_false_iff.1 (hx.plain c hmem).2)]
    rcases List.mem_append.1 hc with hc | hc
    · exact hsegment hs hc
    · rcases mem_written hc with rfl | ⟨x, hx, hc⟩
      · rfl
      · exact hsegment (hss x hx) hc
  have hencode : ∀ x ∈ s :: ss, Percent.encode isPlainInPath (String.ofList x) = x := by
    intro x hx
    have hsegment : IsSegment x := List.forall_mem_cons.2 ⟨hs, hss⟩ x hx
    refine Percent.encode_of_kept fun c hc => ?_
    have hplain := (hsegment.plain c hc).1
    exact ⟨(visible_of_isPlainInPath hplain).2.1, hplain⟩
  have hsplit : Text.splitAt '/' (s ++ written ss) = s :: ss :=
    Text.splitAt_separated (slash_notMem hs) fun x hx => slash_notMem (hss x hx)
  rw [segments, hslashes, hsplit]
  exact (List.map_congr_left hencode).trans (List.map_id _)

/-! ## Addresses -/

section Address

variable {host s : List Char} {ss : List (List Char)} {u : Url}

theorem eq_slash_or_isPlainInPath (hss : ∀ x ∈ ss, IsSegment x) {c : Char} (hc : c ∈ written ss) :
    c = '/' ∨ isPlainInPath c = true := by
  refine (mem_written hc).imp id ?_
  rintro ⟨x, hx, hc⟩
  exact ((hss x hx).plain c hc).1

/-- The host ends where the path begins, and the path is all that follows. -/
theorem path_of_ofAuthority {secure : Bool} (hhost : ∀ c ∈ host, isPlainInHost c = true)
    (hss : ∀ x ∈ s :: ss, IsSegment x)
    (h : ofAuthority secure (host ++ written (s :: ss)) = .ok u) :
    u.path = String.ofList (written (s :: ss)) := by
  have hauthority : ∀ c ∈ host, (!isSlash c && c != '?' && c != '#') = true :=
    fun c hc => isAuthority_of_isPlainInHost (hhost c hc)
  have hbegins : written (s :: ss) = '/' :: (s ++ written ss) := rfl
  have hdrop : (host ++ written (s :: ss)).dropWhile
      (fun c => !isSlash c && c != '?' && c != '#') = written (s :: ss) := by
    rw [List.dropWhile_append_of_pos hauthority, hbegins]
    rfl
  have hpath : (written (s :: ss)).takeWhile (fun c => c != '?' && c != '#')
      = written (s :: ss) := by
    refine List.takeWhile_eq_self_iff.2 fun c hc => ?_
    rcases eq_slash_or_isPlainInPath hss hc with rfl | hplain
    · rfl
    · obtain ⟨-, -, hquery, hfragment⟩ := visible_of_isPlainInPath hplain
      rw [bne_iff_ne.2 hquery, bne_iff_ne.2 hfragment]
      rfl
  obtain ⟨hs, hss⟩ := List.forall_mem_cons.1 hss
  simp only [ofAuthority, splitPath, hdrop, hpath] at h
  split at h
  · rw [← Except.ok.inj h, hbegins, List.drop_one, List.tail_cons, segments_written hs hss,
      resolve_of_segments [] (List.forall_mem_cons.2 ⟨hs, hss⟩)]
    rfl
  · cases h

/-- **The path of an address with a plain host has the segments that were written.** -/
theorem path_of_parse (hhost : ∀ c ∈ host, isPlainInHost c = true) (hne : host ≠ [])
    (hss : ∀ x ∈ s :: ss, IsSegment x)
    (h : parse (String.ofList ("http://".toList ++ (host ++ written (s :: ss)))) = .ok u) :
    u.path = String.ofList (written (s :: ss)) := by
  have hvisible : ∀ c ∈ written (s :: ss), 0x20 < c.toNat := by
    intro c hc
    rcases eq_slash_or_isPlainInPath hss hc with rfl | hplain
    · decide
    · exact (visible_of_isPlainInPath hplain).1
  have hparse := parse_site hhost hne hvisible []
  rw [cleanEnd_nil, List.append_nil] at hparse
  exact path_of_ofAuthority hhost hss (hparse ▸ h)

end Address

end Url

end PinKeeper.Web
