import PinKeeper.Proofs.Web.Url
import PinKeeper.Total

/-!
# Proofs/Web/Names — which names the path of an address is read as

The segments of a path are read as names (`Url.names`).  Names that are written into an address,
with slashes between them, are not read back as they are unless each of them stands for itself
(`IsName`): separators begin another segment or end the path, dot segments are resolved away,
escapes are read, and line breaks and the blanks at the end are dropped.

That these are all the ways for a name to get lost is a matter of counting (`weight`).  What is read
never has more bytes than what was written, and it has fewer wherever something of the kind happens
(`weight_resolve_le` for the dot segments, one step of which is `enter`).
So names that are read back as they were written have lost nothing on the way (`whole_of_names`),
and that is the one direction of `names_beneath_iff`.
-/

namespace PinKeeper.Web

/-- A text that stands in a path for itself, written as it is. -/
structure IsName (s : String) : Prop where
  plain : ∀ c ∈ s.toList, c ∉ ['/', '\\', '?', '#', '\t', '\n', '\r']
  no_escape : Percent.hasEscape s.toList = false
  ne_dot : s ≠ "."
  ne_dots : s ≠ ".."

instance (s : String) : Decidable (IsName s) :=
  decidable_of_iff
    ((s.toList.all fun c => decide (c ∉ ['/', '\\', '?', '#', '\t', '\n', '\r'])) = true ∧
      Percent.hasEscape s.toList = false ∧ s ≠ "." ∧ s ≠ "..") <| by
    simp only [List.all_eq_true, decide_eq_true_iff]
    exact ⟨fun h => ⟨h.1, h.2.1, h.2.2.1, h.2.2.2⟩,
      fun h => ⟨h.plain, h.no_escape, h.ne_dot, h.ne_dots⟩⟩

/-- A text that does not end in a space or a control character. -/
def EndsVisibly (cs : List Char) : Prop := ∀ c ∈ cs.getLast?, 0x20 < c.toNat

instance (cs : List Char) : Decidable (EndsVisibly cs) :=
  decidable_of_iff ((cs.getLast?.all fun c => 0x20 < c.toNat) = true) <| by
    simp [EndsVisibly, Option.all_eq_true]

namespace Url

/-- Names in the path of an address: its segments, read. -/
def names (u : Url) : List (Option String) := (sentSegments u.path).map Percent.decoded?

/-! ## What follows the host -/

/-- Address with a path and a query behind its own site. -/
def beneath (u : Url) (cs : List Char) : Url :=
  { u with
    path := pathOf (resolve [] (segments (splitPath cs).1))
    query := queryOf (splitPath cs).2 }

section Site

variable {site : List Char} (hsite : ∀ c ∈ site, isPlainInHost c = true)

include hsite

/-- The site ends at a slash, and all that follows is path and query. -/
theorem ofAuthority_append (secure : Bool) (cs : List Char) :
    ofAuthority secure (site ++ '/' :: cs) = (ofAuthority secure site).map (·.beneath cs) := by
  have hauthority : ∀ c ∈ site, (!isSlash c && c != '?' && c != '#') = true :=
    fun c hc => isAuthority_of_isPlainInHost (hsite c hc)
  have htake : (site ++ '/' :: cs).takeWhile (fun c => !isSlash c && c != '?' && c != '#')
      = site := by
    rw [List.takeWhile_append_of_pos hauthority, List.takeWhile_cons_of_neg (by decide),
      List.append_nil]
  have hdrop : (site ++ '/' :: cs).dropWhile (fun c => !isSlash c && c != '?' && c != '#')
      = '/' :: cs := by
    rw [List.dropWhile_append_of_pos hauthority, List.dropWhile_cons_of_neg (by decide)]
  have htakeAll : site.takeWhile (fun c => !isSlash c && c != '?' && c != '#') = site :=
    List.takeWhile_eq_self_iff.2 hauthority
  simp only [ofAuthority, htake, hdrop, htakeAll]
  split
  · rfl
  · rfl

/-- **What is written behind a site is path and query of the address.** -/
theorem parse_append (hne : site ≠ []) (cs : List Char) :
    parse (String.ofList ("http://".toList ++ (site ++ '/' :: cs)))
      = (parse (String.ofList ("http://".toList ++ site))).map (·.beneath (cleanEnd cs)) := by
  have hslash : ∀ c ∈ ['/'], 0x20 < c.toNat := List.forall_mem_singleton.2 (by decide)
  have hend := parse_site hsite hne hslash cs
  have hall := parse_site hsite hne (List.forall_mem_nil fun c => 0x20 < Char.toNat c) []
  rw [cleanEnd_nil, List.append_nil, List.append_nil] at hall
  rw [hall, ← ofAuthority_append hsite]
  exact hend

end Site

/-! ## The end of an address -/

theorem reverse_dropWhile_sublist (cs : List Char) :
    ((cs.reverse.dropWhile isEdge).reverse).Sublist cs := by
  rw [← List.reverse_sublist, List.reverse_reverse]
  exact List.dropWhile_sublist _

theorem cleanEnd_sublist (cs : List Char) : (cleanEnd cs).Sublist cs :=
  List.filter_sublist.trans (reverse_dropWhile_sublist cs)

theorem dropWhile_isEdge_iff {cs : List Char} :
    cs.reverse.dropWhile isEdge = cs.reverse ↔ EndsVisibly cs := by
  rw [EndsVisibly, List.getLast?_eq_head?_reverse]
  cases cs.reverse with
  | nil => simp
  | cons c back =>
    have hvisible : isEdge c = false ↔ 0x20 < c.toNat := by
      rw [isEdge, decide_eq_false_iff_not, Nat.not_le]
    have hhead : (∀ d ∈ some c, 0x20 < d.toNat) ↔ 0x20 < c.toNat := by simp
    rw [List.head?_cons, hhead, ← hvisible]
    constructor
    · intro h
      refine Bool.eq_false_iff.2 fun hedge => ?_
      rw [List.dropWhile_cons_of_pos hedge] at h
      have hle : (back.dropWhile isEdge).length ≤ back.length :=
        (List.dropWhile_suffix isEdge).length_le
      rw [h, List.length_cons] at hle
      omega
    · intro hedge
      exact List.dropWhile_cons_of_neg (Bool.eq_false_iff.1 hedge)

/-- **Nothing is dropped of a text that ends visibly and has no line breaks or tabs**, and of no
other. -/
theorem cleanEnd_eq_self_iff {cs : List Char} :
    cleanEnd cs = cs ↔ (∀ c ∈ cs, isNoBreak c = true) ∧ EndsVisibly cs := by
  rw [← dropWhile_isEdge_iff]
  constructor
  · intro h
    have hdrop : (cs.reverse.dropWhile isEdge).reverse = cs := by
      refine (reverse_dropWhile_sublist cs).antisymm ?_
      conv_lhs => rw [← h]
      exact List.filter_sublist
    rw [cleanEnd, hdrop] at h
    refine ⟨List.filter_eq_self.1 h, List.reverse_inj.1 ?_⟩
    rw [hdrop, List.reverse_reverse]
  · rintro ⟨hbreaks, hdrop⟩
    rw [cleanEnd, hdrop, List.reverse_reverse]
    exact List.filter_eq_self.2 hbreaks

/-- A text is all path, and nothing is dropped of it. -/
theorem splitPath_cleanEnd_iff {cs : List Char} : (splitPath (cleanEnd cs)).1 = cs ↔
    cleanEnd cs = cs ∧ ∀ c ∈ cs, (c != '?' && c != '#') = true := by
  constructor
  · intro h
    have hclean : cleanEnd cs = cs := by
      refine (cleanEnd_sublist cs).antisymm ?_
      conv_lhs => rw [← h]
      exact List.takeWhile_sublist _
    rw [hclean] at h
    exact ⟨hclean, List.takeWhile_eq_self_iff.1 h⟩
  · rintro ⟨hclean, hpath⟩
    rw [hclean]
    exact List.takeWhile_eq_self_iff.2 hpath

/-! ## Dot segments -/

theorem decode_of_unescapedDots {s r : List Char} (h : unescapedDots s = '.' :: r) :
    ∃ rest, unescapedDots rest = r ∧
      Percent.decode s = String.utf8EncodeChar '.' ++ Percent.decode rest := by
  rw [unescapedDots.eq_def] at h
  split at h
  · next e rest =>
    split at h
    · next he =>
      refine ⟨rest, (List.cons.inj h).2, ?_⟩
      rw [Bool.or_eq_true, decide_eq_true_iff, decide_eq_true_iff] at he
      rcases he with rfl | rfl <;> rfl
    · cases (List.cons.inj h).1
  · next c rest _ =>
    obtain ⟨rfl, hrest⟩ := List.cons.inj h
    exact ⟨rest, hrest, Percent.decode_cons rfl⟩
  · cases h

theorem eq_nil_of_unescapedDots {s : List Char} (h : unescapedDots s = []) : s = [] := by
  rw [unescapedDots.eq_def] at h
  split at h
  · split at h <;> cases h
  · cases h
  · rfl

/-- **Dot segments are read as points.** -/
theorem decode_of_isDots {s : List Char} (h : isDots s = true) :
    ∃ dots ∈ [".", ".."], Percent.decode s = dots.toList.flatMap String.utf8EncodeChar := by
  rcases isDots_iff.1 h with h | h
  · obtain ⟨r, hr, hs⟩ := decode_of_unescapedDots h
    obtain ⟨q, hq, hr⟩ := decode_of_unescapedDots hr
    rw [eq_nil_of_unescapedDots hq] at hr
    refine ⟨"..", by decide, ?_⟩
    rw [hs, hr]
    rfl
  · obtain ⟨r, hr, hs⟩ := decode_of_unescapedDots h
    rw [eq_nil_of_unescapedDots hr] at hs
    refine ⟨".", by decide, ?_⟩
    rw [hs]
    rfl

theorem length_decode_pos_of_isDots {s : List Char} (h : isDots s = true) :
    0 < (Percent.decode s).length := by
  refine Percent.length_decode_pos ?_
  rintro rfl
  cases h

/-! ## Segments that are resolved -/

theorem climb_subset (done : List (List Char)) : climb done ⊆ done := by
  cases done with
  | nil => exact List.Subset.refl _
  | cons s done =>
    rw [climb]
    split
    · exact List.Subset.refl _
    · exact List.subset_cons_self s done

theorem forall_mem_enter {P : List Char → Prop} {done : List (List Char)} {s : List Char}
    (hdone : ∀ x ∈ done, P x) (hs : P s) : ∀ x ∈ enter done s, P x := by
  rw [enter]
  split
  · exact fun x hx => hdone x (climb_subset done hx)
  split
  · exact hdone
  · exact List.forall_mem_cons.2 ⟨hs, hdone⟩

/-- Whatever holds of the segments holds of those that they are resolved to. -/
theorem forall_mem_resolve {P : List Char → Prop} (hnil : P []) : ∀ (done ss : List (List Char)),
    (∀ s ∈ done, P s) → (∀ s ∈ ss, P s) → ∀ s ∈ resolve done ss, P s
  | done, [], hdone, _ => by
    rw [resolve]
    exact fun s hs => hdone s (List.mem_reverse.1 hs)
  | done, [s], hdone, hss => by
    have henter := forall_mem_enter hdone (hss s (List.mem_singleton_self s))
    rw [resolve_singleton]
    intro x hx
    rw [List.mem_reverse] at hx
    split at hx
    · exact List.forall_mem_cons.2 ⟨hnil, henter⟩ x hx
    · exact henter x hx
  | done, s :: x :: ss, hdone, hss => by
    obtain ⟨hs, hrest⟩ := List.forall_mem_cons.1 hss
    rw [resolve_cons_cons]
    exact forall_mem_resolve hnil _ _ (forall_mem_enter hdone hs) hrest

theorem resolve_ne_nil : ∀ (done : List (List Char)) {ss : List (List Char)}, ss ≠ [] →
    resolve done ss ≠ []
  | _, [], h => absurd rfl h
  | done, [s], _ => by
    rw [resolve_singleton, Ne, List.reverse_eq_nil_iff]
    split
    · exact List.cons_ne_nil _ _
    · next hdots =>
      rw [enter_of_not_isDots (Bool.eq_false_iff.2 hdots)]
      exact List.cons_ne_nil s done
  | done, s :: x :: ss, _ => by
    rw [resolve_cons_cons]
    exact resolve_ne_nil _ (List.cons_ne_nil x ss)

/-! ## Nothing is added in reading

The bytes of a text are counted along its way into an address, a segment counting one more for the
slash before it.  No step adds to them, so where nothing is lost at the end nothing was lost before.
-/

/-- Bytes of segments as they are read, each with a slash. -/
def weight (ss : List (List Char)) : Nat := sumOf (ss.map fun s => (Percent.decode s).length + 1)

@[simp] theorem weight_nil : weight [] = 0 := rfl

@[simp] theorem weight_cons (s : List Char) (ss : List (List Char)) :
    weight (s :: ss) = (Percent.decode s).length + 1 + weight ss := by
  rw [weight, List.map_cons, sumOf, weight]

@[simp] theorem weight_append (ss xs : List (List Char)) :
    weight (ss ++ xs) = weight ss + weight xs := by
  rw [weight, List.map_append, sumOf_append, weight, weight]

@[simp] theorem weight_reverse (ss : List (List Char)) : weight ss.reverse = weight ss := by
  induction ss with
  | nil => rfl
  | cons s ss ih =>
    rw [List.reverse_cons, weight_append, ih, weight_cons, weight_cons, weight_nil]
    exact Nat.add_comm _ _

theorem weight_climb_le (done : List (List Char)) : weight (climb done) ≤ weight done := by
  cases done with
  | nil => exact Nat.le_refl 0
  | cons s done =>
    rw [climb]
    split
    · exact Nat.le_refl _
    · rw [weight_cons]
      omega

theorem weight_enter_le {s : List Char} (hs : isDots s = true) (done : List (List Char)) :
    weight (enter done s) ≤ weight done := by
  rw [enter]
  split
  · exact weight_climb_le done
  · next hdots => rw [if_pos ((isDots_iff.1 hs).resolve_left hdots)]

/-- **A path loses bytes with each dot segment**, and gains none. -/
theorem weight_resolve_le : ∀ done ss : List (List Char),
    weight (resolve done ss) + ss.countP isDots ≤ weight done + weight ss
  | done, [] => by simp [resolve]
  | done, [s] => by
    rw [resolve_singleton, weight_reverse, List.countP_singleton, weight_cons, weight_nil]
    cases hs : isDots s with
    | true =>
      -- The last one leaves an empty segment behind, which is still a byte less.
      have henter := weight_enter_le hs done
      have hpos := length_decode_pos_of_isDots hs
      rw [if_pos rfl, if_pos rfl, weight_cons, Percent.decode_nil, List.length_nil]
      omega
    | false =>
      rw [if_neg Bool.false_ne_true, if_neg Bool.false_ne_true, enter_of_not_isDots hs, weight_cons]
      omega
  | done, s :: x :: ss => by
    have ih := weight_resolve_le (enter done s) (x :: ss)
    rw [resolve_cons_cons, List.countP_cons, weight_cons s]
    cases hs : isDots s with
    | true =>
      have henter := weight_enter_le hs done
      rw [if_pos rfl]
      omega
    | false =>
      rw [enter_of_not_isDots hs, weight_cons] at ih
      rw [if_neg Bool.false_ne_true, enter_of_not_isDots hs]
      omega

/-! ## The segments of a path -/

theorem keepsEscapes_isPlainInPath : Percent.KeepsEscapes isPlainInPath := by
  have hhex {c : Char} (hc : (Text.hexValue? c).isSome = true) : c.toNat < 0x80 := by
    rw [Text.hexValue?] at hc
    split at hc
    · next hdigit =>
      simp only [Char.isDigit, Bool.and_eq_true, decide_eq_true_iff] at hdigit
      exact Nat.lt_of_le_of_lt hdigit.2 (by decide)
    split at hc
    · next hlower =>
      simp only [Bool.and_eq_true, decide_eq_true_iff] at hlower
      exact Nat.lt_of_le_of_lt hlower.2 (by decide)
    split at hc
    · next hupper =>
      simp only [Bool.and_eq_true, decide_eq_true_iff] at hupper
      exact Nat.lt_of_le_of_lt hupper.2 (by decide)
    · cases hc
  have hkept : ∀ n < 0x80, (Text.hexValue? (Char.ofNat n)).isSome = true →
      isPlainInPath (Char.ofNat n) = true := by decide
  rintro c (rfl | hc)
  · decide
  · refine ⟨hhex hc, ?_⟩
    have h := hkept c.toNat (hhex hc)
    rw [Char.ofNat_toNat] at h
    exact h hc

/-- Path with slashes for backslashes. -/
def slashed (cs : List Char) : List Char := cs.map fun c => if isSlash c then '/' else c

/-- Text of a segment as it is sent. -/
def sent (s : List Char) : List Char := Percent.encode isPlainInPath (String.ofList s)

theorem segments_eq (cs : List Char) : segments cs = (Text.splitAt '/' (slashed cs)).map sent := rfl

theorem decode_sent (s : List Char) : Percent.decode (sent s) = Percent.decode s :=
  Percent.decode_encode keepsEscapes_isPlainInPath s

theorem size_slashed (cs : List Char) : Percent.size (slashed cs) = Percent.size cs := by
  induction cs with
  | nil => rfl
  | cons c cs ih =>
    have hc : (if isSlash c then '/' else c).utf8Size = c.utf8Size := by
      split
      · next hslash =>
        rw [isSlash, Bool.or_eq_true, decide_eq_true_iff, decide_eq_true_iff] at hslash
        rcases hslash with rfl | rfl <;> rfl
      · rfl
    rw [slashed, List.map_cons, ← slashed, Percent.size_cons, Percent.size_cons, ih, hc]

/-- The pieces of a text have all its bytes but those of the separators. -/
theorem sumOf_size_splitAt (cs : List Char) :
    sumOf ((Text.splitAt '/' cs).map fun s => Percent.size s + 1) = Percent.size cs + 1 := by
  have hslash : '/'.utf8Size = 1 := rfl
  induction cs with
  | nil => rfl
  | cons c cs ih =>
    rw [Text.splitAt]
    split
    · next hc =>
      rw [List.map_cons, sumOf, ih, hc, Percent.size_nil, Percent.size_cons, hslash]
      omega
    · obtain ⟨s, ss, hsplit⟩ := List.exists_cons_of_ne_nil (Text.splitAt_ne_nil '/' cs)
      rw [hsplit, List.map_cons, sumOf] at ih
      rw [hsplit]
      dsimp only
      rw [List.map_cons, sumOf, Percent.size_cons, Percent.size_cons]
      omega

theorem sumOf_map_le {α : Type} {f g : α → Nat} : ∀ {xs : List α}, (∀ x ∈ xs, f x ≤ g x) →
    sumOf (xs.map f) ≤ sumOf (xs.map g)
  | [], _ => Nat.le_refl 0
  | x :: xs, hle => by
    obtain ⟨hx, hxs⟩ := List.forall_mem_cons.1 hle
    exact Nat.add_le_add hx (sumOf_map_le hxs)

/-- Lists with one sum have the same terms, if those of the one are at most those of the other. -/
theorem eq_of_sumOf_map_le {α : Type} {f g : α → Nat} : ∀ {xs : List α}, (∀ x ∈ xs, f x ≤ g x) →
    sumOf (xs.map g) ≤ sumOf (xs.map f) → ∀ x ∈ xs, f x = g x
  | [], _, _ => List.forall_mem_nil _
  | x :: xs, hle, hsum => by
    obtain ⟨hx, hxs⟩ := List.forall_mem_cons.1 hle
    have hrest := sumOf_map_le hxs
    rw [List.map_cons, List.map_cons, sumOf, sumOf] at hsum
    exact List.forall_mem_cons.2 ⟨by omega, eq_of_sumOf_map_le hxs (by omega)⟩

theorem weight_segments (cs : List Char) : weight (segments cs)
    = sumOf ((Text.splitAt '/' (slashed cs)).map fun s => (Percent.decode s).length + 1) := by
  rw [weight, segments_eq, List.map_map]
  refine congrArg sumOf (List.map_congr_left fun s _ => ?_)
  rw [Function.comp_apply, decode_sent]

/-- A path is read as no more bytes than it has. -/
theorem weight_segments_le (cs : List Char) : weight (segments cs) ≤ Percent.size cs + 1 := by
  rw [weight_segments, ← size_slashed, ← sumOf_size_splitAt]
  exact sumOf_map_le fun s _ => Nat.succ_le_succ (Percent.length_decode_le s)

/-- **A path that is read as all its bytes has no escapes.** -/
theorem hasEscape_of_weight {cs : List Char} (h : Percent.size cs + 1 ≤ weight (segments cs)) :
    ∀ s ∈ Text.splitAt '/' (slashed cs), Percent.hasEscape s = false := by
  rw [weight_segments, ← size_slashed, ← sumOf_size_splitAt] at h
  intro s hs
  have heq := eq_of_sumOf_map_le (fun s _ => Nat.succ_le_succ (Percent.length_decode_le s)) h s hs
  cases hescape : Percent.hasEscape s with
  | false => rfl
  | true =>
    have hlt := Percent.length_decode_lt hescape
    omega

/-! ## Names -/

/-- The segments of a path are those it was made of. -/
theorem sentSegments_pathOf {ss : List (List Char)} (hne : ss ≠ []) (hss : ∀ s ∈ ss, '/' ∉ s) :
    sentSegments (pathOf ss) = ss := by
  obtain ⟨s, ss, rfl⟩ := List.exists_cons_of_ne_nil hne
  obtain ⟨hs, hss⟩ := List.forall_mem_cons.1 hss
  rw [sentSegments, pathOf, String.toList_ofList]
  exact Text.splitAt_separated hs hss

theorem slash_notMem_of_mem_segments {cs s : List Char} (h : s ∈ segments cs) : '/' ∉ s := by
  obtain ⟨p, ps, hsplit, -, hnone⟩ := Text.separated_splitAt '/' (slashed cs)
  rw [segments_eq, hsplit] at h
  obtain ⟨q, hq, rfl⟩ := List.mem_map.1 h
  exact Percent.notMem_encode (by decide) (by decide) (hnone q hq)

theorem names_beneath (b : Url) (cs : List Char) : (b.beneath cs).names
    = (resolve [] (segments (splitPath cs).1)).map Percent.decoded? := by
  have hne : segments (splitPath cs).1 ≠ [] := by
    rw [segments_eq, Ne, List.map_eq_nil_iff]
    exact Text.splitAt_ne_nil _ _
  rw [names, beneath, sentSegments_pathOf (resolve_ne_nil [] hne)]
  exact forall_mem_resolve List.not_mem_nil [] _ (List.forall_mem_nil _)
    fun s hs => slash_notMem_of_mem_segments hs

/-- Where nothing is resolved away and nothing was written with escapes, the names are the pieces of
the path. -/
theorem names_of_plain {cs : List Char} (hdots : ∀ s ∈ segments cs, isDots s = false)
    (hescape : ∀ s ∈ Text.splitAt '/' (slashed cs), Percent.hasEscape s = false) :
    (resolve [] (segments cs)).map Percent.decoded?
      = (Text.splitAt '/' (slashed cs)).map fun s => some (String.ofList s) := by
  rw [resolve_of_not_isDots [] hdots, List.reverse_nil, List.nil_append, segments_eq, List.map_map]
  refine List.map_congr_left fun s hs => ?_
  rw [Function.comp_apply, Percent.decoded?, Percent.decoded?_eq_some_iff, decode_sent,
    Percent.decode_of_not_hasEscape (hescape s hs), String.toList_ofList]

/-- Names have all the bytes that their segments are read as. -/
theorem weight_of_names : ∀ {ss : List (List Char)} {ms : List String},
    ss.map Percent.decoded? = ms.map some →
      weight ss = sumOf (ms.map fun m => Percent.size m.toList + 1)
  | [], [], _ => rfl
  | [], m :: ms, h => by cases h
  | s :: ss, [], h => by cases h
  | s :: ss, m :: ms, h => by
    obtain ⟨hm, hms⟩ := List.cons.inj h
    rw [weight_cons, List.map_cons, sumOf, weight_of_names hms,
      Percent.decoded?_eq_some_iff.1 hm, Percent.size]

/-- Text of names with slashes between them. -/
def spelled (n : String) (ns : List String) : List Char :=
  Text.separated '/' n.toList (ns.map String.toList)

theorem size_spelled (n : String) (ns : List String) : Percent.size (spelled n ns) + 1
    = sumOf ((n :: ns).map fun m => Percent.size m.toList + 1) := by
  have hslash : '/'.utf8Size = 1 := rfl
  induction ns generalizing n with
  | nil => simp [spelled, Text.separated, sumOf]
  | cons m ns ih =>
    rw [spelled, List.map_cons, Text.separated_cons, ← spelled, Percent.size_append,
      Percent.size_cons, List.map_cons, sumOf, ← ih, hslash]
    omega

/-- A name that stands for itself is no dot segment. -/
theorem isDots_sent {m : String} (hm : IsName m) : isDots (sent m.toList) = false := by
  refine Bool.eq_false_iff.2 fun h => ?_
  obtain ⟨dots, hdots, hread⟩ := decode_of_isDots h
  rw [decode_sent, Percent.decode_of_not_hasEscape hm.no_escape] at hread
  have heq : m = dots :=
    Option.some.inj ((Percent.decoded?_eq_some_iff.2 rfl).symm.trans
      (Percent.decoded?_eq_some_iff.2 hread))
  simp only [List.mem_cons, List.not_mem_nil, or_false] at hdots
  rcases hdots with rfl | rfl
  · exact hm.ne_dot heq
  · exact hm.ne_dots heq

theorem slashed_eq_self_iff {cs : List Char} : slashed cs = cs ↔ '\\' ∉ cs := by
  have hchar (c : Char) : (if isSlash c then '/' else c) = id c ↔ c ≠ '\\' := by
    by_cases hc : c = '\\'
    · subst hc
      decide
    · simp [isSlash, hc]
      exact fun h => h.symm
  conv_lhs => rhs; rw [← List.map_id cs]
  rw [slashed, List.map_inj_left]
  simp only [hchar]
  exact ⟨fun h hmem => h _ hmem rfl, fun h c hc hslash => h (hslash ▸ hc)⟩

section Spelled

variable {n : String} {ns : List String}

theorem mem_spelled {c : Char} (h : c ∈ spelled n ns) : c = '/' ∨ ∃ m ∈ n :: ns, c ∈ m.toList := by
  refine (Text.mem_separated h).imp id ?_
  rintro ⟨q, hq, hc⟩
  rw [← List.map_cons] at hq
  obtain ⟨m, hm, rfl⟩ := List.mem_map.1 hq
  exact ⟨m, hm, hc⟩

/-- Names whose pieces are found again in the path stand for themselves. -/
theorem isName_of_splitAt
    (hpieces : Text.splitAt '/' (slashed (spelled n ns)) = (n :: ns).map String.toList)
    (hescape : ∀ s ∈ Text.splitAt '/' (slashed (spelled n ns)), Percent.hasEscape s = false)
    (hdots : ∀ s ∈ segments (spelled n ns), isDots s = false)
    (hpath : ∀ c ∈ spelled n ns, (c != '?' && c != '#') = true)
    (hbreaks : ∀ c ∈ spelled n ns, isNoBreak c = true) : ∀ m ∈ n :: ns, IsName m := by
  intro m hm
  have hpiece : m.toList ∈ (n :: ns).map String.toList := List.mem_map_of_mem hm
  have hdot : isDots (sent m.toList) = false := by
    refine hdots _ ?_
    rw [segments_eq, hpieces]
    exact List.mem_map_of_mem hpiece
  obtain ⟨p, ps, hsplit, hjoined, hnone⟩ := Text.separated_splitAt '/' (slashed (spelled n ns))
  rw [hpieces] at hsplit hescape
  have hslashed : slashed (spelled n ns) = spelled n ns := by
    obtain ⟨rfl, rfl⟩ := List.cons.inj hsplit
    exact hjoined.symm
  refine ⟨fun c hc => ?_, hescape _ hpiece, ?_, ?_⟩
  · have hmem : c ∈ spelled n ns := Text.mem_separated_of_mem hpiece hc
    have hnoBreak := hbreaks c hmem
    have hnoEnd := hpath c hmem
    have hslash : c ≠ '/' := by
      rintro rfl
      exact hnone _ (hsplit ▸ hpiece) hc
    have hbackslash : c ≠ '\\' := by
      rintro rfl
      exact slashed_eq_self_iff.1 hslashed hmem
    simp only [isNoBreak, Bool.and_eq_true, bne_iff_ne] at hnoBreak hnoEnd
    simp [hslash, hbackslash, hnoBreak, hnoEnd]
  · rintro rfl
    exact absurd hdot (by decide +kernel)
  · rintro rfl
    exact absurd hdot (by decide +kernel)

/-- Names that have all the bytes of the text have lost none on the way. -/
theorem whole_of_names (h : (resolve [] (segments (splitPath (cleanEnd (spelled n ns))).1)).map
      Percent.decoded? = (n :: ns).map some) :
    (splitPath (cleanEnd (spelled n ns))).1 = spelled n ns ∧
      (segments (spelled n ns)).countP isDots = 0 ∧
      Percent.size (spelled n ns) + 1 ≤ weight (segments (spelled n ns)) := by
  have hsub : ((splitPath (cleanEnd (spelled n ns))).1).Sublist (spelled n ns) :=
    (List.takeWhile_sublist _).trans (cleanEnd_sublist _)
  have hsize := Percent.size_le_of_sublist hsub
  have hsegments := weight_segments_le (splitPath (cleanEnd (spelled n ns))).1
  have hresolved := weight_resolve_le [] (segments (splitPath (cleanEnd (spelled n ns))).1)
  rw [weight_of_names h, ← size_spelled, weight_nil] at hresolved
  have hwhole := Percent.eq_of_sublist_of_size_le hsub (by omega)
  rw [hwhole] at hresolved hsegments
  exact ⟨hwhole, by omega, by omega⟩

theorem notMem_of_isName (hnames : ∀ m ∈ n :: ns, IsName m) {c : Char} (hc : c ∈ spelled n ns) :
    c ∉ ['\\', '?', '#', '\t', '\n', '\r'] := by
  rcases mem_spelled hc with rfl | ⟨m, hm, hc⟩
  · decide
  · exact fun hmem => (hnames m hm).plain c hc (List.mem_cons_of_mem _ hmem)

theorem whole_of_isName (hnames : ∀ m ∈ n :: ns, IsName m) (hends : EndsVisibly (spelled n ns)) :
    (splitPath (cleanEnd (spelled n ns))).1 = spelled n ns := by
  refine splitPath_cleanEnd_iff.2 ⟨cleanEnd_eq_self_iff.2 ⟨fun c hc => ?_, hends⟩, fun c hc => ?_⟩
  · have hc := notMem_of_isName hnames hc
    simp only [List.mem_cons, List.not_mem_nil, or_false, not_or] at hc
    simp [isNoBreak, hc]
  · have hc := notMem_of_isName hnames hc
    simp only [List.mem_cons, List.not_mem_nil, or_false, not_or] at hc
    simp [hc]

theorem splitAt_of_isName (hnames : ∀ m ∈ n :: ns, IsName m) :
    Text.splitAt '/' (slashed (spelled n ns)) = (n :: ns).map String.toList := by
  have hslash : ∀ s ∈ (n :: ns).map String.toList, '/' ∉ s := by
    intro s hs hmem
    obtain ⟨m, hm, rfl⟩ := List.mem_map.1 hs
    exact (hnames m hm).plain '/' hmem List.mem_cons_self
  obtain ⟨hn, hns⟩ := List.forall_mem_cons.1 hslash
  rw [slashed_eq_self_iff.2 fun hmem => notMem_of_isName hnames hmem List.mem_cons_self]
  exact Text.splitAt_separated hn hns

end Spelled

/-- **A path is read as the names it was written with exactly if each of them stands for itself**,
and nothing is dropped at the end. -/
theorem names_beneath_iff (b : Url) (n : String) (ns : List String) :
    (b.beneath (cleanEnd (spelled n ns))).names = (n :: ns).map some ↔
      (∀ m ∈ n :: ns, IsName m) ∧ EndsVisibly (spelled n ns) := by
  rw [names_beneath]
  constructor
  · -- What is counted says that nothing was lost, and then the pieces themselves are compared.
    intro h
    obtain ⟨hwhole, hcount, hweight⟩ := whole_of_names h
    obtain ⟨hclean, hpath⟩ := splitPath_cleanEnd_iff.1 hwhole
    obtain ⟨hbreaks, hends⟩ := cleanEnd_eq_self_iff.1 hclean
    have hdots : ∀ s ∈ segments (spelled n ns), isDots s = false :=
      fun s hs => Bool.eq_false_iff.2 (List.countP_eq_zero.1 hcount s hs)
    have hescape := hasEscape_of_weight hweight
    rw [hwhole, names_of_plain hdots hescape] at h
    have hpieces := congrArg (List.map fun m : Option String => (m.getD "").toList) h
    simp only [List.map_map, Function.comp_def, Option.getD_some, String.toList_ofList,
      List.map_id'] at hpieces
    exact ⟨isName_of_splitAt hpieces hescape hdots hpath hbreaks, hends⟩
  · rintro ⟨hnames, hends⟩
    have hpieces := splitAt_of_isName hnames
    rw [whole_of_isName hnames hends, names_of_plain, hpieces, List.map_map]
    · exact List.map_congr_left fun m _ => congrArg some String.ofList_toList
    · rw [segments_eq, hpieces]
      intro s hs
      obtain ⟨q, hq, rfl⟩ := List.mem_map.1 hs
      obtain ⟨m, hm, rfl⟩ := List.mem_map.1 hq
      exact isDots_sent (hnames m hm)
    · rw [hpieces]
      intro s hs
      obtain ⟨m, hm, rfl⟩ := List.mem_map.1 hs
      exact (hnames m hm).no_escape

/-- A path that takes up all of the text leaves nothing for the query. -/
theorem query_beneath {n : String} {ns : List String} (b : Url) (hnames : ∀ m ∈ n :: ns, IsName m)
    (hends : EndsVisibly (spelled n ns)) : (b.beneath (cleanEnd (spelled n ns))).query = none := by
  obtain ⟨hclean, hpath⟩ := splitPath_cleanEnd_iff.1 (whole_of_isName hnames hends)
  rw [hclean, beneath, splitPath, List.dropWhile_eq_nil_iff.2 hpath]
  rfl

end Url

end PinKeeper.Web
