import Mathlib.Data.List.DropRight
import PinKeeper.Files.Path
import PinKeeper.Proofs.Files.Tree
import PinKeeper.Proofs.Text.Split

/-!
# Proofs/Files/Path — paths below a path

A path is its pieces, and its components are the pieces that count.  Names that are joined to a path
are pieces behind those that the path leads with (`pieces_below`), so that they are components
behind its own (`components_below`), and one path has different paths below it (`below_injective`).
The parent of a path has all components but the last (`components_parent?`).  What is left of a path
below a base is the end of its text, with the components that the base does not have (`IsRelative`),
and of all paths below one path the same pieces of it are left (`exists_heading`).
-/

namespace PinKeeper.Path

variable {p q base root name : String} {ps qs location : List String}

/-! ## Pieces and text -/

theorem pieces_ne_nil (p : String) : pieces p ≠ [] := by
  rw [pieces, ne_eq, List.map_eq_nil_iff]
  exact Text.splitAt_ne_nil '/' p.toList

/-- A slash ends one path and begins another. -/
theorem pieces_append_slash (p q : String) : pieces (p ++ "/" ++ q) = pieces p ++ pieces q := by
  have hslash : "/".toList = ['/'] := by decide
  simp only [pieces, String.toList_append, hslash, List.append_assoc, List.singleton_append,
    Text.splitAt_append, List.map_append]

theorem not_mem_of_mem_pieces (hq : q ∈ pieces p) : '/' ∉ q.toList := by
  obtain ⟨cs, hcs, rfl⟩ := List.mem_map.1 hq
  obtain ⟨c, rest, hsplit, -, hnone⟩ := Text.separated_splitAt '/' p.toList
  rw [String.toList_ofList]
  exact hnone cs (hsplit ▸ hcs)

/-- **Pieces that are put together are found again.** -/
theorem pieces_ofPieces (hps : ps ≠ []) (hslash : ∀ q ∈ ps, '/' ∉ q.toList) :
    pieces (ofPieces ps) = ps := by
  rw [pieces, ofPieces, Text.splitAt_joined (by decide) hps hslash, List.map_map]
  exact List.map_id'' (fun _ => String.ofList_toList) ps

@[simp] theorem ofPieces_singleton (p : String) : ofPieces [p] = p := by
  rw [ofPieces, Text.joined, String.intercalate_singleton]

theorem ofPieces_cons (p : String) (hps : ps ≠ []) :
    ofPieces (p :: ps) = p ++ "/" ++ ofPieces ps :=
  String.intercalate_cons_of_ne_nil hps

theorem ofPieces_append (hps : ps ≠ []) (hqs : qs ≠ []) :
    ofPieces (ps ++ qs) = ofPieces ps ++ "/" ++ ofPieces qs := by
  induction ps with
  | nil => exact absurd rfl hps
  | cons p ps ih =>
    cases ps with
    | nil => rw [List.singleton_append, ofPieces_cons p hqs, ofPieces_singleton]
    | cons p' ps =>
      have hne : p' :: ps ++ qs ≠ [] := List.cons_ne_nil p' (ps ++ qs)
      rw [List.cons_append, ofPieces_cons p hne, ih (List.cons_ne_nil p' ps),
        ofPieces_cons p (List.cons_ne_nil p' ps)]
      simp only [String.append_assoc]

theorem toList_ofPieces_map_ofList (c : List Char) (cs : List (List Char)) :
    (ofPieces ((c :: cs).map String.ofList)).toList = Text.separated '/' c cs := by
  induction cs generalizing c with
  | nil =>
    rw [List.map_singleton, ofPieces_singleton, String.toList_ofList, Text.separated,
      List.flatMap_nil, List.append_nil]
  | cons c' cs ih =>
    have hslash : "/".toList = ['/'] := by decide
    have hne : (c' :: cs).map String.ofList ≠ [] := List.cons_ne_nil _ _
    rw [List.map_cons, ofPieces_cons _ hne, String.toList_append, String.toList_append,
      String.toList_ofList, hslash, ih, Text.separated_cons, List.append_assoc,
      List.singleton_append]

/-- **A path is its pieces**, put together. -/
theorem ofPieces_pieces (p : String) : ofPieces (pieces p) = p := by
  obtain ⟨c, cs, hsplit, htext, -⟩ := Text.separated_splitAt '/' p.toList
  rw [pieces, hsplit, ← String.toList_inj, toList_ofPieces_map_ofList, htext]

/-! ## Names below a path -/

/-- Name of an entry in a directory. -/
structure IsName (name : String) : Prop where
  ne_empty : name ≠ ""
  ne_point : name ≠ "."
  ne_points : name ≠ ".."
  slash_notMem : '/' ∉ name.toList

instance : Decidable (IsName name) :=
  decidable_of_iff (name ≠ "" ∧ name ≠ "." ∧ name ≠ ".." ∧ '/' ∉ name.toList)
    ⟨fun h => ⟨h.1, h.2.1, h.2.2.1, h.2.2.2⟩, fun h => ⟨h.1, h.2, h.3, h.4⟩⟩

theorem IsName.isIdle (h : IsName name) : isIdle name = false := by
  rw [Path.isIdle, Bool.or_eq_false_iff, beq_eq_false_iff_ne]
  exact ⟨Bool.eq_false_iff.2 fun hempty => h.ne_empty (String.isEmpty_iff.1 hempty), h.ne_point⟩

theorem IsName.pieces (h : IsName name) : pieces name = [name] := by
  rw [Path.pieces, Text.splitAt_of_notMem h.slash_notMem, List.map_singleton, String.ofList_toList]

theorem IsName.isAbsolute (h : IsName name) : isAbsolute name = false := by
  rw [Path.isAbsolute, beq_eq_false_iff_ne]
  exact fun hhead => h.slash_notMem (List.mem_of_head? hhead)

/-- Path of a location below a path. -/
def below (root : String) (location : List String) : String := location.foldl join root

/-- Pieces that the paths below a path begin with: its own, but for an empty one at the end. -/
def lead (root : String) : List String :=
  if root = "" then []
  else if root.toList.getLast? = some '/' then (pieces root).dropLast
  else pieces root

/-- A path that ends in a slash, without that. -/
theorem exists_of_getLast? (h : p.toList.getLast? = some '/') : ∃ q, p = q ++ "/" := by
  obtain ⟨cs, hcs⟩ := List.getLast?_eq_some_iff.1 h
  refine ⟨String.ofList cs, String.toList_inj.1 ?_⟩
  rw [hcs, String.toList_append, String.toList_ofList]
  rfl

theorem pieces_empty : pieces "" = [""] := by decide

theorem pieces_join (root : String) (h : IsName name) :
    pieces (join root name) = lead root ++ [name] := by
  have happend (r : String) : pieces (r ++ "/" ++ name) = pieces r ++ [name] := by
    rw [pieces_append_slash, h.pieces]
  rw [join, h.isAbsolute, Bool.false_or, lead]
  by_cases hempty : root = ""
  · rw [if_pos (String.isEmpty_iff.2 hempty), if_pos hempty, h.pieces, List.nil_append]
  · rw [if_neg (mt String.isEmpty_iff.1 hempty), if_neg hempty]
    by_cases hslash : root.toList.getLast? = some '/'
    · obtain ⟨r, rfl⟩ := exists_of_getLast? hslash
      have hpieces : pieces (r ++ "/") = pieces r ++ [""] := by
        have hr := pieces_append_slash r ""
        rwa [String.append_empty, pieces_empty] at hr
      rw [if_pos (beq_iff_eq.2 hslash), if_pos hslash, happend, hpieces, List.dropLast_concat]
    · rw [if_neg (mt beq_iff_eq.1 hslash), if_neg hslash, happend]

/-- A path of which the last piece is a name is not empty, and does not end in a slash. -/
theorem ends_of_pieces (h : IsName name) (hpieces : pieces p = ps ++ [name]) :
    p ≠ "" ∧ p.toList.getLast? ≠ some '/' := by
  constructor
  · rintro rfl
    have hlast := congrArg List.getLast? hpieces
    rw [pieces_empty, List.getLast?_append_cons] at hlast
    exact h.ne_empty (Option.some.inj hlast).symm
  · intro hslash
    obtain ⟨r, rfl⟩ := exists_of_getLast? hslash
    have hr := pieces_append_slash r ""
    rw [String.append_empty, hpieces, pieces_empty] at hr
    exact h.ne_empty (List.singleton_inj.1 (List.append_inj_right' hr rfl))

/-- A path that ends in a name leads with all its pieces. -/
theorem lead_join (root : String) (h : IsName name) :
    lead (join root name) = lead root ++ [name] := by
  have hpieces := pieces_join root h
  obtain ⟨hempty, hslash⟩ := ends_of_pieces h hpieces
  rw [lead, if_neg hempty, if_neg hslash, hpieces]

/-- **The pieces of a path below a path are those that this leads with, and the location.** -/
theorem pieces_below (root : String) (hne : location ≠ []) (h : ∀ n ∈ location, IsName n) :
    pieces (below root location) = lead root ++ location := by
  induction location generalizing root with
  | nil => exact absurd rfl hne
  | cons n rest ih =>
    obtain ⟨hn, hrest⟩ := List.forall_mem_cons.1 h
    rw [below, List.foldl_cons, ← below]
    cases rest with
    | nil => exact pieces_join root hn
    | cons m rest =>
      rw [ih (join root n) (List.cons_ne_nil m rest) hrest, lead_join root hn, List.append_assoc,
        List.singleton_append]

/-- **Different locations have different paths.** -/
theorem below_injective {location' : List String} (hne : location ≠ [])
    (h : ∀ n ∈ location, IsName n) (hne' : location' ≠ []) (h' : ∀ n ∈ location', IsName n)
    (heq : below root location = below root location') : location = location' := by
  have hpieces := congrArg pieces heq
  rw [pieces_below root hne h, pieces_below root hne' h'] at hpieces
  exact List.append_cancel_left hpieces

/-! ## Components -/

/-- True for a piece that counts wherever it stands. -/
abbrev Counts (piece : String) : Bool := !isIdle piece

/-- Components of the path with some pieces. -/
def counted : List String → List String
  | [] => []
  | first :: rest => first :: rest.filter Counts

theorem components_empty : components "" = [] := by decide

/-- A path that begins with an empty piece is absolute. -/
theorem isAbsolute_of_pieces (hp : p ≠ "") (hpieces : pieces p = "" :: ps) :
    isAbsolute p = true := by
  rw [isAbsolute, beq_iff_eq]
  cases ps with
  | nil =>
    have htext := ofPieces_pieces p
    rw [hpieces, ofPieces_singleton] at htext
    exact absurd htext.symm hp
  | cons q ps =>
    rw [← ofPieces_pieces p, hpieces, ofPieces_cons "" (List.cons_ne_nil q ps), String.empty_append,
      String.toList_append]
    rfl

theorem components_eq (hp : p ≠ "") : components p = counted (pieces p) := by
  rw [components]
  cases hpieces : pieces p with
  | nil => exact absurd hpieces (pieces_ne_nil p)
  | cons first rest =>
    dsimp only
    rw [if_neg, List.singleton_append, counted]
    intro hfirst
    obtain ⟨hempty, habsolute⟩ := Bool.and_eq_true_iff.1 hfirst
    rw [String.isEmpty_iff.1 hempty] at hpieces
    rw [isAbsolute_of_pieces hp hpieces] at habsolute
    cases habsolute

theorem filter_counts_of_isName (h : ∀ n ∈ location, IsName n) :
    location.filter Counts = location :=
  List.filter_eq_self.2 fun n hn => by rw [Counts, (h n hn).isIdle, Bool.not_false]

theorem counted_append (hps : ps ≠ []) (qs : List String) :
    counted (ps ++ qs) = counted ps ++ qs.filter Counts := by
  cases ps with
  | nil => exact absurd rfl hps
  | cons p ps => rw [List.cons_append, counted, counted, List.filter_append, List.cons_append]

/-- What a path leads with has the components of the path. -/
theorem components_eq_counted_lead (root : String) : components root = counted (lead root) := by
  rw [lead]
  split
  · next hempty => rw [hempty, components_empty, counted]
  · next hempty =>
    rw [components_eq hempty]
    split
    · next hslash =>
      obtain ⟨r, rfl⟩ := exists_of_getLast? hslash
      have hr := pieces_append_slash r ""
      rw [String.append_empty, pieces_empty] at hr
      rw [hr, List.dropLast_concat, counted_append (pieces_ne_nil r)]
      exact List.append_nil _
    · rfl

theorem ne_empty_of_pieces (hne : location ≠ []) (h : ∀ n ∈ location, IsName n)
    (hpieces : pieces p = ps ++ location) : p ≠ "" := by
  obtain ⟨rest, n, rfl⟩ : ∃ rest n, location = rest ++ [n] :=
    ⟨_, _, (List.dropLast_append_getLast hne).symm⟩
  rw [← List.append_assoc] at hpieces
  exact (ends_of_pieces (h n (List.mem_append_right rest (List.mem_singleton_self n))) hpieces).1

/-- **A path below a path has its components, and the location's.** -/
theorem components_below (root : String) (hne : location ≠ []) (h : ∀ n ∈ location, IsName n) :
    components (below root location) = components root ++ location := by
  have hpieces := pieces_below root hne h
  rw [components_eq (ne_empty_of_pieces hne h hpieces), hpieces, components_eq_counted_lead root]
  cases hlead : lead root with
  | nil =>
    cases location with
    | nil => exact absurd rfl hne
    | cons n rest =>
      rw [List.nil_append, counted, counted, List.nil_append,
        filter_counts_of_isName (List.forall_mem_cons.1 h).2]
  | cons first rest =>
    rw [counted_append (List.cons_ne_nil first rest), filter_counts_of_isName h]

/-! ## The parent -/

theorem dropIdleEnd_cons (p : String) (ps : List String) :
    dropIdleEnd (p :: ps) = p :: ps.rdropWhile isIdle := rfl

/-- Idle pieces at the end do not count. -/
theorem filter_rdropWhile (ps : List String) :
    (ps.rdropWhile isIdle).filter Counts = ps.filter Counts := by
  induction ps using List.reverseRecOn with
  | nil => rfl
  | append_singleton ps p ih =>
    rw [List.rdropWhile_concat]
    split
    · next hp =>
      rw [ih, List.filter_append, List.filter_cons_of_neg, List.filter_nil, List.append_nil]
      rw [Counts, hp]
      exact Bool.false_ne_true
    · rfl

theorem forall_mem_rdropWhile {P : String → Prop} (h : ∀ q ∈ ps, P q) :
    ∀ q ∈ ps.rdropWhile isIdle, P q :=
  fun q hq => h q ((List.rdropWhile_prefix isIdle ps).subset hq)

/-- A path of the first piece of another and pieces without slashes has the components that these
make, also where the piece in front of the root is all that is left. -/
theorem components_of_first {first : String} {rest above : List String} (hp : p ≠ "")
    (hpieces : pieces p = first :: rest) (hslash : ∀ q ∈ first :: above, '/' ∉ q.toList) :
    components (if (first :: above) == [""] && isAbsolute p then "/" else ofPieces (first :: above))
      = counted (first :: above) := by
  split
  · next hroot =>
    obtain ⟨rfl, rfl⟩ := List.cons.inj (beq_iff_eq.1 (Bool.and_eq_true_iff.1 hroot).1)
    decide
  · next hroot =>
    have hfound := pieces_ofPieces (List.cons_ne_nil first above) hslash
    have hne : ofPieces (first :: above) ≠ "" := by
      intro hempty
      rw [hempty, pieces_empty] at hfound
      obtain ⟨rfl, rfl⟩ := List.cons.inj hfound
      exact hroot (Bool.and_eq_true_iff.2 ⟨rfl, isAbsolute_of_pieces hp hpieces⟩)
    rw [components_eq hne, hfound]

/-- **The parent of a path has all its components but the last.** -/
theorem components_parent? (h : parent? p = some base) :
    components base = (components p).dropLast := by
  rw [parent?] at h
  split at h
  · cases h
  next hnot =>
  have hp : p ≠ "" := by
    rintro rfl
    exact hnot (by decide)
  obtain ⟨first, rest, hpieces⟩ := List.exists_cons_of_ne_nil (pieces_ne_nil p)
  have hslash : ∀ q ∈ first :: rest, '/' ∉ q.toList := fun q hq =>
    not_mem_of_mem_pieces (hpieces ▸ hq)
  obtain ⟨hfirst, hrest⟩ := List.forall_mem_cons.1 hslash
  rw [components_eq hp, hpieces, counted, ← filter_rdropWhile rest]
  rw [hpieces, dropIdleEnd_cons] at h
  have hkept := forall_mem_rdropWhile hrest
  obtain hnil | hne := eq_or_ne (rest.rdropWhile isIdle) []
  · rw [hnil] at h ⊢
    obtain rfl := Option.some.inj h
    exact components_empty
  · -- The last piece that is left counts; what stands before it are the pieces of the parent.
    have hlast := List.rdropWhile_last_not isIdle rest hne
    generalize rest.rdropWhile isIdle = kept at h hkept hne hlast ⊢
    obtain ⟨init, last, rfl⟩ : ∃ init last, kept = init ++ [last] :=
      ⟨_, _, (List.dropLast_append_getLast hne).symm⟩
    rw [List.getLast_append_singleton] at hlast
    have hcounts : [last].filter Counts = [last] := by
      rw [List.filter_singleton, Counts, Bool.eq_false_iff.2 hlast]
      rfl
    rw [← List.cons_append, List.dropLast_concat, dropIdleEnd_cons] at h
    obtain rfl := Option.some.inj h
    have habove : ∀ q ∈ first :: init.rdropWhile isIdle, '/' ∉ q.toList :=
      List.forall_mem_cons.2 ⟨hfirst, forall_mem_rdropWhile fun q hq =>
        hkept q (List.mem_append_left [last] hq)⟩
    rw [components_of_first hp hpieces habove, counted, filter_rdropWhile, List.filter_append,
      hcounts, ← List.cons_append, List.dropLast_concat]

/-- Path that the names of the files in a directory are relative to. -/
abbrev baseOf (root : String) : String := (parent? root).getD root

/-- The components of the parent, or of a path without one, begin those of the path. -/
theorem components_baseOf (root : String) :
    components (baseOf root) <+: components root := by
  rw [baseOf]
  cases h : parent? root with
  | none => exact List.prefix_refl _
  | some base => exact components_parent? h ▸ List.dropLast_prefix _

/-! ## What is left below a base -/

/-- What is left of a path below a base: the end of its text, with the components that the base does
not have. -/
structure IsRelative (base path rel : String) : Prop where
  suffix : rel.toList <:+ path.toList
  components : components path = components base ++ components rel

theorem dropWhile_of_head (hqs : ∀ q ∈ qs.head?, Counts q = true) : qs.dropWhile isIdle = qs := by
  cases qs with
  | nil => rfl
  | cons q qs =>
    have hq := hqs q rfl
    rw [Counts, Bool.not_eq_true', Bool.eq_false_iff] at hq
    exact List.dropWhile_cons_of_neg hq

theorem dropComponents_nil (ps : List String) :
    dropComponents [] false ps = some (ps.dropWhile isIdle) := by
  rw [dropComponents, if_neg Bool.false_ne_true]

theorem dropComponents_idle (bs ps : List String) (hp : isIdle p = true) :
    dropComponents bs false (p :: ps) = dropComponents bs false ps := by
  cases bs with
  | nil => rw [dropComponents_nil, dropComponents_nil, List.dropWhile_cons_of_pos hp]
  | cons b bs =>
    rw [dropComponents, hp]
    exact if_pos rfl

/-- **The components of a base are dropped from the pieces of a path**, with the idle ones among and
behind them.  Pieces that follow are left with the rest. -/
theorem exists_dropComponents {bs : List String} (hbs : bs <+: ps.filter Counts) :
    ∃ rest, rest <:+ ps ∧ ps.filter Counts = bs ++ rest.filter Counts ∧
      (∀ q ∈ rest.head?, Counts q = true) ∧
      ∀ qs, (∀ q ∈ qs.head?, Counts q = true) →
        dropComponents bs false (ps ++ qs) = some (rest ++ qs) := by
  induction ps generalizing bs with
  | nil =>
    obtain rfl := List.prefix_nil.1 hbs
    refine ⟨[], List.suffix_refl [], rfl, nofun, fun qs hqs => ?_⟩
    exact (dropComponents_nil qs).trans (congrArg some (dropWhile_of_head hqs))
  | cons p ps ih =>
    cases hp : isIdle p with
    | true =>
      have hfilter : (p :: ps).filter Counts = ps.filter Counts := by
        rw [List.filter_cons, Counts, hp]
        rfl
      rw [hfilter] at hbs
      obtain ⟨rest, hsuffix, hrest, hhead, hdrop⟩ := ih hbs
      refine ⟨rest, hsuffix.trans (List.suffix_cons p ps), hfilter.trans hrest, hhead,
        fun qs hqs => ?_⟩
      rw [List.cons_append, dropComponents_idle bs _ hp, hdrop qs hqs]
    | false =>
      have hcounts : Counts p = true := by rw [Counts, hp, Bool.not_false]
      have hfilter : (p :: ps).filter Counts = p :: ps.filter Counts :=
        List.filter_cons_of_pos hcounts
      rw [hfilter] at hbs ⊢
      cases bs with
      | nil =>
        have hhead (xs : List String) : ∀ q ∈ (p :: xs).head?, Counts q = true := by
          rintro q ⟨⟩
          exact hcounts
        refine ⟨p :: ps, List.suffix_refl _, hfilter.symm, hhead ps, fun qs _ => ?_⟩
        rw [List.cons_append, dropComponents_nil, dropWhile_of_head (hhead _)]
      | cons b bs =>
        obtain ⟨rfl, hbs'⟩ := List.cons_prefix_cons.1 hbs
        obtain ⟨rest, hsuffix, hrest, hhead, hdrop⟩ := ih hbs'
        refine ⟨rest, hsuffix.trans (List.suffix_cons b ps), by rw [hrest, List.cons_append], hhead,
          fun qs hqs => ?_⟩
        rw [List.cons_append, dropComponents, hp, Bool.false_and, if_neg Bool.false_ne_true,
          if_pos (beq_self_eq_true b), hdrop qs hqs]

/-- The last pieces of a path are the end of its text. -/
theorem suffix_of_pieces (hp : pieces p = ps ++ qs) (hqs : qs ≠ []) :
    (ofPieces qs).toList <:+ p.toList := by
  rw [← ofPieces_pieces p, hp]
  obtain rfl | hps := eq_or_ne ps []
  · exact List.suffix_refl _
  · rw [ofPieces_append hps hqs, String.toList_append]
    exact List.suffix_append _ _

theorem not_mem_of_mem_lead (hq : q ∈ lead root) : '/' ∉ q.toList := by
  rw [lead] at hq
  split at hq
  · cases hq
  · split at hq
    · exact not_mem_of_mem_pieces ((List.dropLast_subset _) hq)
    · exact not_mem_of_mem_pieces hq

theorem counted_of_head (hps : ∀ q ∈ ps.head?, Counts q = true) :
    counted ps = ps.filter Counts := by
  cases ps with
  | nil => rfl
  | cons p ps => rw [counted, List.filter_cons_of_pos (hps p rfl)]

theorem head?_of_isName (h : ∀ n ∈ location, IsName n) :
    ∀ q ∈ location.head?, Counts q = true := fun q hq => by
  rw [Counts, (h q (List.mem_of_head? hq)).isIdle, Bool.not_false]

theorem head?_append_of_isName (hps : ∀ q ∈ ps.head?, Counts q = true)
    (h : ∀ n ∈ location, IsName n) : ∀ q ∈ (ps ++ location).head?, Counts q = true := by
  cases ps with
  | nil => exact head?_of_isName h
  | cons p ps => exact hps

/-- **Of all paths below a path the same pieces are left**, below a base of which the components
begin those of the path. -/
theorem exists_heading (hbase : components base <+: components root) :
    ∃ heading : List String, ∀ location, location ≠ [] → (∀ n ∈ location, IsName n) →
      relativeTo? base (below root location) = some (ofPieces (heading ++ location)) ∧
        IsRelative base (below root location) (ofPieces (heading ++ location)) := by
  rw [components_eq_counted_lead root] at hbase
  cases hcomponents : components base with
  | nil =>
    refine ⟨lead root, fun location hne h => ?_⟩
    rw [← pieces_below root hne h, ofPieces_pieces]
    refine ⟨?_, List.suffix_refl _, ?_⟩
    · rw [relativeTo?, hcomponents, dropComponents, if_pos rfl, Option.map_some, ofPieces_pieces]
    · rw [hcomponents, List.nil_append]
  | cons b bs =>
    rw [hcomponents] at hbase
    cases hlead : lead root with
    | nil =>
      rw [hlead] at hbase
      cases List.prefix_nil.1 hbase
    | cons first ps =>
      rw [hlead, counted] at hbase
      obtain ⟨rfl, hbs⟩ := List.cons_prefix_cons.1 hbase
      obtain ⟨rest, ⟨dropped, rfl⟩, hrest, hhead, hdrop⟩ := exists_dropComponents hbs
      refine ⟨rest, fun location hne h => ?_⟩
      have hrel : pieces (ofPieces (rest ++ location)) = rest ++ location :=
        pieces_ofPieces (List.append_ne_nil_of_right_ne_nil rest hne) fun q hq => by
          rcases List.mem_append.1 hq with hq | hq
          · have hmem : q ∈ lead root :=
              hlead ▸ List.mem_cons_of_mem b (List.mem_append_right dropped hq)
            exact not_mem_of_mem_lead hmem
          · exact (h q hq).slash_notMem
      have hpath : pieces (below root location) = (b :: dropped) ++ (rest ++ location) := by
        rw [pieces_below root hne h, hlead, List.cons_append, List.append_assoc, List.cons_append]
      refine ⟨?_, suffix_of_pieces hpath (List.append_ne_nil_of_right_ne_nil rest hne), ?_⟩
      · rw [relativeTo?, hcomponents, pieces_below root hne h, hlead, List.cons_append,
          dropComponents, Bool.not_true, Bool.and_false, if_neg Bool.false_ne_true,
          if_pos (beq_self_eq_true b), hdrop location (head?_of_isName h), Option.map_some]
      · rw [components_below root hne h, components_eq_counted_lead root, hlead, counted, hrest,
          hcomponents, components_eq (ne_empty_of_pieces hne h hrel), hrel,
          counted_of_head (head?_append_of_isName hhead h), List.filter_append,
          filter_counts_of_isName h]
        simp only [List.cons_append, List.append_assoc]

end PinKeeper.Path

/-! ## Where a name leads -/

namespace PinKeeper.Disk

variable {d : Disk} {name : String} {es : List (String × Entry)} {found : Found}
  {content : Content}

theorem getLast?_of_isName (h : Path.IsName name) :
    ¬(name.toList.getLast? == some '/') = true := fun hslash =>
  h.slash_notMem (List.mem_of_getLast? (beq_iff_eq.1 hslash))

theorem steps_of_isName (h : Path.IsName name) : steps name = [name] := by
  have hempty : (!name.isEmpty) = true := by
    rw [Bool.not_eq_true', Bool.eq_false_iff]
    exact mt String.isEmpty_iff.1 h.ne_empty
  rw [steps, if_neg (getLast?_of_isName h), h.pieces]
  exact List.filter_cons_of_pos hempty

/-- A name leads to where it leads as the only step from the working directory. -/
theorem locate_of_walks (h : Path.IsName name)
    (hwalk : Walks d.root maxLinks d.workDir.reverse [name] found) :
    d.locate name = .ok found := by
  rw [locate, if_neg (mt String.isEmpty_iff.1 h.ne_empty), h.isAbsolute, steps_of_isName h]
  exact hwalk.walk_eq

/-- A name leads to what the working directory holds under it. -/
theorem locate_of_isName {e : Entry} (h : Path.IsName name)
    (hes : d.root.at? d.workDir = some (.directory es)) (he : es.lookup name = some e)
    (hlink : ∀ target, e ≠ .link target) : d.locate name = .ok (.entry (d.workDir ++ [name])) := by
  rw [← List.reverse_reverse d.workDir] at hes ⊢
  rw [← List.reverse_cons]
  exact locate_of_walks h (.down hes ⟨h.ne_point, h.ne_points⟩ he hlink .done)

/-- A name that the working directory does not hold is free there. -/
theorem locate_free (h : Path.IsName name) (hes : d.root.at? d.workDir = some (.directory es))
    (hfree : es.lookup name = none) : d.locate name = .ok (.vacant d.workDir name) := by
  rw [← List.reverse_reverse d.workDir] at hes ⊢
  exact locate_of_walks h (.free hes ⟨h.ne_point, h.ne_points⟩ hfree)

theorem entry_free (h : Path.IsName name) (hes : d.root.at? d.workDir = some (.directory es))
    (hfree : es.lookup name = none) : d.entry name = .error .notFound := by
  rw [entry, find, locate_free h hes hfree]
  rfl

/-- A file is made under a free name. -/
theorem write_free (h : Path.IsName name) (hes : d.root.at? d.workDir = some (.directory es))
    (hfree : es.lookup name = none) :
    d.write name content = .ok (d.put (d.workDir ++ [name]) (.file content defaultMode)) := by
  rw [write, withoutEndSlashes_eq_self (getLast?_of_isName h), locate_free h hes hfree]
  exact if_neg (getLast?_of_isName h)

end PinKeeper.Disk
