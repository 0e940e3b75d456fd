import Mathlib.Data.List.Nodup
import PinKeeper.Files.Walk
import PinKeeper.Proofs.Files.Path
import PinKeeper.Proofs.Files.Tree

/-!
# Proofs/Files/Walk — a walk finds every file of a tree once

The files of a tree have locations: `Entry.located` lists them in the order of the walk, and what it
lists is exactly what stands there (`Entry.mem_located`), once each (`Entry.nodup_located`) and with
all bytes of the tree (`Entry.bytesOf_located`).  The walk places these below its root, unless there
is a barred directory in the tree: then it ends with the reason of the first one that it comes to
(`Walk.filesUnder_eq`, `Walk.exists_files_iff`).  It goes from each directory to those in it, which
a walk does as well that keeps a stack of directories (`Walk.visits_filesUnder`); it follows no
link, so the tree bounds it.  What stands where does not go by the order that directories list their
entries in (`Entry.Relisted.at?_eq_some_iff`), nor do names once they are sorted
(`Walk.map_name_mergeSort_of_perm`).
-/

namespace PinKeeper

namespace Entry

open PinKeeper.Path

/-! ## Directory trees -/

/-- Tree in which every directory holds its entries under different names. -/
def Proper (e : Entry) : Prop :=
  ∀ location es, e.at? location = some (.directory es) →
    (es.map Prod.fst).Nodup ∧ ∀ x ∈ es, IsName x.1

section Proper

variable {e : Entry} {es : List (String × Entry)} {name : String} {location : List String}

theorem proper_of_isDirectory_eq_false (h : e.isDirectory = false) : e.Proper := by
  intro location es hat
  cases location with
  | nil =>
    obtain rfl := Option.some.inj hat
    cases h
  | cons name rest =>
    cases e with
    | directory es => cases h
    | _ => cases hat

theorem mem_of_lookup {β : Type} {es : List (String × β)} {x : β}
    (h : es.lookup name = some x) : (name, x) ∈ es := by
  obtain ⟨before, after, rfl, -⟩ := List.lookup_eq_some_iff.1 h
  exact List.mem_append_right before List.mem_cons_self

theorem lookup_of_mem {β : Type} {x : β} : ∀ {es : List (String × β)}, (es.map Prod.fst).Nodup →
    (name, x) ∈ es → es.lookup name = some x
  | (n, y) :: es, hnodup, hmem => by
    obtain ⟨hn, hes⟩ := List.nodup_cons.1 hnodup
    rcases List.mem_cons.1 hmem with heq | hmem
    · obtain ⟨rfl, rfl⟩ := Prod.mk.inj heq
      exact List.lookup_cons_self
    · have hname : name ∈ es.map Prod.fst := List.mem_map_of_mem (f := Prod.fst) hmem
      have hne : name ≠ n := fun heq => hn (heq ▸ hname)
      rw [List.lookup_cons, beq_false_of_ne hne]
      exact lookup_of_mem hes hmem

theorem proper_directory (hnodup : (es.map Prod.fst).Nodup) (hname : ∀ x ∈ es, IsName x.1)
    (h : ∀ x ∈ es, x.2.Proper) : (directory es).Proper := by
  intro location fs hat
  cases location with
  | nil =>
    obtain rfl := directory.inj (Option.some.inj hat)
    exact ⟨hnodup, hname⟩
  | cons name rest =>
    obtain ⟨x, hx, hat⟩ := Option.bind_eq_some_iff.1 hat
    exact h _ (mem_of_lookup hx) rest fs hat

theorem Proper.nodup (h : (directory es).Proper) : (es.map Prod.fst).Nodup := (h [] es rfl).1

theorem Proper.isName (h : (directory es).Proper) (hx : (name, e) ∈ es) : IsName name :=
  (h [] es rfl).2 _ hx

theorem Proper.lookup_eq_some_iff (h : (directory es).Proper) :
    es.lookup name = some e ↔ (name, e) ∈ es :=
  ⟨mem_of_lookup, lookup_of_mem h.nodup⟩

theorem Proper.of_mem (h : (directory es).Proper) (hx : (name, e) ∈ es) : e.Proper := by
  intro location fs hat
  refine h (name :: location) fs ?_
  rw [at?, h.lookup_eq_some_iff.2 hx]
  exact hat

/-- What stands in a tree stands under names. -/
theorem Proper.isName_of_at? {x : Entry} (h : e.Proper) (hat : e.at? location = some x) :
    ∀ n ∈ location, IsName n := by
  induction location generalizing e with
  | nil => exact List.forall_mem_nil _
  | cons name rest ih =>
    cases e with
    | directory es =>
      obtain ⟨y, hy, hat⟩ := Option.bind_eq_some_iff.1 hat
      have hmem := mem_of_lookup hy
      exact List.forall_mem_cons.2 ⟨h.isName hmem, ih (h.of_mem hmem) hat⟩
    | _ => cases hat

end Proper

/-! ## The files of a tree -/

/-- Files that stand directly in a directory, with their locations. -/
def locatedIn (es : List (String × Entry)) : List (List String × Content) :=
  es.filterMap fun (name, e) =>
    match e with
    | .file content _ => some ([name], content)
    | _ => none

mutual

/-- Files below an entry with their locations, in the order of the walk. -/
def located : Entry → List (List String × Content)
  | .directory es => locatedIn es ++ locatedBelow es
  | _ => []

/-- Files of the directories among some entries, with their locations. -/
def locatedBelow : List (String × Entry) → List (List String × Content)
  | [] => []
  | (name, e) :: es => locatedBelow es ++ (located e).map fun x => (name :: x.1, x.2)

end

section Located

variable {e : Entry} {es : List (String × Entry)} {location : List String} {content : Content}

theorem mem_locatedIn : (location, content) ∈ locatedIn es ↔
    ∃ name mode, (name, file content mode) ∈ es ∧ location = [name] := by
  rw [locatedIn, List.mem_filterMap]
  constructor
  · rintro ⟨⟨name, e⟩, hmem, hfile⟩
    cases e with
    | file c mode =>
      obtain ⟨rfl, rfl⟩ := Prod.mk.inj (Option.some.inj hfile)
      exact ⟨name, mode, hmem, rfl⟩
    | _ => cases hfile
  · rintro ⟨name, mode, hmem, rfl⟩
    exact ⟨_, hmem, rfl⟩

theorem locatedBelow_eq_flatMap (es : List (String × Entry)) : locatedBelow es =
    es.reverse.flatMap fun x => (located x.2).map fun y => (x.1 :: y.1, y.2) := by
  induction es with
  | nil => rfl
  | cons x es ih =>
    rw [locatedBelow, ih, List.reverse_cons, List.flatMap_append, List.flatMap_singleton]

theorem mem_locatedBelow : (location, content) ∈ locatedBelow es ↔
    ∃ name e rest, (name, e) ∈ es ∧ (rest, content) ∈ located e ∧ location = name :: rest := by
  rw [locatedBelow_eq_flatMap, List.mem_flatMap]
  constructor
  · rintro ⟨⟨name, e⟩, hmem, hlocated⟩
    obtain ⟨⟨rest, c⟩, hrest, heq⟩ := List.mem_map.1 hlocated
    obtain ⟨rfl, rfl⟩ := Prod.mk.inj heq
    exact ⟨name, e, rest, List.mem_reverse.1 hmem, hrest, rfl⟩
  · rintro ⟨name, e, rest, hmem, hrest, rfl⟩
    exact ⟨(name, e), List.mem_reverse.2 hmem, List.mem_map.2 ⟨_, hrest, rfl⟩⟩

theorem ne_nil_of_mem_located (hmem : (location, content) ∈ e.located) : location ≠ [] := by
  rintro rfl
  cases e with
  | directory es =>
    rcases List.mem_append.1 hmem with hmem | hmem
    · obtain ⟨_, _, _, heq⟩ := mem_locatedIn.1 hmem
      cases heq
    · obtain ⟨_, _, _, _, _, heq⟩ := mem_locatedBelow.1 hmem
      cases heq
  | _ => cases hmem

/-- **The files below an entry are those that stand at a location below it.** -/
theorem mem_located (h : e.Proper) : (location, content) ∈ e.located ↔
    location ≠ [] ∧ ∃ mode, e.at? location = some (.file content mode) := by
  induction location generalizing e with
  | nil => exact ⟨fun hmem => absurd rfl (ne_nil_of_mem_located hmem), fun h => absurd rfl h.1⟩
  | cons name rest ih =>
    cases e with
    | directory es =>
      rw [located, List.mem_append, mem_locatedIn, mem_locatedBelow, at?]
      constructor
      · rintro (⟨_, mode, hmem, heq⟩ | ⟨_, e, _, hmem, hrest, heq⟩)
        · obtain ⟨rfl, rfl⟩ := List.cons.inj heq
          refine ⟨List.cons_ne_nil _ _, mode, ?_⟩
          rw [h.lookup_eq_some_iff.2 hmem]
          rfl
        · obtain ⟨rfl, rfl⟩ := List.cons.inj heq
          obtain ⟨-, mode, hat⟩ := (ih (h.of_mem hmem)).1 hrest
          refine ⟨List.cons_ne_nil _ _, mode, ?_⟩
          rw [h.lookup_eq_some_iff.2 hmem]
          exact hat
      · rintro ⟨-, mode, hat⟩
        obtain ⟨e, he, hat⟩ := Option.bind_eq_some_iff.1 hat
        have hmem := h.lookup_eq_some_iff.1 he
        by_cases hrest : rest = []
        · subst hrest
          obtain rfl := Option.some.inj hat
          exact .inl ⟨name, mode, hmem, rfl⟩
        · exact .inr ⟨name, e, rest, hmem, (ih (h.of_mem hmem)).2 ⟨hrest, mode, hat⟩, rfl⟩
    | _ =>
      refine iff_of_false List.not_mem_nil ?_
      rintro ⟨-, mode, hat⟩
      cases hat

/-- There is a file at a location. -/
def HasFile (e : Entry) (location : List String) : Prop :=
  ∃ content mode, e.at? location = some (.file content mode)

/-- A directory is no file itself. -/
theorem HasFile.ne_nil (h : (directory es).HasFile location) : location ≠ [] := by
  rintro rfl
  obtain ⟨content, mode, hat⟩ := h
  cases hat

theorem mem_map_fst_located (h : (directory es).Proper) :
    location ∈ (directory es).located.map Prod.fst ↔ (directory es).HasFile location := by
  rw [List.mem_map]
  constructor
  · rintro ⟨⟨location, content⟩, hmem, rfl⟩
    obtain ⟨-, mode, hat⟩ := (mem_located h).1 hmem
    exact ⟨content, mode, hat⟩
  · rintro ⟨content, mode, hat⟩
    have hne : location ≠ [] := HasFile.ne_nil ⟨content, mode, hat⟩
    exact ⟨(location, content), (mem_located h).2 ⟨hne, mode, hat⟩, rfl⟩

theorem nodup_locatedIn (h : (es.map Prod.fst).Nodup) : ((locatedIn es).map Prod.fst).Nodup := by
  rw [List.Nodup, List.pairwise_map, locatedIn, List.pairwise_filterMap]
  refine (List.pairwise_map.1 h).imp fun {x y} hxy a ha b hb hab => hxy ?_
  obtain ⟨name, e⟩ := x
  obtain ⟨name', e'⟩ := y
  cases e <;> cases ha
  cases e' <;> cases hb
  exact List.singleton_inj.1 hab

/-- Directories of different names have files at different locations. -/
theorem nodup_locatedBelow (h : (es.map Prod.fst).Nodup)
    (hfiles : ∀ x ∈ es, (x.2.located.map Prod.fst).Nodup) :
    ((locatedBelow es).map Prod.fst).Nodup := by
  have hhead {x : String × Entry} {place : List String}
      (hplace : place ∈ (x.2.located.map fun y => (x.1 :: y.1, y.2)).map Prod.fst) :
      place.head? = some x.1 := by
    simp only [List.map_map, List.mem_map, Function.comp_apply] at hplace
    obtain ⟨y, -, rfl⟩ := hplace
    rfl
  rw [locatedBelow_eq_flatMap, List.map_flatMap, List.nodup_flatMap]
  constructor
  · intro x hx
    have hcons := (hfiles x (List.mem_reverse.1 hx)).map (List.cons_injective (a := x.1))
    rw [List.map_map] at hcons ⊢
    exact hcons
  · refine List.pairwise_reverse.2 ((List.pairwise_map.1 h).imp fun {x y} hxy place hy hx => ?_)
    exact hxy (Option.some.inj ((hhead hx).symm.trans (hhead hy)))

/-- **No location comes twice.** -/
theorem nodup_located : ∀ e : Entry, e.Proper → (e.located.map Prod.fst).Nodup
  | .directory es, h => by
    have hfiles : ∀ x ∈ es, (x.2.located.map Prod.fst).Nodup := fun x hx =>
      nodup_located x.2 (h.of_mem hx)
    rw [located, List.map_append, List.nodup_append]
    refine ⟨nodup_locatedIn h.nodup, nodup_locatedBelow h.nodup hfiles, fun a ha b hb hab => ?_⟩
    obtain ⟨⟨place, content⟩, hin, rfl⟩ := List.mem_map.1 ha
    obtain ⟨⟨place', content'⟩, hbelow, rfl⟩ := List.mem_map.1 hb
    obtain ⟨name, mode, -, rfl⟩ := mem_locatedIn.1 hin
    obtain ⟨name', e, rest, -, hrest, rfl⟩ := mem_locatedBelow.1 hbelow
    exact ne_nil_of_mem_located hrest (List.cons.inj hab).2.symm
  | .file .., _ => List.nodup_nil
  | .link _, _ => List.nodup_nil
  | .device, _ => List.nodup_nil
  | .barred _, _ => List.nodup_nil
termination_by e => sizeOf e
decreasing_by
  have hlt := List.sizeOf_lt_of_mem hx
  obtain ⟨name, e⟩ := x
  simp only [Prod.mk.sizeOf_spec, directory.sizeOf_spec] at hlt ⊢
  omega

end Located

/-! ## Bytes of a tree -/

mutual

/-- Bytes of all files of a tree. -/
def bytes : Entry → Nat
  | .file content _ => content.length
  | .directory es => bytesIn es
  | .link _ => 0
  | .device => 0
  | .barred _ => 0

/-- Bytes of all files of some trees. -/
def bytesIn : List (String × Entry) → Nat
  | [] => 0
  | (_, e) :: es => e.bytes + bytesIn es

end

/-- Bytes of located files. -/
def bytesOf (xs : List (List String × Content)) : Nat := sumOf (xs.map fun x => x.2.length)

theorem bytesOf_append (xs ys : List (List String × Content)) :
    bytesOf (xs ++ ys) = bytesOf xs + bytesOf ys := by
  rw [bytesOf, List.map_append, sumOf_append, ← bytesOf, ← bytesOf]

/-- **The located files of a directory have all its bytes.** -/
theorem bytesOf_located : ∀ es : List (String × Entry),
    bytesOf (locatedIn es ++ locatedBelow es) = bytesIn es
  | [] => rfl
  | (name, e) :: es => by
    have hrest := bytesOf_located es
    have hbelow : bytesOf (e.located.map fun x => (name :: x.1, x.2)) = bytesOf e.located := by
      rw [bytesOf, List.map_map]
      rfl
    rw [bytesOf_append] at hrest
    rw [locatedBelow, ← List.append_assoc, bytesOf_append, bytesOf_append, hbelow, bytesIn,
      ← hrest]
    cases e with
    | file content mode =>
      change content.length + bytesOf (locatedIn es) + bytesOf (locatedBelow es) + 0
        = content.length + _
      rw [Nat.add_zero, Nat.add_assoc]
    | directory fs =>
      have hfiles := bytesOf_located fs
      rw [located, hfiles, bytes, Nat.add_comm (bytesIn fs)]
      rfl
    | link target => rw [bytes, Nat.zero_add]; rfl
    | device => rw [bytes, Nat.zero_add]; rfl
    | barred why => rw [bytes, Nat.zero_add]; rfl

/-! ## Barred directories -/

/-- No directory of a tree is barred. -/
def Readable (e : Entry) : Prop := ∀ location why, e.at? location ≠ some (.barred why)

mutual

/-- Why the first directory is barred that is, in the order of the walk. -/
def obstacle? : Entry → Option FileError
  | .directory es => obstacleBelow? es
  | .barred why => some why
  | _ => none

/-- Why the first directory is barred among some entries and below them. -/
def obstacleBelow? : List (String × Entry) → Option FileError
  | [] => none
  | (_, e) :: es => (obstacleBelow? es).or (obstacle? e)

end

section Readable

variable {e : Entry} {es : List (String × Entry)} {why : FileError}

theorem obstacleBelow?_eq_none_iff :
    obstacleBelow? es = none ↔ ∀ x ∈ es, x.2.obstacle? = none := by
  induction es with
  | nil => exact iff_of_true rfl (List.forall_mem_nil _)
  | cons x es ih =>
    rw [obstacleBelow?, Option.or_eq_none_iff, ih, List.forall_mem_cons, and_comm]

/-- What bars a walk among some entries is below one of them. -/
theorem exists_mem_of_obstacleBelow? (h : obstacleBelow? es = some why) :
    ∃ x ∈ es, x.2.obstacle? = some why := by
  induction es with
  | nil => cases h
  | cons x es ih =>
    rw [obstacleBelow?, Option.or_eq_some_iff] at h
    obtain h | ⟨-, h⟩ := h
    · exact (ih h).imp fun _ hx => ⟨List.mem_cons_of_mem x hx.1, hx.2⟩
    · exact ⟨x, List.mem_cons_self, h⟩

/-- A tree without an obstacle is readable. -/
theorem readable_of_obstacle? (h : e.obstacle? = none) : e.Readable := by
  intro location why hat
  induction location generalizing e with
  | nil =>
    obtain rfl := Option.some.inj hat
    cases h
  | cons name rest ih =>
    cases e with
    | directory es =>
      obtain ⟨x, hx, hat⟩ := Option.bind_eq_some_iff.1 hat
      rw [obstacle?, obstacleBelow?_eq_none_iff] at h
      exact ih (h _ (mem_of_lookup hx)) hat
    | _ => cases hat

/-- **An obstacle is a barred directory** of the tree. -/
theorem exists_at?_of_obstacle? : ∀ e : Entry, e.Proper → e.obstacle? = some why →
    ∃ location, e.at? location = some (.barred why)
  | .directory es, hproper, h => by
    rw [obstacle?] at h
    obtain ⟨⟨name, x⟩, hx, hwhy⟩ := exists_mem_of_obstacleBelow? h
    obtain ⟨rest, hat⟩ := exists_at?_of_obstacle? x (hproper.of_mem hx) hwhy
    refine ⟨name :: rest, ?_⟩
    rw [at?, hproper.lookup_eq_some_iff.2 hx]
    exact hat
  | .barred why', _, h => ⟨[], congrArg some (congrArg barred (Option.some.inj h))⟩
  | .file .., _, h => nomatch h
  | .link _, _, h => nomatch h
  | .device, _, h => nomatch h
termination_by e => sizeOf e
decreasing_by
  have hlt := List.sizeOf_lt_of_mem hx
  simp only [Prod.mk.sizeOf_spec, directory.sizeOf_spec] at hlt ⊢
  omega

theorem Readable.obstacle?_eq_none (h : e.Readable) (hproper : e.Proper) : e.obstacle? = none := by
  cases hobstacle : e.obstacle? with
  | none => rfl
  | some why =>
    obtain ⟨location, hat⟩ := exists_at?_of_obstacle? e hproper hobstacle
    exact absurd hat (h location why)

end Readable

/-! ## Other listings of a tree -/

/-- The same tree, with directories that list their entries in another order. -/
inductive Relisted : Entry → Entry → Prop
  | refl (e : Entry) : Relisted e e
  | shuffled {es es' : List (String × Entry)} (h : es.Perm es') :
      Relisted (.directory es) (.directory es')
  | within {before after : List (String × Entry)} {name : String} {e e' : Entry}
      (h : Relisted e e') :
      Relisted (.directory (before ++ (name, e) :: after))
        (.directory (before ++ (name, e') :: after))
  | trans {e e' e'' : Entry} (h : Relisted e e') (h' : Relisted e' e'') : Relisted e e''

section Relisted

variable {e e' : Entry}

theorem Relisted.proper (h : Relisted e e') (hproper : e.Proper) : e'.Proper := by
  induction h with
  | refl => exact hproper
  | shuffled hperm =>
    have hnodup := (hperm.map Prod.fst).nodup_iff.1 hproper.nodup
    exact proper_directory hnodup (fun x hx => hproper.isName (hperm.mem_iff.2 hx)) fun x hx =>
      hproper.of_mem (hperm.mem_iff.2 hx)
  | @within before after name e e' _ ih =>
    have hnames : (before ++ (name, e') :: after).map Prod.fst
        = (before ++ (name, e) :: after).map Prod.fst := by
      rw [List.map_append, List.map_append]
      rfl
    have hmem {x : String × Entry} (hx : x ∈ before ++ (name, e') :: after) :
        x = (name, e') ∨ x ∈ before ++ (name, e) :: after := by
      rcases List.mem_append.1 hx with hx | hx
      · exact .inr (List.mem_append_left _ hx)
      · exact (List.mem_cons.1 hx).imp_right fun hx =>
          List.mem_append_right before (List.mem_cons_of_mem _ hx)
    have hself : (name, e) ∈ before ++ (name, e) :: after :=
      List.mem_append_right before List.mem_cons_self
    refine proper_directory (hnames ▸ hproper.nodup) (fun x hx => ?_) fun x hx => ?_
    · rcases hmem hx with rfl | hx
      · exact hproper.isName hself
      · exact hproper.isName hx
    · rcases hmem hx with rfl | hx
      · exact ih (hproper.of_mem hself)
      · exact hproper.of_mem hx
  | trans _ _ ih ih' => exact ih' (ih hproper)

/-- **Another listing has the same entries at the same locations**, but for the directories that it
lists. -/
theorem Relisted.at?_eq_some_iff (h : Relisted e e') (hproper : e.Proper) {location : List String}
    {x : Entry} (hx : ∀ es, x ≠ directory es) :
    e.at? location = some x ↔ e'.at? location = some x := by
  have hroot {es : List (String × Entry)} : (directory es).at? [] ≠ some x := fun hat =>
    hx es (Option.some.inj hat).symm
  induction h generalizing location with
  | refl => rfl
  | @shuffled es es' hperm =>
    cases location with
    | nil => exact iff_of_false hroot hroot
    | cons name rest =>
      have hproper' := (Relisted.shuffled hperm).proper hproper
      have hlookup : es.lookup name = es'.lookup name := Option.ext fun y => by
        rw [hproper.lookup_eq_some_iff, hproper'.lookup_eq_some_iff, hperm.mem_iff]
      rw [at?, at?, hlookup]
  | @within before after name e e' _ ih =>
    cases location with
    | nil => exact iff_of_false hroot hroot
    | cons n rest =>
      have hself : (name, e) ∈ before ++ (name, e) :: after :=
        List.mem_append_right before List.mem_cons_self
      rw [at?, at?, List.lookup_append, List.lookup_append, List.lookup_cons, List.lookup_cons]
      cases before.lookup n with
      | some y => rfl
      | none =>
        cases n == name with
        | true => exact ih (hproper.of_mem hself)
        | false => rfl
  | trans h _ ih ih' => exact (ih hproper).trans (ih' (h.proper hproper))

theorem Relisted.readable (h : Relisted e e') (hproper : e.Proper) (hread : e.Readable) :
    e'.Readable := fun location why hat =>
  hread location why ((h.at?_eq_some_iff (x := .barred why) hproper nofun).2 hat)

end Relisted

end Entry

namespace Walk

open PinKeeper.Path Entry

section Listing

variable {base path : String} {es : List (String × Entry)}

/-! ## What the walk gives, by location -/

/-- File at a location below a path, as it is to be uploaded. -/
def placed (base path : String) (x : List String × Content) : LocalFile :=
  ⟨below path x.1, uploadName base (below path x.1), x.2⟩

theorem filesOf_eq (base path : String) (es : List (String × Entry)) :
    filesOf base path es = (locatedIn es).map (placed base path) := by
  rw [filesOf, locatedIn, List.map_filterMap]
  congr 1
  funext x
  obtain ⟨name, e⟩ := x
  cases e <;> rfl

/-- Files that are found, unless there is an obstacle. -/
def unlessBarred (obstacle? : Option FileError) (fs : List LocalFile) :
    Except FileError (List LocalFile) :=
  match obstacle? with
  | some why => .error why
  | none => .ok fs

/-- What one walk finds, and then another. -/
def andThen (r r' : Except FileError (List LocalFile)) : Except FileError (List LocalFile) := do
  return (← r) ++ (← r')

theorem andThen_unlessBarred (o o' : Option FileError) (fs fs' : List LocalFile) :
    andThen (unlessBarred o fs) (unlessBarred o' fs') = unlessBarred (o.or o') (fs ++ fs') := by
  cases o <;> cases o' <;> rfl

theorem filesUnder_directory (base path : String) (es : List (String × Entry)) :
    filesUnder base path (.directory es)
      = andThen (.ok (filesOf base path es)) (filesBelow base path es) := by
  rw [filesUnder]
  rfl

theorem filesBelow_cons (base path name : String) (e : Entry) (es : List (String × Entry)) :
    filesBelow base path ((name, e) :: es)
      = andThen (filesBelow base path es) (filesUnder base (join path name) e) := by
  rw [filesBelow]
  rfl

mutual

/-- **The walk gives the located files**, each as it is to be uploaded, or the obstacle that it
comes to. -/
theorem filesUnder_eq (base path : String) : ∀ e : Entry,
    filesUnder base path e = unlessBarred e.obstacle? (e.located.map (placed base path))
  | .directory es => by
    rw [filesUnder_directory, filesBelow_eq, filesOf_eq, obstacle?, located, List.map_append]
    exact andThen_unlessBarred none _ _ _
  | .file .. => rfl
  | .link _ => rfl
  | .device => rfl
  | .barred _ => rfl

theorem filesBelow_eq (base path : String) : ∀ es : List (String × Entry),
    filesBelow base path es
      = unlessBarred (obstacleBelow? es) ((locatedBelow es).map (placed base path))
  | [] => rfl
  | (name, e) :: es => by
    rw [filesBelow_cons, filesBelow_eq base path es, filesUnder_eq base (join path name) e,
      andThen_unlessBarred, obstacleBelow?, locatedBelow, List.map_append, List.map_map]
    rfl

end

/-! ## The walk with a stack -/

/-- Directories that stand directly in a directory, with their paths. -/
def directoriesOf (path : String) (es : List (String × Entry)) : List (String × Entry) :=
  (es.filter fun x => x.2.isDirectory).map fun x => (join path x.1, x.2)

/-- A walk that keeps the directories to be visited on a stack.  A visit gives the files of the
directory and puts its directories on the stack, the last one on top; a visit to a barred directory
ends the walk. -/
inductive Visits (base : String) :
    List (String × Entry) → Except FileError (List LocalFile) → Prop
  | done : Visits base [] (.ok [])
  | visit {path : String} {es stack : List (String × Entry)}
      {found : Except FileError (List LocalFile)}
      (h : Visits base ((directoriesOf path es).reverse ++ stack) found) :
      Visits base ((path, .directory es) :: stack) (andThen (.ok (filesOf base path es)) found)
  | barred {path : String} {why : FileError} {stack : List (String × Entry)} :
      Visits base ((path, .barred why) :: stack) (.error why)

theorem andThen_assoc (r r' r'' : Except FileError (List LocalFile)) :
    andThen (andThen r r') r'' = andThen r (andThen r' r'') := by
  cases r with
  | error e => rfl
  | ok fs =>
    cases r' with
    | error e => rfl
    | ok fs' =>
      cases r'' with
      | error e => rfl
      | ok fs'' => exact congrArg Except.ok (List.append_assoc fs fs' fs'')

theorem andThen_nil (r : Except FileError (List LocalFile)) : andThen r (.ok []) = r := by
  cases r with
  | error e => rfl
  | ok fs => exact congrArg Except.ok (List.append_nil fs)

theorem nil_andThen (r : Except FileError (List LocalFile)) : andThen (.ok []) r = r := by
  cases r <;> rfl

theorem Visits.append {stack stack' : List (String × Entry)}
    {found found' : Except FileError (List LocalFile)} (h : Visits base stack found)
    (h' : Visits base stack' found') : Visits base (stack ++ stack') (andThen found found') := by
  induction h with
  | done => rwa [nil_andThen]
  | visit _ ih =>
    rw [List.cons_append, andThen_assoc]
    rw [List.append_assoc] at ih
    exact .visit ih
  | barred => exact .barred

mutual

/-- **A walk with a stack comes to an end**, with the files of the directory on it or with the
obstacle. -/
theorem visits_filesUnder (base path : String) : ∀ e : Entry, e.isDirectory = true →
    Visits base [(path, e)] (filesUnder base path e)
  | .directory es, _ => by
    rw [filesUnder_directory]
    refine .visit ?_
    rw [List.append_nil]
    exact visits_filesBelow base path es
  | .barred _, _ => .barred

theorem visits_filesBelow (base path : String) : ∀ es : List (String × Entry),
    Visits base (directoriesOf path es).reverse (filesBelow base path es)
  | [] => .done
  | (name, e) :: es => by
    have hrest := visits_filesBelow base path es
    rw [filesBelow_cons, directoriesOf]
    cases hdirectory : e.isDirectory with
    | true =>
      rw [List.filter_cons_of_pos (a := (name, e)) hdirectory, List.map_cons, List.reverse_cons]
      exact hrest.append (visits_filesUnder base (join path name) e hdirectory)
    | false =>
      have hnone : filesUnder base (join path name) e = .ok [] := by
        cases e <;> first | rfl | cases hdirectory
      rw [List.filter_cons_of_neg (a := (name, e)) (Bool.eq_false_iff.1 hdirectory), hnone,
        andThen_nil]
      exact hrest

end

end Listing

/-! ## The order of the names -/

theorem nameLe_iff {a b : LocalFile} : nameLe a b = true ↔ a.name ≤ b.name := by
  rw [nameLe, decide_eq_true_iff, String.not_lt]

theorem nameLe_trans (a b c : LocalFile) (hab : nameLe a b = true) (hbc : nameLe b c = true) :
    nameLe a c = true :=
  nameLe_iff.2 (String.le_trans (nameLe_iff.1 hab) (nameLe_iff.1 hbc))

theorem nameLe_total (a b : LocalFile) : (nameLe a b || nameLe b a) = true := by
  rw [Bool.or_eq_true, nameLe_iff, nameLe_iff]
  exact String.le_total _ _

theorem sorted_mergeSort (fs : List LocalFile) :
    ((fs.mergeSort nameLe).map (·.name)).Pairwise (· ≤ ·) :=
  List.pairwise_map.2 ((List.pairwise_mergeSort nameLe_trans nameLe_total fs).imp nameLe_iff.1)

/-- **The names that are sorted do not go by the order before.** -/
theorem map_name_mergeSort_of_perm {fs fs' : List LocalFile} (h : fs.Perm fs') :
    (fs.mergeSort nameLe).map (·.name) = (fs'.mergeSort nameLe).map (·.name) := by
  have hperm : ((fs.mergeSort nameLe).map (·.name)).Perm ((fs'.mergeSort nameLe).map (·.name)) :=
    (((List.mergeSort_perm fs nameLe).trans h).trans (List.mergeSort_perm fs' nameLe).symm).map _
  exact hperm.eq_of_pairwise (fun _ _ _ _ => String.le_antisymm) (sorted_mergeSort fs)
    (sorted_mergeSort fs')

/-! ## The files of a directory -/

/-- Text with slashes for backslashes. -/
def slashed (s : String) : String :=
  String.ofList (s.toList.map fun c => if c = '\\' then '/' else c)

/-- A file that is to be uploaded is the one at a location of a tree: its path leads there, and its
name is the path from the parent of the root on, with slashes only. -/
structure Describes (root : String) (tree : Entry) (location : List String) (f : LocalFile) :
    Prop where
  path : f.path = below root location
  name : ∃ rel, IsRelative (baseOf root) f.path rel ∧ f.name = slashed rel
  content : ∃ mode, tree.at? location = some (.file f.content mode)

/-- What a walk finds in a tree. -/
structure Finds (root : String) (tree : Entry) (fs : List LocalFile) : Prop where
  /-- There is one file for each location of a file, and no other. -/
  once : ∃ locations : List (List String), locations.Nodup ∧
    (∀ location, location ∈ locations ↔ tree.HasFile location) ∧
    List.Forall₂ (Describes root tree) locations fs
  /-- There is nothing for a link. -/
  links : ∀ location target, tree.at? location = some (.link target) →
    ∀ f ∈ fs, f.path ≠ below root location
  sorted : (fs.map (·.name)).Pairwise (· ≤ ·)
  /-- The total is kept in 64 bits. -/
  totalSize : totalSize fs = tree.bytes % (Text.max64 + 1)
  totalSize_of_le : tree.bytes ≤ Text.max64 → Walk.totalSize fs = tree.bytes

section Directory

variable {root : String} {es : List (String × Entry)}

/-- Files of a directory, in the order of the walk. -/
abbrev walked (root : String) (es : List (String × Entry)) : List LocalFile :=
  (directory es).located.map (placed (baseOf root) root)

/-- **The files of a directory are found**, and sorted by name, unless there is an obstacle. -/
theorem files_directory (root : String) (es : List (String × Entry)) :
    files root (.directory es)
      = unlessBarred (directory es).obstacle? ((walked root es).mergeSort nameLe) := by
  rw [files, filesUnder_eq]
  cases (directory es).obstacle? <;> rfl

theorem files_of_readable (root : String) (h : (directory es).Proper)
    (hread : (directory es).Readable) :
    files root (.directory es) = .ok ((walked root es).mergeSort nameLe) := by
  rw [files_directory, hread.obstacle?_eq_none h]
  rfl

/-- **A directory has files to upload exactly if none is barred in it**; else the walk ends with the
reason of one that is. -/
theorem exists_files_iff (root : String) (h : (directory es).Proper) :
    ((∃ fs, files root (.directory es) = .ok fs) ↔ (directory es).Readable) ∧
      ∀ why, files root (.directory es) = .error why →
        ∃ location, (directory es).at? location = some (.barred why) := by
  rw [files_directory]
  refine ⟨⟨?_, fun hread => ?_⟩, ?_⟩
  · rintro ⟨fs, hfs⟩
    refine readable_of_obstacle? ?_
    cases hobstacle : (directory es).obstacle? with
    | none => rfl
    | some why =>
      rw [hobstacle] at hfs
      cases hfs
  · rw [hread.obstacle?_eq_none h]
    exact ⟨_, rfl⟩
  · intro why hwhy
    refine exists_at?_of_obstacle? _ h ?_
    cases hobstacle : (directory es).obstacle? with
    | none =>
      rw [hobstacle] at hwhy
      cases hwhy
    | some why' =>
      rw [hobstacle] at hwhy
      exact congrArg some (Except.error.inj hwhy)

/-- Order of located files by the names that they are uploaded under. -/
def placedLe (root : String) (x y : List String × Content) : Bool :=
  nameLe (placed (baseOf root) root x) (placed (baseOf root) root y)

theorem describes_placed (h : (directory es).Proper) {x : List String × Content}
    (hx : x ∈ (directory es).located) :
    Describes root (.directory es) x.1 (placed (baseOf root) root x) := by
  obtain ⟨hne, mode, hat⟩ := (mem_located h).1 hx
  obtain ⟨heading, hheading⟩ := exists_heading (components_baseOf root)
  obtain ⟨hrel, hrelative⟩ := hheading x.1 hne (h.isName_of_at? hat)
  refine ⟨rfl, ⟨_, hrelative, ?_⟩, mode, hat⟩
  rw [placed, uploadName, hrel]
  rfl

theorem totalSize_of_perm {fs fs' : List LocalFile} (h : fs.Perm fs') :
    totalSize fs = totalSize fs' := sum64_perm (h.map _)

theorem totalSize_sorted (root : String) (es : List (String × Entry)) :
    totalSize ((walked root es).mergeSort nameLe) = (directory es).bytes % (Text.max64 + 1) := by
  have hbytes : sumOf ((walked root es).map (·.size)) = (directory es).bytes := by
    rw [walked, List.map_map]
    exact (bytesOf_located es).trans (by rw [bytes])
  rw [totalSize_of_perm (List.mergeSort_perm _ _), totalSize, sum64, hbytes]

/-- **A walk of a directory finds all its files once**, sorted by name. -/
theorem finds_mergeSort (h : (directory es).Proper) :
    Finds root (.directory es) ((walked root es).mergeSort nameLe) where
  once := by
    -- The located files are sorted as the files that are placed, so that they stand side by side.
    have hperm : ((directory es).located.mergeSort (placedLe root)).Perm (directory es).located :=
      List.mergeSort_perm _ _
    have hsorted : (walked root es).mergeSort nameLe
        = ((directory es).located.mergeSort (placedLe root)).map (placed (baseOf root) root) := by
      exact (List.map_mergeSort (r := placedLe root) (s := nameLe)
        (f := placed (baseOf root) root) fun _ _ _ _ => rfl).symm
    refine ⟨((directory es).located.mergeSort (placedLe root)).map Prod.fst,
      (hperm.map _).nodup_iff.2 (nodup_located _ h), fun location => ?_, ?_⟩
    · rw [(hperm.map _).mem_iff, mem_map_fst_located h]
    · rw [hsorted, List.forall₂_map_left_iff, List.forall₂_map_right_iff, List.forall₂_same]
      exact fun x hx => describes_placed h (hperm.mem_iff.1 hx)
  links location target hat f hf hpath := by
    rw [List.mem_mergeSort] at hf
    obtain ⟨⟨location', content⟩, hmem, rfl⟩ := List.mem_map.1 hf
    obtain ⟨hne, mode, hat'⟩ := (mem_located h).1 hmem
    have hne' : location ≠ [] := by
      rintro rfl
      cases hat
    obtain rfl := below_injective hne (h.isName_of_at? hat') hne' (h.isName_of_at? hat) hpath
    rw [hat] at hat'
    cases hat'
  sorted := sorted_mergeSort _
  totalSize := totalSize_sorted root es
  totalSize_of_le h := (totalSize_sorted root es).trans (Nat.mod_eq_of_lt (Nat.lt_succ_of_le h))

/-- Another listing of a tree gives the same files in another order. -/
theorem walked_perm_of_relisted (root : String) (h : (directory es).Proper)
    {es' : List (String × Entry)} (hrelisted : (directory es).Relisted (.directory es')) :
    (walked root es).Perm (walked root es') := by
  have h' := hrelisted.proper h
  refine List.Perm.map _ ((List.perm_ext_iff_of_nodup (nodup_located _ h).of_map
    (nodup_located _ h').of_map).2 fun x => ?_)
  rw [mem_located h, mem_located h']
  exact and_congr_right fun _ => exists_congr fun mode => hrelisted.at?_eq_some_iff h nofun

end Directory

end Walk

end PinKeeper
