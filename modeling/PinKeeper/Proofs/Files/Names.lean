import PinKeeper.Proofs.Files.Walk

/-!
# Proofs/Files/Names — when the files of a directory get different names

The names of the files of a directory begin alike and go on with the location, in which a slash
stands for every backslash (`exists_name_eq`).  Names without backslashes are found again in what
is written of them (`eq_of_spelled_eq`), but a name with a backslash is written as two.  So two
files get the same name exactly if their locations are written alike (`names_differ_iff`).
-/

namespace PinKeeper.Walk

open PinKeeper.Path Entry

/-! ## How locations are written -/

theorem slashed_append (s t : String) : slashed (s ++ t) = slashed s ++ slashed t := by
  rw [slashed, String.toList_append, List.map_append, String.ofList_append, ← slashed, ← slashed]

theorem slashed_eq_self {s : String} (h : '\\' ∉ s.toList) : slashed s = s := by
  have hmap : s.toList.map (fun c => if c = '\\' then '/' else c) = s.toList :=
    (List.map_congr_left fun c hc => if_neg (ne_of_mem_of_not_mem hc h)).trans (List.map_id' _)
  rw [slashed, hmap, String.ofList_toList]

/-- Location as it is written in the name of a file. -/
def spelled (location : List String) : String := slashed (ofPieces location)

theorem slashed_ofPieces (ps : List String) :
    slashed (ofPieces ps) = ofPieces (ps.map slashed) := by
  induction ps with
  | nil => rfl
  | cons p ps ih =>
    by_cases hps : ps = []
    · rw [hps, ofPieces_singleton, List.map_singleton, ofPieces_singleton]
    · have hslash : slashed "/" = "/" := by decide
      rw [ofPieces_cons p hps, slashed_append, slashed_append, hslash, ih, List.map_cons,
        ofPieces_cons _ (mt List.map_eq_nil_iff.1 hps)]

/-- **Names without backslashes are found again** in what is written of their location. -/
theorem pieces_spelled {location : List String} (hne : location ≠ [])
    (h : ∀ n ∈ location, IsName n) (hplain : ∀ n ∈ location, '\\' ∉ n.toList) :
    pieces (spelled location) = location := by
  have hslashed : location.map slashed = location :=
    (List.map_congr_left fun n hn => slashed_eq_self (hplain n hn)).trans (List.map_id' _)
  rw [spelled, slashed_ofPieces, hslashed, pieces_ofPieces hne fun n hn => (h n hn).slash_notMem]

/-! ## Names of the files of a directory -/

section Directory

variable {root : String} {es : List (String × Entry)} {location : List String}

/-- **The names of the files below a path begin alike**, and go on with the location. -/
theorem exists_name_eq (root : String) : ∃ heading : String, ∀ x : List String × Content,
    x.1 ≠ [] → (∀ n ∈ x.1, IsName n) →
      (placed (baseOf root) root x).name = heading ++ spelled x.1 := by
  obtain ⟨heading, hheading⟩ := exists_heading (components_baseOf root)
  have hname {x : List String × Content} (hne : x.1 ≠ []) (h : ∀ n ∈ x.1, IsName n) :
      (placed (baseOf root) root x).name = slashed (ofPieces (heading ++ x.1)) := by
    rw [placed, uploadName, (hheading x.1 hne h).1]
    rfl
  obtain rfl | hheading' := eq_or_ne heading []
  · refine ⟨"", fun x hne h => ?_⟩
    rw [hname hne h, List.nil_append, String.empty_append, spelled]
  · refine ⟨slashed (ofPieces heading ++ "/"), fun x hne h => ?_⟩
    rw [hname hne h, ofPieces_append hheading' hne, slashed_append, spelled]

theorem nodup_names_walked_iff (root : String) (h : (directory es).Proper) :
    ((walked root es).map (·.name)).Nodup ↔
      ∀ a, (directory es).HasFile a → ∀ b, (directory es).HasFile b →
        spelled a = spelled b → a = b := by
  obtain ⟨heading, hheading⟩ := exists_name_eq root
  have hnames : (walked root es).map (·.name)
      = ((directory es).located.map Prod.fst).map fun location => heading ++ spelled location := by
    rw [walked, List.map_map, List.map_map]
    refine List.map_congr_left fun x hx => ?_
    obtain ⟨hne, mode, hat⟩ := (mem_located h).1 hx
    exact hheading x hne (h.isName_of_at? hat)
  rw [hnames, List.nodup_map_iff_inj_on (nodup_located _ h)]
  simp only [mem_map_fst_located h, String.append_right_inj]

/-- **Files get different names exactly if their locations are written differently.**  They do where
no name has a backslash.  A directory has files to name unless there is a barred one in it. -/
theorem names_differ_iff (root : String) (h : (directory es).Proper) :
    ((directory es).Readable → ∃ fs, files root (.directory es) = .ok fs) ∧
    ∀ fs, files root (.directory es) = .ok fs →
      ((fs.map (·.name)).Nodup ↔
        ∀ a, (directory es).HasFile a → ∀ b, (directory es).HasFile b →
          spelled a = spelled b → a = b) ∧
      ((∀ a, (directory es).HasFile a → ∀ n ∈ a, '\\' ∉ n.toList) →
        (fs.map (·.name)).Nodup) := by
  refine ⟨(exists_files_iff root h).1.2, fun fs hfs => ?_⟩
  have hread := (exists_files_iff root h).1.1 ⟨fs, hfs⟩
  obtain rfl := Except.ok.inj ((files_of_readable root h hread).symm.trans hfs)
  have hperm : (((walked root es).mergeSort nameLe).map (·.name)).Perm
      ((walked root es).map (·.name)) := (List.mergeSort_perm _ _).map _
  have hiff := hperm.nodup_iff.trans (nodup_names_walked_iff root h)
  refine ⟨hiff, fun hplain => hiff.2 fun a ha b hb hab => ?_⟩
  have hpieces {location : List String} (hfile : (directory es).HasFile location) :
      pieces (spelled location) = location := by
    obtain ⟨content, mode, hat⟩ := id hfile
    exact pieces_spelled hfile.ne_nil (h.isName_of_at? hat) (hplain location hfile)
  rw [← hpieces ha, ← hpieces hb, hab]

/-- A file with the name of the directory that it is in. -/
theorem names_differ_iff_sample :
    let es : List (String × Entry) := [("a", .directory [("a", .file (.zeros 1) 0o644)]),
      ("b", .file (.zeros 2) 0o644)]
    (directory es).Proper ∧ (directory es).Readable ∧
      ∃ fs, files "t" (.directory es) = .ok fs ∧ (fs.map (·.name)).Nodup := by
  intro es
  have hdirectory : (directory [("a", .file (.zeros 1) 0o644)]).Proper :=
    proper_directory (by decide) (by decide)
      (List.forall_mem_singleton.2 (proper_of_isDirectory_eq_false rfl))
  have h : (directory es).Proper := proper_directory (by decide) (by decide)
    (List.forall_mem_cons.2
      ⟨hdirectory, List.forall_mem_singleton.2 (proper_of_isDirectory_eq_false rfl)⟩)
  have hlocations : (directory es).located.map Prod.fst = [["b"], ["a", "a"]] := rfl
  have hplain : ∀ a, (directory es).HasFile a → ∀ n ∈ a, '\\' ∉ n.toList := fun a ha => by
    rw [← mem_map_fst_located h, hlocations] at ha
    revert a
    decide
  have hread : (directory es).Readable := readable_of_obstacle? rfl
  have ⟨hfiles, hnames⟩ := names_differ_iff "t" h
  obtain ⟨fs, hfs⟩ := hfiles hread
  exact ⟨h, hread, fs, hfs, (hnames fs hfs).2 hplain⟩

/-- **A name with a backslash takes the name of a file in a directory.** -/
theorem backslash_takes_name :
    let es : List (String × Entry) := [("a", .directory [("b", .file (.zeros 1) 0o644)]),
      ("a\\b", .file (.zeros 2) 0o644)]
    (directory es).Proper ∧
      ∃ fs, files "t" (.directory es) = .ok fs ∧ fs.map (·.name) = ["t/a/b", "t/a/b"] := by
  intro es
  have hdirectory : (directory [("b", .file (.zeros 1) 0o644)]).Proper :=
    proper_directory (by decide) (by decide)
      (List.forall_mem_singleton.2 (proper_of_isDirectory_eq_false rfl))
  have h : (directory es).Proper := proper_directory (by decide) (by decide)
    (List.forall_mem_cons.2
      ⟨hdirectory, List.forall_mem_singleton.2 (proper_of_isDirectory_eq_false rfl)⟩)
  have hnames : (walked "t" es).map (·.name) = List.replicate 2 "t/a/b" := by decide +kernel
  have hperm : (((walked "t" es).mergeSort nameLe).map (·.name)).Perm
      ((walked "t" es).map (·.name)) := (List.mergeSort_perm _ _).map _
  exact ⟨h, _, files_of_readable "t" h (readable_of_obstacle? rfl),
    List.perm_replicate.1 (hnames ▸ hperm)⟩

end Directory

end PinKeeper.Walk
