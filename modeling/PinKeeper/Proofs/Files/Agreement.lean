import Mathlib.Logic.Basic
import PinKeeper.Proofs.Files.Tree

/-!
# Proofs/Files/Agreement — disks that agree but for one file

Two trees may differ in what one file holds, and agree in all else (`Entry.AgreeBut`).  Then every
entry has one of its kind in the other tree, and it is the same one unless the file is below it.  So
paths lead to the same places (`Disk.AgreeBut.locate_eq`), and writing a file or making directories
succeeds on both disks or fails on both, and leaves disks that agree again
(`Disk.AgreeBut.write`, `Disk.AgreeBut.makeDirs`).
-/

namespace PinKeeper

namespace Entry

/-- Two trees with a file at a place, that agree in all else. -/
inductive AgreeBut : List String → Entry → Entry → Prop
  | file (content content' : Content) (mode mode' : Nat) :
      AgreeBut [] (.file content mode) (.file content' mode')
  | directory {name : String} {rest : List String} {e e' : Entry} {es es' : List (String × Entry)}
      (he : es.lookup name = some e) (he' : es'.lookup name = some e') (h : AgreeBut rest e e')
      (hothers : ∀ n, n ≠ name → es.lookup n = es'.lookup n) :
      AgreeBut (name :: rest) (.directory es) (.directory es')

section AgreeBut

variable {place location : List String} {root root' new : Entry}

theorem AgreeBut.at?_place (h : AgreeBut place root root') :
    ∃ content mode, root.at? place = some (.file content mode) := by
  induction h with
  | file content _ mode _ => exact ⟨content, mode, rfl⟩
  | directory he _ _ _ ih =>
    obtain ⟨content, mode, hat⟩ := ih
    refine ⟨content, mode, ?_⟩
    rw [at?, he]
    exact hat

/-- **What does not lead to the place is the same.** -/
theorem AgreeBut.at?_eq (h : AgreeBut place root root') (hplace : ¬location <+: place) :
    root.at? location = root'.at? location := by
  induction h generalizing location with
  | file =>
    cases location with
    | nil => exact absurd List.nil_prefix hplace
    | cons => rfl
  | @directory name rest e e' es es' he he' _ hothers ih =>
    cases location with
    | nil => exact absurd List.nil_prefix hplace
    | cons n location =>
      rw [at?, at?]
      by_cases hn : n = name
      · subst hn
        rw [he, he']
        exact ih fun hrest => hplace (List.cons_prefix_cons.2 ⟨rfl, hrest⟩)
      · rw [hothers n hn]

/-- **All entries are of the same kinds.** -/
theorem AgreeBut.map_shape_eq (h : AgreeBut place root root') (location : List String) :
    (root.at? location).map shape = (root'.at? location).map shape := by
  induction h generalizing location with
  | file => cases location <;> rfl
  | @directory name rest e e' es es' he he' _ hothers ih =>
    cases location with
    | nil => rfl
    | cons n location =>
      rw [at?, at?]
      by_cases hn : n = name
      · subst hn
        rw [he, he']
        exact ih location
      · rw [hothers n hn]

/-- A file is the one at the place, or does not lead there. -/
theorem AgreeBut.eq_or_of_file (h : AgreeBut place root root') {content : Content} {mode : Nat}
    (hat : root.at? location = some (.file content mode)) :
    location = place ∨ ¬location <+: place := by
  refine or_iff_not_imp_right.2 fun hplace => ?_
  obtain ⟨rest, rfl⟩ := not_not.1 hplace
  obtain ⟨content', mode', hfile⟩ := h.at?_place
  rw [at?_append, hat] at hfile
  cases rest with
  | nil => exact (List.append_nil location).symm
  | cons => cases hfile

/-- What leads to the place is a directory, on both sides. -/
theorem AgreeBut.directories (h : AgreeBut place root root') (hplace : location <+: place)
    (hne : location ≠ place) : ∃ es es', root.at? location = some (.directory es) ∧
      root'.at? location = some (.directory es') := by
  induction h generalizing location with
  | file => exact absurd (List.prefix_nil.1 hplace) hne
  | @directory name rest e e' es es' he he' _ _ ih =>
    cases location with
    | nil => exact ⟨es, es', rfl, rfl⟩
    | cons n location =>
      obtain ⟨rfl, hrest⟩ := List.cons_prefix_cons.1 hplace
      rw [at?, at?, he, he']
      exact ih hrest fun heq => hne (congrArg (n :: ·) heq)

/-- **The file may be written**, on both sides. -/
theorem AgreeBut.put_place (h : AgreeBut place root root') (content content' : Content)
    (mode mode' : Nat) :
    AgreeBut place (put (.file content mode) place root)
      (put (.file content' mode') place root') := by
  induction h with
  | file => exact .file content content' mode mode'
  | @directory name rest e e' es es' he he' _ hothers ih =>
    rw [put, put, he, he']
    refine .directory (lookup_putIn_self es) (lookup_putIn_self es') ih fun n hn => ?_
    rw [lookup_putIn_of_ne hn, lookup_putIn_of_ne hn, hothers n hn]

/-- **Anything may be put where it does not lead to the place**, on both sides. -/
theorem AgreeBut.put (h : AgreeBut place root root') (hplace : ¬location <+: place) :
    AgreeBut place (put new location root) (put new location root') := by
  induction h generalizing location with
  | file content content' mode mode' =>
    cases location with
    | nil => exact absurd List.nil_prefix hplace
    | cons => exact .file content content' mode mode'
  | @directory name rest e e' es es' he he' hrest hothers ih =>
    cases location with
    | nil => exact absurd List.nil_prefix hplace
    | cons n location =>
      rw [Entry.put, Entry.put]
      by_cases hn : n = name
      · subst hn
        rw [he, he']
        refine .directory (lookup_putIn_self es) (lookup_putIn_self es')
          (ih fun hrest => hplace (List.cons_prefix_cons.2 ⟨rfl, hrest⟩)) fun m hm => ?_
        rw [lookup_putIn_of_ne hm, lookup_putIn_of_ne hm, hothers m hm]
      · rw [hothers n hn]
        refine .directory ((lookup_putIn_of_ne (Ne.symm hn) es).trans he)
          ((lookup_putIn_of_ne (Ne.symm hn) es').trans he') hrest fun m hm => ?_
        by_cases hmn : m = n
        · rw [hmn, lookup_putIn_self, lookup_putIn_self]
        · rw [lookup_putIn_of_ne hmn, lookup_putIn_of_ne hmn, hothers m hm]

end AgreeBut

end Entry

namespace Disk

open Entry

/-! ## Walks -/

section Walks

variable {place : List String} {root root' : Entry}

/-- Of entries of one kind there are none, or two. -/
theorem cases_of_map_shape_eq {x x' : Option Entry} (h : x.map shape = x'.map shape) :
    (x = none ∧ x' = none) ∨ ∃ e e', x = some e ∧ x' = some e' ∧ e'.shape = e.shape := by
  cases x with
  | none => exact .inl ⟨rfl, Option.map_eq_none_iff.1 h.symm⟩
  | some e =>
    obtain ⟨e', hx', hkind⟩ := Option.map_eq_some_iff.1 h.symm
    exact .inr ⟨e, e', rfl, hx', hkind⟩

/-- **A walk leads to the same place in both trees.** -/
theorem walk_eq_of_agreeBut (h : AgreeBut place root root') : ∀ (links : Nat)
    (here way : List String), walk root links here way = walk root' links here way
  | _, _, [] => by rw [walk, walk]
  | links, here, step :: rest => by
    rw [walk, walk]
    obtain ⟨hat, hat'⟩ | ⟨e, e', hat, hat', hkind⟩ :=
      cases_of_map_shape_eq (h.map_shape_eq here.reverse)
    · rw [hat, hat']
    · rw [hat, hat']
      cases e with
      | directory es =>
        cases e' with
        | directory es' =>
          dsimp only
          rw [walk_eq_of_agreeBut h links here rest, walk_eq_of_agreeBut h links (here.drop 1) rest]
          have hentry : (es.lookup step).map shape = (es'.lookup step).map shape := by
            rw [← at?_append_singleton hat, ← at?_append_singleton hat', h.map_shape_eq]
          obtain ⟨hx, hx'⟩ | ⟨x, x', hx, hx', hkind⟩ := cases_of_map_shape_eq hentry
          · rw [hx, hx']
          · rw [hx, hx']
            cases x with
            | link target =>
              cases x' with
              | link target' =>
                obtain rfl := Entry.link.inj hkind
                cases links with
                | zero => rfl
                | succ links =>
                  dsimp only
                  rw [walk_eq_of_agreeBut h links]
              | _ => cases hkind
            | _ =>
              dsimp only
              rw [walk_eq_of_agreeBut h links (step :: here) rest]
              cases x' with
              | link target => cases hkind
              | _ => rfl
        | _ => cases hkind
      | barred why =>
        cases e' with
        | barred why' =>
          obtain rfl := Entry.barred.inj hkind
          rfl
        | _ => cases hkind
      | _ =>
        cases e' with
        | directory es' => cases hkind
        | barred why => cases hkind
        | _ => rfl
termination_by links _ way => (links, way.length)

end Walks

/-! ## Operations -/

/-- Two disks with a file at a place, that agree in all else. -/
structure AgreeBut (place : List String) (d d' : Disk) : Prop where
  root : Entry.AgreeBut place d.root d'.root
  workDir : d.workDir = d'.workDir

/-- Operations fail for one reason, or leave disks that agree. -/
inductive AlikeBut (place : List String) : Except FileError Disk → Except FileError Disk → Prop
  | error (e : FileError) : AlikeBut place (.error e) (.error e)
  | ok {d d' : Disk} (h : AgreeBut place d d') : AlikeBut place (.ok d) (.ok d')

section Operations

variable {place : List String} {d d' : Disk}

namespace AgreeBut

/-- **Paths lead to the same places.** -/
theorem locate_eq (h : AgreeBut place d d') (p : String) : d.locate p = d'.locate p := by
  rw [locate, locate, h.workDir, walk_eq_of_agreeBut h.root]

theorem find_eq (h : AgreeBut place d d') (p : String) : d.find p = d'.find p := by
  rw [find, find, h.locate_eq]

/-- **The same is found at a path that does not lead to the place.** -/
theorem entry_eq (h : AgreeBut place d d') {p : String}
    (hp : ∀ location, d.locate p = .ok (.entry location) → ¬location <+: place) :
    d.entry p = d'.entry p := by
  rw [entry, entry, ← h.find_eq]
  cases hfind : d.find p with
  | error e => rfl
  | ok location =>
    dsimp only [bind, Except.bind]
    rw [h.root.at?_eq (hp location (exists_locate_of_find hfind))]

/-- A path that leads above the place leads to a directory, on both disks. -/
theorem entry_directories (h : AgreeBut place d d') {p : String} {location : List String}
    (hlocate : d.locate p = .ok (.entry location)) (hplace : location <+: place)
    (hne : location ≠ place) :
    ∃ es es', d.entry p = .ok (.directory es) ∧ d'.entry p = .ok (.directory es') := by
  obtain ⟨es, es', hes, hes'⟩ := h.root.directories hplace hne
  exact ⟨es, es', entry_of_locate hlocate hes, entry_of_locate (h.locate_eq p ▸ hlocate) hes'⟩

theorem hasDirectory_eq (h : AgreeBut place d d') (p : String) :
    d.hasDirectory p = d'.hasDirectory p := by
  rw [hasDirectory, hasDirectory, entry, entry, ← h.find_eq]
  cases d.find p with
  | error e => rfl
  | ok location =>
    dsimp only [bind, Except.bind]
    obtain ⟨hat, hat'⟩ | ⟨e, e', hat, hat', hkind⟩ :=
      cases_of_map_shape_eq (h.root.map_shape_eq location)
    · rw [hat, hat']
    · rw [hat, hat']
      exact (isDirectory_of_shape hkind).symm

/-- A free name does not lead to the place. -/
theorem not_prefix_of_vacant (h : AgreeBut place d d') {p : String} {above : List String}
    {name : String} (hlocate : d.locate p = .ok (.vacant above name)) :
    ¬above ++ [name] <+: place := by
  obtain ⟨es, hes, hname⟩ := (walks_of_locate hlocate).at?_vacant
  rintro ⟨rest, rfl⟩
  obtain ⟨content, mode, hat⟩ := h.root.at?_place
  rw [at?_append, at?_append_singleton hes, hname] at hat
  cases hat

/-- **A file is written on both disks, or on neither.** -/
theorem write (h : AgreeBut place d d') (p : String) (content : Content) :
    AlikeBut place (d.write p content) (d'.write p content) := by
  rw [Disk.write, Disk.write, ← h.locate_eq]
  cases hlocate : d.locate (withoutEndSlashes p) with
  | error e => exact .error e
  | ok found =>
    cases found with
    | vacant above name =>
      dsimp only [bind, Except.bind]
      split
      · exact .error _
      · exact .ok ⟨h.root.put (h.not_prefix_of_vacant hlocate), h.workDir⟩
    | entry location =>
      dsimp only [bind, Except.bind]
      obtain ⟨hat, hat'⟩ | ⟨e, e', hat, hat', hkind⟩ :=
        cases_of_map_shape_eq (h.root.map_shape_eq location)
      · rw [hat, hat']
        exact .error _
      · rw [hat, hat']
        cases e with
        | file old mode =>
          cases e' with
          | file old' mode' =>
            dsimp only
            split
            · exact .error _
            refine .ok ⟨?_, h.workDir⟩
            obtain rfl | hplace := h.root.eq_or_of_file hat
            · exact h.root.put_place content content mode mode'
            · rw [h.root.at?_eq hplace, hat'] at hat
              obtain ⟨rfl, rfl⟩ := Entry.file.inj (Option.some.inj hat)
              exact h.root.put hplace
          | _ => cases hkind
        | device =>
          cases e' with
          | device =>
            dsimp only
            split
            · exact .error _
            · exact .ok h
          | _ => cases hkind
        | _ =>
          cases e' with
          | directory es => exact .error _
          | link target => exact .error _
          | barred why => exact .error _
          | _ => cases hkind

/-- A write that may break off ends alike, and leaves disks that agree. -/
theorem writeUntil (h : AgreeBut place d d') (stop : Option Break) (p : String)
    (content : Content) :
    (d.writeUntil stop p content).1 = (d'.writeUntil stop p content).1 ∧
      AgreeBut place (d.writeUntil stop p content).2 (d'.writeUntil stop p content).2 := by
  have hwrite := h.write p (Break.begun stop content)
  rw [Disk.writeUntil, Disk.writeUntil]
  generalize d.write p (Break.begun stop content) = r, d'.write p (Break.begun stop content) = r'
    at hwrite ⊢
  cases hwrite with
  | error e => exact ⟨rfl, h⟩
  | ok h' => cases stop <;> exact ⟨rfl, h'⟩

theorem makeDir (h : AgreeBut place d d') (p : String) :
    AlikeBut place (d.makeDir p) (d'.makeDir p) := by
  rw [Disk.makeDir, Disk.makeDir, ← h.locate_eq]
  cases hlocate : d.locate (withoutEndSlashes p) with
  | error e => exact .error e
  | ok found =>
    cases found with
    | entry location => exact .error _
    | vacant above name =>
      exact .ok ⟨h.root.put (h.not_prefix_of_vacant hlocate), h.workDir⟩

/-- A directory that is not made may be there, on both disks. -/
theorem unless_there (h : AgreeBut place d d') (p : String) (e : FileError) :
    AlikeBut place (if d.hasDirectory p then .ok d else .error e)
      (if d'.hasDirectory p then .ok d' else .error e) := by
  rw [h.hasDirectory_eq p]
  split
  · exact .ok h
  · exact .error e

theorem makeDirsWithin : ∀ (depth : Nat) {d d' : Disk}, AgreeBut place d d' → ∀ p : String,
    AlikeBut place (d.makeDirsWithin depth p) (d'.makeDirsWithin depth p)
  | 0, _, _, _, _ => .error _
  | depth + 1, d, d', h, p => by
    rw [Disk.makeDirsWithin, Disk.makeDirsWithin]
    split
    · exact .ok h
    have hmade := h.makeDir p
    generalize d.makeDir p = r, d'.makeDir p = r' at hmade ⊢
    cases hmade with
    | ok h => exact .ok h
    | error e =>
      dsimp only
      split
      · exact h.unless_there p e
      · split
        · exact .error _
        · next above _ =>
          have habove := makeDirsWithin depth h above
          generalize d.makeDirsWithin depth above = r, d'.makeDirsWithin depth above = r'
            at habove ⊢
          cases habove with
          | error e => exact .error e
          | @ok d₁ d₁' h =>
            dsimp only [bind, Except.bind]
            have hmade := h.makeDir p
            generalize d₁.makeDir p = r, d₁'.makeDir p = r' at hmade ⊢
            cases hmade with
            | ok h => exact .ok h
            | error e => exact h.unless_there p e

/-- **Directories are made on both disks, or on neither.** -/
theorem makeDirs (h : AgreeBut place d d') (p : String) :
    AlikeBut place (d.makeDirs p) (d'.makeDirs p) :=
  makeDirsWithin (p.length + 1) h p

end AgreeBut

end Operations

end Disk

end PinKeeper
