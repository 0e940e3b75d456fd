import PinKeeper.Files.Tree
import PinKeeper.Proofs.Answers

/-!
# Proofs/Files/Tree — a change in one place leaves the ways through the others

Putting an entry at a location changes what stands there and what is looked up below it.  Every
other location keeps its entry, except that a directory above it holds something else
(`Entry.at?_put_elsewhere`).  A walk only asks of an entry what kind it is, what a directory holds
under a name and where a link leads (`Walks`).  So after a change that leaves all there was, as to
its kind (`Entry.Keeps`), a path still leads where it led, and one that led to a free name leads to
the file that was put there (`Walks.of_keeps`).  From this follows what is found at a path that was
written (`locate_write`, `locate_setMode`), and that making directories hides no file
(`grows_makeDirs`, `Grows.entry`).
-/

namespace PinKeeper

namespace Entry

/-! ## Locations in a tree -/

section Locations

variable {e x new : Entry} {name : String} {location rest : List String}

theorem at?_append : ∀ {location : List String} {e : Entry},
    e.at? (location ++ rest) = (e.at? location).bind (·.at? rest)
  | [], _ => rfl
  | name :: location, .directory es => by
    rw [List.cons_append, at?, at?, Option.bind_assoc]
    exact congrArg _ (funext fun _ => at?_append)
  | _ :: _, .file .. => rfl
  | _ :: _, .link _ => rfl
  | _ :: _, .device => rfl
  | _ :: _, .barred _ => rfl

theorem lookup_putIn_self : ∀ es : List (String × Entry),
    (putIn name x es).lookup name = some x
  | [] => List.lookup_cons_self
  | (n, y) :: es => by
    rw [putIn]
    split
    · next h => exact h ▸ List.lookup_cons_self
    · next h => rw [List.lookup_cons, beq_false_of_ne (Ne.symm h), lookup_putIn_self es]

theorem lookup_putIn_of_ne {n : String} (h : n ≠ name) : ∀ es : List (String × Entry),
    (putIn name x es).lookup n = es.lookup n
  | [] => by rw [putIn, List.lookup_cons, beq_false_of_ne h]
  | (m, y) :: es => by
    rw [putIn]
    split
    · next hm => rw [List.lookup_cons, List.lookup_cons, hm, beq_false_of_ne h]
    · rw [List.lookup_cons, List.lookup_cons, lookup_putIn_of_ne h es]

/-- Entry as to its kind, without what a file or a directory holds. -/
def shape : Entry → Entry
  | .file _ _ => .file default 0
  | .directory _ => .directory []
  | .link target => .link target
  | .device => .device
  | .barred why => .barred why

/-- **Other locations keep their entries**, but a directory above the change is another one. -/
theorem at?_put_elsewhere : ∀ {location place : List String} {root e : Entry},
    ¬place <+: location → root.at? location = some e →
      ∃ e', (put new place root).at? location = some e' ∧ e'.shape = e.shape ∧
        (e.isDirectory = false → e' = e) := by
  intro location place
  induction place generalizing location with
  | nil => exact fun h => absurd (List.nil_prefix) h
  | cons n rest ih =>
    intro root e hplace hat
    cases root with
    | directory es =>
      cases location with
      | nil =>
        obtain rfl := Option.some.inj hat
        exact ⟨_, rfl, rfl, nofun⟩
      | cons m location =>
        obtain ⟨y, hy, hat⟩ := Option.bind_eq_some_iff.1 hat
        by_cases hm : m = n
        · subst hm
          have hrest : ¬rest <+: location := fun h => hplace (List.cons_prefix_cons.2 ⟨rfl, h⟩)
          obtain ⟨e', he', hkept⟩ := ih hrest hat
          refine ⟨e', ?_, hkept⟩
          rw [put, at?, lookup_putIn_self, hy]
          exact he'
        · refine ⟨e, ?_, rfl, fun _ => rfl⟩
          rw [put, at?, lookup_putIn_of_ne hm, hy]
          exact hat
    | _ => exact ⟨e, hat, rfl, fun _ => rfl⟩

theorem at?_put_append {es : List (String × Entry)} : ∀ {above : List String} {root : Entry},
    root.at? above = some (.directory es) →
      (put new (above ++ [name]) root).at? (above ++ [name]) = some new
  | [], root, h => by
    obtain rfl := Option.some.inj h
    rw [List.nil_append, put, put, at?, lookup_putIn_self]
    rfl
  | n :: above, .directory es', h => by
    obtain ⟨y, hy, hat⟩ := Option.bind_eq_some_iff.1 h
    rw [List.cons_append, put, at?, lookup_putIn_self, hy]
    exact at?_put_append hat

/-- What has an entry below it is a directory, and holds it. -/
theorem exists_directory_of_at?_append {above : List String} {root : Entry}
    (h : root.at? (above ++ [name]) = some e) :
    ∃ es, root.at? above = some (.directory es) ∧ es.lookup name = some e := by
  rw [at?_append] at h
  obtain ⟨y, hy, hat⟩ := Option.bind_eq_some_iff.1 h
  cases y with
  | directory es =>
    obtain ⟨x, hx, hat⟩ := Option.bind_eq_some_iff.1 hat
    exact ⟨es, hy, hx.trans hat⟩
  | _ => cases hat

theorem at?_append_singleton {above : List String} {root : Entry} {es : List (String × Entry)}
    (h : root.at? above = some (.directory es)) : root.at? (above ++ [name]) = es.lookup name := by
  rw [at?_append, h, Option.bind_some, at?]
  exact Option.bind_fun_some _

/-- **What was put in the place of an entry stands there.** -/
theorem at?_put_self {place : List String} {root : Entry} (h : root.at? place = some e) :
    (put new place root).at? place = some new := by
  obtain rfl | ⟨above, name, hplace⟩ := List.eq_nil_or_concat place
  · rfl
  · obtain rfl : place = above ++ [name] := hplace.trans List.concat_eq_append
    obtain ⟨es, hes, -⟩ := exists_directory_of_at?_append h
    exact at?_put_append hes

end Locations

/-! ## Changes that leave what there was -/

section Changes

variable {root root' new : Entry} {place : List String}

/-- Every entry is still there, as to its kind. -/
def Keeps (root root' : Entry) : Prop :=
  ∀ location e, root.at? location = some e →
    ∃ e', root'.at? location = some e' ∧ e'.shape = e.shape

/-- Every entry is still there, and only directories may hold something else. -/
def Grows (root root' : Entry) : Prop :=
  ∀ location e, root.at? location = some e →
    ∃ e', root'.at? location = some e' ∧ e'.shape = e.shape ∧ (e.isDirectory = false → e' = e)

theorem Grows.keeps (h : root.Grows root') : root.Keeps root' := fun location e he =>
  (h location e he).imp fun _ h => ⟨h.1, h.2.1⟩

/-- A directory is still one, and what it holds is still there. -/
theorem Keeps.directory {es : List (String × Entry)} (h : root.Keeps root')
    (hplace : root.at? place = some (.directory es)) :
    ∃ es', root'.at? place = some (.directory es') ∧
      ∀ name e, es.lookup name = some e → ∃ e', es'.lookup name = some e' ∧ e'.shape = e.shape := by
  obtain ⟨x, hx, hshape⟩ := h place _ hplace
  cases x with
  | directory es' =>
    refine ⟨es', hx, fun name e he => ?_⟩
    rw [← at?_append_singleton hplace] at he
    rw [← at?_append_singleton hx]
    exact h _ e he
  | _ => cases hshape

theorem Grows.refl (root : Entry) : root.Grows root := fun _ e he => ⟨e, he, rfl, fun _ => rfl⟩

theorem isDirectory_of_shape {e e' : Entry} (h : e'.shape = e.shape) :
    e'.isDirectory = e.isDirectory := by
  cases e <;> cases e' <;> first | rfl | cases h

theorem Grows.trans {root'' : Entry} (h : root.Grows root') (h' : root'.Grows root'') :
    root.Grows root'' := by
  intro location e he
  obtain ⟨e', he', hshape, hsame⟩ := h location e he
  obtain ⟨e'', he'', hshape', hsame'⟩ := h' location e' he'
  refine ⟨e'', he'', hshape'.trans hshape, fun hfile => ?_⟩
  rw [hsame' ((isDirectory_of_shape hshape).trans hfile), hsame hfile]

/-- Whatever is put at a free place, all else is left. -/
theorem grows_put (h : root.at? place = none) : root.Grows (put new place root) := by
  intro location e he
  refine at?_put_elsewhere (fun hplace => ?_) he
  obtain ⟨rest, rfl⟩ := hplace
  rw [at?_append, h] at he
  cases he

/-- A file may stand for another file. -/
theorem keeps_put {content content' : Content} {mode mode' : Nat}
    (h : root.at? place = some (.file content mode)) :
    root.Keeps (put (.file content' mode') place root) := by
  intro location e he
  by_cases hplace : place <+: location
  · obtain ⟨rest, rfl⟩ := hplace
    rw [at?_append, h, Option.bind_some] at he
    cases rest with
    | nil =>
      obtain rfl := Option.some.inj he
      rw [List.append_nil]
      exact ⟨_, at?_put_self h, rfl⟩
    | cons => cases he
  · exact (at?_put_elsewhere hplace he).imp fun _ h => ⟨h.1, h.2.1⟩

end Changes

end Entry

namespace Disk

/-! ## Walks -/

/-- A walk that leads somewhere, by its first step. -/
inductive Walks (root : Entry) : Nat → List String → List String → Found → Prop
  | done {links : Nat} {here : List String} : Walks root links here [] (.entry here.reverse)
  | stay {links : Nat} {here rest : List String} {es : List (String × Entry)} {found : Found}
      (hhere : root.at? here.reverse = some (.directory es))
      (h : Walks root links here rest found) : Walks root links here ("." :: rest) found
  | up {links : Nat} {here rest : List String} {es : List (String × Entry)} {found : Found}
      (hhere : root.at? here.reverse = some (.directory es))
      (h : Walks root links (here.drop 1) rest found) : Walks root links here (".." :: rest) found
  | free {links : Nat} {here : List String} {step : String} {es : List (String × Entry)}
      (hhere : root.at? here.reverse = some (.directory es)) (hstep : step ≠ "." ∧ step ≠ "..")
      (hfree : es.lookup step = none) : Walks root links here [step] (.vacant here.reverse step)
  | follow {links : Nat} {here rest : List String} {step target : String}
      {es : List (String × Entry)} {found : Found}
      (hhere : root.at? here.reverse = some (.directory es)) (hstep : step ≠ "." ∧ step ≠ "..")
      (hlink : es.lookup step = some (.link target))
      (h : Walks root links (if Path.isAbsolute target then [] else here) (steps target ++ rest)
        found) : Walks root (links + 1) here (step :: rest) found
  | down {links : Nat} {here rest : List String} {step : String} {e : Entry}
      {es : List (String × Entry)} {found : Found}
      (hhere : root.at? here.reverse = some (.directory es)) (hstep : step ≠ "." ∧ step ≠ "..")
      (hentry : es.lookup step = some e) (hlink : ∀ target, e ≠ .link target)
      (h : Walks root links (step :: here) rest found) : Walks root links here (step :: rest) found

section Walks

open Entry

variable {root root' : Entry} {links : Nat} {here way : List String} {found found' : Found}

theorem walks_of_walk : ∀ {links : Nat} {here way : List String},
    walk root links here way = .ok found → Walks root links here way found
  | links, here, [], h => by
    rw [walk] at h
    obtain rfl := Except.ok.inj h
    exact .done
  | links, here, step :: rest, h => by
    rw [walk] at h
    split at h
    · next es hhere =>
      split at h
      · next hstep => exact hstep ▸ .stay hhere (walks_of_walk h)
      split at h
      · next hstep => exact hstep ▸ .up hhere (walks_of_walk h)
      · next hstay hup =>
        split at h
        · next hfree =>
          split at h
          · next hrest =>
            obtain rfl := Except.ok.inj h
            obtain rfl := List.isEmpty_iff.1 hrest
            exact .free hhere ⟨hstay, hup⟩ hfree
          · cases h
        · next target hlink =>
          cases links with
          | zero => cases h
          | succ links => exact .follow hhere ⟨hstay, hup⟩ hlink (walks_of_walk h)
        · next e hlink hentry => exact .down hhere ⟨hstay, hup⟩ hentry hlink (walks_of_walk h)
    · cases h
    · cases h
    · cases h
termination_by links _ way => (links, way.length)

theorem Walks.walk_eq (h : Walks root links here way found) :
    walk root links here way = .ok found := by
  induction h with
  | done => rw [walk]
  | stay hhere _ ih => rw [walk, hhere]; exact ih
  | up hhere _ ih => rw [walk, hhere]; exact ih
  | free hhere hstep hfree => 
    rw [walk, hhere]
    simp only [if_neg hstep.1, if_neg hstep.2, hfree]
    rfl
  | follow hhere hstep hlink _ ih => 
    rw [walk, hhere]
    simp only [if_neg hstep.1, if_neg hstep.2, hlink]
    exact ih
  | down hhere hstep hentry hlink _ ih =>
    rw [walk, hhere]
    simp only [if_neg hstep.1, if_neg hstep.2, hentry]
    exact ih

/-- Where a path that led to a place leads in another tree: to the entry that it led to, or to the
file that stands where the name was free. -/
inductive Leads (root' : Entry) : Found → Found → Prop
  | entry (place : List String) : Leads root' (.entry place) (.entry place)
  | filled {above : List String} {name : String} {content : Content} {mode : Nat}
      (h : root'.at? (above ++ [name]) = some (.file content mode)) :
      Leads root' (.vacant above name) (.entry (above ++ [name]))

/-- **Where all is left, paths lead where they led.** -/
theorem Walks.of_keeps (hkeeps : root.Keeps root') (h : Walks root links here way found)
    (hleads : Leads root' found found') : Walks root' links here way found' := by
  induction h with
  | done =>
    obtain ⟨⟩ := hleads
    exact .done
  | stay hhere _ ih =>
    obtain ⟨es', hhere', -⟩ := hkeeps.directory hhere
    exact .stay hhere' (ih hleads)
  | up hhere _ ih =>
    obtain ⟨es', hhere', -⟩ := hkeeps.directory hhere
    exact .up hhere' (ih hleads)
  | @free _ here step _ hhere hstep hfree =>
    obtain ⟨es', hhere', -⟩ := hkeeps.directory hhere
    cases hleads with
    | filled hfile =>
      rw [at?_append_singleton hhere'] at hfile
      rw [← List.reverse_cons]
      exact .down hhere' hstep hfile nofun .done
  | follow hhere hstep hlink _ ih =>
    obtain ⟨es', hhere', hentries⟩ := hkeeps.directory hhere
    obtain ⟨e', hentry, hshape⟩ := hentries _ _ hlink
    cases e' with
    | link target =>
      obtain rfl := Entry.link.inj hshape
      exact .follow hhere' hstep hentry (ih hleads)
    | _ => cases hshape
  | @down _ _ _ _ e _ _ hhere hstep hentry hlink _ ih =>
    obtain ⟨es', hhere', hentries⟩ := hkeeps.directory hhere
    obtain ⟨e', hentry', hshape⟩ := hentries _ _ hentry
    refine .down hhere' hstep hentry' (fun target he => ?_) (ih hleads)
    subst he
    cases e with
    | link target' => exact hlink target' rfl
    | _ => cases hshape

/-- A free name is a name that the directory does not hold. -/
theorem Walks.at?_vacant {above : List String} {name : String}
    (h : Walks root links here way (.vacant above name)) :
    ∃ es, root.at? above = some (.directory es) ∧ es.lookup name = none := by
  generalize hfound : Found.vacant above name = found at h
  induction h with
  | done => cases hfound
  | stay _ _ ih => exact ih hfound
  | up _ _ ih => exact ih hfound
  | free hhere _ hfree =>
    obtain ⟨rfl, rfl⟩ := Found.vacant.inj hfound
    exact ⟨_, hhere, hfree⟩
  | follow _ _ _ _ ih => exact ih hfound
  | down _ _ _ _ _ ih => exact ih hfound

end Walks

/-! ## Operations -/

section Operations

open Entry

variable {d d' : Disk} {p : String} {place : List String} {e : Entry}

theorem walks_of_locate {found : Found} (h : d.locate p = .ok found) :
    Walks d.root maxLinks (if Path.isAbsolute p then [] else d.workDir.reverse) (steps p)
      found := by
  rw [locate] at h
  split at h
  · cases h
  · exact walks_of_walk h

/-- **After a change that leaves all there was, a path leads where it led.** -/
theorem locate_of_keeps {found found' : Found} (hroot : d.root.Keeps d'.root)
    (hdir : d'.workDir = d.workDir) (h : d.locate p = .ok found)
    (hleads : Leads d'.root found found') : d'.locate p = .ok found' := by
  have hwalk := ((walks_of_locate h).of_keeps hroot hleads).walk_eq
  rw [locate] at h ⊢
  split at h
  · cases h
  · next hp =>
    rw [if_neg hp, hdir]
    exact hwalk

theorem entry_of_locate (h : d.locate p = .ok (.entry place)) (hat : d.root.at? place = some e) :
    d.entry p = .ok e := by
  have hfind : d.find p = .ok place := by
    rw [find, h]
    rfl
  rw [entry, hfind]
  simp only [bind, Except.bind, hat]

theorem exists_locate_of_find (h : d.find p = .ok place) : d.locate p = .ok (.entry place) := by
  obtain ⟨found, hlocate, h⟩ := exists_of_bind_eq_ok h
  cases found with
  | entry => exact Except.ok.inj h ▸ hlocate
  | vacant => cases h

theorem exists_locate_of_entry (h : d.entry p = .ok e) :
    ∃ place, d.locate p = .ok (.entry place) ∧ d.root.at? place = some e := by
  obtain ⟨place, hfind, h⟩ := exists_of_bind_eq_ok h
  refine ⟨place, exists_locate_of_find hfind, ?_⟩
  split at h
  · next x hx => exact Except.ok.inj h ▸ hx
  · cases h

/-- A disk in which every entry is still there, and only directories may hold something else. -/
structure Grows (d d' : Disk) : Prop where
  root : d.root.Grows d'.root
  workDir : d'.workDir = d.workDir

theorem Grows.refl (d : Disk) : d.Grows d := ⟨Entry.Grows.refl d.root, rfl⟩

theorem Grows.trans {d'' : Disk} (h : d.Grows d') (h' : d'.Grows d'') : d.Grows d'' :=
  ⟨h.root.trans h'.root, h'.workDir.trans h.workDir⟩

/-- **What a disk grows by hides no file.** -/
theorem Grows.entry (h : d.Grows d') (he : d.entry p = .ok e) (hfile : e.isDirectory = false) :
    d'.entry p = .ok e := by
  obtain ⟨place, hplace, hat⟩ := exists_locate_of_entry he
  obtain ⟨e', hat', -, hsame⟩ := h.root place e hat
  refine entry_of_locate (locate_of_keeps h.root.keeps h.workDir hplace (.entry place)) ?_
  rw [hat', hsame hfile]

theorem grows_makeDir (h : d.makeDir p = .ok d') : d.Grows d' := by
  obtain ⟨found, hlocate, h⟩ := exists_of_bind_eq_ok h
  cases found with
  | entry => cases h
  | vacant above name =>
    obtain rfl := Except.ok.inj h
    obtain ⟨es, hes, hname⟩ := (walks_of_locate hlocate).at?_vacant
    exact ⟨grows_put ((at?_append_singleton hes).trans hname), rfl⟩

theorem grows_makeDirsWithin : ∀ {depth : Nat} {d d' : Disk} {p : String},
    makeDirsWithin depth d p = .ok d' → d.Grows d'
  | 0, _, _, _, h => nomatch h
  | depth + 1, d, d', p, h => by
    rw [makeDirsWithin] at h
    split at h
    · obtain rfl := Except.ok.inj h
      exact .refl d
    split at h
    · next made hmade =>
      obtain rfl := Except.ok.inj h
      exact grows_makeDir hmade
    split at h
    · split at h
      · obtain rfl := Except.ok.inj h
        exact .refl d
      · cases h
    split at h
    · cases h
    · next above _ =>
      obtain ⟨d₁, habove, h⟩ := exists_of_bind_eq_ok h
      refine (grows_makeDirsWithin habove).trans ?_
      split at h
      · next made hmade =>
        obtain rfl := Except.ok.inj h
        exact grows_makeDir hmade
      split at h
      · obtain rfl := Except.ok.inj h
        exact .refl d₁
      · cases h

theorem grows_makeDirs (h : d.makeDirs p = .ok d') : d.Grows d' := grows_makeDirsWithin h

/-! ### Writing -/

theorem withoutEndSlashes_eq_self (h : ¬(p.toList.getLast? == some '/') = true) :
    withoutEndSlashes p = p := by
  have hkept : p.toList.reverse.dropWhile (· = '/') = p.toList.reverse := by
    cases hrev : p.toList.reverse with
    | nil => rfl
    | cons c cs =>
      have hlast : p.toList.getLast? = some c := by rw [← List.head?_reverse, hrev, List.head?_cons]
      refine List.dropWhile_cons_of_neg fun hc => h ?_
      rw [hlast, of_decide_eq_true hc]
      rfl
  rw [withoutEndSlashes, hkept, List.reverse_reverse]
  split
  · next hnil =>
    obtain rfl := String.toList_eq_nil_iff.1 hnil
    rfl
  · exact String.ofList_toList

/-- **What was written to a path is found there**, unless it went to a device. -/
theorem locate_write {content : Content} (h : d.write p content = .ok d')
    (hdevice : d.entry p ≠ .ok .device) :
    ∃ place mode, d'.locate p = .ok (.entry place) ∧
      d'.root.at? place = some (.file content mode) := by
  obtain ⟨found, hlocate, h⟩ := exists_of_bind_eq_ok h
  cases found with
  | entry place =>
    dsimp only at h
    split at h
    · next old mode hold =>
      split at h
      · cases h
      · next hend =>
        obtain rfl := Except.ok.inj h
        rw [withoutEndSlashes_eq_self hend] at hlocate
        exact ⟨place, mode, locate_of_keeps (keeps_put hold) rfl hlocate (.entry place),
          at?_put_self hold⟩
    · next hold =>
      split at h
      · cases h
      · next hend =>
        rw [withoutEndSlashes_eq_self hend] at hlocate
        exact absurd (entry_of_locate hlocate hold) hdevice
    · cases h
  | vacant above name =>
    dsimp only at h
    split at h
    · cases h
    · next hend =>
      obtain rfl := Except.ok.inj h
      rw [withoutEndSlashes_eq_self hend] at hlocate
      obtain ⟨es, hes, hname⟩ := (walks_of_locate hlocate).at?_vacant
      have hput : (Entry.put (.file content defaultMode) (above ++ [name]) d.root).at?
          (above ++ [name]) = some (.file content defaultMode) :=
        at?_put_append hes
      have hgrows : d.root.Grows (Entry.put (.file content defaultMode) (above ++ [name]) d.root) :=
        grows_put ((at?_append_singleton hes).trans hname)
      exact ⟨above ++ [name], defaultMode, locate_of_keeps hgrows.keeps rfl hlocate (.filled hput),
        hput⟩

theorem read_write {content : Content} (h : d.write p content = .ok d')
    (hdevice : d.entry p ≠ .ok .device) : d'.read p = .ok content := by
  obtain ⟨place, mode, hplace, hat⟩ := locate_write h hdevice
  rw [read, entry_of_locate hplace hat]
  rfl

/-- Writing makes no device. -/
theorem entry_write_ne_device {content : Content} (h : d.write p content = .ok d')
    (hdevice : d.entry p ≠ .ok .device) : d'.entry p ≠ .ok .device := by
  obtain ⟨place, mode, hplace, hat⟩ := locate_write h hdevice
  rw [entry_of_locate hplace hat]
  exact fun heq => nomatch Except.ok.inj heq

/-- How a write ends: the file could not be opened and all is as before, or the write broke off and
has left the first bytes, or all is written. -/
inductive Writes (d : Disk) (p : String) (content : Content) : Except FileError Unit → Disk → Prop
  | refused (e : FileError) : Writes d p content (.error e) d
  | brokeOff {n : Nat} {d' : Disk} (e : FileError) (h : d.write p (content.take n) = .ok d') :
      Writes d p content (.error e) d'
  | whole {d' : Disk} (h : d.write p content = .ok d') : Writes d p content (.ok ()) d'

/-- **A write that may break off ends in one of these ways.** -/
theorem writes_writeUntil (d : Disk) (stop : Option Break) (p : String) (content : Content) :
    d.Writes p content (d.writeUntil stop p content).1 (d.writeUntil stop p content).2 := by
  rw [writeUntil]
  cases hwrite : d.write p (Break.begun stop content) with
  | error e => exact .refused e
  | ok d' =>
    cases stop with
    | none => exact .whole hwrite
    | some b => exact .brokeOff b.why hwrite

/-- Whether a file can be written does not depend on what is to be in it. -/
theorem map_write (d : Disk) (p : String) (content content' : Content) :
    (d.write p content).map (fun _ => ()) = (d.write p content').map fun _ => () := by
  rw [write, write]
  cases d.locate (withoutEndSlashes p) with
  | error e => rfl
  | ok found =>
    dsimp only [bind, Except.bind]
    cases found with
    | vacant above name =>
      dsimp only
      split <;> rfl
    | entry location =>
      dsimp only
      split
      · split <;> rfl
      · rfl
      · rfl

/-- Nor does how a write ends that may break off. -/
theorem writeUntil_fst (d : Disk) (stop : Option Break) (p : String) (content content' : Content) :
    (d.writeUntil stop p content).1 = (d.writeUntil stop p content').1 := by
  have hends := d.map_write p (Break.begun stop content) (Break.begun stop content')
  rw [writeUntil, writeUntil]
  generalize d.write p (Break.begun stop content) = r, d.write p (Break.begun stop content') = r'
    at hends ⊢
  cases r <;> cases r' <;> cases hends <;> cases stop <;> rfl

theorem locate_setMode {content : Content} {mode : Nat} (mode' : Nat)
    (h : d.locate p = .ok (.entry place))
    (hat : d.root.at? place = some (.file content mode)) :
    ∃ d', d.setMode p mode' = .ok d' ∧ d'.locate p = .ok (.entry place) ∧
      d'.root.at? place = some (.file content mode') := by
  have hfind : d.find p = .ok place := by
    rw [find, h]
    rfl
  refine ⟨d.put place (.file content mode'), ?_, ?_, at?_put_self hat⟩
  · rw [setMode, hfind]
    simp only [bind, Except.bind, hat]
  · exact locate_of_keeps (keeps_put hat) rfl h (.entry place)

end Operations

end Disk

end PinKeeper
