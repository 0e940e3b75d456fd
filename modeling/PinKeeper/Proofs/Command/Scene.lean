import PinKeeper.Proofs.Command.Authority
import PinKeeper.Proofs.Files.Agreement
import PinKeeper.Proofs.Http.Anonymous
import PinKeeper.Proofs.Policy.Store

/-!
# Proofs/Command/Scene — runs over a disk, and what they do not go by

A run may keep its files on a disk, and all else that it meets answers as it likes, and lets a write
break off where it likes (`Surroundings`).  What the run does is noted beside (`Deed`), so what it
finds and leaves is a `Scene`: the files, what was done, and the rest.

A program does not go by what a file holds (`Steady`) if from two scenes that agree but for this
file it gives the same, and leaves scenes that agree again.  Programs that are put together of such
programs are of this kind too, and so is each operation of the world but looking at the file.  So a
command that adds nothing does not go by any file (`steady_act`).  An addition looks once, at the
path that it is given (`act_add_eq`), and does not go by a file that is neither there nor below the
directory that is added (`alike_act_add`).
-/

namespace PinKeeper.Command

open Http

/-! ## Runs over a disk -/

/-- What a run does to what is around it, so far as it shows without credentials. -/
inductive Deed where
  | sent (request : Request)
  | written (path : String) (content : Content)
  | made (path : String)

/-- What is around a run: the files, what was done so far, and all else. -/
structure Scene (τ : Type) where
  disk : Disk
  deeds : List Deed
  outside : τ

/-- What a run meets that is not a file. -/
structure Surroundings (τ : Type) where
  exchange : Request → StateM τ (Option Reply)
  /-- Where a write to a path breaks off, if it does. -/
  stop : String → StateM τ (Option Disk.Break)
  log : String → StateM τ Unit
  decode : Option String → ByteArray → String
  now : StateM τ Time.Instant
  pause : Nat → StateM τ Unit
  environment : Environment
  home : Option String

namespace Scene

variable {τ α : Type}

/-- Notes a deed. -/
def note (e : Deed) : StateM (Scene τ) Unit :=
  modify fun s => { s with deeds := s.deeds ++ [e] }

/-- Does something outside. -/
def outsideOf (x : StateM τ α) : StateM (Scene τ) α := fun s =>
  ((x.run s.outside).1, { s with outside := (x.run s.outside).2 })

/-- Looks at the files. -/
def onFiles (f : Disk → α) : StateM (Scene τ) α := return f (← get).disk

/-- Changes the files. -/
def change (f : Disk → Except FileError Unit × Disk) : StateM (Scene τ) (Except FileError Unit) :=
  fun s => ((f s.disk).1, { s with disk := (f s.disk).2 })

/-- A change of the files that is made to its end or not at all. -/
def unlessRefused (f : Disk → Except FileError Disk) (d : Disk) : Except FileError Unit × Disk :=
  match f d with
  | .ok d => (.ok (), d)
  | .error e => (.error e, d)

end Scene

open Scene in
/-- World of a run that keeps its files on a disk. -/
def Surroundings.world {τ : Type} (o : Surroundings τ) : World (StateM (Scene τ)) where
  transport :=
    { exchange := fun r => do
        note (.sent r.bare)
        outsideOf (o.exchange r)
      write := fun path content => do
        note (.written path content)
        let stop ← outsideOf (o.stop path)
        change fun d => d.writeUntil stop path content
      log := fun text => outsideOf (o.log text)
      decode := o.decode }
  lookup path := onFiles fun d => d.entry path
  makeDirs path := do
    note (.made path)
    change (unlessRefused fun d => d.makeDirs path)
  now := outsideOf o.now
  pause delay := outsideOf (o.pause delay)
  environment := o.environment
  home := o.home

section Runs

variable {τ : Type} (o : Surroundings τ)

/-- A run of the program on a disk: how it ends, and what it leaves. -/
def Surroundings.ran (args : List String) (d : Disk) (t : τ) : Exit × Scene τ :=
  (program o.world args).run ⟨d, [], t⟩

theorem run_loadPolicy_bind {α : Type} (path : String)
    (f : Except Failure Policy → StateM (Scene τ) α) (s : Scene τ) :
    (loadPolicy o.world path >>= f).run s = (f (PolicyFile.load s.disk path)).run s := rfl

/-- A run that loads its policy is that of its command. -/
theorem run_program {args : List String} {i : Invocation} {path : String} {a : Action} {p : Policy}
    {s : Scene τ} (hread : Invocation.read o.environment args = .ok i)
    (hpath : PolicyFile.path o.environment o.home i.policyPath = .ok path)
    (htask : i.task = .act a) (hload : PolicyFile.load s.disk path = .ok p) :
    (program o.world args).run s = Prod.map Exit.ofResult id
      ((act o.world ⟨p, i.host, i.json, .ofEnvironment o.environment⟩ a).run s) := by
  have hread' : Invocation.read o.world.environment args = .ok i := hread
  have hpath' : PolicyFile.path o.world.environment o.world.home i.policyPath = .ok path := hpath
  have hrun : (run o.world i).run s
      = (act o.world ⟨p, i.host, i.json, .ofEnvironment o.environment⟩ a).run s := by
    rw [run, hpath', htask]
    dsimp only
    rw [run_loadPolicy_bind, hload]
    rfl
  rw [program, hread']
  change Prod.map Exit.ofResult id ((run o.world i).run s) = _
  rw [hrun]

end Runs

/-! ## Programs that do not go by a file -/

section Steady

variable {τ : Type} {place : List String}

/-- Scenes that agree but for one file. -/
structure Scene.AgreeBut (place : List String) (s s' : Scene τ) : Prop where
  disk : s.disk.AgreeBut place s'.disk
  deeds : s.deeds = s'.deeds
  outside : s.outside = s'.outside

/-- What two runs of a program give and leave agrees but for one file. -/
structure Alike (place : List String) {α : Type} (r r' : α × Scene τ) : Prop where
  result : r.1 = r'.1
  scene : r.2.AgreeBut place r'.2

/-- A program does not go by what the file at a place holds. -/
def Steady (place : List String) (α : Type) (x : StateM (Scene τ) α) : Prop :=
  ∀ s s' : Scene τ, s.AgreeBut place s' → Alike place (x.run s) (x.run s')

theorem Alike.bind {α β : Type} {x : StateM (Scene τ) α} {f : α → StateM (Scene τ) β}
    {s s' : Scene τ} (hx : Alike place (x.run s) (x.run s')) (hf : ∀ a, Steady place β (f a)) :
    Alike place ((x >>= f).run s) ((x >>= f).run s') := by
  have h := hf (x.run s).1 (x.run s).2 (x.run s').2 hx.scene
  change Alike place ((f (x.run s).1).run (x.run s).2) ((f (x.run s').1).run (x.run s').2)
  rwa [← hx.result]

theorem compositional_steady : Compositional (Steady (τ := τ) place) where
  pure _ _ _ h := ⟨rfl, h⟩
  bind hx hf s s' h := (hx s s' h).bind hf

theorem steady_note (e : Deed) : Steady (τ := τ) place Unit (Scene.note e) := fun _ _ h =>
  ⟨rfl, h.disk, congrArg (· ++ [e]) h.deeds, h.outside⟩

theorem steady_outsideOf {α : Type} (x : StateM τ α) : Steady place α (Scene.outsideOf x) := by
  intro s s' h
  have hrun : x.run s.outside = x.run s'.outside := congrArg x.run h.outside
  have hresult : (x.run s.outside).1 = (x.run s'.outside).1 := congrArg Prod.fst hrun
  exact ⟨hresult, h.disk, h.deeds, congrArg Prod.snd hrun⟩

theorem steady_change {f : Disk → Except FileError Unit × Disk}
    (hf : ∀ d d' : Disk, d.AgreeBut place d' →
      (f d).1 = (f d').1 ∧ (f d).2.AgreeBut place (f d').2) :
    Steady (τ := τ) place _ (Scene.change f) := by
  intro s s' h
  obtain ⟨hresult, hdisk⟩ := hf s.disk s'.disk h.disk
  exact ⟨hresult, hdisk, h.deeds, h.outside⟩

theorem agreeBut_unlessRefused {f : Disk → Except FileError Disk} {d d' : Disk}
    (h : d.AgreeBut place d') (hf : Disk.AlikeBut place (f d) (f d')) :
    (Scene.unlessRefused f d).1 = (Scene.unlessRefused f d').1 ∧
      (Scene.unlessRefused f d).2.AgreeBut place (Scene.unlessRefused f d').2 := by
  rw [Scene.unlessRefused, Scene.unlessRefused]
  generalize f d = r, f d' = r' at hf ⊢
  cases hf with
  | error e => exact ⟨rfl, h⟩
  | ok h' => exact ⟨rfl, h'⟩

end Steady

/-! ## Commands -/

section Commands

variable {τ : Type} {place : List String} (o : Surroundings τ)

theorem steady_send (r : Request) : Steady place _ (Http.send o.world.transport r) := by
  have h : Compositional (Steady (τ := τ) place) := compositional_steady
  have hexchange (r : Request) (_ : True) : Steady place _ (o.world.transport.exchange r) :=
    h.bind (steady_note _) fun _ => steady_outsideOf _
  exact h.send (fun _ => steady_outsideOf _) hexchange (fun _ _ _ _ _ => trivial) trivial

theorem steady_write (path : String) (content : Content) :
    Steady place _ (o.world.transport.write path content) :=
  compositional_steady.bind (steady_note _) fun _ =>
    compositional_steady.bind (steady_outsideOf _) fun stop =>
      steady_change fun _ _ h => h.writeUntil stop path content

theorem steady_makeDirs (path : String) : Steady place _ (o.world.makeDirs path) :=
  compositional_steady.bind (steady_note _) fun _ =>
    steady_change fun _ _ h => agreeBut_unlessRefused h (h.makeDirs path)

/-- **A command that adds nothing does not go by the file.** -/
theorem steady_act {c : Context} {a : Action} (ha : a.isAdd = false) :
    Steady place _ (act o.world c a) :=
  compositional_steady.command (fun _ => steady_outsideOf _) (steady_outsideOf _)
    (fun _ => steady_outsideOf _) (steady_makeDirs o) (steady_write o) (fun r _ => steady_send o r)
    (fun r _ => steady_send o r) ha

/-- The world, with a time that it is and an entry that is at every path. -/
def World.answering {m : Type → Type} [Monad m] (w : World m) (time : Time.Instant)
    (answer : Except FileError Entry) : World m :=
  { w with now := pure time, lookup := fun _ => pure answer }

/-- An addition asks for the time and looks at its path first. -/
theorem act_add_eq {m : Type → Type} [Monad m] [LawfulMonad m] (w : World m) (c : Context)
    (path profile : String) (recursive : Bool) (manifest : Option String) :
    act w c (.add path profile recursive manifest) = (do
      let time ← w.now
      let answer ← w.lookup path
      act (w.answering time answer) c (.add path profile recursive manifest)) := by
  simp only [act, Context.add, Upload.add, World.answering, pure_bind, bind_assoc]
  rfl

theorem run_act_add (c : Context) (path profile : String) (recursive : Bool)
    (manifest : Option String) (s : Scene τ) :
    (act o.world c (.add path profile recursive manifest)).run s =
      (act (o.world.answering (o.now.run s.outside).1 (s.disk.entry path)) c
        (.add path profile recursive manifest)).run
          { s with outside := (o.now.run s.outside).2 } := by
  rw [act_add_eq]
  rfl

/-- An addition that is not recursive does not go by what a directory holds. -/
theorem act_answering_directory {m : Type → Type} [Monad m] [LawfulMonad m] (w : World m)
    (c : Context) (time : Time.Instant) (path profile : String) (manifest : Option String)
    (es es' : List (String × Entry)) :
    act (w.answering time (.ok (.directory es))) c (.add path profile false manifest)
      = act (w.answering time (.ok (.directory es'))) c (.add path profile false manifest) := by
  simp only [act, Context.add, Upload.add, World.answering, pure_bind, Entry.isDirectory,
    Bool.not_false, Bool.and_self, if_true]
  rfl

/-- The file at a place is what is at a path, or is added with the directory that is there. -/
def Takes (d : Disk) (place : List String) (path : String) (recursive : Bool) : Prop :=
  ∃ location, d.locate path = .ok (.entry location) ∧ location <+: place ∧
    (location = place ∨ recursive = true)

/-- **An addition does not go by a file that it does not add.** -/
theorem alike_act_add {c : Context} {path profile : String} {recursive : Bool}
    {manifest : Option String} {s s' : Scene τ} (h : s.AgreeBut place s')
    (hpath : ¬Takes s.disk place path recursive) :
    Alike place ((act o.world c (.add path profile recursive manifest)).run s)
      ((act o.world c (.add path profile recursive manifest)).run s') := by
  have hsteady (time : Time.Instant) (answer : Except FileError Entry) : Steady place _
      (act (o.world.answering time answer) c (.add path profile recursive manifest)) :=
    compositional_steady.addition (fun _ => steady_outsideOf _) (compositional_steady.pure _)
      (compositional_steady.pure _) (steady_write o) (steady_send o)
  have hafter : Scene.AgreeBut place { s with outside := (o.now.run s.outside).2 }
      { s' with outside := (o.now.run s.outside).2 } := ⟨h.disk, h.deeds, rfl⟩
  rw [run_act_add, run_act_add, ← h.outside]
  by_cases habove : ∃ location, s.disk.locate path = .ok (.entry location) ∧ location <+: place
  · obtain ⟨location, hlocate, hplace⟩ := habove
    have hnot : ¬(location = place ∨ recursive = true) := fun htakes =>
      hpath ⟨location, hlocate, hplace, htakes⟩
    obtain ⟨hne, hflag⟩ := not_or.1 hnot
    obtain ⟨es, es', hes, hes'⟩ := h.disk.entry_directories hlocate hplace hne
    obtain rfl := Bool.eq_false_iff.2 hflag
    rw [hes, hes', act_answering_directory o.world c _ path profile manifest es es']
    exact hsteady _ _ _ _ hafter
  · rw [← h.disk.entry_eq fun location hlocate hplace => habove ⟨location, hlocate, hplace⟩]
    exact hsteady _ _ _ _ hafter

end Commands

end PinKeeper.Command
