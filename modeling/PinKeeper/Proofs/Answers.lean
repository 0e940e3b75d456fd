/-!
# Proofs/Answers — what a program answers in every state

A program over a cluster that answers as it likes has no state to speak of that one could follow.
Much of what it answers is settled all the same: by the answers of its parts, whatever state they
leave for the next.  `Answers` is kept by composition (`Answers.pure`, `Answers.bind`), so a
property of answers is proved along the text of a program.  Where one run is followed, it goes on
from what its first part answered and left (`run_bind_of_run`), also where it keeps a record beside
the state (`run_bind_of_run_run`).  What may fail is followed by its success
(`exists_of_bind_eq_ok`).
-/

namespace PinKeeper

/-- What may fail and did not has not failed in its first part. -/
theorem exists_of_bind_eq_ok {ε α β : Type} {x : Except ε α} {f : α → Except ε β} {b : β}
    (h : (x >>= f) = .ok b) : ∃ a, x = .ok a ∧ f a = .ok b := by
  cases x with
  | error => cases h
  | ok a => exact ⟨a, rfl, h⟩

/-- A computation goes on from what its first part answered and left. -/
theorem run_bind_of_run {σ α β : Type} {x : StateM σ α} {f : α → StateM σ β} {s t : σ} {a : α}
    (h : x.run s = (a, t)) : (x >>= f).run s = (f a).run t := by
  rw [StateT.run_bind, h]
  rfl

section Layers

variable {ρ σ α β : Type} {r r' : ρ} {s t : σ} {a : α}

/-- A computation over two states goes on from what its first part answered and left of both. -/
theorem run_bind_of_run_run {x : StateT ρ (StateM σ) α} {f : α → StateT ρ (StateM σ) β}
    (h : (x.run r).run s = ((a, r'), t)) :
    ((x >>= f).run r).run s = ((f a).run r').run t := by
  rw [StateT.run_bind]
  exact run_bind_of_run h

/-- A computation over the inner state leaves the outer one. -/
theorem run_run_liftM {x : StateM σ α} (h : x.run s = (a, t)) (r : ρ) :
    ((liftM x : StateT ρ (StateM σ) α).run r).run s = ((a, r), t) := by
  change (x >>= fun a => pure (a, r)).run s = _
  exact run_bind_of_run h

end Layers

/-- In every state a program answers with something that has a property. -/
def Answers {σ α : Type} (A : α → Prop) (x : StateM σ α) : Prop := ∀ s, A (x.run s).1

namespace Answers

variable {σ α β : Type} {A B : α → Prop} {C : β → Prop} {x : StateM σ α} {f : α → StateM σ β}

theorem mono (hx : Answers A x) (h : ∀ a, A a → B a) : Answers B x := fun s => h _ (hx s)

theorem pure {a : α} (h : A a) : Answers A (pure a : StateM σ α) := fun _ => h

theorem bind (hx : Answers A x) (hf : ∀ a, A a → Answers C (f a)) : Answers C (x >>= f) :=
  fun s => hf _ (hx s) (x.run s).2

/-- Nothing needs to be known of the first of two programs. -/
theorem andThen (hf : ∀ a, Answers C (f a)) : Answers C (x >>= f) := fun s => hf _ (x.run s).2

end Answers

end PinKeeper
