/-!
# Proofs/Compositional — properties of a program that its parts have

Some properties hold of a program as soon as they hold of each operation in it: that it only reads,
or that it sends requests of certain kinds alone.  It is enough that they hold of a program that
does nothing and of one program followed by another.
-/

namespace PinKeeper

variable {m : Type → Type} [Monad m]

/-- A property of programs that a program has if its parts have it. -/
structure Compositional (P : (α : Type) → m α → Prop) : Prop where
  pure {α : Type} (a : α) : P α (pure a)
  bind {α β : Type} {x : m α} {f : α → m β} : P α x → (∀ a, P β (f a)) → P β (x >>= f)

end PinKeeper
