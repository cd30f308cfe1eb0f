/-!
# Loops

A loop repeats a step until there is a result.  As it may go on for ever, a loop has surroundings of
its own: over steps that have no effects, it has a result or none.
-/

namespace Trivalent

/-- A loop over steps in surroundings `m`. -/
structure Loop (m : Type → Type) (κ α : Type) where
  /-- Goes on with something else, or has a result. -/
  step : κ → m (κ ⊕ α)

/-- The result of a loop, or none if the loop goes on for ever. -/
def Loop.result? {κ α : Type} (loop : Loop Id κ α) (k : κ) : Option α :=
  match loop.step k with
  | .inl k => loop |>.result? k
  | .inr a => some a
partial_fixpoint

/-- Surroundings `n` of loops over steps in surroundings `m`. -/
class Loops (m : Type → Type) (n : outParam (Type → Type)) where
  /-- Does something once. -/
  once {α : Type} : m α → n α
  /-- Repeats a step until there is a result. -/
  repeatUntil {κ α : Type} : (κ → m (κ ⊕ α)) → κ → n α

@[default_instance]
instance : Loops Id Option where
  once a := some a
  repeatUntil step := Loop.result? ⟨step⟩

instance {m n : Type → Type} {τ : Type} [Monad m] [Loops m n] :
    Loops (StateT τ m) (StateT τ n) where
  once x := fun t => Loops.once (x.run t)
  repeatUntil step k := fun t =>
    Loops.repeatUntil (fun (k, t) => do
      match ← (step k).run t with
      | (.inl k, t) => return Sum.inl (k, t)
      | (.inr a, t) => return Sum.inr (a, t)) (k, t)

end Trivalent
