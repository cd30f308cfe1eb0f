import Trivalent.ModelFile.Loader

/-!
# Equality of systems

Systems are finite data, so it can be decided whether two of them are equal, and with it which system
a text describes.
-/

namespace Trivalent

namespace Expr

mutual

/-- Whether two expressions are the same. -/
def same : Expr → Expr → Bool
  | .literal a, .literal b => a == b
  | .predicate i, .predicate j => i == j
  | .not e, .not f => e.same f
  | .and es, .and fs => sameAll es fs
  | .or es, .or fs => sameAll es fs
  | _, _ => false

/-- Whether two lists of expressions are the same. -/
def sameAll : List Expr → List Expr → Bool
  | [], [] => true
  | e :: es, f :: fs => e.same f && sameAll es fs
  | _, _ => false

end

mutual

theorem same_iff (e f : Expr) : e.same f = true ↔ e = f := by
  cases e with
  | literal a => cases f <;> simp [same]
  | predicate i => cases f <;> simp [same]
  | not e =>
      cases f with
      | not f => simp [same, same_iff e f]
      | _ => simp [same]
  | and es =>
      cases f with
      | and fs => simp [same, sameAll_iff es fs]
      | _ => simp [same]
  | or es =>
      cases f with
      | or fs => simp [same, sameAll_iff es fs]
      | _ => simp [same]

theorem sameAll_iff (es fs : List Expr) : sameAll es fs = true ↔ es = fs := by
  cases es with
  | nil => cases fs <;> simp [sameAll]
  | cons e es =>
      cases fs with
      | nil => simp [sameAll]
      | cons f fs => simp [sameAll, same_iff e f, sameAll_iff es fs]

end

instance decidableEq : DecidableEq Expr := fun e f =>
  decidable_of_iff _ (same_iff e f)

end Expr

deriving instance DecidableEq for Term, Assignment, Transition, Process, NameTable, System,
  ModelFile.ModelText

/-- It can be decided whether a computation ends with a given value. -/
instance decidableEqOk {ε α : Type} [DecidableEq α] (computed : Except ε α) (a : α) :
    Decidable (computed = .ok a) :=
  match computed with
  | .error _ => isFalse nofun
  | .ok b => decidable_of_iff (b = a) ⟨congrArg Except.ok, Except.ok.inj⟩

end Trivalent
