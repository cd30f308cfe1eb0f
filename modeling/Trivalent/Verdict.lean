/-!
# Verdicts

How a violation is classified, and the two queries that classify it: first with unknown predicates
read as either value, then with unknown predicates read as neither.
-/

namespace Trivalent

/-- The classification of a violation. -/
inductive Verdict where
  /-- There is a violation however unknown predicates are resolved. -/
  | definite
  /-- There is a violation for some resolution of unknown predicates. -/
  | possible
  /-- There is no violation up to the bound. -/
  | noneFound
  deriving DecidableEq, Repr

/-- The name of a verdict. -/
def Verdict.name : Verdict → String
  | .definite => "Definite"
  | .possible => "Possible"
  | .noneFound => "NoneFound"

/-- The two queries for a timestep, in the order in which they are asked. -/
inductive Phase where
  /-- Unknown predicates are read as either value. -/
  | optimistic
  /-- Unknown predicates are read as neither value. -/
  | definite
  deriving DecidableEq, Repr, Ord, Hashable

/-- The name of a query. -/
def Phase.name : Phase → String
  | .optimistic => "optimistic"
  | .definite => "definite"

end Trivalent
