import Trivalent.Sat.Trail

/-!
# Rankings

Symbols by their part in conflicts.  A symbol gains by every conflict that it has a part in, and by
later conflicts more than by earlier ones, so the highest symbols are those that conflicts turn on
at present.
-/

namespace Trivalent.Sat

/-- How much symbols have gained by conflicts. -/
structure Ranking where
  /-- What a symbol has gained. -/
  scores : Array Nat
  /-- What a symbol gains by the next conflict. -/
  gain : Nat

namespace Ranking

/-- No symbol has gained anything yet. -/
def initial (symbols : Nat) : Ranking :=
  ⟨Array.replicate symbols 0, Nat.pow 10 3⟩

/-- The ranking with scores that are small again. -/
def scaleDown (ranking : Ranking) : Ranking :=
  if ranking.gain < Nat.pow 10 15 then ranking
  else ⟨ranking.scores.map (· / Nat.pow 10 12), ranking.gain / Nat.pow 10 12⟩

/-- Symbols have had a part in a conflict; the gain grows by a twentieth. -/
def reward (ranking : Ranking) (symbols : List Nat) : Ranking :=
  let gain := ranking.gain
  scaleDown
    ⟨symbols.foldl (fun scores symbol => scores.modify symbol (· + gain)) ranking.scores,
      gain + gain / 20⟩

/-- The highest of the first `count` symbols that are not assigned, if it is higher than `best`. -/
def highestFree (ranking : Ranking) (trail : Trail) : Nat → Option Nat → Nat → Option Nat
  | 0, best, _ => best
  | symbol + 1, best, top =>
      let score := ranking.scores.getD symbol 0
      if score < top || trail.isAssigned symbol then highestFree ranking trail symbol best top
      else highestFree ranking trail symbol (some symbol) score

/-- The highest symbol that is not assigned; of several ones the first. -/
def highest? (ranking : Ranking) (trail : Trail) : Option Nat :=
  highestFree ranking trail trail.symbols none 0

end Ranking

end Trivalent.Sat
