import Mathlib.Data.Fintype.Pigeonhole
import Mathlib.Data.Finite.Prod
import Trivalent.Proofs.Semantics.Information

/-!
# Violations and information

A path that ends at the target is matched by one that ends at the target.  A path that comes back to
one of its states need not be matched by one that comes back after as many steps, since the matching
path may learn something on the way.  But the loop can be repeated, and as there are only so many
statuses the matching path comes back after some of the rounds.
-/

namespace Trivalent

/-! ## Rounds of a loop -/

/-- The step of a path of `n` steps that step `t` repeats, when the path goes through its steps from
`r` on again and again. -/
def repeatedStep (n r t : Nat) : Nat :=
  if t < r then t else r + (t - r) % (n - r)

section Rounds

variable {n r t : Nat}

theorem repeatedStep_of_lt (before : t < n) : repeatedStep n r t = t := by
  unfold repeatedStep
  split
  · rfl
  · rw [Nat.mod_eq_of_lt (by omega)]
    omega

theorem repeatedStep_self (start : r < n) : repeatedStep n r n = r := by
  rw [repeatedStep, if_neg (by omega), Nat.mod_self, Nat.add_zero]

theorem repeatedStep_lt (start : r < n) : repeatedStep n r t < n := by
  unfold repeatedStep
  have inside := Nat.mod_lt (t - r) (Nat.sub_pos_of_lt start)
  split <;> omega

theorem le_repeatedStep (since : r ≤ t) : r ≤ repeatedStep n r t := by
  rw [repeatedStep, if_neg (Nat.not_lt_of_le since)]
  exact Nat.le_add_right _ _

/-- Each round goes through the same steps. -/
theorem repeatedStep_add_rounds (since : r ≤ t) (rounds : Nat) :
    repeatedStep n r (t + rounds * (n - r)) = repeatedStep n r t := by
  rw [repeatedStep, if_neg (by omega), repeatedStep, if_neg (Nat.not_lt_of_le since),
    Nat.sub_add_comm since, Nat.add_mul_mod_self_right]

/-- After a step comes the next one, or the first one of the loop if the round is over. -/
theorem repeatedStep_succ (start : r < n) (t : Nat) :
    repeatedStep n r (t + 1) = repeatedStep n r t + 1 ∨
      repeatedStep n r t + 1 = n ∧ repeatedStep n r (t + 1) = r := by
  rcases Nat.lt_or_ge t r with early | since
  · rw [repeatedStep_of_lt (Nat.lt_trans early start),
      repeatedStep_of_lt (Nat.lt_of_le_of_lt early start)]
    exact .inl rfl
  · rw [repeatedStep, if_neg (by omega), repeatedStep, if_neg (Nat.not_lt_of_le since),
      Nat.sub_add_comm since, ← Nat.mod_add_mod]
    have inside := Nat.mod_lt (t - r) (Nat.sub_pos_of_lt start)
    rcases Nat.lt_or_eq_of_le (Nat.succ_le_of_lt inside) with next | ended
    · rw [Nat.mod_eq_of_lt next]
      exact .inl rfl
    · rw [Nat.succ_eq_add_one] at ended
      rw [ended, Nat.mod_self]
      omega

end Rounds

instance : Finite Status :=
  Finite.of_injective (fun s => (s.reads false, s.reads true)) fun s t same => by
    cases s <;> cases t <;> first | rfl | exact absurd same (by decide)

namespace System

variable {system : System} {configuration : Configuration} {wildcard : Bool} {n r : Nat}
  {taken : Nat → Nat × Transition} {s : Nat → State}

/-- A path of `n` steps ends in the state of step `r`.  From there on it did not meet the target, and
every process moved if it has to be fair. -/
structure ClosesAt (system : System) (configuration : Configuration) (n r : Nat)
    (taken : Nat → Nat × Transition) (s : Nat → State) : Prop where
  start : r < n
  closes : system.SameState (s r) (s n)
  avoids : ∀ t, r ≤ t → t < n → ¬configuration.Meets (s t)
  fair : configuration.fairness = true →
    ∀ p < system.processes.length, ∃ t, r ≤ t ∧ t < n ∧ (taken t).1 = p

/-- A path of `n` steps violates the property. -/
def Spoils (system : System) (configuration : Configuration) (n : Nat)
    (taken : Nat → Nat × Transition) (s : Nat → State) : Prop :=
  match configuration.property with
  | .reachability => configuration.Meets (s n)
  | .liveness => ∃ r, system.ClosesAt configuration n r taken s

theorem spoils_reachability_iff (reachability : configuration.property = .reachability) :
    system.Spoils configuration n taken s ↔ configuration.Meets (s n) := by
  unfold Spoils
  rw [reachability]

theorem spoils_liveness_iff (liveness : configuration.property = .liveness) :
    system.Spoils configuration n taken s ↔ ∃ r, system.ClosesAt configuration n r taken s := by
  unfold Spoils
  rw [liveness]

/-- Among infinitely many states at the same locations two are the same. -/
theorem exists_sameState (system : System) (u : Nat → State)
    (places : ∀ i j, ∀ p < system.processes.length, (u i).location p = (u j).location p) :
    ∃ i j, i < j ∧ system.SameState (u i) (u j) := by
  let ids := system.predicates.values
  obtain ⟨i, j, differ, same⟩ := Finite.exists_ne_map_eq_of_infinite
    fun i (index : Fin ids.length) => (u i).status ids[index]
  have agree (id : Nat) (member : id ∈ ids) : (u i).status id = (u j).status id := by
    obtain ⟨index, inside, rfl⟩ := List.getElem_of_mem member
    exact congrFun same ⟨index, inside⟩
  rcases Nat.lt_or_gt_of_ne differ with before | after
  · exact ⟨i, j, before, places i j, agree⟩
  · exact ⟨j, i, after, places j i, fun id member => (agree id member).symm⟩

/-- A violation of `n` steps is matched by another one, which begins with the same transitions through
related states.  It may have more steps if it is a loop. -/
structure Matches (system : System) (configuration : Configuration) (wildcard : Bool)
    (R : State → State → Prop) (n : Nat) (taken : Nat → Nat × Transition) (s : Nat → State)
    (n' : Nat) (taken' : Nat → Nat × Transition) (u : Nat → State) : Prop where
  path : system.IsPath wildcard n' taken' u
  spoils : system.Spoils configuration n' taken' u
  longer : n ≤ n'
  sameLength : configuration.property = .reachability → n' = n
  taken : ∀ t < n, taken' t = taken t
  related : ∀ t ≤ n, R (s t) (u t)

namespace IsSimulation

variable {R : State → State → Prop} (simulation : system.IsSimulation wildcard R)
  (path : system.IsPath wildcard n taken s) {first : State} (related : R (s 0) first)

include simulation path related

/-- A path that closes a loop is matched for ever. -/
theorem exists_repeating (closes : system.ClosesAt configuration n r taken s) :
    ∃ u : Nat → State, u 0 = first ∧ ∀ t, R (s (repeatedStep n r t)) (u t) ∧
      system.Takes wildcard (taken (repeatedStep n r t)).1 (taken (repeatedStep n r t)).2
        (u t) (u (t + 1)) := by
  apply exists_sequence (P := fun t state => R (s (repeatedStep n r t)) state)
    (Q := fun t => system.Takes wildcard (taken (repeatedStep n r t)).1
      (taken (repeatedStep n r t)).2)
  · rw [repeatedStep_of_lt (Nat.zero_lt_of_lt closes.start)]
    exact related
  · intro t state isRelated
    obtain ⟨has, takes⟩ := path _ (repeatedStep_lt closes.start)
    obtain ⟨state', takesToo, relatedToo⟩ := simulation.step _ _ _ _ _ has takes isRelated
    refine ⟨state', takesToo, ?_⟩
    rcases repeatedStep_succ closes.start t with next | ⟨ended, again⟩
    · rwa [next]
    · rw [ended] at relatedToo
      rw [again]
      exact simulation.of_same _ _ _ closes.closes.symm relatedToo

/-- A path that closes a loop is matched by one that closes a loop, maybe after more rounds. -/
theorem exists_closesAt (valid : ∀ p ∈ configuration.processes, p < system.processes.length)
    (closes : system.ClosesAt configuration n r taken s) :
    ∃ n' r' taken' u, u 0 = first ∧ n ≤ n' ∧ system.IsPath wildcard n' taken' u ∧
      system.ClosesAt configuration n' r' taken' u ∧ (∀ t < n, taken' t = taken t) ∧
        ∀ t ≤ n, R (s t) (u t) := by
  obtain ⟨u, begins, goesOn⟩ := simulation.exists_repeating path related closes
  have start := closes.start
  have places (t : Nat) := simulation.location _ _ (goesOn t).1
  -- The loop is entered again at the start of each round, always at the same locations.
  obtain ⟨early, late, before, same⟩ := exists_sameState system
    (fun round => u (r + round * (n - r))) fun i j p inside => by
      have here (round : Nat) := places (r + round * (n - r)) p inside
      simp only [repeatedStep_add_rounds (Nat.le_refl r)] at here
      rw [← here i, ← here j]
  have longer : early * (n - r) + (n - r) ≤ late * (n - r) := by
    rw [← Nat.succ_mul]
    exact Nat.mul_le_mul_right _ before
  refine ⟨r + late * (n - r), r + early * (n - r), fun t => taken (repeatedStep n r t), u, begins,
    by omega, ?_, ?_, fun t inside => congrArg taken (repeatedStep_of_lt inside), ?_⟩
  · intro t _
    exact ⟨(path _ (repeatedStep_lt start)).1, (goesOn t).2⟩
  · constructor
    case start => omega
    case closes => exact same
    case avoids =>
      intro t since _ meets
      have inLoop : r ≤ repeatedStep n r t := le_repeatedStep (by omega)
      refine closes.avoids _ inLoop (repeatedStep_lt start) ?_
      exact (Configuration.meets_iff fun p member => places t p (valid p member)).mpr meets
    case fair =>
      intro fairness p inside
      obtain ⟨t, since, inRound, moved⟩ := closes.fair fairness p inside
      refine ⟨t + early * (n - r), Nat.add_le_add_right since _, by omega, ?_⟩
      rw [← moved]
      apply congrArg fun t => (taken t).1
      rw [repeatedStep_add_rounds since, repeatedStep_of_lt inRound]
  · intro t within
    have isRelated := (goesOn t).1
    rcases Nat.lt_or_eq_of_le within with inside | rfl
    · rwa [repeatedStep_of_lt inside] at isRelated
    · rw [repeatedStep_self start] at isRelated
      exact simulation.of_same _ _ _ closes.closes isRelated

/-- A path that violates the property is matched from a related state by one that does. -/
theorem exists_matches (valid : ∀ p ∈ configuration.processes, p < system.processes.length)
    (spoils : system.Spoils configuration n taken s) :
    ∃ n' taken' u, u 0 = first ∧
      system.Matches configuration wildcard R n taken s n' taken' u := by
  cases property : configuration.property with
  | reachability =>
      rw [spoils_reachability_iff property] at spoils
      obtain ⟨u, begins, pathToo, allRelated⟩ := simulation.exists_path path related
      refine ⟨n, taken, u, begins, pathToo, ?_, Nat.le_refl n, fun _ => rfl, fun _ _ => rfl,
        allRelated⟩
      rw [spoils_reachability_iff property]
      exact (Configuration.meets_iff fun p member =>
        simulation.location _ _ (allRelated n (Nat.le_refl n)) p (valid p member)).mp spoils
  | liveness =>
      rw [spoils_liveness_iff property] at spoils
      obtain ⟨r, closes⟩ := spoils
      obtain ⟨n', r', taken', u, begins, longer, pathToo, closesToo, same, allRelated⟩ :=
        simulation.exists_closesAt path related valid closes
      have never : configuration.property = .reachability → n' = n := by
        rw [property]
        exact nofun
      exact ⟨n', taken', u, begins, pathToo, (spoils_liveness_iff property).mpr ⟨r', closesToo⟩,
        longer, never, same, allRelated⟩

end IsSimulation

end System

end Trivalent
