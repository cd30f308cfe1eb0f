import Trivalent.Proofs.Refinement.Soundness

/-!
# Loops that continue refuted paths

A path of the abstract system that closes a loop is excluded at all later depths once the concrete
system closes none on it at the same depth.  The concrete system may follow the path and close its
loop later; such loops, and no others, are lost when a check of two systems finds nothing.
-/

namespace Trivalent

/-- When a check of two systems finds no loop up to the bound and the abstract system has a lasso for
every lasso of the concrete one, then every lasso of the concrete system of at most so many steps
continues a path that was refuted at a smaller depth.  So there is none exactly if there is none
that does. -/
theorem isLasso_continuesRefuted_of_check_noneFound {σ : Type} {solver : Sat.Solver σ} {start : σ}
    {abstractText concreteText : String} {abstract concrete : System}
    {configuration : Configuration} {events : List Event} {report : Report}
    (loaded : ModelFile.load abstractText = .ok abstract)
    (loadedToo : ModelFile.load concreteText = .ok concrete)
    (validated : (configuration.validate concrete).2 = .ok ())
    (liveness : configuration.property = .liveness) (correct : solver.Correct)
    (overApproximates : ∀ n r c mover, concrete.IsLasso configuration true n r c mover →
      ∃ a moverToo, abstract.IsLasso configuration true n r a moverToo ∧
        ∀ t ≤ n, System.Covers abstract concrete (a t) (c t))
    (checked : check solver start concrete (some abstract) configuration =
      some (.ok (events, .ok report))) (noneFound : report.feedback.verdict = .noneFound) :
    (∀ n ≤ configuration.bound, ∀ r c mover, concrete.IsLasso configuration true n r c mover →
        System.ContinuesRefuted abstract concrete configuration report.rounds n c) ∧
      ((∃ n ≤ configuration.bound, ∃ r c mover,
          concrete.IsLasso configuration true n r c mover) ↔
        ∃ n ≤ configuration.bound, ∃ r c mover,
          concrete.IsLasso configuration true n r c mover ∧
            System.ContinuesRefuted abstract concrete configuration report.rounds n c) := by
  have numbered := ModelFile.numbered_of_load loaded
  have numberedToo := ModelFile.numbered_of_load loadedToo
  have validToo := Configuration.valid_of_validate validated
  obtain ⟨_, excluded⟩ :=
    excluded_of_check numbered numberedToo correct.sound validToo checked noneFound
  have continues : ∀ n ≤ configuration.bound, ∀ r c mover,
      concrete.IsLasso configuration true n r c mover →
        System.ContinuesRefuted abstract concrete configuration report.rounds n c := by
    intro n inside r c mover lasso
    obtain ⟨a, moverToo, abstractLasso, covers⟩ := overApproximates n r c mover lasso
    have violates := (System.violates_liveness_iff liveness).mpr ⟨r, moverToo, abstractLasso⟩
    have violatesToo := (System.violates_liveness_iff liveness).mpr ⟨r, mover, lasso⟩
    exact (excluded n inside a violates).continuesRefuted violatesToo covers
  constructor
  · exact continues
  constructor
  · rintro ⟨n, inside, r, c, mover, lasso⟩
    exact ⟨n, inside, r, c, mover, lasso, continues n inside r c mover lasso⟩
  · rintro ⟨n, inside, r, c, mover, lasso, _⟩
    exact ⟨n, inside, r, c, mover, lasso⟩

/-! ## A loop that is lost -/

namespace Toggling

/-- The text of a process that stays where it is and negates a predicate at every step. -/
def concreteText : String :=
  "\x7b\"predicates\": \x7b\"x\": 0\x7d, \"processes\": [[\x7b\"source\": 0, \"destination\": 0, " ++
    "\"assignments\": [\x7b\"predicate\": 0, \"RHS\": \"~x\"\x7d]\x7d, " ++
      "\x7b\"source\": 1, \"destination\": 1\x7d]]\x7d"

/-- A process that stays where it is and negates a predicate at every step. -/
def concrete : System where
  predicates := .ofList [("x", 0)]
  initial := .empty
  processes := [⟨0, [⟨0, 0, .always, [⟨0, .plain (.not (.predicate 0))⟩]⟩, ⟨1, 1, .always, []⟩]⟩]

/-- The text of the process without the predicate, which may be stuck. -/
def abstractText : String :=
  "\x7b\"predicates\": \x7b\x7d, \"processes\": [[\x7b\"source\": 0, \"destination\": 0, " ++
    "\"guard\": \"choice(false, false)\"\x7d, \x7b\"source\": 1, \"destination\": 1\x7d]]\x7d"

/-- The process without the predicate, which may be stuck. -/
def abstract : System where
  predicates := .empty
  initial := .empty
  processes := [⟨0, [⟨0, 0, .choice (.literal false) (.literal false), []⟩, ⟨1, 1, .always, []⟩]⟩]

/-- Loops of at most two steps in which location 1 is not met. -/
def configuration : Configuration :=
  ⟨.liveness, 1, [0], .all, 2, false, true⟩

/-- The state of the process at location 0 when the predicate has a value. -/
def holding (value : Bool) : State :=
  ⟨fun _ => 0, fun _ => .ofBool value⟩

theorem load_concreteText : ModelFile.load concreteText = .ok concrete := by
  decide +kernel

theorem load_abstractText : ModelFile.load abstractText = .ok abstract := by
  decide +kernel

theorem validate_concrete : (configuration.validate concrete).2 = .ok () := by
  decide +kernel

theorem validate_abstract : (configuration.validate abstract).2 = .ok () := by
  decide +kernel

/-- The process negates the predicate. -/
theorem moves_holding (value : Bool) :
    concrete.Moves true 0 (holding value) (holding !value) := by
  refine ⟨_, rfl, _, List.mem_cons_self, rfl, rfl, rfl, ?_, ?_, fun _ _ _ => rfl⟩
  · intro assignment member
    obtain rfl := List.mem_singleton.mp member
    cases value <;> rfl
  · intro id member unassigned
    obtain rfl := List.mem_singleton.mp member
    exact absurd rfl (unassigned _ List.mem_cons_self)

/-- The predicate has its value again after two steps. -/
theorem isLasso_concrete :
    concrete.IsLasso configuration true 2 0 (fun t => holding (t % 2 == 0)) fun _ => 0 := by
  constructor
  case initial =>
    constructor
    · exact fun _ _ => rfl
    · intro entry member
      obtain rfl := List.mem_singleton.mp member
      rfl
  case moves =>
    intro t _
    have next : ((t + 1) % 2 == 0) = !(t % 2 == 0) := by
      rcases Nat.mod_two_eq_zero_or_one t with even | odd
      · simp [Nat.add_mod, even]
      · simp [Nat.add_mod, odd]
    rw [next]
    exact moves_holding _
  case start => exact Nat.two_pos
  case closes => exact ⟨fun _ _ => rfl, fun _ _ => rfl⟩
  case avoids =>
    intro t _ _ meets
    exact absurd (meets 0 List.mem_cons_self) nofun
  case fair => exact nofun

/-- The abstract process has a lasso wherever the concrete one does. -/
theorem exists_isLasso_abstract {n r : Nat} {c : Nat → State} {mover : Nat → Nat}
    (lasso : concrete.IsLasso configuration true n r c mover) :
    ∃ a moverToo, abstract.IsLasso configuration true n r a moverToo ∧
      ∀ t ≤ n, System.Covers abstract concrete (a t) (c t) := by
  have stays := lasso.isRun.location_eq_zero (p := 0) rfl (by decide)
  let resting : State := ⟨fun _ => 0, fun _ => .unknown⟩
  have rests : abstract.Moves true 0 resting resting :=
    System.moves_self rfl List.mem_cons_self rfl rfl rfl rfl
  use fun _ => resting, fun _ => 0
  constructor
  · constructor
    case initial => exact ⟨fun _ _ => rfl, fun _ member => absurd member List.not_mem_nil⟩
    case moves => exact fun _ _ => rests
    case start => exact lasso.start
    case closes => exact ⟨fun _ _ => rfl, fun _ _ => rfl⟩
    case avoids =>
      intro t _ _ meets
      exact absurd (meets 0 List.mem_cons_self) nofun
    case fair => exact nofun
  · intro t within
    constructor
    · intro p inside _
      obtain rfl : p = 0 := Nat.lt_one_iff.mp inside
      exact (stays t within).symm
    · exact fun _ _ _ => nofun

/-- The abstract process closes a loop in one step, the concrete one does not, and nothing else is
found. -/
theorem exists_check : ∃ events report,
    check Sat.splitting [] concrete (some abstract) configuration = some (.ok (events, .ok report)) ∧
      report.feedback.verdict = .noneFound ∧ report.rounds = [⟨1, .noneFound⟩] := by
  have ends : Refinement.verdictWithin Sat.splitting 3 [] concrete abstract configuration =
      some (.noneFound, [⟨1, .noneFound⟩]) := by decide +kernel
  exact exists_check_of_verdictWithin ends

end Toggling

open Toggling

/-- The loop of the toggling process continues the path that was refuted at depth 1. -/
theorem isLasso_continuesRefuted_of_check_noneFound_of_toggling :
    ModelFile.load abstractText = .ok abstract ∧ ModelFile.load concreteText = .ok concrete ∧
      (configuration.validate concrete).2 = .ok () ∧ Sat.splitting.Correct ∧
        ∃ events report,
          check Sat.splitting [] concrete (some abstract) configuration =
              some (.ok (events, .ok report)) ∧ report.feedback.verdict = .noneFound ∧
            (∀ n ≤ 2, ∀ r c mover, concrete.IsLasso configuration true n r c mover →
              System.ContinuesRefuted abstract concrete configuration report.rounds n c) ∧
              ((∃ n ≤ 2, ∃ r c mover, concrete.IsLasso configuration true n r c mover) ↔
                ∃ n ≤ 2, ∃ r c mover, concrete.IsLasso configuration true n r c mover ∧
                  System.ContinuesRefuted abstract concrete configuration report.rounds n c) := by
  rcases exists_check with ⟨events, report, checked, noneFound, _⟩
  exact ⟨load_abstractText, load_concreteText, validate_concrete, Sat.splitting_correct, events,
    report, checked, noneFound,
    isLasso_continuesRefuted_of_check_noneFound load_abstractText load_concreteText
      validate_concrete rfl Sat.splitting_correct (fun _ _ _ _ => exists_isLasso_abstract)
      checked noneFound⟩

/-- A check of two systems may find nothing although the concrete system has a lasso within the
bound, and the abstract system has one for every lasso of the concrete one. -/
theorem exists_isLasso_of_check_noneFound :
    ModelFile.load abstractText = .ok abstract ∧ ModelFile.load concreteText = .ok concrete ∧
      (configuration.validate abstract).2 = .ok () ∧
      (configuration.validate concrete).2 = .ok () ∧ configuration.property = .liveness ∧
      Sat.splitting.Correct ∧
      (∀ n r c mover, concrete.IsLasso configuration true n r c mover →
        ∃ a moverToo, abstract.IsLasso configuration true n r a moverToo ∧
          ∀ t ≤ n, System.Covers abstract concrete (a t) (c t)) ∧
      (∃ events report, check Sat.splitting [] concrete (some abstract) configuration =
        some (.ok (events, .ok report)) ∧ report.feedback.verdict = .noneFound) ∧
      ∃ n ≤ configuration.bound, ∃ r c mover,
        concrete.IsLasso configuration true n r c mover := by
  rcases exists_check with ⟨events, report, checked, noneFound, _⟩
  exact ⟨load_abstractText, load_concreteText, validate_abstract, validate_concrete, rfl,
    Sat.splitting_correct, fun _ _ _ _ => exists_isLasso_abstract,
    ⟨events, report, checked, noneFound⟩, 2, Nat.le_refl 2, 0, _, _, isLasso_concrete⟩

end Trivalent
