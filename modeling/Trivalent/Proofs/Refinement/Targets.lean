import Trivalent.Proofs.Refinement.Soundness

/-!
# Targets are not lost in a refinement

An abstract system over-approximates a concrete one if every run of the concrete system has a run of
the abstract one that covers it.  Then a check of the two that finds no run to the target is right
about the concrete system, whichever paths the solver picks on the way.
-/

namespace Trivalent

/-- A check of two systems that finds no run to the target up to the bound is right: if the abstract
system over-approximates the concrete one, then no run of the concrete system of at most so many
steps meets the target. -/
theorem not_meets_of_check_noneFound {σ : Type} {solver : Sat.Solver σ} {start : σ}
    {abstractText concreteText : String} {abstract concrete : System}
    {configuration : Configuration} {events : List Event} {report : Report}
    (loaded : ModelFile.load abstractText = .ok abstract)
    (loadedToo : ModelFile.load concreteText = .ok concrete)
    (validated : (configuration.validate concrete).2 = .ok ())
    (reachability : configuration.property = .reachability) (correct : solver.Correct)
    (overApproximates : ∀ n ≤ configuration.bound, ∀ c, concrete.IsRun true n c →
      ∃ a, abstract.IsRun true n a ∧ ∀ t ≤ n, System.Covers abstract concrete (a t) (c t))
    (checked : check solver start concrete (some abstract) configuration =
      some (.ok (events, .ok report))) (noneFound : report.feedback.verdict = .noneFound) :
    ∀ n ≤ configuration.bound, ¬concrete.Meets configuration true n := by
  have numbered := ModelFile.numbered_of_load loaded
  have numberedToo := ModelFile.numbered_of_load loadedToo
  have validToo := Configuration.valid_of_validate validated
  obtain ⟨validatedToo, excluded⟩ :=
    excluded_of_check numbered numberedToo correct.sound validToo checked noneFound
  have valid := Configuration.valid_of_validate validatedToo
  rintro n inside ⟨c, run, meets⟩
  obtain ⟨a, abstractRun, covers⟩ := overApproximates n inside c run
  have meetsToo := ((covers n (Nat.le_refl n)).meets_iff valid validToo).mpr meets
  have violates := (System.violates_reachability_iff reachability).mpr ⟨abstractRun, meetsToo⟩
  have violatesToo := (System.violates_reachability_iff reachability).mpr ⟨run, meets⟩
  exact System.not_continuesRefuted reachability valid validToo run
    ((excluded n inside a violates).continuesRefuted violatesToo covers)

/-- A process that stays where it is, and an abstraction of it that might leave: the abstract paths to
the target are refuted one by one, and nothing else is found. -/
theorem not_meets_of_check_noneFound_of_staying :
    let abstractText := "\x7b\"predicates\": \x7b\x7d, \"processes\": " ++
      "[[\x7b\"source\": 0, \"destination\": 0\x7d, \x7b\"source\": 0, \"destination\": 1, " ++
        "\"guard\": \"choice(false, false)\"\x7d]]\x7d"
    let concreteText := "\x7b\"predicates\": \x7b\x7d, \"processes\": " ++
      "[[\x7b\"source\": 0, \"destination\": 0\x7d, " ++
        "\x7b\"source\": 1, \"destination\": 1\x7d]]\x7d"
    let abstract : System := ⟨.empty, .empty,
      [⟨0, [⟨0, 0, .always, []⟩, ⟨0, 1, .choice (.literal false) (.literal false), []⟩]⟩]⟩
    let concrete : System := ⟨.empty, .empty, [⟨0, [⟨0, 0, .always, []⟩, ⟨1, 1, .always, []⟩]⟩]⟩
    let configuration : Configuration := ⟨.reachability, 1, [0], .all, 2, false, true⟩
    ModelFile.load abstractText = .ok abstract ∧ ModelFile.load concreteText = .ok concrete ∧
      (∀ n ≤ 2, ∀ c, concrete.IsRun true n c → ∃ a, abstract.IsRun true n a ∧
        ∀ t ≤ n, System.Covers abstract concrete (a t) (c t)) ∧
      (∃ events report, check Sat.splitting [] concrete (some abstract) configuration =
          some (.ok (events, .ok report)) ∧ report.feedback.verdict = .noneFound ∧
            report.rounds = [⟨1, .noneFound⟩, ⟨2, .noneFound⟩]) ∧
        ∀ n ≤ 2, ¬concrete.Meets configuration true n := by
  intro abstractText concreteText abstract concrete configuration
  have loaded : ModelFile.load abstractText = .ok abstract := by decide +kernel
  have loadedToo : ModelFile.load concreteText = .ok concrete := by decide +kernel
  have validated : (configuration.validate concrete).2 = .ok () := by decide +kernel
  have overApproximates : ∀ n ≤ configuration.bound, ∀ c, concrete.IsRun true n c →
      ∃ a, abstract.IsRun true n a ∧ ∀ t ≤ n, System.Covers abstract concrete (a t) (c t) := by
    intro n _ c run
    have stays := run.location_eq_zero (p := 0) rfl (by decide)
    let resting : State := ⟨fun _ => 0, fun _ => .unknown⟩
    have rests : abstract.Moves true 0 resting resting :=
      System.moves_self rfl List.mem_cons_self rfl rfl rfl rfl
    use fun _ => resting
    constructor
    · constructor
      · exact ⟨fun _ _ => rfl, fun _ member => absurd member List.not_mem_nil⟩
      · exact fun _ _ => ⟨0, rests⟩
    · intro t within
      constructor
      · intro p inside _
        obtain rfl : p = 0 := Nat.lt_one_iff.mp inside
        exact (stays t within).symm
      · exact fun _ _ _ => nofun
  have ends : Refinement.verdictWithin Sat.splitting 4 [] concrete abstract configuration =
      some (.noneFound, [⟨1, .noneFound⟩, ⟨2, .noneFound⟩]) := by decide +kernel
  obtain ⟨events, report, checked, noneFound, rounds⟩ := exists_check_of_verdictWithin ends
  exact ⟨loaded, loadedToo, overApproximates, ⟨events, report, checked, noneFound, rounds⟩,
    not_meets_of_check_noneFound loaded loadedToo validated rfl Sat.splitting_correct
      overApproximates checked noneFound⟩

end Trivalent
