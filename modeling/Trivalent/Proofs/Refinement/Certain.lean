import Trivalent.Proofs.Refinement.Candidate
import Trivalent.Proofs.Refinement.Evaluation
import Trivalent.Proofs.Search.Certain
import Trivalent.Proofs.Search.Exact

/-!
# Refinements that are never uncertain

A refinement asks the concrete system about the paths of witnesses only, which do not mention the
wildcard.  So if the concrete system has no choices, its answers never depend on unknown predicates.
-/

namespace Trivalent

namespace Refinement

open Trivalent.Action

variable {σ : Type} {solver : Sat.Solver σ} {abstract concrete : Task}
  {searches searches' : Refinement σ} {k : Nat}

section Choiceless

variable (built : concrete.WellBuilt) (declared : concrete.system.Declared)
  (choiceless : concrete.system.Choiceless) (sound : solver.Sound)

include built declared choiceless sound

/-- A refinement never ends because the concrete system is uncertain. -/
theorem not_uncertain_of_refines (builtAbstract : abstract.WellBuilt)
    {condition : Valuation → Prop} {stage : Stage}
    (resumes : searches.abstract.Resumes abstract condition)
    (resumesToo : searches.concrete.Resumes concrete fun v =>
      ∀ f ∈ ([] : List Formula), f.eval v = true)
    (within : stage.depth ≤ abstract.configuration.bound + 1) :
    ¬Refines solver abstract concrete stage searches (.error (.uncertain k)) searches' := by
  intro refines
  generalize isError : Except.error (CheckError.uncertain k) = result at refines
  induction refines generalizing condition with
  | settled _ _ | confirmed _ _ _ _ => contradiction
  | unstated _ _ _ _ _ => exact nomatch Except.error.inj isError
  | failed failed =>
      obtain rfl := Except.error.inj isError
      exact Search.not_uncertain_evaluate failed
  | stopped searched possible failed =>
      obtain rfl := Except.error.inj isError
      have candidate := candidate_of_runs builtAbstract sound resumes (fun _ => Iff.rfl) within
        searched possible
      obtain ⟨u, witnessed, _⟩ := candidate.witnessed
      rcases fails_replay_iff.mp failed with ⟨_, _, isFault, _⟩ | ⟨path, _, isPath, failed, _⟩
      · contradiction
      · refine resumesToo.not_uncertain built declared choiceless sound witnessed.room ?_ failed
        rw [List.nil_append, List.forall_mem_singleton]
        exact fun v wildcard => Witness.eval_formula_fix built.fits isPath v wildcard
  | refuted searched possible replayed _ _ _ ih =>
      have candidate := candidate_of_runs builtAbstract sound resumes (fun _ => Iff.rfl) within
        searched possible
      obtain ⟨u, witnessed, _⟩ := candidate.witnessed
      obtain ⟨path, searchToo, _, isReplayed, rfl⟩ := runs_replay_iff.mp replayed
      obtain ⟨_, knowsToo, _⟩ := Search.runs_evaluateAt built sound resumesToo
        (fun _ => Iff.rfl) witnessed.room isReplayed
      exact ih candidate.knows.resumes knowsToo.resumes (Nat.le_succ_of_le candidate.inside) isError

end Choiceless

end Refinement

/-- In a system without choices every predicate is known at all steps of every unrolling, however
unknown ones are read.  So whatever calls it is asked in, as long as their conditions and constraints
do not mention the wildcard, a search finds no violation that is only possible and never reports that
the system is uncertain; nor does a check of the system by way of an abstract one. -/
theorem Search.never_uncertain_of_choiceless {text : String} {system : System}
    {configuration : Configuration} (loaded : ModelFile.load text = .ok system)
    (validated : (configuration.validate system).2 = .ok ()) (choiceless : system.Choiceless)
    {task : Task} (isBuilt : (Task.build system configuration).2 = .ok task) :
    (∀ n < Word.limit, ∀ v, task.Unrolls n v → ∀ t ≤ n, system.IsKnown (v.stateAt system t)) ∧
    (∀ (σ : Type) (solver : Sat.Solver σ) (start : σ) (calls : List Search.Call)
      (call : Search.Call), solver.Sound →
        (∀ c ∈ calls ++ [call], c.InRange ∧ ∀ f ∈ c.formulas, .wildcard ∉ f.occurrences) →
          let outcome := call.action solver task (Search.after solver task calls (.initial start))
          (∀ feedback, outcome.result = .ok feedback → feedback.verdict ≠ .possible) ∧
            ∀ k, outcome.result ≠ .error (.uncertain k)) ∧
    (∀ (σ : Type) (solver : Sat.Solver σ) (start : σ) (textToo : String) (abstract : System)
      (events : List Event) (result : Except CheckError Report), solver.Sound →
        ModelFile.load textToo = .ok abstract →
          check solver start system (some abstract) configuration = some (.ok (events, result)) →
            ∀ k, result ≠ .error (.uncertain k)) := by
  have declared := ModelFile.declared_of_load loaded
  have built := Task.wellBuilt_of_loaded loaded validated isBuilt
  obtain ⟨rfl, rfl, _⟩ := Task.build_ok isBuilt
  refine ⟨?_, ?_, ?_⟩
  · exact fun n room v unrolls => unrolls.isKnown built declared choiceless room
  · intro σ solver start calls call sound asked
    obtain ⟨before, last⟩ := List.forall_mem_append.mp asked
    obtain ⟨inRange, unmentioned⟩ := List.forall_mem_singleton.mp last
    obtain ⟨_, conditions, consists, known⟩ :=
      (Search.consists_initial built start).afterAny solver built fun c member => (before c member).1
    have ignored : ∀ f ∈ conditions ++ call.formulas, f.IgnoresReading := by
      intro f member
      apply Formula.ignoresReading_of_not_mem
      rcases List.mem_append.mp member with old | new
      · rcases known f old with none | ⟨c, listed, taken⟩
        · exact absurd none List.not_mem_nil
        · exact (before c listed).2 f (Search.Call.mem_formulas_of_lasting taken)
      · exact unmentioned f new
    exact consists.resumes.certain built declared choiceless sound inRange ignored
  · intro σ solver start textToo abstract events result sound loadedToo checked k uncertain
    obtain ⟨task', abstractTask, searches, isTask, isAbstractTask, ends⟩ :=
      exists_check_result_iff.mp ⟨events, checked⟩
    obtain rfl : task = task' := Except.ok.inj (isBuilt.symm.trans isTask)
    subst uncertain
    cases valid : (abstractTask.configuration.validate abstractTask.system).2 with
    | error refusal =>
        obtain ⟨isRefusal, _⟩ := (Refinement.endsWith_refine_refused_iff valid).mp ends
        obtain rfl := Except.error.inj isRefusal
        obtain ⟨_, ⟨⟩⟩ | ⟨_, _, ⟨⟩⟩ := Configuration.validate_error valid
    | ok _ =>
        have refines := (Refinement.endsWith_refine_iff valid).mp ends
        obtain ⟨rfl, same, _⟩ := Task.build_ok isAbstractTask
        rw [same] at valid
        have builtAbstract := Task.wellBuilt_of_build (ModelFile.numbered_of_load loadedToo)
          (Configuration.valid_of_validate valid) isAbstractTask
        exact Refinement.not_uncertain_of_refines built declared choiceless sound builtAbstract
          (Search.resumes_fresh start) (Search.resumes_fresh start) (Nat.zero_le _) refines

/-- A process that goes to its target where a predicate holds, and negates the predicate. -/
theorem Search.never_uncertain_of_choiceless_of_negating :
    let text := "\x7b\"predicates\": \x7b\"x\": 0\x7d, \"processes\": [[\x7b\"source\": 0, " ++
      "\"destination\": 1, \"guard\": \"x\", \"assignments\": [\x7b\"predicate\": 0, " ++
        "\"RHS\": \"~x\"\x7d]\x7d]]\x7d"
    let negation : Transition := ⟨0, 1, .plain (.predicate 0), [⟨0, .plain (.not (.predicate 0))⟩]⟩
    let system : System := ⟨.ofList [("x", 0)], .empty, [⟨0, [negation]⟩]⟩
    let configuration : Configuration := ⟨.reachability, 1, [0], .all, 1, false, false⟩
    ModelFile.load text = .ok system ∧ (configuration.validate system).2 = .ok () ∧
      system.Choiceless ∧ Sat.splitting.Sound ∧
        ∃ task, (Task.build system configuration).2 = .ok task ∧
          (∃ v, task.Unrolls 1 v ∧ v .wildcard = true ∧
            ∀ t ≤ 1, system.IsKnown (v.stateAt system t)) ∧
          (∃ feedback, (Search.evaluate Sat.splitting task 0 (.constant true) (.initial [])).result =
            .ok feedback ∧ feedback.verdict ≠ .possible) ∧
          ∃ events result, check Sat.splitting [] system (some system) configuration =
            some (.ok (events, result)) ∧ ∀ k, result ≠ .error (.uncertain k) := by
  intro text negation system configuration
  have loaded : ModelFile.load text = .ok system := by decide +kernel
  have validated : (configuration.validate system).2 = .ok () := by decide +kernel
  have choiceless : system.Choiceless := by decide
  have sound := Sat.splitting_correct.sound
  have fits : system.Fits := by
    intro process member
    obtain rfl := List.mem_singleton.mp member
    decide
  obtain ⟨task, isBuilt, built⟩ := Task.exists_wellBuilt loaded validated fits
  obtain ⟨known, searched, checks⟩ :=
    Search.never_uncertain_of_choiceless loaded validated choiceless isBuilt
  obtain ⟨isSystem, isConfiguration, _⟩ := Task.build_ok isBuilt
  let s (t : Nat) : State := ⟨fun _ => t, fun _ => if t = 0 then .yes else .no⟩
  have moves : system.Moves true 0 (s 0) (s 1) := by
    refine ⟨_, rfl, _, List.mem_singleton_self _, ?_⟩
    constructor
    case source => rfl
    case destination => rfl
    case guard => rfl
    case updates => exact List.forall_mem_singleton.mpr (by decide)
    case frame =>
      intro id member unassigned
      obtain rfl := List.mem_singleton.mp member
      exact absurd rfl (unassigned _ (List.mem_singleton_self _))
    case idle => exact fun q inside other => absurd (Nat.lt_one_iff.mp inside) other
  have violates : system.Violates configuration true 1 s := by
    refine (System.violates_reachability_iff rfl).mpr ⟨⟨⟨fun _ _ => rfl, ?_⟩, ?_⟩, ?_⟩
    · intro entry member
      obtain rfl := List.mem_singleton.mp member
      rfl
    · intro t before
      obtain rfl := Nat.lt_one_iff.mp before
      exact ⟨0, moves⟩
    · exact fun _ _ => rfl
  rw [← isSystem, ← isConfiguration] at violates
  obtain ⟨v, unrolls, _, optimistic, _⟩ :=
    Task.exists_unrolls_of_violates built (by decide) violates
  have room : task.configuration.bound + 1 < Word.limit := by
    rw [isConfiguration]
    decide
  obtain ⟨feedback, _, ⟨answered, _⟩, _⟩ :=
    Search.exists_runs_evaluate_initial built Sat.splitting_correct room []
  have unmentioned : ∀ c ∈ [] ++ [Search.Call.evaluate 0 (.constant true)],
      c.InRange ∧ ∀ f ∈ c.formulas, .wildcard ∉ f.occurrences := by
    intro c member
    obtain rfl := List.mem_singleton.mp member
    exact ⟨trivial, List.forall_mem_singleton.mpr (by decide)⟩
  obtain ⟨certain, _⟩ := searched _ Sat.splitting [] [] _ sound unmentioned
  have found : Refinement.verdictWithin Sat.splitting 1 [] system system configuration =
      some (.definite, []) := by decide +kernel
  obtain ⟨events, report, checked, _⟩ := exists_check_of_verdictWithin found
  exact ⟨loaded, validated, choiceless, sound, task, isBuilt,
    ⟨v, unrolls, optimistic, known 1 (by decide) v unrolls⟩,
    ⟨feedback, answered, certain feedback answered⟩,
    events, .ok report, checked, checks _ _ _ _ _ _ _ sound loaded checked⟩

end Trivalent
