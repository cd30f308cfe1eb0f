import Trivalent.Proofs.Sat.Preferring
import Trivalent.Proofs.Search.Exact
import Trivalent.Proofs.Search.Reached
import Trivalent.Proofs.System.Equality
import Trivalent.Proofs.Witness.Shown

/-!
# Definite verdicts and their witnesses

A definite verdict tells that some violation does not depend on unknown predicates, but the witness is
taken from the optimistic query.  So it shows a violation that may depend on them, unless all
violations of that length are definite: whatever valuation the optimistic query can be answered with,
some correct solver answers with it.
-/

namespace Trivalent

/-- A witness shows a violation that does not depend on unknown predicates. -/
def Witness.IsDefinite (system : System) (configuration : Configuration) (n : Nat)
    (witness : List WitnessStep) : Prop :=
  ∃ s, Witness.Shows system n witness s ∧ system.Violates configuration false n s

namespace Task

variable {task : Task} {conditions : List Formula} {n : Nat}

/-- The witness of every optimistic violation of `n` steps under some conditions shows a definite
one. -/
def AllDefinite (task : Task) (conditions : List Formula) (n : Nat) : Prop :=
  ∀ v witness, task.Satisfies conditions n v → v .wildcard = true →
    Witness.decode task.system task.configuration.fairness v n = .ok witness →
      Witness.IsDefinite task.system task.configuration n witness

/-- What a definite verdict tells: the witness shows an optimistic violation under the conditions of
the search, and there is a definite one of the same length. -/
structure Confirms (task : Task) (conditions : List Formula) (feedback : Feedback) : Prop where
  witness : ∃ v, task.Satisfies conditions feedback.step v ∧ v .wildcard = true ∧
    Witness.decode task.system task.configuration.fairness v feedback.step = .ok feedback.witness
  shown : Witness.ShowsViolation task.system task.configuration true feedback.step feedback.witness
  definite : task.Satisfiable conditions feedback.step false
  violates : ∃ s, task.system.Violates task.configuration false feedback.step s

theorem Satisfiable.violates {wildcard : Bool} (built : task.WellBuilt) (room : n < Word.limit)
    (satisfiable : task.Satisfiable conditions n wildcard) :
    ∃ s, task.system.Violates task.configuration wildcard n s := by
  rcases satisfiable with ⟨v, ⟨unrolls, property, _⟩, rfl⟩
  exact ⟨_, violates_of_unrolls built room unrolls
    (((denotes_property built n).holds_iff v).mp property)⟩

/-- A definite violation that is found confirms the conditions under which it was searched for. -/
theorem Finds.confirms {condition property : Valuation → Prop} {feedback : Feedback}
    (finds : task.Finds condition property n feedback) (built : task.WellBuilt)
    (room : n < Word.limit)
    (satisfies : ∀ v, task.Unrolls n v → condition v → property v → task.Satisfies conditions n v)
    (definite : feedback.verdict = .definite) : task.Confirms conditions feedback := by
  obtain rfl := finds.step
  obtain ⟨v, unrolls, holds, has, reads, decoded⟩ := finds.witness
  have satisfied := satisfies v unrolls holds has
  have satisfiable : task.Satisfiable conditions feedback.step false := by
    obtain ⟨v', unrolls', holds', has', reads'⟩ := finds.definite_iff.mp definite
    exact ⟨v', satisfies v' unrolls' holds' has', reads'⟩
  constructor
  case witness => exact ⟨v, satisfied, reads, decoded⟩
  case shown =>
    rw [← reads]
    exact Witness.showsViolation_of_unrolls built room unrolls
      (((denotes_property built _).holds_iff v).mp satisfied.property) decoded
  case definite => exact satisfiable
  case violates => exact satisfiable.violates built room

theorem Confirms.isDefinite {feedback : Feedback} (confirms : task.Confirms conditions feedback)
    (all : task.AllDefinite conditions feedback.step) :
    Witness.IsDefinite task.system task.configuration feedback.step feedback.witness := by
  obtain ⟨v, satisfies, reads, decoded⟩ := confirms.witness
  exact all v _ satisfies reads decoded

end Task

namespace Search

open Trivalent.Action

variable {σ : Type} {solver : Sat.Solver σ} {task : Task} {start : σ} {conditions : List Formula}
  {search search' : Search σ} {condition : Formula} {feedback : Feedback} {first depth : Nat}

/-! ## What definite verdicts tell -/

/-- A search that answers with a definite violation confirms its conditions. -/
theorem Reached.confirms (built : task.WellBuilt) (sound : solver.Sound)
    (reached : Reached solver task start conditions search)
    (runs : Runs (evaluate solver task first condition) search feedback search')
    (definite : feedback.verdict = .definite) :
    task.Confirms (conditions ++ [condition]) feedback := by
  have resumes := reached.resumes built sound
  obtain rfl := first_eq_of_runs runs
  rcases Nat.lt_or_ge task.configuration.bound search.step with behind | within
  · obtain rfl := (runs_evaluate_behind resumes behind runs).1
    exact absurd definite nofun
  obtain ⟨answers, knows, depth⟩ := runs_evaluate built sound resumes (fun _ => Iff.rfl)
    (Nat.le_succ_of_le within) runs
  cases answers with
  | exhausted none _ =>
      obtain rfl := none
      exact absurd definite nofun
  | found n _ _ _ finds =>
      have room := knows.room
      rw [depth, Feedback.depth_of_found finds.found, finds.step] at room
      refine finds.confirms built room (fun v unrolls holds reaches => ?_) definite
      exact (Task.satisfies_append_singleton_iff built).mpr ⟨unrolls, holds, reaches⟩

/-- A search at one depth that answers with a definite violation confirms its constraints as well. -/
theorem Reached.confirmsAt (built : task.WellBuilt) (sound : solver.Sound)
    (reached : Reached solver task start conditions search) {constraints : List Formula}
    (room : depth < Word.limit)
    (runs : Runs (evaluateAt solver task constraints depth first) search feedback search')
    (definite : feedback.verdict = .definite) :
    feedback.step = depth ∧ task.Confirms (conditions ++ constraints) feedback := by
  obtain ⟨answers, _⟩ := runs_evaluateAt built sound (reached.resumes built sound)
    (fun _ => Iff.rfl) room runs
  cases answers with
  | refuted none _ =>
      obtain rfl := none
      exact absurd definite nofun
  | confirmed _ finds =>
      refine ⟨finds.step, finds.confirms built room (fun v unrolls holds reaches => ?_) definite⟩
      exact (Task.satisfies_append_iff built).mpr ⟨unrolls, holds, reaches⟩

/-! ## Preferred witnesses -/

section Preferences

variable {condition property : Valuation → Prop} {f : Formula} {u : Valuation}
  (prefers : solver.Prefers u)

include prefers

/-- A query is answered with the valuation that the solver prefers. -/
theorem eq_of_runs_query {phase : Phase} {answer : Option Valuation}
    (all : ∀ g ∈ search.run ++ [f, reading phase], g.eval u = true)
    (runs : Runs (query solver f depth phase) search answer search') : answer = some u := by
  have preferred := prefers search.solver _ all
  rcases runs with ⟨result, _⟩
  rw [query_eq] at result
  split at result
  · rename_i v _ solved
    rw [solved] at preferred
    obtain rfl := Except.ok.inj result
    exact congrArg some (Sat.Answer.satisfiable.inj preferred)
  · rename_i _ solved
    rw [solved] at preferred
    contradiction
  · contradiction

/-- A depth is classified with the witness that the solver prefers. -/
theorem decode_of_runs_classify (knows : search.Knows task condition)
    (meaning : f.Expresses property) (unrolls : task.Unrolls search.step u) (holds : condition u)
    (has : property u) (reads : u .wildcard = true) {answer : Option Feedback}
    (runs : Runs (classify solver task f depth) search answer search') :
    ∃ feedback, answer = some feedback ∧
      Witness.decode task.system task.configuration.fairness u depth = .ok feedback.witness := by
  have all : ∀ g ∈ search.run ++ [f, reading .optimistic], g.eval u = true := by
    rw [List.forall_mem_append, List.forall_mem_cons, List.forall_mem_singleton]
    exact ⟨(knows.run_iff u).mpr ⟨unrolls, holds⟩, (meaning u).mpr has,
      (reading_expresses .optimistic u).mpr reads⟩
  rcases runs_bind_iff.mp runs with ⟨optimistic, second, asked, runs⟩
  obtain rfl := eq_of_runs_query prefers all asked
  rcases runs_bind_iff.mp runs with ⟨witness, third, decoded, runs⟩
  rcases runs_ofFault_iff.mp decoded with ⟨isDecoded, rfl⟩
  rcases runs_bind_iff.mp runs with ⟨definite, fourth, _, runs⟩
  rcases runs_bind_iff.mp runs with ⟨_, fifth, _, runs⟩
  obtain ⟨rfl, _⟩ := runs_pure_iff.mp runs
  exact ⟨_, rfl, isDecoded⟩

/-- A sweep ends with the witness that the solver prefers, if it ends where that is one. -/
theorem decode_of_runs_sweep (built : task.WellBuilt) (sound : solver.Sound)
    (knows : search.Knows task condition) (here : search.step = depth)
    (unrolls : task.Unrolls feedback.step u) (holds : condition u)
    (reaches : task.Reaches feedback.step u) (reads : u .wildcard = true)
    (found : feedback.verdict ≠ .noneFound) {count : Nat}
    (runs : Runs (sweep solver task count depth) search feedback search') :
    Witness.decode task.system task.configuration.fairness u feedback.step =
      .ok feedback.witness := by
  induction count generalizing search depth with
  | zero =>
      rcases runs_bind_iff.mp runs with ⟨_, between, _, runs⟩
      obtain ⟨rfl, _⟩ := runs_pure_iff.mp runs
      exact absurd rfl found
  | succ count ih =>
      obtain ⟨f, answer, second, meaning, classified, _, classifies, rest⟩ :=
        runs_sweep_succ built sound knows here runs
      cases answer with
      | some answer =>
          obtain ⟨rfl, _⟩ := rest
          obtain rfl := here
          rw [classifies.step] at unrolls reaches ⊢
          obtain ⟨answer', same, decoded⟩ :=
            decode_of_runs_classify prefers knows meaning unrolls holds reaches reads classified
          rw [Option.some.inj same, decoded]
      | none =>
          obtain ⟨third, knows', step, runs⟩ := rest
          exact ih knows' step runs

/-- So does a search from the beginning. -/
theorem decode_of_runs_evaluate (built : task.WellBuilt) (sound : solver.Sound) {g : Formula}
    (satisfies : task.Satisfies [g] feedback.step u) (reads : u .wildcard = true)
    (found : feedback.verdict ≠ .noneFound)
    (runs : Runs (evaluate solver task first g) (initial start) feedback search') :
    Witness.decode task.system task.configuration.fairness u feedback.step =
      .ok feedback.witness := by
  obtain ⟨rfl, second, begun, runs⟩ := begun_of_runs runs
  obtain ⟨knows, step⟩ := runs_begin ((resumes_initial start).push fun _ => Iff.rfl) begun
  have holds : g.eval u = true := satisfies.conditions g (List.mem_singleton_self g)
  exact decode_of_runs_sweep prefers built sound knows step satisfies.unrolls ⟨trivial, holds⟩
    (((Task.denotes_property built _).holds_iff u).mp satisfies.property) reads found runs

/-- And one at a single depth. -/
theorem decode_of_runs_evaluateAt (built : task.WellBuilt) {constraints : List Formula}
    (room : depth < Word.limit) (satisfies : task.Satisfies constraints depth u)
    (reads : u .wildcard = true)
    (runs : Runs (evaluateAt solver task constraints depth first) (initial start) feedback search') :
    Witness.decode task.system task.configuration.fairness u depth = .ok feedback.witness := by
  obtain ⟨f, answer, between, asked, knows, rfl, classified, rest⟩ :=
    runs_evaluateAt_classify built (resumes_initial start) (fun _ => Iff.rfl) room runs
  have reaches := ((Task.denotes_property built _).holds_iff u).mp satisfies.property
  obtain ⟨feedback', rfl, decoded⟩ := decode_of_runs_classify prefers knows asked
    satisfies.unrolls trivial ⟨satisfies.conditions, reaches⟩ reads classified
  rwa [← rest.1]

end Preferences

/-! ## When witnesses are definite -/

/-- Whatever correct solver answers it, a search that has not been used yet gives a definite witness
to a definite verdict. -/
def ShowsDefinite (task : Task)
    (ask : ∀ {σ : Type}, Sat.Solver σ → Nat → Action Id (Search σ) Feedback) : Prop :=
  ∀ (σ : Type) (solver : Sat.Solver σ) (start : σ) (first : Nat) (feedback : Feedback)
    (search : Search σ), solver.Correct → Runs (ask solver first) (initial start) feedback search →
      feedback.verdict = .definite →
        Witness.IsDefinite task.system task.configuration feedback.step feedback.witness

section Exactness

variable (built : task.WellBuilt)

include built

/-- A search from the beginning finds the first depth at which its condition can be satisfied, or
there is none. -/
theorem first_of_runs_evaluate (sound : solver.Sound)
    (runs : Runs (evaluate solver task first condition) (initial start) feedback search') :
    (feedback = .noneUpTo task.configuration.bound ∧
      ∀ n ≤ task.configuration.bound, ¬task.Satisfiable [condition] n true) ∨
    (feedback.verdict ≠ .noneFound ∧ feedback.step ≤ task.configuration.bound ∧
      task.Satisfiable [condition] feedback.step true ∧
        (∀ m < feedback.step, ¬task.Satisfiable [condition] m true) ∧
          (feedback.verdict = .definite ↔ task.Satisfiable [condition] feedback.step false)) := by
  obtain rfl := first_eq_of_runs runs
  obtain ⟨answers, _⟩ := runs_evaluate built sound (resumes_fresh start) (fun _ => Iff.rfl)
    (Nat.zero_le _) runs
  cases answers with
  | exhausted none never =>
      refine .inl ⟨none, fun n within satisfiable => never n (Nat.zero_le n) within ?_⟩
      exact (Task.possible_iff_satisfiable built).mpr satisfiable
  | found n _ within least finds =>
      obtain rfl := finds.step
      refine .inr ⟨finds.found, within, ?_, fun m before satisfiable => ?_, ?_⟩
      · exact (Task.possible_iff_satisfiable built).mp finds.possible
      · exact least m (Nat.zero_le m) before ((Task.possible_iff_satisfiable built).mpr satisfiable)
      · exact finds.definite_iff.trans (Task.possible_iff_satisfiable built)

/-- All correct solvers give definite witnesses to definite violations that a search from the
beginning finds exactly if, where there is a definite one among the first, all of them are. -/
theorem isDefinite_of_evaluate_iff (room : task.configuration.bound + 1 < Word.limit)
    (condition : Formula) :
    ShowsDefinite task (fun solver first => evaluate solver task first condition) ↔
      ∀ n ≤ task.configuration.bound, (∀ m < n, ¬task.Satisfiable [condition] m true) →
        task.Satisfiable [condition] n false → task.AllDefinite [condition] n := by
  constructor
  · intro always n within least definite v witness satisfies reads decoded
    have correct := Sat.preferring_correct v
    obtain ⟨feedback, search, runs⟩ := exists_runs_evaluate built correct room (resumes_fresh [])
      fun _ => Iff.rfl
    rcases first_of_runs_evaluate built correct.sound runs with
      ⟨_, never⟩ | ⟨found, _, possible, leastToo, definite_iff⟩
    · exact absurd ⟨v, satisfies, reads⟩ (never n within)
    · obtain rfl : feedback.step = n := by
        rcases Nat.lt_trichotomy feedback.step n with before | same | after
        · exact absurd possible (least _ before)
        · exact same
        · exact absurd ⟨v, satisfies, reads⟩ (leastToo n after)
      have shown := decode_of_runs_evaluate (Sat.preferring_prefers v) built correct.sound satisfies
        reads found runs
      obtain rfl := Except.ok.inj (decoded.symm.trans shown)
      exact always _ _ _ _ _ _ correct runs (definite_iff.mpr definite)
  · intro all σ solver start first feedback search correct runs definite
    rcases first_of_runs_evaluate built correct.sound runs with
      ⟨rfl, _⟩ | ⟨_, within, _, least, definite_iff⟩
    · exact absurd definite nofun
    · have confirms := Reached.fresh.confirms built correct.sound runs definite
      exact confirms.isDefinite (all _ within least (definite_iff.mp definite))

/-- All correct solvers give definite witnesses to definite violations at one depth exactly if, where
there is a definite one under the constraints, all of them are. -/
theorem isDefinite_of_evaluateAt_iff (constraints : List Formula) (room : depth < Word.limit) :
    ShowsDefinite task (fun solver first => evaluateAt solver task constraints depth first) ↔
      (task.Satisfiable constraints depth false → task.AllDefinite constraints depth) := by
  constructor
  · intro always definite v witness satisfies reads decoded
    have correct := Sat.preferring_correct v
    have possible (wildcard : Bool) : task.Possible (fun v => ∀ f ∈ ([] : List Formula), f.eval v)
        (fun v => (∀ f ∈ constraints, f.eval v) ∧ task.Reaches depth v) depth wildcard ↔
          task.Satisfiable constraints depth wildcard := Task.possibleAt_iff_satisfiable built
    obtain ⟨feedback, search, runs⟩ := exists_runs_evaluateAt built correct (resumes_fresh [])
      (fun _ => Iff.rfl) room (Nat.zero_le _) ((possible false).mpr definite)
    have shown := decode_of_runs_evaluateAt (Sat.preferring_prefers v) built room satisfies reads runs
    obtain rfl := Except.ok.inj (decoded.symm.trans shown)
    obtain ⟨answers, _⟩ := runs_evaluateAt built correct.sound (resumes_fresh []) (fun _ => Iff.rfl)
      room runs
    cases answers with
    | refuted _ never => exact absurd ((possible true).mpr ⟨v, satisfies, reads⟩) never
    | confirmed isDefinite finds =>
        obtain rfl := finds.step
        exact always _ _ _ _ _ _ correct runs isDefinite
  · intro all σ solver start first feedback search correct runs definite
    obtain ⟨rfl, confirms⟩ := Reached.fresh.confirmsAt built correct.sound room runs definite
    exact confirms.isDefinite (all confirms.definite)

end Exactness

end Search

/-- A definite verdict confirms the conditions of the search: its witness shows an optimistic
violation that satisfies them, and some violation of the same length is definite.  The witness itself
is definite, whatever correct solver is used, exactly if all optimistic violations of that length are
wherever one of them is. -/
theorem Search.confirms_of_definite {text : String} {system : System}
    {configuration : Configuration} (loaded : ModelFile.load text = .ok system)
    (validated : (configuration.validate system).2 = .ok ()) {task : Task}
    (isBuilt : (Task.build system configuration).2 = .ok task) :
    (∀ (σ : Type) (solver : Sat.Solver σ) (start : σ) (conditions : List Formula)
      (search search' : Search σ) (first : Nat) (feedback : Feedback), solver.Sound →
        Search.Reached solver task start conditions search → feedback.verdict = .definite →
          (∀ condition, Action.Runs (Search.evaluate solver task first condition) search feedback
            search' → task.Confirms (conditions ++ [condition]) feedback) ∧
          (∀ constraints depth, depth < Word.limit →
            Action.Runs (Search.evaluateAt solver task constraints depth first) search feedback
              search' → feedback.step = depth ∧ task.Confirms (conditions ++ constraints) feedback)) ∧
    (configuration.bound + 1 < Word.limit → ∀ condition,
      (Search.ShowsDefinite task (fun solver first =>
          Search.evaluate solver task first condition) ↔
        ∀ n ≤ configuration.bound, (∀ m < n, ¬task.Satisfiable [condition] m true) →
          task.Satisfiable [condition] n false → task.AllDefinite [condition] n)) ∧
    (∀ constraints depth, depth < Word.limit →
      (Search.ShowsDefinite task (fun solver first =>
          Search.evaluateAt solver task constraints depth first) ↔
        (task.Satisfiable constraints depth false → task.AllDefinite constraints depth))) := by
  have built := Task.wellBuilt_of_loaded loaded validated isBuilt
  obtain ⟨rfl, rfl, _⟩ := Task.build_ok isBuilt
  refine ⟨?_, ?_, ?_⟩
  · intro σ solver start conditions search search' first feedback sound reached definite
    constructor
    · intro condition runs
      exact reached.confirms built sound runs definite
    · intro constraints depth room runs
      exact reached.confirmsAt built sound room runs definite
  · exact fun room condition => Search.isDefinite_of_evaluate_iff built room condition
  · exact fun constraints depth room => Search.isDefinite_of_evaluateAt_iff built constraints room

/-! ## A witness that is not definite -/

namespace Contested

/-- The text of two processes that go to the same location, the first one if an unknown condition
holds. -/
def text : String :=
  "\x7b\"predicates\": \x7b\x7d, \"processes\": [" ++
    "[\x7b\"source\": 0, \"destination\": 1, \"guard\": \"choice(false, false)\"\x7d], " ++
      "[\x7b\"source\": 0, \"destination\": 1\x7d]]\x7d"

/-- Two processes that go to the same location, the first one if an unknown condition holds. -/
def system : System where
  predicates := .empty
  initial := .empty
  processes := [⟨0, [⟨0, 1, .choice (.literal false) (.literal false), []⟩]⟩,
    ⟨1, [⟨0, 1, .always, []⟩]⟩]

/-- Runs of at most one step in which one of the processes comes to location 1. -/
def configuration : Configuration :=
  ⟨.reachability, 1, [0, 1], .any, 1, false, false⟩

theorem load_text : ModelFile.load text = .ok system := by
  decide +kernel

theorem validate_configuration : (configuration.validate system).2 = .ok () := by
  decide +kernel

/-- The verdict of a search from the beginning, with the depth and the locations that it shows. -/
def answer : Option (Verdict × Nat × List (List Nat)) :=
  match (Task.build system configuration).2 with
  | .error _ => none
  | .ok task =>
      match (Search.evaluate Sat.splitting task 0 (.constant true) (.initial [])).result with
      | .error _ => none
      | .ok feedback =>
          some (feedback.verdict, feedback.step, feedback.witness.map (·.locations))

/-- The search finds that some violation is definite, and shows how the first process moves. -/
theorem exists_runs : ∃ task feedback search,
    (Task.build system configuration).2 = .ok task ∧
      Action.Runs (Search.evaluate Sat.splitting task 0 (.constant true)) (.initial []) feedback
        search ∧
      feedback.verdict = .definite ∧ feedback.step = 1 ∧
        feedback.witness.map (·.locations) = [[0, 0], [1, 0]] := by
  have answered : answer = some (.definite, 1, [[0, 0], [1, 0]]) := by decide +kernel
  unfold answer at answered
  split at answered
  · contradiction
  · rename_i task isBuilt
    split at answered
    · contradiction
    · rename_i feedback result
      obtain ⟨verdict, rest⟩ := Prod.mk.inj (Option.some.inj answered)
      obtain ⟨step, locations⟩ := Prod.mk.inj rest
      exact ⟨task, feedback, _, isBuilt, ⟨result, rfl⟩, verdict, step, locations⟩

/-- The first process does not move for certain. -/
theorem not_isDefinite {witness : List WitnessStep}
    (locations : witness.map (·.locations) = [[0, 0], [1, 0]]) :
    ¬Witness.IsDefinite system configuration 1 witness := by
  rintro ⟨s, shows, violates⟩
  have shown : (witness.map (·.locations))[1]? = some [1, 0] := by rw [locations]; rfl
  rw [List.getElem?_map, Option.map_eq_some_iff] at shown
  obtain ⟨entry, found, isShown⟩ := shown
  have places : [(s 1).location 0, (s 1).location 1] = [1, 0] :=
    (shows.states 1 entry found).locations.symm.trans isShown
  have stays : (s 1).location 1 = 0 := (List.cons.inj (List.cons.inj places).2).1
  obtain ⟨run, _⟩ := (System.violates_reachability_iff rfl).mp violates
  obtain ⟨p, process, found, transition, member, takes⟩ := run.moves 0 Nat.one_pos
  match p with
  | 0 =>
      obtain rfl := Option.some.inj found
      obtain rfl := List.mem_singleton.mp member
      exact absurd takes.guard nofun
  | 1 =>
      obtain rfl := Option.some.inj found
      obtain rfl := List.mem_singleton.mp member
      exact absurd (takes.destination.symm.trans stays) nofun
  | p + 2 => exact absurd found nofun

end Contested

open Contested

/-- The search in which the first process is shown to move confirms that some process does. -/
theorem Search.confirms_of_definite_of_contested :
    ModelFile.load text = .ok system ∧ (configuration.validate system).2 = .ok () ∧
      Sat.splitting.Sound ∧
        ∃ task feedback search, (Task.build system configuration).2 = .ok task ∧
          Action.Runs (Search.evaluate Sat.splitting task 0 (.constant true)) (.initial [])
            feedback search ∧
          feedback.verdict = .definite ∧ task.Confirms [.constant true] feedback := by
  obtain ⟨task, feedback, search, isBuilt, runs, definite, _⟩ := exists_runs
  have sound := Sat.splitting_correct.sound
  obtain ⟨confirms, _⟩ := Search.confirms_of_definite load_text validate_configuration isBuilt
  exact ⟨load_text, validate_configuration, sound, task, feedback, search, isBuilt, runs, definite,
    (confirms _ _ _ _ _ _ _ _ sound .fresh definite).1 _ runs⟩

/-- A search may answer with a definite verdict and a witness that shows no definite violation. -/
theorem Search.exists_definite_without_definite_witness :
    ModelFile.load text = .ok system ∧ (configuration.validate system).2 = .ok () ∧
      Sat.splitting.Correct ∧
        ∃ task feedback search, (Task.build system configuration).2 = .ok task ∧
          Action.Runs (Search.evaluate Sat.splitting task 0 (.constant true)) (.initial [])
            feedback search ∧
          feedback.verdict = .definite ∧
            ¬Witness.IsDefinite system configuration feedback.step feedback.witness := by
  obtain ⟨task, feedback, search, isBuilt, runs, definite, step, locations⟩ := exists_runs
  refine ⟨load_text, validate_configuration, Sat.splitting_correct, task, feedback, search, isBuilt,
    runs, definite, ?_⟩
  rw [step]
  exact not_isDefinite locations

end Trivalent
