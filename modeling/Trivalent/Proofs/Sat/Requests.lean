import Trivalent.Proofs.Sat.Incremental

/-!
# Solvers that are asked again and again

A solver is reset, given formulas and asked for answers in any order.  One that is made of an exact
engine answers for the formulas that it was given since it was last reset: they can be true together,
and then its model makes them true, or they cannot.
-/

namespace Trivalent.Sat

/-! ## Requests -/

/-- What a solver is asked to do. -/
inductive Request where
  /-- To forget all formulas. -/
  | reset
  /-- To take a formula into the conjunction. -/
  | add (f : Formula)
  /-- To say whether the conjunction is satisfiable. -/
  | solve
  deriving Repr, BEq

/-- The formulas that are held after a request. -/
def Request.held (formulas : List Formula) : Request → List Formula
  | reset => []
  | add f => formulas ++ [f]
  | solve => formulas

/-- The formulas that were added since the last reset. -/
def heldAfter (requests : List Request) : List Formula :=
  requests.foldl Request.held []

namespace Solver

variable {σ : Type}

/-- The state of a solver after a request. -/
def serve (solver : Solver σ) (state : σ) : Request → σ
  | .reset => solver.reset state
  | .add f => solver.add state f
  | .solve => (solver.solve state).2

/-- The state of a solver after some requests. -/
def stateAfter (solver : Solver σ) (start : σ) (requests : List Request) : σ :=
  requests.foldl solver.serve start

/-- What a solver answers if it is asked after some requests. -/
def answerAfter (solver : Solver σ) (start : σ) (requests : List Request) : Answer Valuation :=
  (solver.solve (solver.stateAfter start requests)).1

end Solver

/-- Without a reset nothing is forgotten. -/
theorem exists_heldAfter_append {later : List Request} (kept : .reset ∉ later)
    (requests : List Request) : ∃ further,
      heldAfter (requests ++ later) = heldAfter requests ++ further := by
  rw [heldAfter, List.foldl_append, ← heldAfter]
  generalize heldAfter requests = formulas
  induction later generalizing formulas with
  | nil => exact ⟨[], (List.append_nil _).symm⟩
  | cons request later ih =>
      obtain ⟨notReset, keptLater⟩ := List.ne_and_not_mem_of_not_mem_cons kept
      rw [List.foldl_cons]
      cases request with
      | reset => exact absurd rfl notReset
      | add f =>
          obtain ⟨further, isHeld⟩ := ih keptLater (formulas ++ [f])
          exact ⟨f :: further, isHeld.trans (List.append_assoc _ _ _)⟩
      | solve => exact ih keptLater formulas

/-! ## Conjunctions are decided -/

/-- An answer decides formulas: it says whether they can be true together, and its model makes them
true. -/
structure Answer.Decides (formulas : List Formula) (answer : Answer Valuation) : Prop where
  satisfiable_iff : (∃ v, answer = .satisfiable v) ↔
    ∃ v : Valuation, ∀ f ∈ formulas, f.eval v = true
  unsatisfiable_iff : answer = .unsatisfiable ↔
    ¬∃ v : Valuation, ∀ f ∈ formulas, f.eval v = true
  model : ∀ v, answer = .satisfiable v → ∀ f ∈ formulas, f.eval v = true

/-- An answer that is right decides the formulas if it is given at all. -/
theorem Answer.Right.decides {formulas : List Formula} {answer : Answer Valuation}
    (right : answer.Right formulas) (answers : answer ≠ .failed) : answer.Decides formulas := by
  cases answer with
  | satisfiable v =>
      refine ⟨⟨fun _ => ⟨v, right⟩, fun _ => ⟨v, rfl⟩⟩, ⟨nofun, fun none => absurd ⟨v, right⟩ none⟩, ?_⟩
      rintro _ ⟨⟩
      exact right
  | unsatisfiable =>
      exact ⟨⟨nofun, fun some => absurd some right⟩, ⟨fun _ => right, fun _ => rfl⟩, nofun⟩
  | failed => exact absurd rfl answers

/-- What can only be satisfied together with more formulas stays impossible. -/
theorem Answer.Decides.unsatisfiable_append {formulas further : List Formula}
    {answer later : Answer Valuation} (decides : answer.Decides formulas)
    (decidesLater : later.Decides (formulas ++ further)) (none : answer = .unsatisfiable) :
    later = .unsatisfiable := by
  refine decidesLater.unsatisfiable_iff.mpr fun ⟨v, all⟩ => ?_
  exact decides.unsatisfiable_iff.mp none ⟨v, (List.forall_mem_append.mp all).1⟩

/-! ## Solvers with an exact engine -/

namespace Engine

variable {ε : Type} {engine : Engine ε}

/-- A solver with an engine carries the formulas that are held after a request. -/
theorem Carries.serve {formulas : List Formula} {s : Incremental ε}
    (carries : engine.Carries formulas s) (request : Request) :
    engine.Carries (request.held formulas) (engine.solver.serve s request) := by
  cases request with
  | reset => exact engine.carries_initial
  | add f => exact carries.add f
  | solve => exact carries.solve

theorem carries_heldAfter (engine : Engine ε) (requests : List Request) :
    engine.Carries (heldAfter requests) (engine.solver.stateAfter engine.initial requests) := by
  unfold heldAfter Solver.stateAfter
  induction requests using List.reverseRecOn with
  | nil => exact engine.carries_initial
  | append_singleton requests request ih =>
      rw [List.foldl_append, List.foldl_append]
      exact ih.serve request

end Engine

/-! ## An engine that tries everything -/

/-- Values of variables, false but for those in a list, which have all values. -/
def assignments : List Nat → List (Nat → Bool)
  | [] => [fun _ => false]
  | i :: rest =>
      (assignments rest).flatMap fun w =>
        [false, true].map fun value => fun j => if j = i then value else w j

/-- All values of some variables are among them. -/
theorem exists_mem_assignments (vars : List Nat) (w : Nat → Bool) :
    ∃ w' ∈ assignments vars, ∀ i ∈ vars, w' i = w i := by
  induction vars with
  | nil => exact ⟨_, List.mem_singleton_self _, fun _ member => absurd member List.not_mem_nil⟩
  | cons i rest ih =>
      obtain ⟨w', member, agree⟩ := ih
      refine ⟨fun j => if j = i then w i else w' j, ?_, ?_⟩
      · refine List.mem_flatMap.mpr ⟨w', member, List.mem_map.mpr ⟨w i, ?_, rfl⟩⟩
        cases w i <;> simp
      · intro j listed
        dsimp only
        split
        · rename_i same
          rw [same]
        · rename_i different
          exact agree j ((List.mem_cons.mp listed).resolve_left different)

/-- Values of variables matter to clauses only as far as the variables occur. -/
theorem satisfies_congr {clauses : List (List Int)} {w w' : Nat → Bool}
    (agree : ∀ clause ∈ clauses, ∀ literal ∈ clause, w literal.natAbs = w' literal.natAbs)
    (satisfied : satisfies w clauses = true) : satisfies w' clauses = true := by
  rw [satisfies, List.all_eq_true] at satisfied ⊢
  intro clause member
  obtain ⟨literal, listed, isTrue⟩ := List.any_eq_true.mp (satisfied clause member)
  refine List.any_eq_true.mpr ⟨literal, listed, ?_⟩
  rwa [holds, ← agree clause member literal listed]

/-- What is known of clauses by trying everything. -/
structure Tried where
  /-- The clauses. -/
  clauses : List (List Int)
  /-- The assignment that was found last. -/
  found : Option (Nat → Bool)

namespace Tried

/-- The variables of the clauses. -/
def vars (e : Tried) : List Nat :=
  e.clauses.flatten.map Int.natAbs

/-- The engine that tries all values of the variables of its clauses.  Variables that do not occur
have no value. -/
def engine : Engine Tried where
  fresh := ⟨[], none⟩
  addClause e clause := { e with clauses := e.clauses ++ [clause] }
  solve e :=
    let found := (assignments e.vars).find? fun w => satisfies w e.clauses
    (some found.isSome, { e with found })
  value e literal :=
    if literal.natAbs ∈ e.vars then e.found.map (holds · literal) else none

theorem clauses_eq {clauses : List (List Int)} {e : Tried} (given : engine.Given clauses e) :
    e.clauses = clauses ∧ ∀ clause ∈ clauses, 0 ∉ clause := by
  induction given with
  | fresh => exact ⟨rfl, fun _ member => absurd member List.not_mem_nil⟩
  | addClause _ proper ih =>
      obtain ⟨isClauses, areProper⟩ := ih
      refine ⟨congrArg (· ++ _) isClauses, ?_⟩
      exact List.forall_mem_append.mpr ⟨areProper, List.forall_mem_singleton.mpr proper⟩
  | solve _ ih => exact ih

theorem engine_exact : engine.Exact := by
  constructor
  case answers =>
    intro clauses e given
    exact nofun
  case satisfied =>
    intro clauses e given answer w agree
    obtain ⟨rfl, proper⟩ := clauses_eq given
    obtain ⟨w', isFound⟩ := Option.isSome_iff_exists.mp (Option.some.inj answer)
    have satisfied : satisfies w' e.clauses = true := by simpa using List.find?_some isFound
    refine satisfies_congr (fun clause member literal listed => ?_) satisfied
    have occurs : literal.natAbs ∈ e.vars :=
      List.mem_map_of_mem (List.mem_flatten.mpr ⟨clause, member, listed⟩)
    obtain ⟨i, isNumber⟩ := Nat.exists_eq_succ_of_ne_zero
      (Int.natAbs_ne_zero.mpr fun isZero => proper clause member (isZero ▸ listed))
    rw [isNumber] at occurs ⊢
    refine (agree i (w' (i + 1)) ?_).symm
    show (if (i + 1 : Int).natAbs ∈ e.vars then
      ((assignments e.vars).find? fun w => satisfies w e.clauses).map (holds · (i + 1)) else none) = _
    rw [← Int.natCast_succ, Int.natAbs_natCast, if_pos occurs, isFound, Option.map_some, holds,
      Int.natAbs_natCast]
    simp
  case unsatisfied =>
    intro clauses e given answer w satisfied
    obtain ⟨rfl, _⟩ := clauses_eq given
    have notFound := Option.isSome_eq_false_iff.mp (Option.some.inj answer)
    rw [Option.isNone_iff_eq_none] at notFound
    obtain ⟨w', member, agree⟩ := exists_mem_assignments e.vars w
    refine List.find?_eq_none.mp notFound w' member (satisfies_congr ?_ satisfied)
    intro clause listed literal isLiteral
    refine (agree _ ?_).symm
    exact List.mem_map_of_mem (List.mem_flatten.mpr ⟨clause, listed, isLiteral⟩)

end Tried

end Trivalent.Sat
