import Mathlib.Data.List.Induction
import Trivalent.Proofs.Sat.Correct
import Trivalent.Proofs.Sat.Tseytin
import Trivalent.Sat.Incremental

/-!
# Exact engines make correct solvers

A solver with an engine hands the clauses of formulas on as the formulas come.  So the engine was
given the clauses of all formulas since the last reset, by one numbering, and what it says about the
clauses holds of the formulas.
-/

namespace Trivalent.Sat

/-! ## Translated formulas -/

/-- The clauses of formulas that are added one after the other, and the numbering behind them. -/
def translated (formulas : List Formula) : List Clause × Context :=
  formulas.foldl (fun (clauses, context) f =>
    let (further, context) := tseytin f context
    (clauses ++ further, context)) ([], .empty)

/-- Clauses as engines read them. -/
def numbered (clauses : List Clause) : List (List Int) :=
  clauses.map (List.map Literal.dimacs)

theorem translated_concat (formulas : List Formula) (f : Formula) :
    translated (formulas ++ [f]) =
      ((translated formulas).1 ++ (tseytin f (translated formulas).2).1,
        (tseytin f (translated formulas).2).2) := by
  rw [translated, List.foldl_append]
  rfl

/-- The clauses of formulas represent the formulas. -/
theorem represents_translated (formulas : List Formula) :
    ∃ meanings, Represents formulas meanings (translated formulas).2 (translated formulas).1 := by
  induction formulas using List.reverseRecOn with
  | nil => exact ⟨[], represents_empty⟩
  | append_singleton formulas f ih =>
      obtain ⟨meanings, represents⟩ := ih
      obtain ⟨more, represented⟩ := represents.tseytin f
      rw [translated_concat]
      exact ⟨_, represented⟩

/-- Further formulas only add clauses. -/
theorem translated_prefix (formulas further : List Formula) :
    (translated formulas).1 <+: (translated (formulas ++ further)).1 := by
  induction further using List.reverseRecOn with
  | nil => simp only [List.append_nil, List.prefix_refl]
  | append_singleton further f ih =>
      rw [← List.append_assoc, translated_concat]
      exact ih.trans (List.prefix_append _ _)

/-! ## Numbered literals -/

theorem Literal.natAbs_dimacs (l : Literal) : l.dimacs.natAbs = l.var + 1 := by
  unfold dimacs
  split <;> omega

theorem Literal.dimacs_pos_iff (l : Literal) : 0 < l.dimacs ↔ l.positive = true := by
  unfold dimacs
  split
  · rename_i positive
    exact iff_of_true (by omega) positive
  · rename_i negative
    exact iff_of_false (by omega) negative

theorem holds_dimacs (w : Nat → Bool) (l : Literal) :
    holds w l.dimacs = l.eval fun i => w (i + 1) := by
  rw [holds, l.natAbs_dimacs, Literal.eval]
  cases positive : l.positive <;> simp [l.dimacs_pos_iff, positive]

/-- A clause has the same value by the numbers of its literals, where variables count from one. -/
theorem satisfies_numbered_iff {w : Nat → Bool} {clauses : List Clause} :
    satisfies w (numbered clauses) = true ↔ Hold clauses fun i => w (i + 1) := by
  simp only [satisfies, numbered, List.all_map, List.all_eq_true, Hold, Clause.eval,
    List.any_map, Function.comp_def, holds_dimacs]

theorem Literal.dimacs_ne_zero (l : Literal) : l.dimacs ≠ 0 := by
  intro isZero
  have number := l.natAbs_dimacs
  rw [isZero] at number
  exact Nat.succ_ne_zero _ number.symm

/-- The numbers of literals are those of variables, so they are not zero, and words of 32 bits can
hold them as long as there are less than 2³¹ variables. -/
theorem Below.dimacs {clauses : List Clause} {vars : Nat} (below : Below clauses vars) :
    ∀ clause ∈ numbered clauses, ∀ literal ∈ clause, literal ≠ 0 ∧ literal.natAbs ≤ vars := by
  refine List.forall_mem_map.mpr fun clause member => List.forall_mem_map.mpr fun l listed => ?_
  refine ⟨l.dimacs_ne_zero, ?_⟩
  rw [l.natAbs_dimacs]
  exact below clause member l listed

/-! ## Solvers with an exact engine -/

namespace Engine

variable {ε : Type} {engine : Engine ε}

/-- An engine that is handed clauses on is given them. -/
theorem Given.addClauses {given : List (List Int)} {e : ε} (isGiven : engine.Given given e)
    (clauses : List Clause) :
    engine.Given (given ++ numbered clauses) (engine.addClauses e clauses) := by
  induction clauses generalizing given e with
  | nil => rwa [numbered, List.map_nil, List.append_nil]
  | cons clause rest ih =>
      have proper : 0 ∉ clause.map Literal.dimacs := by
        intro member
        obtain ⟨l, _, isZero⟩ := List.mem_map.mp member
        exact l.dimacs_ne_zero isZero
      have added := ih (isGiven.addClause proper)
      rwa [List.append_assoc] at added

/-- A solver with an engine holds formulas: the engine was given their clauses, and the numbering is
the one behind them. -/
structure Carries (engine : Engine ε) (formulas : List Formula) (s : Incremental ε) : Prop where
  context : s.context = (translated formulas).2
  given : engine.Given (numbered (translated formulas).1) s.engine

theorem carries_initial (engine : Engine ε) : engine.Carries [] engine.initial :=
  ⟨rfl, .fresh⟩

theorem Carries.add {formulas : List Formula} {s : Incremental ε}
    (carries : engine.Carries formulas s) (f : Formula) :
    engine.Carries (formulas ++ [f]) (engine.add s f) := by
  have given := carries.given.addClauses (tseytin f s.context).1
  rw [carries.context] at given
  constructor
  case context =>
    rw [translated_concat, ← carries.context]
    rfl
  case given =>
    rw [translated_concat, numbered, List.map_append]
    show engine.Given _ (engine.addClauses s.engine (tseytin f s.context).1)
    rwa [carries.context]

theorem Carries.foldl_add {formulas : List Formula} {s : Incremental ε}
    (carries : engine.Carries formulas s) (further : List Formula) :
    engine.Carries (formulas ++ further) (further.foldl engine.add s) := by
  induction further generalizing formulas s with
  | nil => rwa [List.append_nil]
  | cons f rest ih =>
      have added := ih (carries.add f)
      rwa [List.append_assoc] at added

/-- A solver with an engine carries what it was loaded with. -/
theorem carries_load (engine : Engine ε) (s : Incremental ε) (formulas : List Formula) :
    engine.Carries formulas (engine.solver.load s formulas) :=
  engine.carries_initial.foldl_add formulas

/-- The state of a solver with an engine after a question. -/
theorem solve_solver (engine : Engine ε) (s : Incremental ε) :
    engine.solver.solve s =
      (match (engine.solve s.engine).1 with
        | some true => .satisfiable (engine.model ⟨(engine.solve s.engine).2, s.context⟩)
        | some false => .unsatisfiable
        | none => .failed,
      ⟨(engine.solve s.engine).2, s.context⟩) := by
  unfold solver
  dsimp only
  split <;> rename_i answer <;> rw [answer]

theorem Carries.solve {formulas : List Formula} {s : Incremental ε}
    (carries : engine.Carries formulas s) :
    engine.Carries formulas (engine.solver.solve s).2 := by
  rw [solve_solver]
  exact ⟨carries.context, carries.given.solve⟩

/-- What an exact engine answers is right about the formulas, and it answers. -/
theorem Exact.right (exact : engine.Exact) {formulas : List Formula} {s : Incremental ε}
    (carries : engine.Carries formulas s) :
    (engine.solver.solve s).1.Right formulas ∧ (engine.solver.solve s).1 ≠ .failed := by
  obtain ⟨meanings, represents⟩ := represents_translated formulas
  rw [← carries.context] at represents
  rw [solve_solver]
  cases answer : (engine.solve s.engine).1 with
  | none => exact absurd answer (exact.answers carries.given)
  | some isSatisfiable =>
      cases isSatisfiable with
      | true =>
          refine ⟨represents.eval_onAtoms ?_, nofun⟩
          -- A variable without a value may have either, so it may be taken as false.
          let w (n : Nat) : Bool := (engine.value (engine.solve s.engine).2 n).getD false
          have satisfied := exact.satisfied carries.given answer w fun i b isValue => by
            show (engine.value _ ((i + 1 : Nat) : Int)).getD false = b
            rw [Int.natCast_succ, Option.mem_def.mp isValue, Option.getD_some]
          exact satisfies_numbered_iff.mp satisfied
      | false =>
          refine ⟨?_, nofun⟩
          rintro ⟨a, all⟩
          refine exact.unsatisfied carries.given answer (fun n => meanings.values a (n - 1)) ?_
          exact satisfies_numbered_iff.mpr (represents.hold a all)

/-- An exact engine makes a correct solver. -/
theorem Exact.solver_correct (exact : engine.Exact) : engine.solver.Correct where
  sound s formulas := (exact.right (engine.carries_load s formulas)).1
  answers s formulas := (exact.right (engine.carries_load s formulas)).2

end Engine

end Trivalent.Sat
