import Trivalent.Proofs.ModelFile.Reading

/-!
# Declared predicates

A loaded system refers to its own predicates only: what its guards and updates read and what its
updates assign is in its table of predicates.
-/

namespace Trivalent

/-- A transition refers to predicates of a list only. -/
structure Transition.RefersTo (ids : List Nat) (transition : Transition) : Prop where
  guard : ∀ id ∈ transition.guard.predicates, id ∈ ids
  assigned : ∀ assignment ∈ transition.assignments, assignment.predicate ∈ ids
  value : ∀ assignment ∈ transition.assignments, ∀ id ∈ assignment.value.predicates, id ∈ ids

/-- All transitions of a system refer to predicates of the system. -/
def System.Declared (system : System) : Prop :=
  ∀ process ∈ system.processes, ∀ transition ∈ process.transitions,
    transition.RefersTo system.predicates.values

theorem Term.predicates_always : Term.always.predicates = [] := by
  simp [always, predicates, Expr.predicates, Expr.occurrences, ascending, dropRepeats]

namespace ModelFile

/-- What the text of a transition says refers to declared predicates only. -/
theorem TransitionText.Says.refersTo {names : NameTable Nat} {text : TransitionText}
    {transition : Transition} (said : text.Says names transition) :
    transition.RefersTo names.values := by
  have updates : ∀ assignment ∈ transition.assignments,
      ∃ text : AssignmentText, text.Says names assignment := by
    intro assignment member
    obtain ⟨text, _, said⟩ := exists_of_mem_right said.assignments member
    exact ⟨text, said⟩
  constructor
  case guard =>
    cases given : text.guard with
    | none => simp [said.noGuard given, Term.predicates_always]
    | some guard => exact (said.guard guard given).declared
  case assigned =>
    intro assignment member
    obtain ⟨text, said⟩ := updates assignment member
    exact said.predicate ▸ said.declared
  case value =>
    intro assignment member
    obtain ⟨text, said⟩ := updates assignment member
    exact said.value.declared

/-- Every transition of a system is said by a text. -/
theorem ModelText.Says.exists_text {text : ModelText} {system : System} (said : text.Says system)
    {process : Process} (member : process ∈ system.processes) {transition : Transition}
    (listed : transition ∈ process.transitions) :
    ∃ text : TransitionText, text.Says system.predicates transition := by
  obtain ⟨transitions, _, each⟩ := exists_of_mem_right said.transitions member
  obtain ⟨text, _, isSaid⟩ := exists_of_mem_right each listed
  exact ⟨text, said.predicates ▸ isSaid⟩

/-- A system that a text says refers to its own predicates only. -/
theorem ModelText.Says.declared {text : ModelText} {system : System} (said : text.Says system) :
    system.Declared := by
  intro process member transition listed
  obtain ⟨_, isSaid⟩ := said.exists_text member listed
  exact isSaid.refersTo

/-- A loaded system refers to its own predicates only. -/
theorem declared_of_load {text : String} {system : System} (loaded : load text = .ok system) :
    system.Declared := by
  obtain ⟨_, _, said⟩ := exists_said_of_load loaded
  exact said.declared

end ModelFile

end Trivalent
