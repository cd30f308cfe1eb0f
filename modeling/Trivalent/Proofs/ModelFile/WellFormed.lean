import Trivalent.Proofs.System.Declared
import Trivalent.Proofs.System.Equality
import Trivalent.Proofs.System.Predicates

/-!
# Well-formed models

A loaded system is well formed: names and numbers of predicates stand for each other, initial
values are given for its predicates, its processes are numbered by their places, and its transitions
refer to its predicates only.  A model is loaded exactly if its predicates have different numbers,
initial values are given for its predicates, and what its transitions say can be read as terms over
its predicates; then the system is what the model says.
-/

namespace Trivalent

theorem NameTable.contains_eq_true_iff {α : Type} {table : NameTable α} {name : String} :
    table.contains name = true ↔ name ∈ table.names := by
  simp [contains, names]

/-- Names and numbers of predicates stand for each other, and predicates are listed once, by number.
Initial values are given for predicates, processes are numbered by their places, and transitions
refer to predicates of the system. -/
structure System.WellFormed (system : System) : Prop where
  distinct : system.predicates.values.Nodup
  inverse : ∀ name id,
    system.predicateId? name = some id ↔ system.predicateName? id = some name
  listed : ∀ id name,
    (id, name) ∈ system.predicatesById ↔ system.predicateId? name = some id
  ascending : system.predicatesById.Pairwise fun a b => a.1 < b.1
  initial : ∀ name ∈ system.initial.names, name ∈ system.predicates.names
  numbered : system.Numbered
  declared : system.Declared

namespace ModelFile

open Json (Value)

/-! ## Layouts of processes -/

/-- The transitions of a state, if there are any. -/
def StateLaysOut (state : Value) (elements : List Value) : Prop :=
  fields? [["transitions"]] state = some [some (.array elements)] ∨
    fields? [["transitions"]] state = some [none] ∧ elements = []

/-- The transitions of a process in the order in which they are written: those of its states, those
of the process, or the elements of a list. -/
inductive LaysOut : Value → List Value → Prop where
  | states {entries : List (List Char × Value)} {states : List Value} {groups : List (List Value)}
      (given : field? ["states"] entries = some (some (.array states)))
      (each : List.Forall₂ StateLaysOut states groups) :
      LaysOut (.object entries) groups.flatten
  | transitions {entries : List (List Char × Value)} {elements : List Value}
      (noStates : field? ["states"] entries = some none)
      (given : field? ["transitions"] entries = some (some (.array elements))) :
      LaysOut (.object entries) elements
  | array (elements : List Value) : LaysOut (.array elements) elements

theorem mapM_eq_of_forall₂ {α β γ : Type} {f : α → Option γ} {g : β → Option γ} {as : List α}
    {bs : List β} (each : List.Forall₂ (fun a b => f a = g b) as bs) : as.mapM f = bs.mapM g := by
  induction each with
  | nil => rfl
  | cons first _ ih => rw [List.mapM_cons, List.mapM_cons, first, ih]

theorem mapM_flatten_eq {α β : Type} {f : α → Option β} (groups : List (List α)) :
    groups.flatten.mapM f = (groups.mapM (List.mapM f)).map List.flatten := by
  induction groups with
  | nil => rfl
  | cons group groups ih =>
      rw [List.flatten_cons, List.mapM_append, ih, List.mapM_cons]
      cases group.mapM f <;> cases groups.mapM (List.mapM f) <;> rfl

theorem StateLaysOut.state?_eq {state : Value} {elements : List Value}
    (laysOut : StateLaysOut state elements) :
    state? state = elements.mapM TransitionText.ofValue? := by
  unfold state?
  rcases laysOut with given | ⟨given, rfl⟩
  · rw [given]
    rfl
  · rw [given]
    rfl

/-- States are read as what their transitions, one after the other, are read as. -/
theorem ofStates?_eq {entries : List (List Char × Value)} {states : List Value}
    {groups : List (List Value)} (given : field? ["states"] entries = some (some (.array states)))
    (each : List.Forall₂ StateLaysOut states groups) :
    ofStates? (.object entries) = groups.flatten.mapM TransitionText.ofValue? := by
  have same : states.mapM state? = groups.mapM (List.mapM TransitionText.ofValue?) :=
    mapM_eq_of_forall₂ (each.imp fun _ _ => StateLaysOut.state?_eq)
  have member : member? "states" (.object entries) = some (.array states) := by
    rw [member?, given]
    rfl
  rw [mapM_flatten_eq, ← same, ofStates?, member]
  show (states.mapM state? >>= fun states => some states.flatten) = _
  cases states.mapM state? <;> rfl

/-- Whatever the layout of a process is, its transitions are read in the order in which they are
written. -/
theorem LaysOut.process?_eq {v : Value} {elements : List Value} {transitions : List TransitionText}
    (laysOut : LaysOut v elements)
    (read : elements.mapM TransitionText.ofValue? = some transitions) :
    process? v = some transitions := by
  cases laysOut with
  | @states entries states groups given each =>
      rw [process?, ofStates?_eq given each, read]
      rfl
  | @transitions entries elements noStates given =>
      have none : ofStates? (.object entries) = none := by
        rw [ofStates?, member?, noStates]
        rfl
      have byField : ofTransitions? (.object entries) = some transitions := by
        rw [ofTransitions?, member?, given]
        exact read
      rw [process?, none, byField]
      rfl
  | array elements => exact read

/-! ## What has to fit -/

/-- No entry is repeated exactly if all entries are different and have not been seen before. -/
theorem firstRepeated_eq_none_iff {seen ids : List Nat} :
    firstRepeated seen ids = none ↔ ids.Nodup ∧ ∀ id ∈ ids, id ∉ seen := by
  induction ids generalizing seen with
  | nil => simp [firstRepeated]
  | cons id rest ih =>
      rw [firstRepeated]
      by_cases again : id ∈ seen
      · simp [again]
      · rw [if_neg (by simpa using again), ih, List.nodup_cons, List.forall_mem_cons]
        constructor
        · rintro ⟨distinct, fresh⟩
          exact ⟨⟨fun member => fresh id member List.mem_cons_self, distinct⟩, again,
            fun other member before => fresh other member (List.mem_cons_of_mem _ before)⟩
        · rintro ⟨⟨isNew, distinct⟩, _, fresh⟩
          refine ⟨distinct, fun other member before => ?_⟩
          rcases List.mem_cons.mp before with rfl | before
          · exact isNew member
          · exact fresh other member before

/-- What the header of a model has to be. -/
theorem ModelText.headerFits_iff {text : ModelText} :
    text.HeaderFits ↔ text.names.values.Nodup ∧
      ∀ name ∈ (NameTable.ofList text.initial).names, name ∈ text.names.names := by
  have distinct : firstRepeated [] text.names.values = none ↔ text.names.values.Nodup := by
    simp [firstRepeated_eq_none_iff]
  have known : ((NameTable.ofList text.initial).names.find? fun name => !text.names.contains name) =
      none ↔ ∀ name ∈ (NameTable.ofList text.initial).names, name ∈ text.names.names := by
    simp [List.find?_eq_none, NameTable.contains_eq_true_iff]
  constructor
  · rintro ⟨isDistinct, isKnown⟩
    exact ⟨distinct.mp isDistinct, known.mp isKnown⟩
  · rintro ⟨isDistinct, isKnown⟩
    exact ⟨distinct.mpr isDistinct, known.mpr isKnown⟩

/-- A guard, if there is one, and what is assigned can be read as terms over predicates of a table,
and only those are assigned. -/
structure TransitionText.WellFormed (names : NameTable Nat) (text : TransitionText) : Prop where
  guard : ∀ guard ∈ text.guard, ∃ term, ReadsTerm names guard term
  assigned : ∀ assignment ∈ text.assignments, assignment.predicate ∈ names.values
  value : ∀ assignment ∈ text.assignments, ∃ term, ReadsTerm names assignment.value term

/-- The predicates of a model have different numbers, initial values are given for predicates of the
model, and its transitions are well formed over them. -/
structure ModelText.WellFormed (text : ModelText) : Prop where
  distinct : text.names.values.Nodup
  initial : ∀ name ∈ (NameTable.ofList text.initial).names, name ∈ text.names.names
  transitions : ∀ process ∈ text.processes, ∀ transition ∈ process,
    transition.WellFormed text.names

/-- The text of a transition says a transition exactly if it is well formed. -/
theorem TransitionText.wellFormed_iff {names : NameTable Nat} {text : TransitionText} :
    text.WellFormed names ↔ ∃ transition, text.Says names transition := by
  constructor
  · rintro ⟨guard, assigned, value⟩
    have isGuard : ∃ term : Term, (text.guard = none → term = .always) ∧
        ∀ guard ∈ text.guard, ReadsTerm names guard term := by
      cases given : text.guard with
      | none => exact ⟨.always, fun _ => rfl, nofun⟩
      | some written =>
          obtain ⟨term, reads⟩ := guard written given
          exact ⟨term, nofun, by simpa using reads⟩
    obtain ⟨term, noGuard, isGuard⟩ := isGuard
    obtain ⟨assignments, updates⟩ : ∃ assignments,
        List.Forall₂ (AssignmentText.Says names) text.assignments assignments := by
      refine exists_forall₂_iff.mpr fun update member => ?_
      obtain ⟨term, reads⟩ := value update member
      exact ⟨⟨update.predicate, term⟩, rfl, assigned update member, reads⟩
    exact ⟨⟨text.source, text.destination, term, assignments⟩, rfl, rfl, noGuard, isGuard, updates⟩
  · rintro ⟨transition, said⟩
    have updates : ∀ update ∈ text.assignments, ∃ assignment, update.Says names assignment :=
      exists_forall₂_iff.mp ⟨_, said.assignments⟩
    constructor
    case guard => exact fun guard given => ⟨_, said.guard guard given⟩
    case assigned =>
      intro update member
      obtain ⟨_, isSaid⟩ := updates update member
      exact isSaid.declared
    case value =>
      intro update member
      obtain ⟨_, isSaid⟩ := updates update member
      exact ⟨_, isSaid.value⟩

/-- The text of a model says a system exactly if its transitions are well formed. -/
theorem ModelText.exists_said_iff {text : ModelText} :
    (∃ system, text.Says system) ↔
      ∀ process ∈ text.processes, ∀ transition ∈ process, transition.WellFormed text.names := by
  constructor
  · rintro ⟨system, said⟩ process member transition listed
    obtain ⟨_, _, each⟩ := exists_of_mem_right said.transitions.flip member
    obtain ⟨said, _, isSaid⟩ := exists_of_mem_right each.flip listed
    exact TransitionText.wellFormed_iff.mpr ⟨said, isSaid⟩
  · intro wellFormed
    have each : ∀ entry ∈ text.processes.zipIdx, ∃ process : Process, process.id = entry.2 ∧
        TransitionsSay text.names entry.1 process := by
      intro entry member
      obtain ⟨transitions, said⟩ := exists_forall₂_iff.mpr fun transition listed =>
        TransitionText.wellFormed_iff.mp
          (wellFormed entry.1 (List.fst_mem_of_mem_zipIdx member) transition listed)
      exact ⟨⟨entry.2, transitions⟩, rfl, said⟩
    obtain ⟨processes, said⟩ := exists_forall₂_iff.mpr each
    obtain ⟨numbered, transitions⟩ := (forall₂_zipIdx_iff (f := Process.id)).mp said
    refine ⟨⟨text.names, .ofList text.initial, processes⟩, rfl, rfl, ?_, transitions⟩
    simpa only [System.Numbered, Nat.zero_add] using numbered

theorem ModelText.wellFormed_iff {text : ModelText} :
    text.WellFormed ↔ text.HeaderFits ∧ ∃ system, text.Says system := by
  rw [headerFits_iff, exists_said_iff]
  constructor
  · rintro ⟨distinct, initial, transitions⟩
    exact ⟨⟨distinct, initial⟩, transitions⟩
  · rintro ⟨⟨distinct, initial⟩, transitions⟩
    exact ⟨distinct, initial, transitions⟩

/-! ## Loading -/

/-- What a well-formed model says is a well-formed system. -/
theorem ModelText.Says.wellFormed {text : ModelText} {system : System} (fits : text.HeaderFits)
    (said : text.Says system) : system.WellFormed := by
  obtain ⟨distinct, initial⟩ := headerFits_iff.mp fits
  rw [← said.predicates] at distinct initial
  constructor
  case distinct => exact distinct
  case inverse =>
    exact fun name id => (System.predicateName?_eq_some_iff distinct).symm
  case listed =>
    exact fun id name => System.mem_predicatesById.trans System.predicateId?_eq_some_iff.symm
  case ascending => exact System.pairwise_predicatesById distinct
  case initial => exact said.initial ▸ initial
  case numbered => exact said.numbered
  case declared => exact said.declared

/-- Every loaded system is well formed.  A model is loaded exactly if it is well formed, and what is
loaded is what the model says; the transitions of a process are read in the order in which they are
written, whatever its layout is. -/
theorem load_wellFormed (text : String) :
    (∀ system, load text = .ok system → system.WellFormed) ∧
      (∀ model, layout text.toList = .ok model →
        (model.WellFormed ↔ ∃ system, load text = .ok system) ∧
          ∀ system, load text = .ok system → model.Says system) ∧
        ∀ v elements transitions, LaysOut v elements →
          elements.mapM TransitionText.ofValue? = some transitions →
            process? v = some transitions := by
  refine ⟨?wellFormed, ?accepted, fun v elements transitions => LaysOut.process?_eq⟩
  case wellFormed =>
    intro system loaded
    obtain ⟨model, read, said⟩ := exists_said_of_load loaded
    rw [load_of_layout read] at loaded
    exact said.wellFormed (systemOfText_eq_ok_iff.mp loaded).1
  case accepted =>
    intro model read
    simp only [load_of_layout read, systemOfText_eq_ok_iff, exists_and_left]
    exact ⟨ModelText.wellFormed_iff, fun system loaded => loaded.2⟩

end ModelFile

namespace Layouts

open ModelFile

/-- The text of a model with a process that is given by states and one that is given by a list. -/
def text : String :=
  "\x7b\"predicates\": \x7b\"y\": 3, \"x\": 1\x7d, \"init\": \x7b\"x\": false\x7d, " ++
    "\"processes\": [\x7b\"states\": [\x7b\"transitions\": [" ++
    "\x7b\"source\": 0, \"destination\": 1, \"assignments\": [" ++
    "\x7b\"predicate\": 1, \"RHS\": \"choice(y, false)\"\x7d]\x7d]\x7d, \x7b\"transitions\": [" ++
    "\x7b\"source\": 1, \"destination\": 0, \"guard\": \"x\"\x7d]\x7d]\x7d, " ++
    "[\x7b\"source\": 0, \"destination\": 0\x7d]]\x7d"

/-- What the text says before its terms are read. -/
def model : ModelText where
  predicates := [("y", 3), ("x", 1)]
  initial := [("x", false)]
  processes :=
    [[⟨0, 1, none, [⟨1, "choice(y, false)".toList⟩]⟩, ⟨1, 0, some "x".toList, []⟩], [⟨0, 0, none, []⟩]]

/-- The system of the text. -/
def system : System where
  predicates := .ofList [("y", 3), ("x", 1)]
  initial := .ofList [("x", false)]
  processes :=
    [⟨0, [⟨0, 1, .always, [⟨1, .choice (.predicate 3) (.literal false)⟩]⟩,
        ⟨1, 0, .plain (.predicate 1), []⟩]⟩,
      ⟨1, [⟨0, 0, .always, []⟩]⟩]

end Layouts

open Layouts

/-- A text with two layouts of processes is well formed and loaded. -/
theorem ModelFile.load_wellFormed_of_layouts :
    layout text.toList = .ok model ∧ load text = .ok system ∧
      system.WellFormed ∧ model.WellFormed ∧ model.Says system := by
  have read : layout text.toList = .ok model := by decide +kernel
  have loaded : load text = .ok system := by
    rw [load_of_layout read]
    decide +kernel
  obtain ⟨wellFormed, accepted, _⟩ := load_wellFormed text
  obtain ⟨isLoaded, isSaid⟩ := accepted model read
  exact ⟨read, loaded, wellFormed system loaded, isLoaded.mpr ⟨system, loaded⟩,
    isSaid system loaded⟩

end Trivalent
