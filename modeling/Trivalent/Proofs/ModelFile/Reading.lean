import Trivalent.ModelFile.Loader
import Trivalent.Proofs.Formula.Denotation
import Trivalent.Proofs.System.Accepted

/-!
# Reading models

What the text of a model says.  A transition has the locations that are written, a guard that
always holds unless one is given, and updates in the order in which they are written, with terms over
declared predicates.  A process has transitions in the order in which they are written, and its place
as its number.  Loading reads exactly what texts say.
-/

namespace Trivalent.ModelFile

section Parts

variable {names : NameTable Nat} {process : Nat}

/-! ## Terms -/

/-- A text is read as a term that refers to predicates of the table only. -/
structure ReadsTerm (names : NameTable Nat) (text : List Char) (term : Term) : Prop where
  parsed : Term.parse names text = .ok term
  declared : ∀ id ∈ term.predicates, id ∈ names.values

theorem termOfText_eq_ok_iff {text : List Char} {term : Term} :
    termOfText names process text = .ok term ↔ ReadsTerm names text term := by
  unfold termOfText
  simp only [throw, throwThe, MonadExceptOf.throw, pure, Except.pure]
  constructor
  · intro read
    split at read
    · contradiction
    rename_i parsed
    split at read
    · contradiction
    rename_i none
    obtain rfl := Except.ok.inj read
    exact ⟨parsed, by simpa using none⟩
  · rintro ⟨parsed, declared⟩
    have none : (term.predicates.find? fun id => !names.values.contains id) = none := by
      rw [List.find?_eq_none]
      intro id member
      simpa using declared id member
    rw [parsed]
    dsimp only
    rw [none]

/-! ## Updates -/

/-- The text of an update says which predicate takes the status of which term. -/
structure AssignmentText.Says (names : NameTable Nat) (text : AssignmentText)
    (assignment : Assignment) : Prop where
  predicate : assignment.predicate = text.predicate
  declared : text.predicate ∈ names.values
  value : ReadsTerm names text.value assignment.value

theorem assignmentOfText_eq_ok_iff {text : AssignmentText} {assignment : Assignment} :
    assignmentOfText names process text = .ok assignment ↔ text.Says names assignment := by
  unfold assignmentOfText
  constructor
  · intro read
    split at read
    · contradiction
    rename_i declared
    rcases bind_eq_ok_iff.mp read with ⟨value, isValue, made⟩
    obtain rfl := Except.ok.inj made
    exact ⟨rfl, by simpa using declared, termOfText_eq_ok_iff.mp isValue⟩
  · rintro ⟨predicate, declared, value⟩
    have known : ¬(!names.values.contains text.predicate) = true := by simpa using declared
    dsimp only
    rw [if_neg known, termOfText_eq_ok_iff.mpr value, ← predicate]
    rfl

/-! ## Transitions -/

/-- The text of a transition says where it leads, when it may be taken and what it updates.  A guard
that is not given always holds. -/
structure TransitionText.Says (names : NameTable Nat) (text : TransitionText)
    (transition : Transition) : Prop where
  source : transition.source = text.source
  destination : transition.destination = text.destination
  noGuard : text.guard = none → transition.guard = .always
  guard : ∀ guard ∈ text.guard, ReadsTerm names guard transition.guard
  assignments : List.Forall₂ (AssignmentText.Says names) text.assignments transition.assignments

theorem transitionOfText_eq (text : TransitionText) :
    transitionOfText names process text =
      (text.guard.elim (.ok .always) (termOfText names process)) >>= fun guard =>
        text.assignments.mapM (assignmentOfText names process) >>= fun assignments =>
          .ok ⟨text.source, text.destination, guard, assignments⟩ := by
  unfold transitionOfText
  cases text.guard <;> rfl

theorem elim_guard_eq_ok_iff {guard : Option (List Char)} {term : Term} :
    guard.elim (.ok .always) (termOfText names process) = .ok term ↔
      (guard = none → term = .always) ∧ ∀ text ∈ guard, ReadsTerm names text term := by
  cases guard with
  | none => simp [eq_comm]
  | some text => simp [termOfText_eq_ok_iff]

theorem mapM_assignmentOfText_eq_ok_iff {texts : List AssignmentText}
    {assignments : List Assignment} :
    texts.mapM (assignmentOfText names process) = .ok assignments ↔
      List.Forall₂ (AssignmentText.Says names) texts assignments := by
  simp only [mapM_eq_ok_iff, assignmentOfText_eq_ok_iff]

theorem transitionOfText_eq_ok_iff {text : TransitionText} {transition : Transition} :
    transitionOfText names process text = .ok transition ↔ text.Says names transition := by
  simp only [transitionOfText_eq, bind_eq_ok_iff, elim_guard_eq_ok_iff,
    mapM_assignmentOfText_eq_ok_iff]
  constructor
  · rintro ⟨guard, ⟨noGuard, isGuard⟩, assignments, each, made⟩
    obtain rfl := Except.ok.inj made
    exact ⟨rfl, rfl, noGuard, isGuard, each⟩
  · rintro ⟨source, destination, noGuard, isGuard, each⟩
    refine ⟨transition.guard, ⟨noGuard, isGuard⟩, transition.assignments, each, ?_⟩
    rw [← source, ← destination]

/-- Texts say what the transitions of a process are, in the same order. -/
def TransitionsSay (names : NameTable Nat) (texts : List TransitionText) (process : Process) :
    Prop :=
  List.Forall₂ (TransitionText.Says names) texts process.transitions

theorem processOfText_eq_ok_iff {text : List TransitionText} {id : Nat} {process : Process} :
    processOfText names text id = .ok process ↔
      process.id = id ∧ TransitionsSay names text process := by
  have traversed {transitions : List Transition} :
      text.mapM (transitionOfText names id) = .ok transitions ↔
        List.Forall₂ (TransitionText.Says names) text transitions := by
    simp only [mapM_eq_ok_iff, transitionOfText_eq_ok_iff]
  unfold processOfText
  simp only [bind_eq_ok_iff, traversed]
  constructor
  · rintro ⟨transitions, each, made⟩
    obtain rfl := Except.ok.inj made
    exact ⟨rfl, each⟩
  · rintro ⟨rfl, each⟩
    exact ⟨process.transitions, each, rfl⟩

/-- Entries that are read with their places. -/
theorem forall₂_zipIdx_iff {α β : Type} {R : α → β → Prop} {f : β → Nat} {xs : List α}
    {ys : List β} {start : Nat} :
    List.Forall₂ (fun x y => f y = x.2 ∧ R x.1 y) (xs.zipIdx start) ys ↔
      (∀ p y, ys[p]? = some y → f y = start + p) ∧ List.Forall₂ R xs ys := by
  induction xs generalizing start ys with
  | nil => cases ys <;> simp
  | cons x xs ih =>
      cases ys with
      | nil => simp
      | cons y ys =>
          rw [List.zipIdx_cons, List.forall₂_cons, List.forall₂_cons, ih]
          constructor
          · rintro ⟨⟨first, related⟩, places, rest⟩
            refine ⟨?_, related, rest⟩
            rintro (_ | p) z found
            · obtain rfl := Option.some.inj found
              exact first
            · rw [places p z found]
              omega
          · rintro ⟨places, related, rest⟩
            refine ⟨⟨places 0 y rfl, related⟩, ?_, rest⟩
            intro p z found
            rw [places (p + 1) z found]
            omega

/-- The processes of texts have their places as their numbers. -/
theorem mapM_processOfText_eq_ok_iff {texts : List (List TransitionText)}
    {processes : List Process} :
    (texts.zipIdx.mapM fun entry => processOfText names entry.1 entry.2) = .ok processes ↔
      (∀ (p : Nat) (process : Process), processes[p]? = some process → process.id = p) ∧
        List.Forall₂ (TransitionsSay names) texts processes := by
  simp only [mapM_eq_ok_iff, processOfText_eq_ok_iff]
  rw [forall₂_zipIdx_iff (f := Process.id) (R := TransitionsSay names)]
  simp only [Nat.zero_add]

end Parts

/-! ## Models -/

/-- The table of the predicates of a model. -/
def ModelText.names (text : ModelText) : NameTable Nat :=
  .ofList text.predicates

/-- What comes before the processes of a model: no predicate has the number of another one, and
initial values are given for predicates of the model. -/
structure ModelText.HeaderFits (text : ModelText) : Prop where
  distinct : firstRepeated [] text.names.values = none
  known : ((NameTable.ofList text.initial).names.find? fun name => !text.names.contains name) = none

theorem systemOfText_eq {text : ModelText} (fits : text.HeaderFits) :
    systemOfText text =
      (text.processes.zipIdx.mapM fun entry => processOfText text.names entry.1 entry.2) >>=
        fun processes => .ok ⟨text.names, .ofList text.initial, processes⟩ := by
  have distinct : firstRepeated [] (NameTable.ofList text.predicates).values = none :=
    fits.distinct
  have known : ((NameTable.ofList text.initial).names.find? fun name =>
      !(NameTable.ofList text.predicates).contains name) = none := fits.known
  unfold systemOfText
  dsimp only
  rw [distinct, known]
  rfl

/-- The header of a model that is loaded fits. -/
theorem headerFits_of_systemOfText {text : ModelText} {system : System}
    (read : systemOfText text = .ok system) : text.HeaderFits := by
  unfold systemOfText at read
  simp only [bind, Except.bind, throw, throwThe, MonadExceptOf.throw, pure, Except.pure] at read
  split at read
  · contradiction
  rename_i distinct
  split at read
  · contradiction
  rename_i known
  exact ⟨Option.eq_none_iff_forall_ne_some.mpr distinct,
    Option.eq_none_iff_forall_ne_some.mpr known⟩

/-- The text of a model says which predicates a system has, which initial values are given, and what
the transitions of its processes are. -/
structure ModelText.Says (text : ModelText) (system : System) : Prop where
  predicates : system.predicates = text.names
  initial : system.initial = .ofList text.initial
  numbered : system.Numbered
  transitions : List.Forall₂ (TransitionsSay text.names) text.processes system.processes

theorem systemOfText_eq_ok_iff {text : ModelText} {system : System} :
    systemOfText text = .ok system ↔ text.HeaderFits ∧ text.Says system := by
  constructor
  · intro read
    have fits := headerFits_of_systemOfText read
    rw [systemOfText_eq fits, bind_eq_ok_iff] at read
    obtain ⟨processes, isRead, made⟩ := read
    obtain rfl := Except.ok.inj made
    obtain ⟨numbered, transitions⟩ := mapM_processOfText_eq_ok_iff.mp isRead
    exact ⟨fits, rfl, rfl, numbered, transitions⟩
  · rintro ⟨fits, predicates, initial, numbered, transitions⟩
    rw [systemOfText_eq fits, mapM_processOfText_eq_ok_iff.mpr ⟨numbered, transitions⟩,
      ← predicates, ← initial]
    rfl

theorem load_of_layout (read : layout text.toList = .ok model) :
    load text = systemOfText model := by
  rw [load, read]

/-- A loaded system is what a model says. -/
theorem exists_said_of_load {text : String} {system : System} (loaded : load text = .ok system) :
    ∃ model, layout text.toList = .ok model ∧ model.Says system := by
  cases read : layout text.toList with
  | error problem => simp [load, read] at loaded
  | ok model =>
      rw [load_of_layout read] at loaded
      exact ⟨model, rfl, (systemOfText_eq_ok_iff.mp loaded).2⟩

/-- A loaded system numbers its processes by their places. -/
theorem numbered_of_load {text : String} {system : System} (loaded : load text = .ok system) :
    system.Numbered := by
  obtain ⟨_, _, said⟩ := exists_said_of_load loaded
  exact said.numbered

end Trivalent.ModelFile
