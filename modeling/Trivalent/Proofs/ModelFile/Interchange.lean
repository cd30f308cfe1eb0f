import Trivalent.Proofs.Json.Equality
import Trivalent.Proofs.ModelFile.Draft
import Trivalent.Proofs.ModelFile.Failures
import Trivalent.Proofs.ModelFile.WellFormed

/-!
# Interchangeable layouts

What a process says does not depend on its layout.  So two texts of models that have the same
predicates and initial values, and the same transitions in their processes, are loaded alike: as the
same system or with the same failure.  This takes processes that are nested at most 125 deep, since
layouts are nested deeper than others and what is nested too deep is not read.
-/

namespace Trivalent

namespace ModelFile

open Json (Value)

deriving instance DecidableEq for Draft

/-! ## Layouts -/

/-- A process is laid out in one way only: an object does not give both states and transitions. -/
structure OnlyLaysOut (v : Value) (elements : List Value) : Prop where
  laysOut : LaysOut v elements
  notBoth : ∀ entries, v = .object entries →
    field? ["states"] entries = some none ∨ field? ["transitions"] entries = some none

/-- What a process is read as depends on its transitions only. -/
theorem OnlyLaysOut.process?_eq {v : Value} {elements : List Value}
    (only : OnlyLaysOut v elements) :
    process? v = elements.mapM TransitionText.ofValue? := by
  obtain ⟨laysOut, notBoth⟩ := only
  cases laysOut with
  | @states entries states groups given each =>
      -- States that cannot be read must not leave another layout to try.
      have noTransitions : field? ["transitions"] entries = some none := by
        rcases notBoth entries rfl with noStates | noTransitions
        · rw [given] at noStates
          cases Option.some.inj noStates
        · exact noTransitions
      have byField : ofTransitions? (.object entries) = none := by
        rw [ofTransitions?, member?, noTransitions]
        rfl
      rw [process?, ofStates?_eq given each, byField]
      cases groups.flatten.mapM TransitionText.ofValue? <;> rfl
  | @transitions entries elements noStates given =>
      have byStates : ofStates? (.object entries) = none := by
        rw [ofStates?, member?, noStates]
        rfl
      have byField : ofTransitions? (.object entries) =
          elements.mapM TransitionText.ofValue? := by
        rw [ofTransitions?, member?, given]
        rfl
      rw [process?, byStates, byField]
      cases elements.mapM TransitionText.ofValue? <;> rfl
  | array elements => rfl

/-! ## Drafts of the same model -/

/-- A draft of a model with the given transitions in its processes. -/
structure Draft.LaysOut (draft : Draft Value) (model : Draft (List Value)) : Prop where
  predicates : draft.predicates = model.predicates
  initial : draft.initial = model.initial
  processes : List.Forall₂ OnlyLaysOut draft.processes model.processes

/-- No process is nested deeper than is read. -/
def Draft.Shallow (draft : Draft Value) : Prop :=
  ∀ v ∈ draft.processes, v.depth ≤ 125

/-- Every transition has the fields that it needs. -/
def Draft.Readable (model : Draft (List Value)) : Prop :=
  ∀ process ∈ model.processes, ∀ transition ∈ process,
    (TransitionText.ofValue? transition).isSome

theorem isSome_mapM_iff {α β : Type} {f : α → Option β} {as : List α} :
    (as.mapM f).isSome ↔ ∀ a ∈ as, (f a).isSome := by
  induction as with
  | nil => simp
  | cons a as ih =>
      rw [List.mapM_cons, List.forall_mem_cons, ← ih]
      cases f a <;> cases as.mapM f <;> simp

theorem Draft.readable_iff {model : Draft (List Value)} :
    model.Readable ↔ (model.model? (List.mapM TransitionText.ofValue?)).isSome := by
  rw [model?, Option.isSome_map, isSome_mapM_iff]
  simp only [isSome_mapM_iff, Readable]

theorem Draft.mapM_fitting?_eq {vs : List Value} {groups : List (List Value)}
    (each : List.Forall₂ OnlyLaysOut vs groups) (shallow : ∀ v ∈ vs, v.depth ≤ 125) :
    vs.mapM (fitting? 126) = groups.mapM (List.mapM TransitionText.ofValue?) := by
  apply mapM_eq_of_forall₂
  refine ((List.forall₂_and_left vs groups).mpr ⟨shallow, each⟩).imp ?_
  rintro v elements ⟨isShallow, only⟩
  have fits : v.fit? 126 = some v := if_pos (Nat.lt_succ_of_le isShallow)
  rw [fitting?, fits, ← only.process?_eq]
  rfl

/-- A draft that is not nested too deep says what its transitions say. -/
theorem Draft.LaysOut.model?_eq {draft : Draft Value} {model : Draft (List Value)}
    (laysOut : draft.LaysOut model) (shallow : draft.Shallow) :
    draft.model? (fitting? 126) = model.model? (List.mapM TransitionText.ofValue?) := by
  rw [model?, model?, laysOut.predicates, laysOut.initial,
    mapM_fitting?_eq laysOut.processes shallow]

theorem layout_of_laysOut {text : String} {draft : Draft Value} {model : Draft (List Value)}
    {said : ModelText} (writes : Writes text draft) (laysOut : draft.LaysOut model)
    (shallow : draft.Shallow)
    (isSaid : model.model? (List.mapM TransitionText.ofValue?) = some said) :
    layout text.toList = .ok said := by
  rw [← toOption_eq_some_iff, toOption_layout writes, laysOut.model?_eq shallow, isSaid]

/-- A text with a process that is nested too deep is malformed. -/
theorem load_eq_malformed_of_deep {text : String} {draft : Draft Value}
    (writes : Writes text draft) (deep : ¬draft.Shallow) :
    ∃ message, load text = .error (.malformed message) := by
  rw [load_eq_malformed_iff, toOption_layout writes, Draft.model?, Option.map_eq_none_iff,
    ← Option.not_isSome_iff_eq_none, isSome_mapM_iff]
  intro each
  apply deep
  intro v member
  have fits := each v member
  by_contra tooDeep
  have unfit : v.fit? 126 = none := if_neg (by omega)
  rw [Draft.fitting?, unfit] at fits
  contradiction

/-- Texts of the same model are loaded alike, whatever the layouts of their processes are, if no
process is nested too deep: as the same system or with the same failure, which is about what the
model says.  If a transition lacks a field that it needs, none of the texts is loaded. -/
theorem load_eq_of_laysOut {text text' : String} {draft draft' : Draft Value}
    {model : Draft (List Value)} (writes : Writes text draft) (writes' : Writes text' draft')
    (laysOut : draft.LaysOut model) (laysOut' : draft'.LaysOut model)
    (shallow : draft.Shallow) (shallow' : draft'.Shallow) :
    (model.Readable →
      load text = load text' ∧ ∀ e, load text = .error e → e.AboutModel) ∧
    (¬model.Readable →
      (∃ message, load text = .error (.malformed message)) ∧
        ∃ message, load text' = .error (.malformed message)) := by
  rw [Draft.readable_iff]
  constructor
  · intro readable
    obtain ⟨said, isSaid⟩ := Option.isSome_iff_exists.mp readable
    rw [load_of_layout (layout_of_laysOut writes laysOut shallow isSaid),
      load_of_layout (layout_of_laysOut writes' laysOut' shallow' isSaid)]
    exact ⟨rfl, failsWith_systemOfText said⟩
  · intro unreadable
    rw [Option.not_isSome_iff_eq_none] at unreadable
    rw [load_eq_malformed_iff, load_eq_malformed_iff, toOption_layout writes,
      toOption_layout writes', laysOut.model?_eq shallow, laysOut'.model?_eq shallow']
    exact ⟨unreadable, unreadable⟩

end ModelFile

namespace Interchange

open Json (Value)
open ModelFile

/-- A model of one predicate. -/
def draft {α : Type} (processes : List α) : Draft α :=
  ⟨[("x", 0)], [], processes⟩

/-- The characters of the text of a model of one predicate with one process. -/
def characters (process : List Char) : List Char :=
  "\x7b\"predicates\": \x7b\"x\": 0\x7d, \"processes\": [".toList ++ process ++ "]\x7d".toList

/-- The text of a model of one predicate with one process. -/
def text (process : List Char) : String :=
  .ofList (characters process)

theorem writes_text {process : List Char} {written : Draft Value} (room : Nat)
    (read : Draft.ofText room (characters process) = .ok written) : Writes (text process) written :=
  ⟨room, (congrArg (Draft.ofText room) String.toList_ofList).trans read⟩

/-- A transition with a further field. -/
def transition (source destination : Nat) (name : String) (value : Value) : Value :=
  .object [("source".toList, .number (.word source)),
    ("destination".toList, .number (.word destination)), (name.toList, value)]

/-- An object with one field, which is an array. -/
def field (name : String) (elements : List Value) : Value :=
  .object [(name.toList, .array elements)]

/-- A transition that is guarded. -/
def first : Value :=
  transition 0 1 "guard" (.string "x".toList)

/-- A transition with an unknown field. -/
def second : Value :=
  transition 1 0 "note" .null

/-- The text of the first transition. -/
def firstText : List Char :=
  "\x7b\"source\": 0, \"destination\": 1, \"guard\": \"x\"\x7d".toList

/-- The text of the second transition. -/
def secondText : List Char :=
  "\x7b\"source\": 1, \"destination\": 0, \"note\": null\x7d".toList

/-- The text of a process as a list. -/
def listed : List Char :=
  "[".toList ++ firstText ++ ", ".toList ++ secondText ++ "]".toList

/-- The text of the process by states, of which one has an empty list and one has none. -/
def parted : List Char :=
  "\x7b\"states\": [\x7b\"transitions\": []\x7d, \x7b\"transitions\": [".toList ++ firstText ++
    "]\x7d, \x7b\x7d, \x7b\"transitions\": [".toList ++ secondText ++ "]\x7d]\x7d".toList

/-- The process by states. -/
def states : Value :=
  field "states" [field "transitions" [], field "transitions" [first], .object [],
    field "transitions" [second]]

/-- The system of both texts. -/
def system : System where
  predicates := .ofList [("x", 0)]
  initial := .ofList []
  processes := [⟨0, [⟨0, 1, .plain (.predicate 0), []⟩, ⟨1, 0, .always, []⟩]⟩]

theorem laysOut_array (elements : List Value) :
    (draft [.array elements]).LaysOut (draft [elements]) :=
  ⟨rfl, rfl, .cons ⟨.array elements, nofun⟩ .nil⟩

theorem laysOut_transitions (elements : List Value) :
    (draft [field "transitions" elements]).LaysOut (draft [elements]) := by
  have noStates : field? ["states"] [("transitions".toList, .array elements)] = some none := rfl
  refine ⟨rfl, rfl, .cons ⟨.transitions noStates rfl, ?_⟩ .nil⟩
  rintro _ ⟨⟩
  exact .inl noStates

theorem laysOut_states : (draft [states]).LaysOut (draft [[first, second]]) := by
  have each : List.Forall₂ StateLaysOut [field "transitions" [], field "transitions" [first],
      .object [], field "transitions" [second]] [[], [first], [], [second]] :=
    .cons (.inl rfl) (.cons (.inl rfl) (.cons (.inr ⟨rfl, rfl⟩) (.cons (.inl rfl) .nil)))
  refine ⟨rfl, rfl, .cons ⟨.states rfl each, ?_⟩ .nil⟩
  rintro _ ⟨⟩
  exact .inr rfl

/-- Arrays in one another. -/
def arrays : Nat → Value
  | 0 => .array []
  | levels + 1 => .array [arrays levels]

/-- A transition with an unknown field that is nested 123 deep. -/
def deep : Value :=
  transition 0 0 "note" (arrays 122)

/-- The text of the deep transition. -/
def deepText : List Char :=
  "\x7b\"source\": 0, \"destination\": 0, \"note\": ".toList ++ List.replicate 123 '[' ++
    List.replicate 123 ']' ++ ['\x7d']

/-- The text of a process as a list of the deep transition. -/
def deepListed : List Char :=
  ['['] ++ deepText ++ [']']

/-- The text of the process as an object. -/
def deepGiven : List Char :=
  "\x7b\"transitions\": [".toList ++ deepText ++ "]\x7d".toList

/-- The system of a process with the deep transition. -/
def deepSystem : System where
  predicates := .ofList [("x", 0)]
  initial := .ofList []
  processes := [⟨0, [⟨0, 0, .always, []⟩]⟩]

end Interchange

open Interchange

/-- A list and states, some of them without transitions, are loaded alike. -/
theorem ModelFile.load_listed_eq_load_parted :
    Writes (text listed) (draft [.array [first, second]]) ∧
      Writes (text parted) (draft [states]) ∧
      (draft [[first, second]]).Readable ∧ load (text listed) = .ok system ∧
      load (text listed) = load (text parted) := by
  have writes : Writes (text listed) (draft [.array [first, second]]) :=
    writes_text 128 (by decide +kernel)
  have writes' : Writes (text parted) (draft [states]) := writes_text 128 (by decide +kernel)
  have shallow : (draft [.array [first, second]]).Shallow := by
    unfold Draft.Shallow
    decide +kernel
  have shallow' : (draft [states]).Shallow := by
    unfold Draft.Shallow
    decide +kernel
  have isSaid : (draft [[first, second]]).model? (List.mapM TransitionText.ofValue?) =
      some ⟨[("x", 0)], [], [[⟨0, 1, some ['x'], []⟩, ⟨1, 0, none, []⟩]]⟩ := by decide +kernel
  have readable : (draft [[first, second]]).Readable := by
    rw [Draft.readable_iff, isSaid]
    rfl
  have loaded : load (text listed) = .ok system := by
    rw [load_of_layout (layout_of_laysOut writes (laysOut_array _) shallow isSaid)]
    decide +kernel
  have alike := load_eq_of_laysOut writes writes' (laysOut_array _) laysOut_states shallow shallow'
  exact ⟨writes, writes', readable, loaded, (alike.1 readable).1⟩

/-- Of two layouts of a process with a deep transition, one is loaded and the other one is nested
too deep. -/
theorem ModelFile.load_deep_layouts :
    Writes (text deepListed) (draft [.array [deep]]) ∧
      Writes (text deepGiven) (draft [field "transitions" [deep]]) ∧
      (∃ entries, deep = .object entries) ∧
      (draft [.array [deep]]).LaysOut (draft [[deep]]) ∧
      (draft [field "transitions" [deep]]).LaysOut (draft [[deep]]) ∧
      load (text deepListed) = .ok deepSystem ∧
      ∃ message, load (text deepGiven) = .error (.malformed message) := by
  have writes : Writes (text deepListed) (draft [.array [deep]]) :=
    writes_text 128 (by decide +kernel)
  have writes' : Writes (text deepGiven) (draft [field "transitions" [deep]]) :=
    writes_text 129 (by decide +kernel)
  have shallow : (draft [.array [deep]]).Shallow := by
    unfold Draft.Shallow
    decide +kernel
  have tooDeep : ¬(draft [field "transitions" [deep]]).Shallow := by
    unfold Draft.Shallow
    decide +kernel
  have isSaid : (draft [[deep]]).model? (List.mapM TransitionText.ofValue?) =
      some ⟨[("x", 0)], [], [[⟨0, 0, none, []⟩]]⟩ := by decide +kernel
  have loaded : load (text deepListed) = .ok deepSystem := by
    rw [load_of_layout (layout_of_laysOut writes (laysOut_array _) shallow isSaid)]
    decide +kernel
  exact ⟨writes, writes', ⟨_, rfl⟩, laysOut_array _, laysOut_transitions _, loaded,
    load_eq_malformed_of_deep writes' tooDeep⟩

end Trivalent
