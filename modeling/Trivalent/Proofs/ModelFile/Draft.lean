import Trivalent.Proofs.Json.Nesting

/-!
# Drafts of model files

What a model file says before the layouts of its processes are told: its processes are JSON values,
nested as deep as they may be.  A model is read from a file exactly if the file has a draft of which
no process is nested too deep and each one has a layout.
-/

namespace Trivalent.ModelFile

open Json (Reader Value)
open Json.Reader

/-- A model file each of whose processes is an `α`. -/
structure Draft (α : Type) where
  /-- The numbers of predicates by name, of which later ones win. -/
  predicates : List (String × Nat)
  /-- Initial values by name, of which later ones win. -/
  initial : List (String × Bool)
  /-- The processes. -/
  processes : List α

namespace Draft

/-- The model that a draft says, if each of its processes says transitions. -/
def model? {α : Type} (transitions? : α → Option (List TransitionText)) (draft : Draft α) :
    Option ModelText :=
  (draft.processes.mapM transitions?).map fun processes =>
    { predicates := draft.predicates, initial := draft.initial, processes }

/-! ## Reading -/

/-- A draft as an array of its fields, of which the initial values may be missing at the end. -/
def readArray (room : Nat) : Reader (Draft Value) := do
  let predicates ← if ← nextElement true then readPredicates room else endsAfter 0
  let initial ← if ← nextElement false then readInitial room else pure []
  let processes ← if ← nextElement false then list room value else endsAfter 2
  return { predicates, initial, processes }

/-- The fields of a draft that were read. -/
structure Fields where
  /-- The predicates. -/
  predicates : Option (List (String × Nat))
  /-- The initial values. -/
  initial : Option (List (String × Bool))
  /-- The processes. -/
  processes : Option (List Value)

/-- An entry of a draft. -/
def readField (room : Nat) (fields : Fields) (key : List Char) : Reader Fields := do
  let name := String.ofList key
  if name = "predicates" then
    let predicates ← readOnce name fields.predicates (readPredicates room)
    return { fields with predicates }
  else if name = "init" then
    let initial ← readOnce name fields.initial (readInitial room)
    return { fields with initial }
  else if name = "processes" then
    let processes ← readOnce name fields.processes (list room value)
    return { fields with processes }
  else
    valueOf skipValue
    return fields

/-- A draft as an object. -/
def readObject (room : Nat) : Reader (Draft Value) := do
  let fields ← entries (readField room) ((← get).length + 1) true ⟨none, none, none⟩
  match fields.predicates, fields.processes with
  | none, _ => complain (.missingField "predicates")
  | _, none => complain (.missingField "processes")
  | some predicates, some processes =>
      return { predicates, initial := fields.initial.getD [], processes }

/-- A draft, with room for some levels of nesting. -/
def read (room : Nat) : Reader (Draft Value) := do
  match ← peekPastBlanks with
  | none => failHere .endBeforeValue
  | some '[' => nested room readArray closeArray
  | some '{' => nested room readObject closeObject
  | some _ => mismatch (.structure modelName)

/-- The draft of a text, with room for some levels of nesting. -/
def ofText (room : Nat) (text : List Char) : Except Json.Problem (Draft Value) := do
  let read : Reader (Draft Value) := do
    let draft ← read room
    atEnd
    return draft
  return (← read text).1

end Draft

/-- A text is the JSON of a draft, nested as deep as it may be. -/
def Writes (text : String) (draft : Draft Value) : Prop :=
  ∃ room, Draft.ofText room text.toList = .ok draft

namespace Draft

/-! ## Carrying -/

/-- The transitions of a process that is nested less deep than there is room. -/
def fitting? (room : Nat) (v : Value) : Option (List TransitionText) :=
  (v.fit? room).bind process?

theorem carries_process (room roomToo : Nat) :
    Carries (fitting? roomToo) (value room) (readProcess roomToo) := by
  intro text v rest read
  rw [readProcess, found_bind, carries_value room roomToo text v rest read, fitting?]
  cases v.fit? roomToo with
  | none => rfl
  | some v =>
      rw [Option.map_some, Option.bind_some, Option.bind_some]
      dsimp only
      cases process? v <;> rfl

theorem carries_processes (room roomToo : Nat) :
    Carries (List.mapM (fitting? (roomToo + 1))) (list room value) (readProcesses (roomToo + 2)) :=
  carries_list (by omega) (carries_process _ _)

theorem carries_predicates (room roomToo : Nat) :
    Carries some (readPredicates room) (readPredicates (roomToo + 2)) :=
  carries_table (by omega) word

theorem carries_initial (room roomToo : Nat) :
    Carries some (readInitial room) (readInitial (roomToo + 2)) :=
  carries_table (by omega) boolean

theorem carries_readArray (room roomToo : Nat) :
    Carries (model? (fitting? (roomToo + 1))) (readArray room)
      (ModelFile.readArray (roomToo + 2)) := by
  have ended {β γ : Type} {next : β → Reader γ} (length : Nat) :
      Ensures (fun _ => False) (endsAfter length >>= next) :=
    ensures_bind (ensures_complain _) fun _ => False.elim
  unfold readArray ModelFile.readArray
  apply carries_bind_self
  intro morePredicates
  dsimp only
  refine carries_ite ?_ (carries_of_fails (ended 0))
  apply carries_bind_some (carries_predicates room roomToo)
  intro predicates
  apply carries_bind_self
  intro moreInitial
  have behind (initial : List (String × Bool)) :
      Carries (model? (fitting? (roomToo + 1)))
        (do
          let processes ← if ← nextElement false then list room value else endsAfter 2
          return { predicates, initial, processes })
        (do
          let processes ← if ← nextElement false then readProcesses (roomToo + 2) else endsAfter 2
          return { predicates, initial, processes }) := by
    apply carries_bind_self
    intro moreProcesses
    refine carries_ite ?_ (carries_of_fails (ended 2))
    exact carries_map (carries_processes room roomToo) fun _ => rfl
  apply carries_ite
  · exact carries_bind_some (carries_initial room roomToo) behind
  · exact carries_bind_self behind

/-- The fields of a model that fields of a draft say. -/
def Fields.said? (transitions? : Value → Option (List TransitionText)) (fields : Fields) :
    Option ModelFile.Fields :=
  (fields.processes.mapM (List.mapM transitions?)).map fun processes =>
    ⟨fields.predicates, fields.initial, processes⟩

section Fields

variable {transitions? : Value → Option (List TransitionText)} {fields : Fields}
  {said : ModelFile.Fields} {room roomToo : Nat}

theorem Fields.said?_setPredicates (predicates : Option (List (String × Nat))) :
    Fields.said? transitions? { fields with predicates } =
      (fields.said? transitions?).map fun said => { said with predicates } := by
  rw [said?, said?, Option.map_map]
  rfl

theorem Fields.said?_setInitial (initial : Option (List (String × Bool))) :
    Fields.said? transitions? { fields with initial } =
      (fields.said? transitions?).map fun said => { said with initial } := by
  rw [said?, said?, Option.map_map]
  rfl

theorem Fields.said?_setProcesses (isSaid : fields.said? transitions? = some said)
    (processes : List Value) :
    Fields.said? transitions? { fields with processes := some processes } =
      (processes.mapM transitions?).map fun processes =>
        { said with processes := some processes } := by
  obtain ⟨_, _, rfl⟩ := Option.map_eq_some_iff.mp isSaid
  show ((processes.mapM transitions?).map some).map _ = _
  rw [Option.map_map]
  rfl

/-- The fields of a model that are read are those of the draft. -/
theorem same_of_said? (isSaid : fields.said? transitions? = some said) :
    said.predicates = fields.predicates ∧ said.initial = fields.initial ∧
      said.processes.isSome = fields.processes.isSome := by
  obtain ⟨processes, each, rfl⟩ := Option.map_eq_some_iff.mp isSaid
  refine ⟨rfl, rfl, ?_⟩
  cases given : fields.processes with
  | none =>
      rw [given] at each
      obtain rfl := Option.some.inj each
      rfl
  | some written =>
      rw [given] at each
      obtain ⟨_, _, rfl⟩ := Option.map_eq_some_iff.mp each
      rfl

/-- Fields say nothing if the processes do not. -/
theorem exists_processes_of_said?_eq_none (isLost : fields.said? transitions? = none) :
    ∃ processes, fields.processes = some processes ∧ processes.mapM transitions? = none := by
  have each := Option.map_eq_none_iff.mp isLost
  cases given : fields.processes with
  | none =>
      rw [given] at each
      contradiction
  | some processes =>
      rw [given] at each
      exact ⟨processes, rfl, Option.map_eq_none_iff.mp each⟩

theorem carries_readOnce {α α' : Type} {image : α → Option α'} {reader : Reader α}
    {carrier : Reader α'} {before : Option α} {beforeToo : Option α'} (name : String)
    (same : beforeToo.isSome = before.isSome) (each : Carries image reader carrier) :
    Carries image (readOnce name before reader) (readOnce name beforeToo carrier) := by
  unfold readOnce
  rw [same]
  exact carries_ite (carries_of_fails (ensures_complain _)) (carries_bind_self fun _ => each)

theorem carries_readField (isSaid : fields.said? (fitting? (roomToo + 1)) = some said)
    (key : List Char) :
    Carries (Fields.said? (fitting? (roomToo + 1))) (readField room fields key)
      (ModelFile.readField (roomToo + 2) said key) := by
  obtain ⟨predicates, initial, processes⟩ := same_of_said? isSaid
  unfold readField ModelFile.readField
  dsimp only
  apply carries_ite
  · apply carries_map (carries_readOnce _ (by rw [predicates]) (carries_predicates room roomToo))
    intro predicates
    rw [Fields.said?_setPredicates, isSaid]
    rfl
  apply carries_ite
  · apply carries_map (carries_readOnce _ (by rw [initial]) (carries_initial room roomToo))
    intro initial
    rw [Fields.said?_setInitial, isSaid]
    rfl
  apply carries_ite
  · exact carries_map (carries_readOnce _ processes (carries_processes room roomToo))
      (Fields.said?_setProcesses isSaid)
  · exact carries_bind_self fun _ => carries_pure isSaid

/-- Processes that say no transitions stay so. -/
theorem ensures_readField (isLost : fields.said? transitions? = none) (key : List Char) :
    Ensures (Fields.said? transitions? · = none) (readField room fields key) := by
  unfold readField
  dsimp only
  split
  · apply ensures_bind_of_forall
    intro predicates
    apply ensures_pure
    rw [Fields.said?_setPredicates, isLost]
    rfl
  split
  · apply ensures_bind_of_forall
    intro initial
    apply ensures_pure
    rw [Fields.said?_setInitial, isLost]
    rfl
  split
  · -- Only processes that were read can say nothing, and they are not read again.
    obtain ⟨processes, given, _⟩ := exists_processes_of_said?_eq_none isLost
    rw [given]
    exact ensures_bind (ensures_complain _) fun _ => False.elim
  · exact ensures_bind_of_forall fun _ => ensures_pure isLost

end Fields

theorem carries_readObject (room roomToo : Nat) :
    Carries (model? (fitting? (roomToo + 1))) (readObject room)
      (ModelFile.readObject (roomToo + 2)) := by
  unfold readObject ModelFile.readObject
  apply carries_bind_self
  intro text
  apply carries_bind (carries_entries (fun _ _ key isSaid => carries_readField isSaid key)
    (fun _ key isLost => ensures_readField isLost key) _ true rfl)
  · rintro ⟨predicates, initial, processes⟩ said isSaid
    obtain ⟨saidProcesses, each, rfl⟩ := Option.map_eq_some_iff.mp isSaid
    rcases predicates with _ | predicates
    · exact carries_of_fails (ensures_complain _)
    rcases processes with _ | processes
    · exact carries_of_fails (ensures_complain _)
    obtain ⟨transitions, isRead, rfl⟩ := Option.map_eq_some_iff.mp each
    apply carries_pure
    rw [model?, isRead]
    rfl
  · rintro fields isLost
    obtain ⟨processes, given, isLost⟩ := exists_processes_of_said?_eq_none isLost
    rw [given]
    cases fields.predicates with
    | none => exact ensures_complain _
    | some predicates =>
        apply ensures_pure
        rw [model?, isLost]
        rfl

/-- A reader of models reads what a reader of drafts reads. -/
theorem carries_read (room : Nat) : Carries (model? (fitting? 126)) (read room) readModel := by
  have noRoom {α : Prop} (full : nestingLimit ≤ 1) : α := absurd full (by decide)
  apply carries_bind_self
  intro next
  split
  · exact carries_of_fails (ensures_failHere _)
  · exact carries_nested (fun _ => carries_readArray _ 125) noRoom
  · exact carries_nested (fun _ => carries_readObject _ 125) noRoom
  · exact carries_of_fails (ensures_mismatch _)

end Draft

/-- A model is read from a text exactly if no process of its draft is nested too deep and each one
has a layout. -/
theorem toOption_layout {text : String} {draft : Draft Value} (writes : Writes text draft) :
    (layout text.toList).toOption = draft.model? (Draft.fitting? 126) := by
  obtain ⟨room, isRead⟩ := writes
  obtain ⟨⟨_, rest⟩, isFound, made⟩ := bind_eq_ok_iff.mp isRead
  obtain rfl := Except.ok.inj made
  have carried : Carries (Draft.model? (Draft.fitting? 126))
      (do let draft ← Draft.read room; atEnd; return draft)
      (do let model ← readModel; atEnd; return model) := by
    apply carries_bind (Draft.carries_read room)
    · exact fun draft model isModel => carries_bind_self fun _ => carries_pure isModel
    · exact fun draft none => ensures_bind_of_forall fun _ => ensures_pure none
  have model := carried _ _ _ (found_eq_some_iff.mpr isFound)
  have isLayout (reader : Reader ModelText) (chars : List Char) :
      (do return (← reader chars).1 : Except Json.Problem ModelText).toOption =
        (found reader chars).map Prod.fst := by
    unfold found
    cases reader chars <;> rfl
  rw [layout, isLayout, model, Option.map_map]
  exact Option.map_id'

end Trivalent.ModelFile
