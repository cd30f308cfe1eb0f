import Trivalent.Proofs.ModelFile.Draft

/-!
# Conventions of the reader

JSON leaves some choices to its readers: how deep values may be nested, and what a key means that is
given twice.  The reader of model files makes the choices that are documented for the JSON library
behind the format.

* What is kept is nested less deep than there is room (`value_eq_ok_iff`, `value_eq_tooDeep`), and
  what is skipped is nested at any depth (`skipValue_replicate`).
* A process is kept as a whole before its layout is told, so what is wrong with its JSON comes before
  what is wrong with its layout (`readProcess_eq_ok_iff`, `readProcess_eq_error_iff`).
* A field is given at most once, under one of its spellings (`readField_of_has`,
  `exists_keys_of_readObject`, `fields?_object_eq_none_iff`), and unknown fields are ignored
  (`fields?_object_filter`).
* Of the entries of a table for a name, the last one counts (`NameTable.get?_ofList`).
-/

namespace Trivalent

namespace Json.Reader

/-! ## Nesting -/

/-- Room decides about the depth of values and about nothing else. -/
theorem value_eq_ok_iff {room : Nat} {text rest : List Char} {v : Value} :
    value room text = .ok (v, rest) ↔
      (∃ more, value more text = .ok (v, rest)) ∧ v.depth < room := by
  simp only [← found_eq_some_iff]
  constructor
  · intro read
    refine ⟨⟨room, read⟩, ?_⟩
    by_contra deep
    have lost := carries_value room room text v rest read
    rw [Value.fit?, if_neg deep, read] at lost
    contradiction
  · rintro ⟨⟨more, read⟩, fits⟩
    rw [carries_value more room text v rest read, Value.fit?, if_pos fits]
    rfl

theorem enclosed_eq_error {α : Type} {inside : Reader α} {close : Reader Unit} {text : List Char}
    {problem : Problem} (failed : inside text = .error problem) (settled : problem.settled) :
    enclosed inside close text = .error problem := by
  unfold enclosed
  rw [failed]
  exact if_pos settled

theorem value_openArray (room : Nat) (text : List Char) :
    value (room + 2) ('[' :: text) = enclosed (arrayInside (room + 1)) closeArray text :=
  rfl

theorem elements_openArray {α β : Type} (element : Reader α) (add : β → α → β) (count : Nat)
    (read : β) (text : List Char) :
    elements element add (count + 1) true read ('[' :: text) =
      (do let a ← element; elements element add count false (add read a)) ('[' :: text) :=
  rfl

/-- An array whose first element is an array fails as that one does by itself. -/
theorem arrayInside_openArray {room : Nat} {text : List Char} {problem : Problem}
    (failed : value room ('[' :: text) = .error problem) :
    arrayInside room ('[' :: text) = .error problem := by
  have first : elements (value room) (fun read v => v :: read) (text.length + 2) true []
      ('[' :: text) = .error problem :=
    (elements_openArray _ _ _ _ _).trans (bind_eq_of_error failed)
  have start : (get : Reader (List Char)) ('[' :: text) = .ok ('[' :: text, '[' :: text) := rfl
  exact (bind_eq_of_ok start).trans (bind_eq_of_error first)

/-- Of brackets that open one level more than there is room for, the last one is refused. -/
theorem value_eq_tooDeep (room : Nat) (text : List Char) :
    value (room + 1) (List.replicate (room + 1) '[' ++ text) =
      .error ⟨.tooDeep, '[' :: text, 1, true⟩ := by
  induction room with
  | zero => rfl
  | succ room ih =>
      rw [List.replicate_succ, List.cons_append, value_openArray]
      exact enclosed_eq_error (arrayInside_openArray ih) rfl

/-- Arrays that end one after the other are closed. -/
theorem nextValue_replicate (depth : Nat) (text : List Char) :
    nextValue (List.replicate depth .array) false (List.replicate depth ']' ++ text) =
      .ok ([], text) := by
  induction depth with
  | zero => rfl
  | succ depth ih => exact ih

/-- Arrays inside open ones are skipped together with the rest of those. -/
theorem skipValues_replicate (count depth outer : Nat) (text : List Char) :
    skipValues (count + depth + 1) (List.replicate outer .array)
      (List.replicate (depth + 1) '[' ++ (List.replicate (outer + depth + 1) ']' ++ text)) =
        .ok ((), text) := by
  induction depth generalizing outer with
  | zero =>
      show (nextValue (List.replicate outer .array) false (List.replicate outer ']' ++ text) >>=
        fun result => _) = _
      rw [nextValue_replicate]
      rfl
  | succ depth ih =>
      have inner := ih (outer + 1)
      rw [show outer + 1 + depth + 1 = outer + (depth + 1) + 1 by omega] at inner
      exact inner

/-- Arrays of no interest are skipped, however deep they are nested. -/
theorem skipValue_replicate (depth : Nat) (text : List Char) :
    skipValue (List.replicate (depth + 1) '[' ++ (List.replicate (depth + 1) ']' ++ text)) =
      .ok ((), text) := by
  have skipped := skipValues_replicate (depth + 2 + text.length) depth 0 text
  rw [Nat.zero_add] at skipped
  have length : (List.replicate (depth + 1) '[' ++
      (List.replicate (depth + 1) ']' ++ text)).length = depth + 2 + text.length + depth := by
    simp only [List.length_append, List.length_replicate]
    omega
  rw [← length] at skipped
  exact skipped

end Json.Reader

namespace ModelFile

open Json (Problem Reader Value)
open Json.Reader

/-! ## Buffering -/

variable {room : Nat} {text rest : List Char}

theorem readProcess_of_ok {v : Value} (read : value room text = .ok (v, rest)) :
    readProcess room text =
      match process? v with
      | some transitions => .ok (transitions, rest)
      | none => .error ⟨.noLayout "RawProcess", rest, 0, false⟩ := by
  rw [readProcess, bind_eq_of_ok read]
  cases process? v <;> rfl

theorem readProcess_of_error {problem : Problem} (failed : value room text = .error problem) :
    readProcess room text = .error problem :=
  bind_eq_of_error failed

/-- A process is read if it is a value that has a layout. -/
theorem readProcess_eq_ok_iff {transitions : List TransitionText} :
    readProcess room text = .ok (transitions, rest) ↔
      ∃ v, value room text = .ok (v, rest) ∧ process? v = some transitions := by
  cases read : value room text with
  | error problem => simp [readProcess_of_error read]
  | ok result =>
      obtain ⟨v, behind⟩ := result
      rw [readProcess_of_ok read]
      cases layout : process? v <;> simp [and_comm, layout]

/-- A process that is no value has the problem of the value.  One without a layout has its problem
behind the value. -/
theorem readProcess_eq_error_iff {problem : Problem} :
    readProcess room text = .error problem ↔
      value room text = .error problem ∨
      ∃ v rest, value room text = .ok (v, rest) ∧ process? v = none ∧
        problem = ⟨.noLayout "RawProcess", rest, 0, false⟩ := by
  cases read : value room text with
  | error found => simp [readProcess_of_error read]
  | ok result =>
      obtain ⟨v, behind⟩ := result
      rw [readProcess_of_ok read]
      cases layout : process? v <;> simp [layout, eq_comm]

/-! ## Fields of values -/

/-- There is no telling the value of a field that is given twice. -/
theorem field?_eq_none_iff {spellings : List String} {entries : List (List Char × Value)} :
    field? spellings entries = none ↔
      1 < entries.countP fun entry => spellings.contains (String.ofList entry.1) := by
  rw [List.countP_eq_length_filter, field?]
  cases entries.filter fun entry => spellings.contains (String.ofList entry.1) with
  | nil => simp
  | cons first others => cases others <;> simp

/-- An object is no structure exactly if one of the fields is given twice. -/
theorem fields?_object_eq_none_iff {names : List (List String)}
    {entries : List (List Char × Value)} :
    fields? names (.object entries) = none ↔
      ∃ spellings ∈ names,
        1 < entries.countP fun entry => spellings.contains (String.ofList entry.1) := by
  rw [fields?]
  induction names with
  | nil => simp
  | cons spellings names ih =>
      simp only [List.mem_cons, exists_eq_or_imp]
      rw [List.mapM_cons, ← ih, ← field?_eq_none_iff]
      cases field? spellings entries <;>
        cases names.mapM (fun spellings => field? spellings entries) <;> simp

/-- Fields that no spelling names are ignored, however often they are given. -/
theorem fields?_object_filter {names : List (List String)} {known : String → Bool}
    (each : ∀ spellings ∈ names, ∀ name ∈ spellings, known name)
    (entries : List (List Char × Value)) :
    fields? names (.object (entries.filter fun entry => known (String.ofList entry.1))) =
      fields? names (.object entries) := by
  have same (spellings : List String) (isKnown : ∀ name ∈ spellings, known name) :
      field? spellings (entries.filter fun entry => known (String.ofList entry.1)) =
        field? spellings entries := by
    have kept : (entries.filter fun entry => known (String.ofList entry.1)).filter
        (fun entry => spellings.contains (String.ofList entry.1)) =
          entries.filter fun entry => spellings.contains (String.ofList entry.1) := by
      rw [List.filter_filter]
      apply List.filter_congr
      intro entry _
      by_cases named : String.ofList entry.1 ∈ spellings
      · simp [named, isKnown _ named]
      · simp [named]
    rw [field?, kept, field?]
  rw [fields?, fields?]
  induction names with
  | nil => rfl
  | cons spellings names ih =>
      obtain ⟨first, others⟩ := List.forall_mem_cons.mp each
      rw [List.mapM_cons, List.mapM_cons, same spellings first, ih others]

/-! ## Fields of models -/

/-- The names of the fields of a model. -/
def fieldNames : List String :=
  ["predicates", "init", "processes"]

/-- A field of the name was read. -/
def Fields.Has (fields : Fields) (name : String) : Prop :=
  name = "predicates" ∧ fields.predicates.isSome ∨ name = "init" ∧ fields.initial.isSome ∨
    name = "processes" ∧ fields.processes.isSome

section Has

variable {fields : Fields} {name : String}

theorem Fields.has_setPredicates (predicates : List (String × Nat)) :
    Fields.Has { fields with predicates := some predicates } name ↔
      fields.Has name ∨ name = "predicates" := by
  simp only [Has, Option.isSome_some, and_true]
  tauto

theorem Fields.has_setInitial (initial : List (String × Bool)) :
    Fields.Has { fields with initial := some initial } name ↔
      fields.Has name ∨ name = "init" := by
  simp only [Has, Option.isSome_some, and_true]
  tauto

theorem Fields.has_setProcesses (processes : List (List TransitionText)) :
    Fields.Has { fields with processes := some processes } name ↔
      fields.Has name ∨ name = "processes" := by
  simp only [Has, Option.isSome_some, and_true]
  tauto

/-- A field that was read is not read again. -/
theorem readField_of_has {key : List Char} (has : fields.Has (String.ofList key)) :
    readField room fields key = complain (.duplicateField (String.ofList key)) := by
  unfold readField readOnce
  rcases has with ⟨isName, given⟩ | ⟨isName, given⟩ | ⟨isName, given⟩
  · rw [if_pos isName, if_pos given]
    rfl
  · rw [isName, if_neg (by decide), if_pos rfl, if_pos given]
    rfl
  · rw [isName, if_neg (by decide), if_neg (by decide), if_pos rfl, if_pos given]
    rfl

/-- An entry gives the field that it names, and no other one. -/
theorem ensures_readField_has (fields : Fields) (key : List Char) :
    Ensures (fun later => ∀ name, later.Has name ↔
        fields.Has name ∨ name ∈ fieldNames ∧ name = String.ofList key)
      (readField room fields key) := by
  have named {field : String} (isField : field ∈ fieldNames) (name : String) :
      name = field ↔ name ∈ fieldNames ∧ name = field :=
    (and_iff_right_of_imp fun same => same ▸ isField).symm
  unfold readField
  dsimp only
  split
  · rename_i isName
    refine ensures_bind_of_forall fun predicates => ensures_pure fun name => ?_
    rw [Fields.has_setPredicates, isName, ← named (by decide)]
  split
  · rename_i isName
    refine ensures_bind_of_forall fun initial => ensures_pure fun name => ?_
    rw [Fields.has_setInitial, isName, ← named (by decide)]
  split
  · rename_i isName
    refine ensures_bind_of_forall fun processes => ensures_pure fun name => ?_
    rw [Fields.has_setProcesses, isName, ← named (by decide)]
  · rename_i noPredicates noInitial noProcesses
    refine ensures_bind_of_forall fun _ => ensures_pure fun name => ?_
    rw [or_iff_left]
    rintro ⟨isField, rfl⟩
    simp [fieldNames, noPredicates, noInitial, noProcesses] at isField

end Has

/-- Reads an entry and keeps its key, before the keys that were read earlier. -/
def keepingKey {β : Type} (entry : β → List Char → Reader β) (read : β × List String)
    (key : List Char) : Reader (β × List String) := do
  return (← entry read.1 key, String.ofList key :: read.2)

/-- Entries are read alike whether their keys are kept or not. -/
theorem found_entries_keepingKey {β : Type} (entry : β → List Char → Reader β) (count : Nat)
    (first : Bool) (read : β) (keys : List String) (text : List Char) :
    found (entries entry count first read) text =
      (found (entries (keepingKey entry) count first (read, keys)) text).map
        fun result => (result.1.1, result.2) := by
  induction count generalizing first read keys text with
  | zero => rfl
  | succ count ih =>
      unfold entries
      rw [found_bind, found_bind]
      rcases found (nextKey first) text with _ | ⟨_ | key, between⟩
      · rfl
      · rfl
      · dsimp only [Option.bind_some]
        rw [found_bind, found_bind, keepingKey, found_bind]
        rcases found (entry read key) between with _ | ⟨later, behind⟩
        · rfl
        · exact ih false later (String.ofList key :: keys) behind

/-- The fields that were read are those whose names are among the keys, and none of the names is
there twice. -/
def Fields.GivenBy (fields : Fields) (keys : List String) : Prop :=
  (∀ name, fields.Has name ↔ name ∈ fieldNames ∧ name ∈ keys) ∧
    (keys.filter (· ∈ fieldNames)).Nodup

theorem givenBy_nil : Fields.GivenBy ⟨none, none, none⟩ [] := by
  simp [Fields.GivenBy, Fields.Has]

theorem ensures_keepingKey_givenBy {read : Fields × List String} (given : read.1.GivenBy read.2)
    (key : List Char) :
    Ensures (fun later => later.1.GivenBy later.2) (keepingKey (readField room) read key) := by
  obtain ⟨fields, keys⟩ := read
  obtain ⟨has, distinct⟩ := given
  unfold keepingKey
  by_cases before : String.ofList key ∈ fieldNames ∧ String.ofList key ∈ keys
  · rw [readField_of_has ((has _).mpr before)]
    exact ensures_bind (ensures_complain _) fun _ => False.elim
  · refine ensures_bind (ensures_readField_has fields key) fun later hasLater => ensures_pure ?_
    constructor
    · intro name
      rw [hasLater, has, List.mem_cons]
      tauto
    · by_cases isField : String.ofList key ∈ fieldNames
      · rw [List.filter_cons_of_pos (by simpa using isField), List.nodup_cons]
        exact ⟨fun again => before ⟨isField, (List.mem_filter.mp again).1⟩, distinct⟩
      · rw [List.filter_cons_of_neg (by simpa using isField)]
        exact distinct

theorem ensures_fields_givenBy (count : Nat) :
    Ensures (fun read => read.1.GivenBy read.2)
      (entries (keepingKey (readField room)) count true (⟨none, none, none⟩, [])) :=
  ensures_entries (fun _ key given => ensures_keepingKey_givenBy given key) count true givenBy_nil

/-- An object that is read as a model gives no field twice, and gives those that have to be
there. -/
theorem exists_keys_of_readObject {model : ModelText}
    (isRead : readObject room text = .ok (model, rest)) :
    ∃ fields keys,
      entries (keepingKey (readField room)) (text.length + 1) true (⟨none, none, none⟩, []) text =
          .ok ((fields, keys), rest) ∧
        (keys.filter (· ∈ fieldNames)).Nodup ∧ "predicates" ∈ keys ∧ "processes" ∈ keys := by
  unfold readObject at isRead
  rw [← found_eq_some_iff, found_bind] at isRead
  change (some (text, text)).bind _ = _ at isRead
  rw [Option.bind_some, found_bind, Option.bind_eq_some_iff] at isRead
  obtain ⟨⟨fields, behind⟩, isFields, isModel⟩ := isRead
  rw [found_entries_keepingKey (readField room) _ true ⟨none, none, none⟩ [],
    Option.map_eq_some_iff] at isFields
  obtain ⟨⟨⟨fields, keys⟩, behind⟩, isKept, same⟩ := isFields
  obtain ⟨rfl, rfl⟩ := Prod.mk.inj same
  obtain ⟨has, distinct⟩ := ensures_fields_givenBy _ _ _ _ (found_eq_some_iff.mp isKept)
  have isThere (name : String) (given : fields.Has name) : name ∈ keys := ((has name).mp given).2
  rcases fields with ⟨_ | predicates, initial, _ | processes⟩
  · cases isModel
  · cases isModel
  · cases isModel
  · cases isModel
    exact ⟨_, keys, found_eq_some_iff.mp isKept, distinct,
      isThere "predicates" (.inl ⟨rfl, rfl⟩), isThere "processes" (.inr (.inr ⟨rfl, rfl⟩))⟩

end ModelFile

end Trivalent
