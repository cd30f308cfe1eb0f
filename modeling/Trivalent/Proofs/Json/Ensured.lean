import Trivalent.Proofs.ModelFile.Reading

/-!
# What readers ensure

A property of whatever a reader reads, from any text.  Numbers that are read as words are words, so
the predicates of a loaded system are numbered by words.
-/

namespace Trivalent

namespace NameTable

/-- The entries of a table are entries of the list that it is made of. -/
theorem mem_of_mem_ofList {α : Type} {entries : List (String × α)} {entry : String × α}
    (member : entry ∈ (ofList entries).entries) : entry ∈ entries := by
  have kept (entries : List (String × α)) (table : NameTable α)
      (member : entry ∈
        (entries.foldl (fun table entry => table.insert entry.1 entry.2) table).entries) :
      entry ∈ table.entries ∨ entry ∈ entries := by
    induction entries generalizing table with
    | nil => exact .inl member
    | cons first rest ih =>
        rcases ih _ member with inTable | inRest
        · rcases name_mem_insertEntry inTable with rfl | old
          · exact .inr List.mem_cons_self
          · exact .inl old
        · exact .inr (List.mem_cons_of_mem _ inRest)
  rcases kept entries empty member with none | listed
  · contradiction
  · exact listed

end NameTable

namespace Json.Reader

variable {α β : Type} {P : β → Prop} {Q : α → Prop}

theorem bind_eq_of_ok {reader : Reader α} {next : α → Reader β} {text rest : List Char} {a : α}
    (read : reader text = .ok (a, rest)) : (reader >>= next) text = next a rest := by
  show (reader text >>= fun result => next result.1 result.2) = _
  rw [read]
  rfl

theorem bind_eq_of_error {reader : Reader α} {next : α → Reader β} {text : List Char}
    {problem : Problem} (failed : reader text = .error problem) :
    (reader >>= next) text = .error problem := by
  show (reader text >>= fun result => next result.1 result.2) = _
  rw [failed]
  rfl

/-- Whatever a reader reads has a property. -/
def Ensures (P : β → Prop) (reader : Reader β) : Prop :=
  ∀ text value rest, reader text = .ok (value, rest) → P value

theorem ensures_pure {b : β} (holds : P b) : Ensures P (pure b : Reader β) := by
  rintro text value rest ⟨⟩
  exact holds

theorem ensures_bind {reader : Reader α} {next : α → Reader β} (first : Ensures Q reader)
    (then' : ∀ a, Q a → Ensures P (next a)) : Ensures P (reader >>= next) := by
  intro text value rest read
  cases found : reader text with
  | error problem =>
      rw [bind_eq_of_error found] at read
      contradiction
  | ok result =>
      rw [bind_eq_of_ok found] at read
      exact then' result.1 (first _ _ _ found) _ _ _ read

/-- What is read first does not matter. -/
theorem ensures_bind_of_forall {reader : Reader α} {next : α → Reader β}
    (each : ∀ a, Ensures P (next a)) : Ensures P (reader >>= next) :=
  ensures_bind (Q := fun _ => True) (fun _ _ _ _ => trivial) fun a _ => each a

theorem ensures_failAhead (ahead : Nat) (cause : Cause) : Ensures P (failAhead ahead cause) :=
  nofun

theorem ensures_failHere (cause : Cause) : Ensures P (failHere cause) :=
  ensures_failAhead 0 cause

theorem ensures_failNext (cause : Cause) : Ensures P (failNext cause) :=
  ensures_failAhead 1 cause

theorem ensures_complain (cause : Cause) : Ensures P (complain cause) :=
  nofun

/-! ## Numbers -/

/-- A number that is no word, or one that is. -/
def IsWordNumber (n : Number) : Prop :=
  ∀ word, n = .word word → word < Word.limit

theorem isWordNumber_floating (negative : Bool) (value : Decimal.Binary) :
    IsWordNumber (.floating negative value) :=
  nofun

theorem ensures_floating (negative : Bool) (significand : Nat) (exponent : Int) :
    Ensures IsWordNumber (floating negative significand exponent) := by
  unfold floating
  split
  · exact ensures_pure (isWordNumber_floating negative _)
  · exact ensures_failHere _

theorem ensures_exponent (negative : Bool) (significand : Nat) (scale : Int) :
    Ensures IsWordNumber (exponent negative significand scale) := by
  unfold exponent
  repeat' first
    | exact ensures_failHere _
    | exact ensures_failNext _
    | exact ensures_floating _ _ _
    | exact ensures_pure (isWordNumber_floating _ _)
    | refine ensures_bind_of_forall fun _ => ?_
    | split

theorem ensures_scaled (negative : Bool) (significand : Nat) (scale : Int) :
    Ensures IsWordNumber (scaled negative significand scale) := by
  refine ensures_bind_of_forall fun text => ?_
  split
  · exact ensures_bind_of_forall fun _ => ensures_exponent negative significand scale
  · exact ensures_bind_of_forall fun _ => ensures_exponent negative significand scale
  · exact ensures_floating negative significand scale

theorem ensures_places (negative : Bool) (significand : Nat) (scale : Int) :
    Ensures IsWordNumber (places negative significand scale) := by
  refine ensures_bind_of_forall fun digits => ?_
  dsimp only
  split
  · refine ensures_bind_of_forall fun text => ?_
    split
    · exact ensures_failHere _
    · exact ensures_failNext _
  · exact ensures_scaled negative _ _

theorem ensures_behindInteger (negative : Bool) {value : Nat} (small : value < Word.limit)
    (further : Nat) : Ensures IsWordNumber (number.behindInteger negative value further) := by
  refine ensures_bind_of_forall fun text => ?_
  split
  · exact ensures_bind_of_forall fun _ => ensures_places negative value further
  · exact ensures_bind_of_forall fun _ => ensures_exponent negative value further
  · exact ensures_bind_of_forall fun _ => ensures_exponent negative value further
  · split
    · exact ensures_floating negative value further
    split
    · refine ensures_pure ?_
      rintro word ⟨⟩
      exact small
    split
    · exact ensures_floating true value 0
    · exact ensures_pure nofun

theorem leadingWord_lt {n : Nat} (digits : List Char) (small : n < Word.limit) :
    (leadingWord n digits).1 < Word.limit := by
  induction digits generalizing n with
  | nil => exact small
  | cons c digits ih =>
      rw [leadingWord]
      split
      · rename_i next
        exact ih next
      · exact small

theorem ensures_number (negative : Bool) : Ensures IsWordNumber (number negative) := by
  have zero : 0 < Word.limit := by decide
  unfold number
  refine ensures_bind_of_forall fun text => ?_
  split
  · exact ensures_failHere _
  · refine ensures_bind_of_forall fun _ => ?_
    split
    · exact ensures_failNext _
    · exact ensures_behindInteger negative zero 0
  · split
    · exact ensures_failNext _
    · exact ensures_bind_of_forall fun digits =>
        ensures_behindInteger negative (leadingWord_lt digits zero) _

theorem ensures_mismatch (wanted : Wanted) : Ensures P (mismatch wanted) := by
  unfold mismatch
  refine ensures_bind_of_forall fun text => ?_
  repeat' first
    | exact ensures_failHere _
    | exact ensures_failNext _
    | refine ensures_bind_of_forall fun _ => ?_
    | split

/-- A number that is read as a word is one. -/
theorem ensures_word : Ensures (· < Word.limit) word := by
  unfold word
  refine ensures_bind_of_forall fun next => ?_
  split
  · exact ensures_failHere _
  · refine ensures_bind_of_forall fun _ => ensures_bind (ensures_number true) fun n isWord => ?_
    cases n with
    | word n => exact ensures_pure (isWord n rfl)
    | _ => exact ensures_failHere _
  · split
    · refine ensures_bind (ensures_number false) fun n isWord => ?_
      cases n with
      | word n => exact ensures_pure (isWord n rfl)
      | _ => exact ensures_failHere _
    · exact ensures_mismatch .word

/-! ## Tables -/

/-- What every entry keeps is true of what is read entry by entry. -/
theorem ensures_entries {entry : β → List Char → Reader β}
    (keeps : ∀ read key, P read → Ensures P (entry read key)) (count : Nat) (first : Bool)
    {read : β} (holds : P read) : Ensures P (entries entry count first read) := by
  induction count generalizing first read with
  | zero => exact ensures_pure holds
  | succ count ih =>
      unfold entries
      refine ensures_bind_of_forall fun next => ?_
      split
      · exact ensures_pure holds
      · exact ensures_bind (keeps read _ holds) fun read holds => ih false holds

theorem ensures_enclosed {inside : Reader β} (ensures : Ensures P inside) (close : Reader Unit) :
    Ensures P (enclosed inside close) := by
  intro text value rest read
  unfold enclosed at read
  split at read
  · rename_i found
    exact ensures_bind_of_forall (fun _ => ensures_pure (ensures _ _ _ found)) _ _ _ read
  · split at read
    · contradiction
    · split at read <;> contradiction

theorem ensures_nested {inside : Nat → Reader β} {room : Nat}
    (ensures : ∀ room, Ensures P (inside room)) (close : Reader Unit) :
    Ensures P (nested room inside close) := by
  unfold nested
  split
  · exact ensures_failNext _
  · exact ensures_bind_of_forall fun _ => ensures_enclosed (ensures _) close

/-- The values of a table have what every value has. -/
theorem ensures_table {value : Nat → Reader α} (ensures : ∀ room, Ensures Q (value room))
    (room : Nat) : Ensures (fun entries => ∀ entry ∈ entries, Q entry.2) (table room value) := by
  unfold table
  refine ensures_bind_of_forall fun next => ?_
  split
  · exact ensures_failHere _
  · refine ensures_nested (fun room => ?_) closeObject
    refine ensures_bind_of_forall fun text =>
      ensures_bind (Q := fun read => ∀ entry ∈ read, Q entry.2) ?_ fun read holds =>
        ensures_pure fun entry member => holds entry (List.mem_reverse.mp member)
    refine ensures_entries (fun read key holds => ?_) _ true nofun
    exact ensures_bind (ensures_bind_of_forall fun _ => ensures room) fun value holds' =>
      ensures_pure (List.forall_mem_cons.mpr ⟨holds', holds⟩)
  · exact ensures_mismatch .map

end Json.Reader

namespace ModelFile

open Json.Reader

/-! ## Predicates of models -/

/-- The predicates of a model are numbered by words. -/
def NumbersWords (predicates : List (String × Nat)) : Prop :=
  ∀ entry ∈ predicates, entry.2 < Word.limit

theorem ensures_readPredicates (room : Nat) : Ensures NumbersWords (readPredicates room) :=
  ensures_table (fun _ => ensures_word) room

theorem ensures_readArray (room : Nat) :
    Ensures (fun model => NumbersWords model.predicates) (readArray room) := by
  unfold readArray
  refine ensures_bind_of_forall fun more => ?_
  dsimp only
  split
  · refine ensures_bind (ensures_readPredicates room) fun predicates words => ?_
    repeat' first
      | exact ensures_pure words
      | refine ensures_bind_of_forall fun _ => ?_
      | split
  · exact ensures_bind (Q := fun _ => False) (ensures_complain _) nofun

/-- What was read of a model so far numbers its predicates by words. -/
def Fields.NumberWords (fields : Fields) : Prop :=
  ∀ predicates, fields.predicates = some predicates → NumbersWords predicates

theorem ensures_readField (room : Nat) {fields : Fields} (words : fields.NumberWords)
    (key : List Char) : Ensures Fields.NumberWords (readField room fields key) := by
  unfold readField
  dsimp only
  split
  · refine ensures_bind (Q := NumbersWords) ?_ fun predicates words => ensures_pure ?_
    · unfold readOnce
      split
      · exact ensures_complain _
      · exact ensures_bind_of_forall fun _ => ensures_readPredicates room
    · rintro _ ⟨⟩
      exact words
  split
  · exact ensures_bind_of_forall fun _ => ensures_pure words
  split
  · exact ensures_bind_of_forall fun _ => ensures_pure words
  · exact ensures_bind_of_forall fun _ => ensures_pure words

theorem ensures_readObject (room : Nat) :
    Ensures (fun model => NumbersWords model.predicates) (readObject room) := by
  unfold readObject
  refine ensures_bind_of_forall fun text => ensures_bind (Q := Fields.NumberWords) ?_ ?_
  · exact ensures_entries (fun fields key words => ensures_readField room words key) _ true nofun
  · intro fields words
    split
    · exact ensures_complain _
    · exact ensures_complain _
    · rename_i isRead _
      exact ensures_pure (words _ isRead)

theorem ensures_readModel : Ensures (fun model => NumbersWords model.predicates) readModel := by
  unfold readModel
  refine ensures_bind_of_forall fun next => ?_
  split
  · exact ensures_failHere _
  · exact ensures_nested ensures_readArray closeArray
  · exact ensures_nested ensures_readObject closeObject
  · exact ensures_mismatch _

theorem predicates_layout {text : List Char} {model : ModelText} (read : layout text = .ok model) :
    NumbersWords model.predicates := by
  have ensures : Ensures (fun model => NumbersWords model.predicates)
      (do
        let model ← readModel
        atEnd
        return model) :=
    ensures_bind ensures_readModel fun _ words => ensures_bind_of_forall fun _ => ensures_pure words
  unfold layout at read
  rcases bind_eq_ok_iff.mp read with ⟨⟨found, rest⟩, isFound, made⟩
  obtain rfl := Except.ok.inj made
  exact ensures _ _ _ isFound

/-- The predicates of a loaded system are numbered by words. -/
theorem values_lt_limit_of_load {text : String} {system : System}
    (loaded : load text = .ok system) : ∀ id ∈ system.predicates.values, id < Word.limit := by
  obtain ⟨model, read, said⟩ := exists_said_of_load loaded
  intro id member
  rw [said.predicates] at member
  obtain ⟨entry, listed, rfl⟩ := List.mem_map.mp member
  exact predicates_layout read entry (NameTable.mem_of_mem_ofList listed)

end ModelFile

end Trivalent
