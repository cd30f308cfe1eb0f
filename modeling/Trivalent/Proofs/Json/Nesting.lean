import Trivalent.Proofs.Json.Ensured

/-!
# Nesting of JSON values

A reader may carry what another one reads: whatever the other one reads, it reads the image of, or
nothing if there is no image.  So a reader of values with some room reads exactly the values that
another one reads and that are nested less deep than there is room.
-/

namespace Trivalent

theorem toOption_eq_some_iff {ε α : Type} {computed : Except ε α} {a : α} :
    computed.toOption = some a ↔ computed = .ok a := by
  cases computed <;> simp [Except.toOption]

theorem mapM_reverse {α β : Type} {f : α → Option β} (as : List α) :
    as.reverse.mapM f = (as.mapM f).map List.reverse := by
  induction as with
  | nil => rfl
  | cons a as ih =>
      rw [List.reverse_cons, List.mapM_append, ih, List.mapM_cons]
      cases isFirst : f a <;> cases isRest : as.mapM f <;> simp [isFirst, isRest]

namespace Json

namespace Reader

variable {α α' β β' : Type}

/-- What a reader reads from the front of a text, and what is left. -/
def found (reader : Reader α) (text : List Char) : Option (α × List Char) :=
  (reader text).toOption

theorem found_eq_some_iff {reader : Reader α} {text rest : List Char} {a : α} :
    found reader text = some (a, rest) ↔ reader text = .ok (a, rest) :=
  toOption_eq_some_iff

theorem found_bind (reader : Reader α) (next : α → Reader β) (text : List Char) :
    found (reader >>= next) text =
      (found reader text).bind fun result => found (next result.1) result.2 := by
  show (reader text >>= fun result => next result.1 result.2).toOption = _
  unfold found
  cases reader text <;> rfl

theorem found_pure (a : α) (text : List Char) : found (pure a) text = some (a, text) :=
  rfl

theorem found_enclosed (inside : Reader α) (close : Reader Unit) (text : List Char) :
    found (enclosed inside close) text = found (do let a ← inside; close; return a) text := by
  rw [found_bind]
  cases read : inside text with
  | ok result =>
      have closed : enclosed inside close text = (do close; return result.1) result.2 := by
        unfold enclosed
        rw [read]
      rw [found_eq_some_iff.mpr read, found, closed]
      rfl
  | error problem =>
      have failed : found (enclosed inside close) text = none := by
        unfold found enclosed
        rw [read]
        dsimp only
        split
        · rfl
        · split <;> rfl
      rw [failed, found, read]
      rfl

theorem found_nested (room : Nat) (inside : Nat → Reader α) (close : Reader Unit)
    (text : List Char) :
    found (nested room inside close) text =
      if room ≤ 1 then none
      else found (do let a ← inside (room - 1); close; return a) (text.drop 1) := by
  unfold nested
  split
  · rfl
  · rw [← found_enclosed, found_bind]
    rfl

/-! ## Readers that carry others -/

/-- Whatever `reader` reads, `carrier` reads its image, and reads nothing if there is none. -/
def Carries (image : α → Option α') (reader : Reader α) (carrier : Reader α') : Prop :=
  ∀ text a rest, found reader text = some (a, rest) →
    found carrier text = (image a).map fun a' => (a', rest)

variable {image : α → Option α'} {imageToo : β → Option β'} {reader : Reader α}
  {carrier : Reader α'}

theorem carries_self (reader : Reader α) : Carries some reader reader :=
  fun _ _ _ => id

/-- A reader that reads nothing is carried by any. -/
theorem carries_of_fails (fails : Ensures (fun _ => False) reader) :
    Carries image reader carrier :=
  fun text a rest read => (fails text a rest (found_eq_some_iff.mp read)).elim

theorem carries_pure {a : α} {a' : α'} (isImage : image a = some a') :
    Carries image (pure a) (pure a') := by
  intro text b rest read
  rw [found_pure] at read
  obtain ⟨rfl, rfl⟩ := Prod.mk.inj (Option.some.inj read)
  rw [isImage]
  rfl

theorem carries_bind {next : α → Reader β} {nextToo : α' → Reader β'}
    (first : Carries image reader carrier)
    (later : ∀ a a', image a = some a' → Carries imageToo (next a) (nextToo a'))
    (lost : ∀ a, image a = none → Ensures (imageToo · = none) (next a)) :
    Carries imageToo (reader >>= next) (carrier >>= nextToo) := by
  intro text b rest read
  rw [found_bind, Option.bind_eq_some_iff] at read
  obtain ⟨⟨a, between⟩, isFirst, isLater⟩ := read
  rw [found_bind, first text a between isFirst]
  cases isImage : image a with
  | none =>
      rw [lost a isImage _ _ _ (found_eq_some_iff.mp isLater)]
      rfl
  | some a' => exact later a a' isImage between b rest isLater

/-- Two readers of which one begins with what the other one begins with carry each other as far as
what follows does. -/
theorem carries_bind_some {reader carrier : Reader α} {next : α → Reader β}
    {nextToo : α → Reader β'}
    (first : Carries some reader carrier)
    (later : ∀ a, Carries imageToo (next a) (nextToo a)) :
    Carries imageToo (reader >>= next) (carrier >>= nextToo) := by
  apply carries_bind first
  · rintro a _ ⟨⟩
    exact later a
  · exact fun _ => nofun

/-- Two readers that begin alike carry each other as far as what follows does. -/
theorem carries_bind_self {next : α → Reader β} {nextToo : α → Reader β'}
    (later : ∀ a, Carries imageToo (next a) (nextToo a)) :
    Carries imageToo (reader >>= next) (reader >>= nextToo) :=
  carries_bind_some (carries_self reader) later

theorem carries_map {f : α → β} {g : α' → β'} (first : Carries image reader carrier)
    (images : ∀ a, imageToo (f a) = (image a).map g) :
    Carries imageToo (do return f (← reader)) (do return g (← carrier)) := by
  apply carries_bind first
  · intro a a' isImage
    apply carries_pure
    rw [images, isImage]
    rfl
  · intro a none
    apply ensures_pure
    rw [images, none]
    rfl

theorem carries_ite {condition : Prop} [Decidable condition] {readerToo : Reader α}
    {carrierToo : Reader α'} (first : Carries image reader carrier)
    (second : Carries image readerToo carrierToo) :
    Carries image (if condition then reader else readerToo)
      (if condition then carrier else carrierToo) := by
  split
  · exact first
  · exact second

/-- What stands in brackets is carried if it is carried inside, and has no image if there is no room
for the brackets. -/
theorem carries_nested {room roomToo : Nat} {inside : Nat → Reader α}
    {insideToo : Nat → Reader α'} {close : Reader Unit}
    (within : 1 < roomToo → Carries image (inside (room - 1)) (insideToo (roomToo - 1)))
    (full : roomToo ≤ 1 → Ensures (image · = none) (inside (room - 1))) :
    Carries image (nested room inside close) (nested roomToo insideToo close) := by
  intro text a rest read
  rw [found_nested] at read
  rw [found_nested]
  split at read
  · contradiction
  · split
    · rename_i noRoom
      have lost : Ensures (image · = none)
          (do let a ← inside (room - 1); close; return a) :=
        ensures_bind (full noRoom) fun a none =>
          ensures_bind_of_forall fun _ => ensures_pure none
      rw [lost _ _ _ (found_eq_some_iff.mp read)]
      rfl
    · rename_i someRoom
      apply carries_bind (within (Nat.lt_of_not_le someRoom)) _ _ _ _ _ read
      · exact fun a a' isImage => carries_bind_self fun _ => carries_pure isImage
      · exact fun a none => ensures_bind_of_forall fun _ => ensures_pure none

/-! ## Entries -/

section Loops

variable {read : β} {read' : β'}

theorem ensures_elements {P : β → Prop} {add : β → α → β}
    (keeps : ∀ read a, P read → P (add read a)) (count : Nat) (first : Bool) {read : β}
    (holds : P read) : Ensures P (elements reader add count first read) := by
  induction count generalizing first read with
  | zero => exact ensures_pure holds
  | succ count ih =>
      unfold elements
      apply ensures_bind_of_forall
      intro more
      split
      · exact ensures_bind_of_forall fun a => ih false (keeps read a holds)
      · exact ensures_pure holds

/-- The elements of an array are carried one after the other. -/
theorem carries_elements {add : β → α → β} {addToo : β' → α' → β'}
    (each : Carries image reader carrier)
    (adds : ∀ read read' a a', imageToo read = some read' → image a = some a' →
      imageToo (add read a) = some (addToo read' a'))
    (lost : ∀ read a, imageToo read = none ∨ image a = none → imageToo (add read a) = none)
    (count : Nat) (first : Bool) (isImage : imageToo read = some read') :
    Carries imageToo (elements reader add count first read)
      (elements carrier addToo count first read') := by
  induction count generalizing first read read' with
  | zero => exact carries_pure isImage
  | succ count ih =>
      unfold elements
      apply carries_bind_self
      intro more
      split
      · apply carries_bind each
        · exact fun a a' isImageToo => ih false (adds read read' a a' isImage isImageToo)
        · exact fun a none => ensures_elements (fun read a none => lost read a (.inl none)) count
            false (lost read a (.inr none))
      · exact carries_pure isImage

/-- A list of elements is carried if its elements are. -/
theorem carries_elements_cons (each : Carries image reader carrier) (count : Nat) (first : Bool)
    {read : List α} {read' : List α'} (isImage : read.mapM image = some read') :
    Carries (List.mapM image) (elements reader (fun read a => a :: read) count first read)
      (elements carrier (fun read a => a :: read) count first read') := by
  apply carries_elements each _ _ count first isImage
  · intro read read' a a' isRead isFirst
    rw [List.mapM_cons, isRead, isFirst]
    rfl
  · rintro read a (isRead | isFirst)
    · rw [List.mapM_cons, isRead]
      cases image a <;> rfl
    · rw [List.mapM_cons, isFirst]
      rfl

/-- The entries of an object are carried one after the other. -/
theorem carries_entries {entry : β → List Char → Reader β} {entryToo : β' → List Char → Reader β'}
    (each : ∀ read read' key, imageToo read = some read' →
      Carries imageToo (entry read key) (entryToo read' key))
    (lost : ∀ read key, imageToo read = none → Ensures (imageToo · = none) (entry read key))
    (count : Nat) (first : Bool) (isImage : imageToo read = some read') :
    Carries imageToo (entries entry count first read) (entries entryToo count first read') := by
  induction count generalizing first read read' with
  | zero => exact carries_pure isImage
  | succ count ih =>
      unfold entries
      apply carries_bind_self
      intro next
      cases next with
      | none => exact carries_pure isImage
      | some key =>
          apply carries_bind (each read read' key isImage)
          · exact fun later later' isImage => ih false isImage
          · exact fun later none => ensures_entries lost count false none

/-- An array of values is carried if there is room for it and its values are carried. -/
theorem carries_list {room roomToo : Nat} {element : Nat → Reader α} {elementToo : Nat → Reader α'}
    (isRoom : 1 < roomToo)
    (each : Carries image (element (room - 1)) (elementToo (roomToo - 1))) :
    Carries (List.mapM image) (list room element) (list roomToo elementToo) := by
  unfold list
  apply carries_bind_self
  intro next
  split
  · exact carries_of_fails (ensures_failHere _)
  · apply carries_nested _ fun full => absurd isRoom (Nat.not_lt_of_le full)
    intro _
    apply carries_bind_self
    intro text
    exact carries_map (carries_elements_cons each _ true rfl) mapM_reverse
  · exact carries_of_fails (ensures_mismatch _)

/-- A table of values that need no room is read if there is room for it. -/
theorem carries_table {room roomToo : Nat} (isRoom : 1 < roomToo) (value : Reader α) :
    Carries some (table room fun _ => value) (table roomToo fun _ => value) := by
  unfold table
  apply carries_bind_self
  intro next
  split
  · exact carries_of_fails (ensures_failHere _)
  · exact carries_nested (fun _ => carries_self _) fun full => absurd isRoom (Nat.not_lt_of_le full)
  · exact carries_of_fails (ensures_mismatch _)

end Loops

end Reader

/-! ## Depth -/

namespace Value

mutual

/-- How deep arrays and objects are nested in a value. -/
def depth : Value → Nat
  | .array elements => depthElements elements + 1
  | .object entries => depthEntries entries + 1
  | _ => 0

/-- How deep arrays and objects are nested in the elements of an array. -/
def depthElements : List Value → Nat
  | [] => 0
  | v :: rest => max v.depth (depthElements rest)

/-- How deep arrays and objects are nested in the entries of an object. -/
def depthEntries : List (List Char × Value) → Nat
  | [] => 0
  | (_, v) :: rest => max v.depth (depthEntries rest)

end

/-- The value, if it is nested less deep than there is room. -/
def fit? (room : Nat) (v : Value) : Option Value :=
  if v.depth < room then some v else none

/-- The entry of an object, if its value is nested less deep than there is room. -/
def fitField? (room : Nat) (entry : List Char × Value) : Option (List Char × Value) :=
  (fit? room entry.2).map fun v => (entry.1, v)

theorem fit?_of_depth_eq_zero {room : Nat} {v : Value} (flat : v.depth = 0) :
    fit? (room + 1) v = some v := by
  rw [fit?, flat, if_pos room.succ_pos]

theorem mapM_fit? {room : Nat} (isRoom : 0 < room) (elements : List Value) :
    elements.mapM (fit? room) =
      if depthElements elements < room then some elements else none := by
  induction elements with
  | nil => simp [depthElements, isRoom]
  | cons v rest ih =>
      rw [List.mapM_cons, ih, fit?, depthElements, if_congr Nat.max_lt rfl rfl]
      by_cases fits : v.depth < room <;> by_cases fitRest : depthElements rest < room <;>
        simp [fits, fitRest]

theorem mapM_fitField? {room : Nat} (isRoom : 0 < room) (entries : List (List Char × Value)) :
    entries.mapM (fitField? room) =
      if depthEntries entries < room then some entries else none := by
  induction entries with
  | nil => simp [depthEntries, isRoom]
  | cons entry rest ih =>
      rw [List.mapM_cons, ih, fitField?, fit?, depthEntries, if_congr Nat.max_lt rfl rfl]
      by_cases fits : entry.2.depth < room <;> by_cases fitRest : depthEntries rest < room <;>
        simp [fits, fitRest]

theorem fit?_array {room : Nat} (isRoom : 0 < room) (elements : List Value) :
    fit? (room + 1) (.array elements) = (elements.mapM (fit? room)).map .array := by
  rw [mapM_fit? isRoom, fit?, depth]
  by_cases fits : depthElements elements < room <;> simp [fits]

theorem fit?_object {room : Nat} (isRoom : 0 < room) (entries : List (List Char × Value)) :
    fit? (room + 1) (.object entries) = (entries.mapM (fitField? room)).map .object := by
  rw [mapM_fitField? isRoom, fit?, depth]
  by_cases fits : depthEntries entries < room <;> simp [fits]

end Value

namespace Reader

open Value (fit?)

/-- A scalar that begins with the next character. -/
def scalarAt : Option Char → Reader Value
  | none => failHere .endBeforeValue
  | some 'n' => do skip; wordRest ['u', 'l', 'l']; return .null
  | some 't' => do skip; wordRest ['r', 'u', 'e']; return .boolean true
  | some 'f' => do skip; wordRest ['a', 'l', 's', 'e']; return .boolean false
  | some '-' => do skip; return .number (← number true)
  | some '"' => do skip; return .string (← string)
  | some c => if Numeral.isDigit c then return .number (← number false) else failNext .valueMissing

/-- The elements of an array. -/
def arrayInside (room : Nat) : Reader Value := do
  let read ← elements (value room) (fun read v => v :: read) ((← get).length + 1) true []
  return .array read.reverse

/-- The entries of an object. -/
def objectInside (room : Nat) : Reader Value := do
  let read ← entries (fun read key => do
      let v ← valueOf (value room)
      return (key, v) :: read)
    ((← get).length + 1) true []
  return .object read.reverse

theorem value_succ (room : Nat) :
    value (room + 1) = (do
      let next ← peekPastBlanks
      if next = some '[' then nested (room + 1) arrayInside closeArray
      else if next = some '{' then nested (room + 1) objectInside closeObject
      else scalarAt next) := by
  rw [value]
  congr 1
  funext next
  split
  all_goals try rfl
  rename_i c noNull noTrue noFalse noSign noQuote noArray noObject
  have isArray : some c ≠ some '[' := fun same => noArray (Option.some.inj same)
  have isObject : some c ≠ some '{' := fun same => noObject (Option.some.inj same)
  have scalar : scalarAt (some c) =
      if Numeral.isDigit c then do return .number (← number false) else failNext .valueMissing := by
    rw [scalarAt] <;> assumption
  rw [if_neg isArray, if_neg isObject, scalar]

theorem ensures_scalarAt (next : Option Char) : Ensures (·.depth = 0) (scalarAt next) := by
  have word (letters : List Char) {v : Value} (flat : v.depth = 0) :
      Ensures (·.depth = 0) (do skip; wordRest letters; return v) :=
    ensures_bind_of_forall fun _ => ensures_bind_of_forall fun _ => ensures_pure flat
  have digits (negative : Bool) :
      Ensures (·.depth = 0) (do return Value.number (← number negative)) :=
    ensures_bind_of_forall fun _ => ensures_pure rfl
  unfold scalarAt
  split
  · exact ensures_failHere _
  · exact word _ rfl
  · exact word _ rfl
  · exact word _ rfl
  · exact ensures_bind_of_forall fun _ => digits true
  · exact ensures_bind_of_forall fun _ => ensures_bind_of_forall fun _ => ensures_pure rfl
  · split
    · exact digits false
    · exact ensures_failNext _

theorem ensures_arrayInside (room : Nat) : Ensures (0 < ·.depth) (arrayInside room) :=
  ensures_bind_of_forall fun _ => ensures_bind_of_forall fun _ => ensures_pure (Nat.succ_pos _)

theorem ensures_objectInside (room : Nat) : Ensures (0 < ·.depth) (objectInside room) :=
  ensures_bind_of_forall fun _ => ensures_bind_of_forall fun _ => ensures_pure (Nat.succ_pos _)

theorem carries_arrayInside {room roomToo : Nat} (isRoom : 0 < roomToo)
    (each : Carries (Value.fit? roomToo) (value room) (value roomToo)) :
    Carries (Value.fit? (roomToo + 1)) (arrayInside room) (arrayInside roomToo) := by
  apply carries_bind_self
  intro text
  apply carries_map (carries_elements_cons each _ true rfl)
  intro read
  rw [Value.fit?_array isRoom, mapM_reverse, Option.map_map]
  rfl

theorem carries_objectInside {room roomToo : Nat} (isRoom : 0 < roomToo)
    (each : Carries (Value.fit? roomToo) (value room) (value roomToo)) :
    Carries (Value.fit? (roomToo + 1)) (objectInside room) (objectInside roomToo) := by
  apply carries_bind_self
  intro text
  have entry (read read' : List (List Char × Value)) (key : List Char)
      (isImage : read.mapM (Value.fitField? roomToo) = some read') :
      Carries (List.mapM (Value.fitField? roomToo))
        (do let v ← valueOf (value room); return (key, v) :: read)
        (do let v ← valueOf (value roomToo); return (key, v) :: read') := by
    apply carries_map (carries_bind_self fun _ => each)
    intro v
    rw [List.mapM_cons, isImage, Value.fitField?]
    cases Value.fit? roomToo v <;> rfl
  have lost (read : List (List Char × Value)) (key : List Char)
      (isLost : read.mapM (Value.fitField? roomToo) = none) :
      Ensures (List.mapM (Value.fitField? roomToo) · = none)
        (do let v ← valueOf (value room); return (key, v) :: read) := by
    apply ensures_bind_of_forall
    intro v
    apply ensures_pure
    rw [List.mapM_cons, isLost]
    cases Value.fitField? roomToo (key, v) <;> rfl
  apply carries_map (carries_entries entry lost _ true rfl)
  intro read
  rw [Value.fit?_object isRoom, mapM_reverse, Option.map_map]
  rfl

/-- With some room, what is nested less deep is read. -/
theorem carries_value (room roomToo : Nat) :
    Carries (Value.fit? roomToo) (value room) (value roomToo) := by
  induction room generalizing roomToo with
  | zero => exact carries_of_fails (ensures_failNext _)
  | succ room ih =>
      cases roomToo with
      | zero => exact fun _ _ _ _ => rfl
      | succ roomToo =>
          -- Brackets take a level themselves, so without further room nothing in them fits.
          have full {reader : Reader Value} (deep : Ensures (0 < ·.depth) reader)
              (isFull : roomToo + 1 ≤ 1) : Ensures (Value.fit? (roomToo + 1) · = none) reader :=
            fun text v rest read => if_neg fun fits =>
              absurd (deep text v rest read) (by omega)
          rw [value_succ, value_succ]
          apply carries_bind_self
          intro next
          apply carries_ite (carries_nested ?array (full (ensures_arrayInside _)))
          apply carries_ite (carries_nested ?object (full (ensures_objectInside _))) ?scalar
          case array =>
            exact fun isRoom => carries_arrayInside (Nat.lt_of_succ_lt_succ isRoom) (ih roomToo)
          case object =>
            exact fun isRoom => carries_objectInside (Nat.lt_of_succ_lt_succ isRoom) (ih roomToo)
          case scalar =>
            intro text v rest read
            have flat := ensures_scalarAt next _ _ _ (found_eq_some_iff.mp read)
            rw [read, Value.fit?_of_depth_eq_zero flat]
            rfl

end Reader

end Json

end Trivalent
