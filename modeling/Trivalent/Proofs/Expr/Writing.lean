import Trivalent.Expr.Printer
import Trivalent.Proofs.Expr.Spelling

/-!
# Written expressions are spellings

Writing puts an operand in parentheses unless it binds more tightly than its surroundings.  If the
parenthesised text happens to be the name of a predicate, it is read as that predicate and not as
the operand.  So a written expression spells the expression in which every such operand is replaced
by the predicate that has its text as a name; it spells the expression itself exactly if no
parenthesised text is a name.
-/

namespace Trivalent.Expr

variable {names : NameTable Nat} {name : Nat → List Char}

/-! ## Operands as they are written -/

/-- The text of an operand inside an expression that binds with strength `outer`. -/
def writeOperand (name : Nat → List Char) (outer : Nat) (e : Expr) : List Char :=
  enclose outer e.precedence (e.write name)

theorem writeOperands_eq_map (name : Nat → List Char) (outer : Nat) (es : List Expr) :
    writeOperands name outer es = es.map (writeOperand name outer) := by
  induction es with
  | nil => rfl
  | cons e rest ih => rw [writeOperands, ih, List.map_cons, writeOperand]

/-- How tightly conjunction, if the unit is true, and else disjunction binds. -/
def strength (unit : Bool) : Nat :=
  if unit then 20 else 10

/-- The sign by which conjunction, if the unit is true, and else disjunction is written. -/
def symbol (unit : Bool) : Sign :=
  if unit then ⟨"&", false⟩ else ⟨"|", false⟩

theorem write_node (name : Nat → List Char) (unit : Bool) (es : List Expr) :
    (node unit es).write name = if es.isEmpty then constant unit
      else (' ' :: ((symbol unit).text.toList ++ [' '])).intercalate
        (es.map (writeOperand name (strength unit))) := by
  cases unit with
  | true =>
      rw [← writeOperands_eq_map]
      rfl
  | false =>
      rw [← writeOperands_eq_map]
      rfl

/-- The text of an operand in parentheses. -/
def parenthesis (name : Nat → List Char) (e : Expr) : List Char :=
  '(' :: e.write name ++ [')']

/-- The parenthesised text of an operand inside an expression that binds with strength `outer`, if
it is put in parentheses. -/
def parentheses (name : Nat → List Char) (outer : Nat) (e : Expr) : List (List Char) :=
  if e.precedence ≤ outer then [parenthesis name e] else []

mutual

/-- The parenthesised texts that writing an expression makes of its operands. -/
def groups (name : Nat → List Char) : Expr → List (List Char)
  | .literal _ => []
  | .predicate _ => []
  | .not body => parentheses name 30 body ++ body.groups name
  | .and operands => groupsAll name 20 operands
  | .or operands => groupsAll name 10 operands

/-- The parenthesised texts that writing operands makes inside an expression that binds with
strength `outer`. -/
def groupsAll (name : Nat → List Char) (outer : Nat) : List Expr → List (List Char)
  | [] => []
  | e :: rest => parentheses name outer e ++ (e.groups name ++ groupsAll name outer rest)

end

/-- The predicate that an operand is read as because its parenthesised text is the name of one. -/
def captured? (names : NameTable Nat) (name : Nat → List Char) (outer : Nat) (e : Expr) :
    Option Nat :=
  if e.precedence ≤ outer then names.get? (String.ofList (parenthesis name e)) else none

mutual

/-- The expression that the text of an expression spells. -/
def reread (names : NameTable Nat) (name : Nat → List Char) : Expr → Expr
  | .literal value => .literal value
  | .predicate id => .predicate id
  | .not body => .not ((captured? names name 30 body).elim (body.reread names name) .predicate)
  | .and operands => .and (rereadAll names name 20 operands)
  | .or operands => .or (rereadAll names name 10 operands)

/-- The expressions that the texts of operands spell inside an expression that binds with strength
`outer`. -/
def rereadAll (names : NameTable Nat) (name : Nat → List Char) (outer : Nat) :
    List Expr → List Expr
  | [] => []
  | e :: rest =>
      (captured? names name outer e).elim (e.reread names name) .predicate ::
        rereadAll names name outer rest

end

/-- What the text of an operand spells inside an expression that binds with strength `outer`. -/
def rereadOperand (names : NameTable Nat) (name : Nat → List Char) (outer : Nat) (e : Expr) :
    Expr :=
  (captured? names name outer e).elim (e.reread names name) .predicate

theorem rereadAll_eq_map (outer : Nat) (es : List Expr) :
    rereadAll names name outer es = es.map (rereadOperand names name outer) := by
  induction es with
  | nil => rfl
  | cons e rest ih => rw [rereadAll, ih, List.map_cons, rereadOperand]

theorem reread_not (body : Expr) :
    (Expr.not body).reread names name = .not (rereadOperand names name 30 body) :=
  rfl

theorem reread_node (unit : Bool) (es : List Expr) :
    (node unit es).reread names name =
      node unit (es.map (rereadOperand names name (strength unit))) := by
  rw [← rereadAll_eq_map]
  cases unit <;> rfl

/-! ## Written expressions -/

/-- The text of an expression spells, as tightly as the expression binds, what it is read as. -/
structure IsSpelled (names : NameTable Nat) (name : Nat → List Char) (e : Expr) : Prop where
  layer : ∃ isWord, Spells names (.layer false (e.reread names name)) (e.write name) isWord
  conjunction : 10 < e.precedence →
    ∃ isWord, Spells names (.layer true (e.reread names name)) (e.write name) isWord
  operand : 20 < e.precedence →
    ∃ isWord, Spells names (.operand (e.reread names name)) (e.write name) isWord

/-- An operand spells a layer of each kind. -/
theorem isSpelled_of_operand {e : Expr} {isWord : Bool}
    (spells : Spells names (.operand (e.reread names name)) (e.write name) isWord) :
    IsSpelled names name e where
  layer := ⟨isWord, spells.conjunction.disjunction⟩
  conjunction _ := ⟨isWord, spells.conjunction⟩
  operand _ := ⟨isWord, spells⟩

theorem isSpelled_node {unit : Bool} {es : List Expr} {isWord : Bool}
    (spells : Spells names (.layer unit ((node unit es).reread names name))
      ((node unit es).write name) isWord) : IsSpelled names name (node unit es) := by
  cases unit with
  | true =>
      refine ⟨⟨isWord, spells.disjunction⟩, fun _ => ⟨isWord, spells⟩, fun tight => ?_⟩
      exact absurd tight (Nat.lt_irrefl 20)
  | false =>
      have notTight {bound : Nat} (low : 10 ≤ bound) : ¬bound < (node false es).precedence :=
        Nat.not_lt.mpr low
      exact ⟨⟨isWord, spells⟩, fun tight => absurd tight (notTight (Nat.le_refl 10)),
        fun tight => absurd tight (notTight (by decide))⟩

/-- An operand in parentheses spells what it is read as. -/
theorem IsSpelled.enclosed {e : Expr} (isSpelled : IsSpelled names name e) {outer : Nat}
    (loose : e.precedence ≤ outer) :
    Spells names (.operand (rereadOperand names name outer e)) (writeOperand name outer e)
      false := by
  obtain ⟨isWord, spells⟩ := isSpelled.layer
  have padded : Spells names (.padded (e.reread names name)) (e.write name) isWord := by
    simpa using Spells.padded IsSpace.nil spells IsSpace.nil
  rw [writeOperand, enclose, if_pos loose, rereadOperand, captured?, if_pos loose]
  cases known : names.get? (String.ofList (parenthesis name e)) with
  | none => exact .group padded known
  | some id => exact .fullName padded.isGroup_of_padded known

theorem rereadOperand_of_lt {e : Expr} {outer : Nat} (tight : outer < e.precedence) :
    rereadOperand names name outer e = e.reread names name := by
  rw [rereadOperand, captured?, if_neg (Nat.not_le.mpr tight)]
  rfl

theorem writeOperand_of_lt {e : Expr} {outer : Nat} (tight : outer < e.precedence) :
    writeOperand name outer e = e.write name := by
  rw [writeOperand, enclose, if_neg (Nat.not_le.mpr tight)]

/-- An operand of a negation spells what it is read as. -/
theorem IsSpelled.negated {e : Expr} (isSpelled : IsSpelled names name e) :
    ∃ isWord, Spells names (.operand (rereadOperand names name 30 e)) (writeOperand name 30 e)
      isWord := by
  by_cases loose : e.precedence ≤ 30
  · exact ⟨false, isSpelled.enclosed loose⟩
  · have tight := Nat.not_le.mp loose
    rw [rereadOperand_of_lt tight, writeOperand_of_lt tight]
    exact isSpelled.operand (Nat.lt_trans (by decide) tight)

/-- An operand of a conjunction or disjunction spells what it is read as. -/
theorem IsSpelled.link {e : Expr} (isSpelled : IsSpelled names name e) (unit : Bool) :
    ∃ isWord, Spells names (.link unit (rereadOperand names name (strength unit) e))
      (writeOperand name (strength unit) e) isWord := by
  by_cases loose : e.precedence ≤ strength unit
  · have spells := isSpelled.enclosed loose
    cases unit with
    | true => exact ⟨false, spells⟩
    | false => exact ⟨false, spells.conjunction⟩
  · have tight := Nat.not_le.mp loose
    rw [rereadOperand_of_lt tight, writeOperand_of_lt tight]
    cases unit with
    | true => exact isSpelled.operand tight
    | false => exact isSpelled.conjunction tight

theorem symbol_mem (unit : Bool) : symbol unit ∈ joiningSigns unit := by
  revert unit
  decide

theorem isSpace_blank : IsSpace [' '] := by
  rintro c member
  rw [List.mem_singleton.mp member]
  rfl

/-- The first two of several parts may be put together. -/
theorem intercalate_cons_cons_eq {α : Type} (separator front next : List α)
    (rest : List (List α)) : separator.intercalate (front :: next :: rest) =
      separator.intercalate ((front ++ (separator ++ next)) :: rest) := by
  cases rest with
  | nil => simp [List.intercalate_cons_cons]
  | cons last rest => simp [List.intercalate_cons_cons]

/-- Operands that are written one after the other spell a chain. -/
theorem exists_spells_chain {unit : Bool} {front : List Char} {es : List Expr} {isWord : Bool}
    (spells : Spells names (.chain unit es) front isWord) {fs : List Expr}
    (each : ∀ e ∈ fs, IsSpelled names name e) :
    ∃ isWord, Spells names
      (.chain unit (es ++ fs.map (rereadOperand names name (strength unit))))
      ((' ' :: ((symbol unit).text.toList ++ [' '])).intercalate
        (front :: fs.map (writeOperand name (strength unit)))) isWord := by
  induction fs generalizing front es isWord with
  | nil => exact ⟨isWord, by simpa using spells⟩
  | cons f fs ih =>
      obtain ⟨isFirst, each⟩ := List.forall_mem_cons.mp each
      obtain ⟨isWord', next⟩ := isFirst.link unit
      have symbolic : (symbol unit).isWord = false := by cases unit <;> rfl
      obtain ⟨last, whole⟩ := ih (spells.more isSpace_blank (symbol_mem unit) isSpace_blank next
        (follows_cons (by decide) _) (symbolic ▸ follows_symbol _)) each
      refine ⟨last, ?_⟩
      rw [List.map_cons, List.map_cons, intercalate_cons_cons_eq]
      simpa using whole

theorem constant_mem (value : Bool) :
    ⟨String.ofList (constant value), false⟩ ∈ constantSigns value := by
  revert value
  decide

theorem spells_constant {e : Expr} {value : Bool}
    (spells : Spells names (.operand e) (String.ofList (constant value)).toList false) :
    Spells names (.operand e) (constant value) false := by
  rwa [String.toList_ofList] at spells

/-- The text of a conjunction or disjunction spells what it is read as if the texts of its operands
do. -/
theorem isSpelled_write_node (unit : Bool) {es : List Expr}
    (each : ∀ e ∈ es, IsSpelled names name e) : IsSpelled names name (node unit es) := by
  cases es with
  | nil =>
      have written : Spells names (.operand ((node unit []).reread names name))
          ((node unit []).write name) false := by
        rw [reread_node, write_node]
        exact spells_constant (.empty (constant_mem unit))
      exact isSpelled_of_operand written
  | cons e rest =>
      obtain ⟨isFirst, each⟩ := List.forall_mem_cons.mp each
      obtain ⟨_, first⟩ := isFirst.link unit
      obtain ⟨isWord, spells⟩ := exists_spells_chain first.first each
      have written : Spells names (.layer unit ((node unit (e :: rest)).reread names name))
          ((node unit (e :: rest)).write name) isWord := by
        rw [reread_node, write_node]
        exact spells.joined
      exact isSpelled_node written

mutual

/-- The text of an expression spells what it is read as, if every predicate is written by a text
that spells it. -/
theorem isSpelled_write (e : Expr) (spelled : ∀ id ∈ e.occurrences,
    ∃ isWord, Spells names (.operand (.predicate id)) (name id) isWord) :
    IsSpelled names name e := by
  cases e with
  | literal value =>
      exact isSpelled_of_operand (spells_constant (.constant (constant_mem value)))
  | predicate id =>
      obtain ⟨isWord, spells⟩ := spelled id (List.mem_singleton_self id)
      exact isSpelled_of_operand spells
  | not body =>
      obtain ⟨isWord, spells⟩ := (isSpelled_write body spelled).negated
      have isSign : (⟨"~", false⟩ : Sign) ∈ negationSigns := by decide
      exact isSpelled_of_operand (.negation isSign .nil spells (follows_symbol _))
  | and operands => exact isSpelled_write_node true (isSpelled_writeAll operands spelled)
  | or operands => exact isSpelled_write_node false (isSpelled_writeAll operands spelled)

theorem isSpelled_writeAll (es : List Expr) (spelled : ∀ id ∈ occurrencesAll es,
    ∃ isWord, Spells names (.operand (.predicate id)) (name id) isWord) :
    ∀ e ∈ es, IsSpelled names name e := by
  cases es with
  | nil => exact nofun
  | cons e rest =>
      rw [occurrencesAll] at spelled
      exact List.forall_mem_cons.mpr
        ⟨isSpelled_write e fun id member => spelled id (List.mem_append_left _ member),
          isSpelled_writeAll rest fun id member => spelled id (List.mem_append_right _ member)⟩

end

/-! ## What is read as it is -/

theorem head?_of_mem_parentheses {outer : Nat} (e : Expr) :
    ∀ text ∈ parentheses name outer e, text.head? = some '(' := by
  intro text member
  unfold parentheses at member
  split at member
  · rw [List.mem_singleton.mp member]
    rfl
  · contradiction

theorem rereadOperand_eq_self_iff {outer : Nat} {e : Expr} (weak : outer < 1000)
    (inside : e.reread names name = e ↔
      ∀ text ∈ e.groups name, names.get? (String.ofList text) = none) :
    rereadOperand names name outer e = e ↔
      ∀ text ∈ parentheses name outer e ++ e.groups name,
        names.get? (String.ofList text) = none := by
  by_cases loose : e.precedence ≤ outer
  · rw [parentheses, if_pos loose, List.singleton_append, List.forall_mem_cons, ← inside,
      rereadOperand, captured?, if_pos loose]
    cases known : names.get? (String.ofList (parenthesis name e)) with
    | none => simp
    | some id =>
        have different : Expr.predicate id ≠ e := by
          rintro rfl
          exact absurd loose (Nat.not_le.mpr weak)
        simp [different]
  · rw [rereadOperand_of_lt (Nat.not_le.mp loose), parentheses, if_neg loose, List.nil_append,
      inside]

mutual

/-- An expression is read as it is exactly if none of its parenthesised operands has the name of a
predicate as its text. -/
theorem reread_eq_self_iff (e : Expr) : e.reread names name = e ↔
    ∀ text ∈ e.groups name, names.get? (String.ofList text) = none := by
  cases e with
  | literal value => simp [reread, groups]
  | predicate id => simp [reread, groups]
  | not body =>
      rw [reread_not, groups, Expr.not.injEq,
        rereadOperand_eq_self_iff (by decide) (reread_eq_self_iff body)]
  | and operands =>
      rw [reread, groups, Expr.and.injEq, rereadAll_eq_self_iff (by decide) operands]
  | or operands =>
      rw [reread, groups, Expr.or.injEq, rereadAll_eq_self_iff (by decide) operands]

theorem rereadAll_eq_self_iff {outer : Nat} (weak : outer < 1000) (es : List Expr) :
    rereadAll names name outer es = es ↔
      ∀ text ∈ groupsAll name outer es, names.get? (String.ofList text) = none := by
  cases es with
  | nil => simp [rereadAll, groupsAll]
  | cons e rest =>
      rw [rereadAll, ← rereadOperand, groupsAll, ← List.append_assoc, List.forall_mem_append,
        List.cons.injEq, rereadOperand_eq_self_iff weak (reread_eq_self_iff e),
        rereadAll_eq_self_iff weak rest]

end

mutual

/-- The parenthesised texts begin with a parenthesis. -/
theorem head?_of_mem_groups (e : Expr) : ∀ text ∈ e.groups name, text.head? = some '(' := by
  cases e with
  | literal value => exact nofun
  | predicate id => exact nofun
  | not body =>
      exact List.forall_mem_append.mpr ⟨head?_of_mem_parentheses body, head?_of_mem_groups body⟩
  | and operands => exact head?_of_mem_groupsAll operands
  | or operands => exact head?_of_mem_groupsAll operands

theorem head?_of_mem_groupsAll {outer : Nat} (es : List Expr) :
    ∀ text ∈ groupsAll name outer es, text.head? = some '(' := by
  cases es with
  | nil => exact nofun
  | cons e rest =>
      exact List.forall_mem_append.mpr ⟨head?_of_mem_parentheses e,
        List.forall_mem_append.mpr ⟨head?_of_mem_groups e, head?_of_mem_groupsAll rest⟩⟩

end

/-! ## What is read is folded -/

theorem solid_rereadOperand {outer : Nat} {e : Expr} (solid : (e.reread names name).Solid) :
    (rereadOperand names name outer e).Solid := by
  rw [rereadOperand]
  cases captured? names name outer e with
  | none => exact solid
  | some id => exact .predicate id

/-- What is no conjunction is read as none, and what is no disjunction neither. -/
theorem reread_ne_node {unit : Bool} {e : Expr} (distinct : ∀ es, e ≠ node unit es)
    (es : List Expr) : e.reread names name ≠ node unit es := by
  cases e with
  | literal value => cases unit <;> simp [reread, node]
  | predicate id => cases unit <;> simp [reread, node]
  | not body => cases unit <;> simp [reread, node]
  | and operands =>
      cases unit with
      | true => exact absurd rfl (distinct operands)
      | false => simp [reread, node]
  | or operands =>
      cases unit with
      | true => simp [reread, node]
      | false => exact absurd rfl (distinct operands)

theorem isPart_rereadOperand {unit : Bool} {outer : Nat} {e : Expr}
    (solid : (e.reread names name).Solid) (distinct : ∀ es, e ≠ node unit es) :
    IsPart unit (rereadOperand names name outer e) := by
  refine ⟨solid_rereadOperand solid, fun es => ?_⟩
  rw [rereadOperand]
  cases captured? names name outer e with
  | none => exact reread_ne_node distinct es
  | some id => cases unit <;> simp [node]

theorem solid_reread_node (unit : Bool) {es : List Expr} (several : 2 ≤ es.length)
    (each : ∀ e ∈ es, (e.reread names name).Solid) (distinct : ∀ e ∈ es, ∀ fs, e ≠ node unit fs) :
    ((node unit es).reread names name).Solid := by
  rw [reread_node]
  refine solid_node (by rwa [List.length_map]) (List.forall_mem_map.mpr fun e member => ?_)
  exact isPart_rereadOperand (each e member) (distinct e member)

theorem solid_reread {e : Expr} (solid : e.Solid) : (e.reread names name).Solid := by
  induction solid with
  | predicate id => exact .predicate id
  | @not body solid single ih =>
      refine .not (solid_rereadOperand ih) fun e => ?_
      cases captured? names name 30 body with
      | none =>
          cases body with
          | not e => exact absurd rfl (single e)
          | _ => simp [reread]
      | some id => simp
  | and several _ distinct ih => exact solid_reread_node true several ih distinct
  | or several _ distinct ih => exact solid_reread_node false several ih distinct

/-- A folded expression is read as a folded expression. -/
theorem isFolded_reread {e : Expr} (folded : e.IsFolded) : (e.reread names name).IsFolded := by
  rcases folded with ⟨value, rfl⟩ | solid
  · exact .inl ⟨value, rfl⟩
  · exact .inr (solid_reread solid)

end Trivalent.Expr
