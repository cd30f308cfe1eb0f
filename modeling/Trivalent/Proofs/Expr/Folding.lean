import Mathlib.Data.List.Basic
import Trivalent.Expr.Basic

/-!
# Folded expressions

An expression is folded by building it anew with the folding constructors.  What comes out is a
constant, or an expression without constants in which no negation is negated and every conjunction
and disjunction has several operands, none of which is of its own kind.  Such expressions are not
changed by folding, and joining operands one after the other gives what joining all of them gives.

Conjunction and disjunction are treated alike, told apart by their unit: the constant that a
conjunction or disjunction without operands is.  The other constant absorbs all operands.
-/

namespace Trivalent.Expr

/-! ## Conjunction and disjunction by their unit -/

/-- The conjunction of operands, if the unit is true, and else their disjunction. -/
def node (unit : Bool) (operands : List Expr) : Expr :=
  if unit then .and operands else .or operands

/-- What an operand contributes to the conjunction or disjunction of a unit. -/
def parts (unit : Bool) : Expr → List Expr :=
  if unit then conjuncts else disjuncts

/-- Folding conjunction, if the unit is true, and else folding disjunction. -/
def join (unit : Bool) : List Expr → Expr :=
  if unit then conj else disj

/-- The conjunction or disjunction of parts; of a single one it is the part itself. -/
def gather (unit : Bool) : List Expr → Expr
  | [] => .literal unit
  | [e] => e
  | es => node unit es

theorem join_eq (unit : Bool) (es : List Expr) :
    join unit es = if es.any (isLiteral !unit) then .literal !unit
      else gather unit (es.flatMap (parts unit)) := by
  cases unit with
  | true =>
      simp only [join, if_true, conj, parts, Bool.not_true]
      split
      · rfl
      · cases es.flatMap conjuncts with
        | nil => rfl
        | cons e rest => cases rest <;> rfl
  | false =>
      simp only [join, Bool.false_eq_true, if_false, disj, parts, Bool.not_false]
      split
      · rfl
      · cases es.flatMap disjuncts with
        | nil => rfl
        | cons e rest => cases rest <;> rfl

theorem any_isLiteral_iff {value : Bool} {es : List Expr} :
    es.any (isLiteral value) = true ↔ .literal value ∈ es := by
  simp [isLiteral_eq_true_iff]

theorem join_of_mem {unit : Bool} {es : List Expr} (member : .literal (!unit) ∈ es) :
    join unit es = .literal !unit := by
  rw [join_eq, if_pos (any_isLiteral_iff.mpr member)]

theorem join_of_not_mem {unit : Bool} {es : List Expr} (absent : .literal (!unit) ∉ es) :
    join unit es = gather unit (es.flatMap (parts unit)) := by
  rw [join_eq, if_neg (mt any_isLiteral_iff.mp absent)]

theorem node_ne_literal (unit value : Bool) (es : List Expr) : node unit es ≠ .literal value := by
  cases unit <;> simp [node]

@[simp]
theorem parts_literal (unit : Bool) : parts unit (.literal unit) = [] := by
  cases unit <;> rfl

@[simp]
theorem parts_node (unit : Bool) (es : List Expr) : parts unit (node unit es) = es := by
  cases unit <;> rfl

/-- What is neither the unit nor joined by the same sign is a part of its own. -/
theorem parts_eq_singleton {unit : Bool} {e : Expr} (notUnit : e ≠ .literal unit)
    (notNode : ∀ es, e ≠ node unit es) : parts unit e = [e] := by
  cases unit with
  | true =>
      cases e with
      | literal value =>
          cases value with
          | true => exact absurd rfl notUnit
          | false => rfl
      | and es => exact absurd rfl (notNode es)
      | _ => rfl
  | false =>
      cases e with
      | literal value =>
          cases value with
          | true => rfl
          | false => exact absurd rfl notUnit
      | or es => exact absurd rfl (notNode es)
      | _ => rfl

/-! ## The shape of folded expressions -/

/-- An expression without constants in which no negation is negated and every conjunction and
disjunction has several operands, none of its own kind. -/
inductive Solid : Expr → Prop where
  /-- A predicate. -/
  | predicate (id : Nat) : Solid (.predicate id)
  /-- A negation of what is no negation. -/
  | not {body : Expr} : Solid body → (∀ e, body ≠ .not e) → Solid (.not body)
  /-- Several operands of which none is a conjunction. -/
  | and {es : List Expr} : 2 ≤ es.length → (∀ e ∈ es, Solid e) →
      (∀ e ∈ es, ∀ fs, e ≠ .and fs) → Solid (.and es)
  /-- Several operands of which none is a disjunction. -/
  | or {es : List Expr} : 2 ≤ es.length → (∀ e ∈ es, Solid e) →
      (∀ e ∈ es, ∀ fs, e ≠ .or fs) → Solid (.or es)

/-- A constant or a solid expression. -/
def IsFolded (e : Expr) : Prop :=
  (∃ value, e = .literal value) ∨ e.Solid

/-- An operand that the folding conjunction or disjunction of a unit keeps as it is. -/
structure IsPart (unit : Bool) (e : Expr) : Prop where
  solid : e.Solid
  notNode : ∀ es, e ≠ node unit es

variable {unit : Bool} {e f : Expr} {es : List Expr}

theorem Solid.ne_literal (solid : e.Solid) (value : Bool) : e ≠ .literal value := by
  rintro rfl
  nomatch solid

theorem solid_node (several : 2 ≤ es.length) (each : ∀ e ∈ es, IsPart unit e) :
    (node unit es).Solid := by
  cases unit with
  | true =>
      exact .and several (fun e member => (each e member).solid) fun e member =>
        (each e member).notNode
  | false =>
      exact .or several (fun e member => (each e member).solid) fun e member =>
        (each e member).notNode

theorem Solid.several (solid : (node unit es).Solid) : 2 ≤ es.length := by
  cases unit with
  | true => cases solid; assumption
  | false => cases solid; assumption

theorem Solid.isPart (solid : (node unit es).Solid) : ∀ e ∈ es, IsPart unit e := by
  cases unit with
  | true =>
      cases solid with
      | and _ each distinct => exact fun e member => ⟨each e member, distinct e member⟩
  | false =>
      cases solid with
      | or _ each distinct => exact fun e member => ⟨each e member, distinct e member⟩

theorem IsPart.parts (isPart : IsPart unit e) : e.parts unit = [e] :=
  parts_eq_singleton (isPart.solid.ne_literal unit) isPart.notNode

/-- What a folded operand contributes is parts, unless the operand absorbs the others. -/
theorem IsFolded.isPart_of_mem (folded : e.IsFolded) (notAbsorbing : e ≠ .literal (!unit)) :
    ∀ f ∈ e.parts unit, IsPart unit f := by
  rcases folded with ⟨value, rfl⟩ | solid
  · obtain rfl : value = unit := by
      cases value <;> cases unit <;> simp at notAbsorbing ⊢
    simp
  · by_cases isNode : ∃ fs, e = node unit fs
    · obtain ⟨fs, rfl⟩ := isNode
      rw [parts_node]
      exact solid.isPart
    · have isPart : IsPart unit e := ⟨solid, fun fs same => isNode ⟨fs, same⟩⟩
      rw [isPart.parts]
      simpa using isPart

section Gather

variable (each : ∀ e ∈ es, IsPart unit e)

include each

theorem parts_gather : (gather unit es).parts unit = es := by
  match es, each with
  | [], _ => exact parts_literal unit
  | [e], each => exact (each e List.mem_cons_self).parts
  | e :: f :: rest, _ => exact parts_node unit _

theorem isFolded_gather : (gather unit es).IsFolded := by
  match es, each with
  | [], _ => exact .inl ⟨unit, rfl⟩
  | [e], each => exact .inr (each e List.mem_cons_self).solid
  | e :: f :: rest, each =>
      refine .inr (solid_node ?_ each)
      rw [List.length_cons, List.length_cons]
      omega

theorem gather_ne_absorbing : gather unit es ≠ .literal !unit := by
  match es, each with
  | [], _ => cases unit <;> simp [gather]
  | [e], each => exact (each e List.mem_cons_self).solid.ne_literal _
  | e :: f :: rest, _ => exact node_ne_literal unit _ _

end Gather

/-! ## Joining folded expressions -/

section Join

variable (folded : ∀ e ∈ es, e.IsFolded)

include folded

theorem isPart_flatMap (absent : .literal (!unit) ∉ es) :
    ∀ e ∈ es.flatMap (parts unit), IsPart unit e := by
  intro e member
  obtain ⟨operand, listed, isPart⟩ := List.mem_flatMap.mp member
  refine (folded operand listed).isPart_of_mem ?_ e isPart
  rintro rfl
  exact absent listed

theorem isFolded_join : (join unit es).IsFolded := by
  by_cases member : .literal (!unit) ∈ es
  · exact .inl ⟨_, join_of_mem member⟩
  · rw [join_of_not_mem member]
    exact isFolded_gather (isPart_flatMap folded member)

/-- One more operand joined to the others is joined with them. -/
theorem join_join : join unit [join unit es, f] = join unit (es ++ [f]) := by
  by_cases member : .literal (!unit) ∈ es
  · rw [join_of_mem member, join_of_mem (by simp), join_of_mem (by simp [member])]
  by_cases last : f = .literal !unit
  · rw [join_of_mem (by simp [last]), join_of_mem (by simp [last])]
  have kept := isPart_flatMap folded member
  rw [join_of_not_mem member, join_of_not_mem, join_of_not_mem]
  · simp [parts_gather kept]
  · simp [member, Ne.symm last]
  · simp [Ne.symm (gather_ne_absorbing kept), Ne.symm last]

end Join

theorem join_singleton (folded : e.IsFolded) : join unit [e] = e := by
  by_cases absorbing : e = .literal !unit
  · rw [join_of_mem (by simp [absorbing]), absorbing]
  rw [join_of_not_mem (by simpa using Ne.symm absorbing)]
  rw [List.flatMap_singleton]
  rcases folded with ⟨value, rfl⟩ | solid
  · obtain rfl : value = unit := by
      cases value <;> cases unit <;> simp at absorbing ⊢
    rw [parts_literal, gather]
  by_cases isNode : ∃ fs, e = node unit fs
  · obtain ⟨fs, rfl⟩ := isNode
    rw [parts_node]
    match fs, solid.several with
    | e :: f :: rest, _ => rfl
  · rw [parts_eq_singleton (solid.ne_literal unit) fun fs same => isNode ⟨fs, same⟩, gather]

/-- The operands of a solid conjunction or disjunction are joined to it. -/
theorem join_of_solid (solid : (node unit es).Solid) : join unit es = node unit es := by
  have each := solid.isPart
  have absent : .literal (!unit) ∉ es := fun member =>
    (each _ member).solid.ne_literal _ rfl
  have kept : es.flatMap (parts unit) = es := by
    calc es.flatMap (parts unit) = es.flatMap fun e => [e] :=
          List.flatMap_congr fun e member => (each e member).parts
      _ = es := List.flatMap_singleton' es
  rw [join_of_not_mem absent, kept]
  match es, solid.several with
  | e :: f :: rest, _ => rfl

theorem isFolded_neg (folded : e.IsFolded) : (neg e).IsFolded := by
  rcases folded with ⟨value, rfl⟩ | solid
  · exact .inl ⟨_, rfl⟩
  · cases solid with
    | predicate id => exact .inr (.not (.predicate id) nofun)
    | not solid _ => exact .inr solid
    | and several each distinct => exact .inr (.not (.and several each distinct) nofun)
    | or several each distinct => exact .inr (.not (.or several each distinct) nofun)

/-! ## Folding -/

mutual

/-- The expression built anew, from the inside out, with the folding constructors. -/
def folded : Expr → Expr
  | .literal value => .literal value
  | .predicate id => .predicate id
  | .not body => neg body.folded
  | .and operands => conj (foldedAll operands)
  | .or operands => disj (foldedAll operands)

/-- The expressions of a list built anew with the folding constructors. -/
def foldedAll : List Expr → List Expr
  | [] => []
  | e :: rest => e.folded :: foldedAll rest

end

theorem foldedAll_eq_map (es : List Expr) : foldedAll es = es.map folded := by
  induction es with
  | nil => rfl
  | cons e rest ih => rw [foldedAll, ih, List.map_cons]

theorem folded_node (unit : Bool) (es : List Expr) :
    (node unit es).folded = join unit (es.map folded) := by
  rw [← foldedAll_eq_map]
  cases unit <;> rfl

theorem folded_node_nil (unit : Bool) : (node unit []).folded = .literal unit := by
  cases unit <;> rfl

mutual

theorem isFolded_folded (e : Expr) : e.folded.IsFolded := by
  cases e with
  | literal value => exact .inl ⟨value, rfl⟩
  | predicate id => exact .inr (.predicate id)
  | not body => exact isFolded_neg (isFolded_folded body)
  | and operands =>
      show (join true (foldedAll operands)).IsFolded
      exact isFolded_join (isFolded_foldedAll operands)
  | or operands =>
      show (join false (foldedAll operands)).IsFolded
      exact isFolded_join (isFolded_foldedAll operands)

theorem isFolded_foldedAll (es : List Expr) : ∀ e ∈ foldedAll es, e.IsFolded := by
  cases es with
  | nil => exact nofun
  | cons e rest =>
      exact List.forall_mem_cons.mpr ⟨isFolded_folded e, isFolded_foldedAll rest⟩

end

theorem isFolded_of_mem_map {es : List Expr} : ∀ e ∈ es.map folded, e.IsFolded :=
  List.forall_mem_map.mpr fun e _ => isFolded_folded e

/-- Folding does not change solid expressions. -/
theorem Solid.folded_eq (solid : e.Solid) : e.folded = e := by
  have node_eq (unit : Bool) {es : List Expr} (solid : (node unit es).Solid)
      (each : ∀ e ∈ es, e.folded = e) : (node unit es).folded = node unit es := by
    rw [folded_node, List.map_congr_left each, List.map_id', join_of_solid solid]
  induction solid with
  | predicate id => rfl
  | @not body _ single ih =>
      rw [folded, ih]
      cases body with
      | not e => exact absurd rfl (single e)
      | literal value => nomatch ‹(literal value).Solid›
      | _ => rfl
  | and several each distinct ih => exact node_eq true (.and several each distinct) ih
  | or several each distinct ih => exact node_eq false (.or several each distinct) ih

theorem IsFolded.folded_eq (folded : e.IsFolded) : e.folded = e := by
  rcases folded with ⟨value, rfl⟩ | solid
  · rfl
  · exact solid.folded_eq

/-! ## Predicates that folding leaves -/

/-- An occurrence of a predicate that folding leaves: it stands in no conjunction or disjunction
of which another operand is folded to the constant that absorbs it. -/
inductive Shows (id : Nat) : Expr → Prop where
  /-- The predicate itself. -/
  | predicate : Shows id (.predicate id)
  /-- In a negated expression. -/
  | not {body : Expr} : Shows id body → Shows id (.not body)
  /-- In an operand of a conjunction that is not false. -/
  | and {es : List Expr} {e : Expr} : e ∈ es → Shows id e →
      (∀ f ∈ es, f.folded ≠ .literal false) → Shows id (.and es)
  /-- In an operand of a disjunction that is not true. -/
  | or {es : List Expr} {e : Expr} : e ∈ es → Shows id e →
      (∀ f ∈ es, f.folded ≠ .literal true) → Shows id (.or es)

theorem occurrences_node (unit : Bool) (es : List Expr) :
    (node unit es).occurrences = es.flatMap occurrences := by
  rw [← occurrencesAll_eq_flatMap]
  cases unit <;> rfl

theorem occurrences_gather (unit : Bool) (es : List Expr) :
    (gather unit es).occurrences = es.flatMap occurrences := by
  match es with
  | [] => rfl
  | [e] => simp [gather]
  | e :: f :: rest => exact occurrences_node unit _

theorem flatMap_occurrences_parts (unit : Bool) (e : Expr) :
    (e.parts unit).flatMap occurrences = e.occurrences := by
  by_cases isUnit : e = .literal unit
  · rw [isUnit, parts_literal]
    rfl
  by_cases isNode : ∃ fs, e = node unit fs
  · obtain ⟨fs, rfl⟩ := isNode
    rw [parts_node, occurrences_node]
  · rw [parts_eq_singleton isUnit fun fs same => isNode ⟨fs, same⟩, List.flatMap_singleton]

theorem mem_occurrences_neg {id : Nat} : id ∈ (neg e).occurrences ↔ id ∈ e.occurrences := by
  cases e <;> simp [neg, occurrences]

/-- Joined operands keep their predicates unless one of them absorbs the others. -/
theorem mem_occurrences_join {id : Nat} : id ∈ (join unit es).occurrences ↔
    (∃ e ∈ es, id ∈ e.occurrences) ∧ ∀ e ∈ es, e ≠ .literal !unit := by
  by_cases member : .literal (!unit) ∈ es
  · rw [join_of_mem member]
    simp only [occurrences, List.not_mem_nil, false_iff, not_and]
    exact fun _ absent => absent _ member rfl
  · have occurring : (join unit es).occurrences = es.flatMap occurrences := by
      rw [join_of_not_mem member, occurrences_gather, List.flatMap_assoc]
      exact List.flatMap_congr fun e _ => flatMap_occurrences_parts unit e
    rw [occurring, List.mem_flatMap]
    refine (and_iff_left ?_).symm
    rintro e listed rfl
    exact member listed

theorem shows_node_iff {id : Nat} : Shows id (node unit es) ↔
    (∃ e ∈ es, Shows id e) ∧ ∀ e ∈ es, e.folded ≠ .literal !unit := by
  cases unit with
  | true =>
      constructor
      · intro shown
        cases shown with
        | and member shown absent => exact ⟨⟨_, member, shown⟩, absent⟩
      · rintro ⟨⟨e, member, shown⟩, absent⟩
        exact .and member shown absent
  | false =>
      constructor
      · intro shown
        cases shown with
        | or member shown absent => exact ⟨⟨_, member, shown⟩, absent⟩
      · rintro ⟨⟨e, member, shown⟩, absent⟩
        exact .or member shown absent

theorem mem_occurrences_folded_node (unit : Bool) {id : Nat}
    (each : ∀ e ∈ es, id ∈ e.folded.occurrences ↔ Shows id e) :
    id ∈ (node unit es).folded.occurrences ↔ Shows id (node unit es) := by
  rw [folded_node, mem_occurrences_join, shows_node_iff, List.forall_mem_map]
  refine and_congr_left fun _ => ?_
  constructor
  · rintro ⟨_, member, occurs⟩
    obtain ⟨e, listed, rfl⟩ := List.mem_map.mp member
    exact ⟨e, listed, (each e listed).mp occurs⟩
  · rintro ⟨e, listed, shown⟩
    exact ⟨e.folded, List.mem_map_of_mem listed, (each e listed).mpr shown⟩

mutual

/-- The predicates of a folded expression are those that the expression shows. -/
theorem mem_occurrences_folded (id : Nat) (e : Expr) : id ∈ e.folded.occurrences ↔ Shows id e := by
  cases e with
  | literal value =>
      rw [folded, occurrences, List.mem_nil_iff, false_iff]
      exact nofun
  | predicate other =>
      rw [folded, occurrences, List.mem_singleton]
      constructor
      · rintro rfl
        exact .predicate
      · rintro ⟨⟩
        rfl
  | not body =>
      rw [folded, mem_occurrences_neg, mem_occurrences_folded id body]
      constructor
      · exact .not
      · rintro ⟨⟩
        assumption
  | and operands => exact mem_occurrences_folded_node true (mem_occurrences_foldedAll id operands)
  | or operands => exact mem_occurrences_folded_node false (mem_occurrences_foldedAll id operands)

theorem mem_occurrences_foldedAll (id : Nat) (es : List Expr) :
    ∀ e ∈ es, id ∈ e.folded.occurrences ↔ Shows id e := by
  cases es with
  | nil => exact nofun
  | cons e rest =>
      exact List.forall_mem_cons.mpr
        ⟨mem_occurrences_folded id e, mem_occurrences_foldedAll id rest⟩

end

end Trivalent.Expr
