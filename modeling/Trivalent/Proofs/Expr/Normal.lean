import Trivalent.Proofs.Expr.Folding
import Trivalent.Proofs.Expr.Reading

/-!
# Normal expressions

An expression is normal if it is folded and negates predicates only.  Pushing negations down gives a
normal expression whatever the shape of the given one, and does not change one that is normal
already.  Pushing them down twice, in either polarity, gives as syntax what pushing them down once in
the combined polarity gives.

The two polarities call each other and every node is built by a folding constructor, so the facts
are about `join`: de Morgan's laws hold as equations between joined expressions, `polarised_join`,
once the operands are folded.
-/

namespace Trivalent.Expr

variable {unit negated : Bool} {e : Expr} {es : List Expr}

/-- Every negation of the expression stands directly above a predicate. -/
inductive NegatesPredicates : Expr → Prop where
  /-- A constant. -/
  | literal (value : Bool) : NegatesPredicates (.literal value)
  /-- A predicate. -/
  | predicate (id : Nat) : NegatesPredicates (.predicate id)
  /-- The negation of a predicate. -/
  | not (id : Nat) : NegatesPredicates (.not (.predicate id))
  /-- A conjunction. -/
  | and {es : List Expr} : (∀ e ∈ es, NegatesPredicates e) → NegatesPredicates (.and es)
  /-- A disjunction. -/
  | or {es : List Expr} : (∀ e ∈ es, NegatesPredicates e) → NegatesPredicates (.or es)

/-- The expression is a constant, or it has no constants, every conjunction and disjunction has
several operands of which none is of its own kind, and predicates alone are negated. -/
structure IsNormal (e : Expr) : Prop where
  folded : e.IsFolded
  negatesPredicates : e.NegatesPredicates

/-! ## Negations of joined expressions -/

theorem negatesPredicates_node_iff :
    (node unit es).NegatesPredicates ↔ ∀ e ∈ es, e.NegatesPredicates := by
  cases unit with
  | true => exact ⟨fun | .and each => each, .and⟩
  | false => exact ⟨fun | .or each => each, .or⟩

theorem NegatesPredicates.of_mem_parts (normal : e.NegatesPredicates) :
    ∀ f ∈ e.parts unit, f.NegatesPredicates := by
  by_cases isUnit : e = .literal unit
  · rw [isUnit, parts_literal]
    exact fun f listed => absurd listed List.not_mem_nil
  by_cases isNode : ∃ fs, e = node unit fs
  · obtain ⟨fs, rfl⟩ := isNode
    rw [parts_node]
    exact negatesPredicates_node_iff.mp normal
  · rw [parts_eq_singleton isUnit fun fs same => isNode ⟨fs, same⟩]
    simpa using normal

theorem negatesPredicates_gather (each : ∀ e ∈ es, e.NegatesPredicates) :
    (gather unit es).NegatesPredicates := by
  match es, each with
  | [], _ => exact .literal unit
  | [e], each => exact each e List.mem_cons_self
  | e :: f :: rest, each => exact negatesPredicates_node_iff.mpr each

theorem negatesPredicates_join (each : ∀ e ∈ es, e.NegatesPredicates) :
    (join unit es).NegatesPredicates := by
  by_cases member : .literal (!unit) ∈ es
  · rw [join_of_mem member]
    exact .literal _
  · rw [join_of_not_mem member]
    refine negatesPredicates_gather fun f isPart => ?_
    obtain ⟨operand, listed, isPart⟩ := List.mem_flatMap.mp isPart
    exact (each operand listed).of_mem_parts f isPart

/-! ## What pushing negations down gives -/

theorem polarised_literal (negated value : Bool) :
    (literal value).polarised negated = .literal (value != negated) := by
  rw [polarised]

/-- De Morgan's laws: the unit of the node changes with the polarity. -/
theorem polarised_node (negated unit : Bool) (es : List Expr) :
    (node unit es).polarised negated = join (unit != negated) (es.map (polarised negated)) := by
  rw [← polarisedAll_eq_map]
  cases unit <;> cases negated <;> rfl

theorem isNormal_join (each : ∀ e ∈ es, e.IsNormal) : (join unit es).IsNormal :=
  ⟨isFolded_join fun e listed => (each e listed).folded,
    negatesPredicates_join fun e listed => (each e listed).negatesPredicates⟩

mutual

/-- Pushing negations down gives a normal expression. -/
theorem isNormal_polarised (negated : Bool) (e : Expr) : (e.polarised negated).IsNormal := by
  cases e with
  | literal value => exact ⟨.inl ⟨_, rfl⟩, .literal _⟩
  | predicate id =>
      cases negated with
      | true => exact ⟨.inr (.not (.predicate id) nofun), .not id⟩
      | false => exact ⟨.inr (.predicate id), .predicate id⟩
  | not body => exact isNormal_polarised (!negated) body
  | and operands =>
      rw [show Expr.and operands = node true operands from rfl, polarised_node]
      exact isNormal_join (isNormal_map_polarised negated operands)
  | or operands =>
      rw [show Expr.or operands = node false operands from rfl, polarised_node]
      exact isNormal_join (isNormal_map_polarised negated operands)

theorem isNormal_map_polarised (negated : Bool) (es : List Expr) :
    ∀ e ∈ es.map (polarised negated), e.IsNormal := by
  cases es with
  | nil => exact nofun
  | cons e rest =>
      exact List.forall_mem_cons.mpr
        ⟨isNormal_polarised negated e, isNormal_map_polarised negated rest⟩

end

theorem isFolded_polarised (negated : Bool) (e : Expr) : (e.polarised negated).IsFolded :=
  (isNormal_polarised negated e).folded

theorem isFolded_of_mem_map_polarised (negated : Bool) (es : List Expr) :
    ∀ e ∈ es.map (polarised negated), e.IsFolded :=
  fun e listed => (isNormal_map_polarised negated es e listed).folded

theorem occurrences_join_subset (unit : Bool) (es : List Expr) :
    (join unit es).occurrences ⊆ es.flatMap occurrences :=
  fun _ occurs => List.mem_flatMap.mpr (mem_occurrences_join.mp occurs).1

theorem occurrences_polarised_node_subset (unit : Bool)
    (each : (es.map (polarised negated)).flatMap occurrences ⊆ es.flatMap occurrences) :
    ((node unit es).polarised negated).occurrences ⊆ (node unit es).occurrences := by
  rw [polarised_node, occurrences_node]
  exact List.Subset.trans (occurrences_join_subset _ _) each

mutual

/-- Pushing negations down adds no predicates. -/
theorem occurrences_polarised_subset (negated : Bool) (e : Expr) :
    (e.polarised negated).occurrences ⊆ e.occurrences := by
  cases e with
  | literal value => exact List.Subset.refl _
  | predicate id => cases negated <;> exact List.Subset.refl _
  | not body => exact occurrences_polarised_subset (!negated) body
  | and operands =>
      exact occurrences_polarised_node_subset true
        (occurrences_map_polarised_subset negated operands)
  | or operands =>
      exact occurrences_polarised_node_subset false
        (occurrences_map_polarised_subset negated operands)

theorem occurrences_map_polarised_subset (negated : Bool) (es : List Expr) :
    (es.map (polarised negated)).flatMap occurrences ⊆ es.flatMap occurrences := by
  cases es with
  | nil => exact List.Subset.refl _
  | cons e rest =>
      rw [List.map_cons, List.flatMap_cons, List.flatMap_cons]
      refine List.append_subset.mpr ⟨?_, ?_⟩
      · exact List.subset_append_of_subset_left _ (occurrences_polarised_subset negated e)
      · exact List.subset_append_of_subset_right _ (occurrences_map_polarised_subset negated rest)

end

/-! ## Pushing negations down twice -/

/-- Operands that are joined among themselves first may as well be joined all at once. -/
theorem join_map_join {g : Expr → List Expr} (folded : ∀ e ∈ es, ∀ f ∈ g e, f.IsFolded) :
    join unit (es.map fun e => join unit (g e)) = join unit (es.flatMap g) := by
  by_cases member : .literal (!unit) ∈ es.flatMap g
  · obtain ⟨e, listed, absorbing⟩ := List.mem_flatMap.mp member
    rw [join_of_mem member, join_of_mem]
    exact List.mem_map.mpr ⟨e, listed, join_of_mem absorbing⟩
  have absent : ∀ e ∈ es, .literal (!unit) ∉ g e := fun e listed absorbing =>
    member (List.mem_flatMap.mpr ⟨e, listed, absorbing⟩)
  have kept : ∀ e ∈ es, (join unit (g e)).parts unit = (g e).flatMap (parts unit) := by
    intro e listed
    rw [join_of_not_mem (absent e listed),
      parts_gather (isPart_flatMap (folded e listed) (absent e listed))]
  rw [join_of_not_mem member, join_of_not_mem, List.flatMap_map, List.flatMap_assoc,
    List.flatMap_congr kept]
  intro absorbing
  obtain ⟨e, listed, same⟩ := List.mem_map.mp absorbing
  rw [join_of_not_mem (absent e listed)] at same
  exact gather_ne_absorbing (isPart_flatMap (folded e listed) (absent e listed)) same

theorem polarised_gather (negated unit : Bool) (es : List Expr) :
    (gather unit es).polarised negated = join (unit != negated) (es.map (polarised negated)) := by
  match es with
  | [] =>
      rw [List.map_nil, join_of_not_mem List.not_mem_nil]
      exact polarised_literal negated unit
  | [e] => exact (join_singleton (isFolded_polarised negated e)).symm
  | e :: f :: rest => exact polarised_node negated unit _

/-- The polarised parts of an expression make up the polarised expression. -/
theorem join_map_parts (negated unit : Bool) (e : Expr) :
    join (unit != negated) ((e.parts unit).map (polarised negated)) = e.polarised negated := by
  by_cases isUnit : e = .literal unit
  · rw [isUnit, parts_literal]
    exact (polarised_gather negated unit []).symm
  by_cases isNode : ∃ fs, e = node unit fs
  · obtain ⟨fs, rfl⟩ := isNode
    rw [parts_node, polarised_node]
  · rw [parts_eq_singleton isUnit fun fs same => isNode ⟨fs, same⟩]
    exact join_singleton (isFolded_polarised negated e)

/-- De Morgan's laws for joined expressions. -/
theorem polarised_join (negated unit : Bool) (es : List Expr) :
    (join unit es).polarised negated = join (unit != negated) (es.map (polarised negated)) := by
  by_cases member : .literal (!unit) ∈ es
  · have absorbing : (literal !unit).polarised negated = .literal !(unit != negated) := by
      rw [polarised_literal, Bool.not_bne]
    rw [join_of_mem member, join_of_mem (absorbing ▸ List.mem_map_of_mem member), absorbing]
  · calc (join unit es).polarised negated
        = join (unit != negated) ((es.flatMap (parts unit)).map (polarised negated)) := by
          rw [join_of_not_mem member, polarised_gather]
      _ = join (unit != negated)
            (es.map fun e => join (unit != negated) ((e.parts unit).map (polarised negated))) := by
          rw [join_map_join fun e _ => isFolded_of_mem_map_polarised negated (e.parts unit),
            List.map_flatMap]
      _ = join (unit != negated) (es.map (polarised negated)) := by
          simp only [join_map_parts]

theorem polarised_polarised_node (unit : Bool) {first second : Bool}
    (each : (es.map (polarised first)).map (polarised second) =
      es.map (polarised (first != second))) :
    ((node unit es).polarised first).polarised second =
      (node unit es).polarised (first != second) := by
  rw [polarised_node, polarised_join, polarised_node, each, Bool.bne_assoc]

mutual

/-- The polarities of two passes combine. -/
theorem polarised_polarised (first second : Bool) (e : Expr) :
    (e.polarised first).polarised second = e.polarised (first != second) := by
  cases e with
  | literal value => simp only [polarised_literal, Bool.bne_assoc]
  | predicate id => cases first <;> cases second <;> rfl
  | not body =>
      calc (body.polarised !first).polarised second
          = body.polarised ((!first) != second) := polarised_polarised (!first) second body
        _ = body.polarised !(first != second) := by rw [Bool.not_bne]
  | and operands => exact polarised_polarised_node true (map_polarised first second operands)
  | or operands => exact polarised_polarised_node false (map_polarised first second operands)

theorem map_polarised (first second : Bool) (es : List Expr) :
    (es.map (polarised first)).map (polarised second) = es.map (polarised (first != second)) := by
  cases es with
  | nil => rfl
  | cons e rest =>
      rw [List.map_cons, List.map_cons, List.map_cons, polarised_polarised first second e,
        map_polarised first second rest]

end

theorem Solid.nnf_eq (solid : e.Solid) (negations : e.NegatesPredicates) : e.nnf = e := by
  have node_eq (unit : Bool) {es : List Expr} (solid : (node unit es).Solid)
      (each : ∀ e ∈ es, e.polarised false = e) : (node unit es).nnf = node unit es := by
    rw [nnf, polarised_node, List.map_congr_left each, List.map_id', Bool.bne_false,
      join_of_solid solid]
  induction solid with
  | predicate id => rfl
  | not => cases negations; rfl
  | and several each distinct ih =>
      cases negations with
      | and inner =>
          exact node_eq true (.and several each distinct) fun e listed =>
            ih e listed (inner e listed)
  | or several each distinct ih =>
      cases negations with
      | or inner =>
          exact node_eq false (.or several each distinct) fun e listed =>
            ih e listed (inner e listed)

/-- The normal expressions are those that pushing negations down does not change. -/
theorem isNormal_iff_nnf_eq : e.IsNormal ↔ e.nnf = e := by
  constructor
  · rintro ⟨⟨value, rfl⟩ | solid, negations⟩
    · rw [nnf, polarised_literal, Bool.bne_false]
    · exact solid.nnf_eq negations
  · intro same
    rw [← same]
    exact isNormal_polarised false e

/-- Pushing negations down gives a normal form: both the expression and its negation come out
normal, over no other predicates and with the value and the negated value, and doing it again, in
any order of the polarities, changes nothing but the polarity. -/
theorem nnf_isNormalForm (e : Expr) :
    (e.nnf.IsNormal ∧ e.negate.IsNormal) ∧
      (e.nnf.occurrences ⊆ e.occurrences ∧ e.negate.occurrences ⊆ e.occurrences) ∧
      (∀ status, e.nnf.kleene status = e.kleene status ∧
        e.negate.kleene status = (e.kleene status).neg) ∧
      e.nnf.nnf = e.nnf ∧ e.negate.negate = e.nnf ∧
      e.negate.nnf = e.negate ∧ e.nnf.negate = e.negate :=
  ⟨⟨isNormal_polarised false e, isNormal_polarised true e⟩,
    ⟨occurrences_polarised_subset false e, occurrences_polarised_subset true e⟩,
    fun _ => ⟨kleene_polarised false e, kleene_negate e⟩,
    polarised_polarised false false e, polarised_polarised true true e,
    polarised_polarised true false e, polarised_polarised false true e⟩

/-- A conjunction with an empty one among its operands, and a negated disjunction of a negation. -/
example : (Expr.and [.and [], .not (.or [.predicate 1, .not (.predicate 2)])]).nnf =
    .and [.not (.predicate 1), .predicate 2] :=
  rfl

end Trivalent.Expr
