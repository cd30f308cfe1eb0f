import Trivalent.Proofs.Expr.Operands

/-!
# Reading spellings

An expression is read from a text exactly if the text spells it, and what is read is the expression
folded.  Read from left to right, the operands of a chain are joined one by one; that the value is
the one of joining all of them at once is `join_join`.
-/

namespace Trivalent.Expr

open Grammar (Rule stops stops_of_imp stops_dropWhile dropWhile_run run_unique)
open Grammar.Rule

/-! ## Spellings are read -/

/-- No sign comes next that would go on with a chain of the unit. -/
def Ends (unit : Bool) (rest : List Char) : Prop :=
  ∀ sign ∈ joiningSigns unit, ∀ left, ¬sign.Begins (rest.dropWhile isGap) left

/-- What comes behind a whole expression: nothing, a closing parenthesis or a comma. -/
def Closes (rest : List Char) : Prop :=
  ∀ c ∈ rest.head?, c = ')' ∨ c = ','

theorem Ends.grows {unit : Bool} {rest : List Char} (ends : Ends unit rest) (operand : Rule Expr)
    (e : Expr) : Grows (step unit operand) e rest e rest := by
  refine .stop (Option.eq_none_iff_forall_ne_some.mpr ?_)
  rintro ⟨after, left⟩ found
  obtain ⟨sign, isSign, behind, begins, _⟩ := read?_step_eq_some_iff.mp found
  exact ends sign isSign behind begins

theorem stops_isGap_sign {sign : Sign} (isSign : sign ∈ signs) (rest : List Char) :
    stops isGap (sign.text.toList ++ rest) = true :=
  (firm_of_isPlain (sign_ne_nil isSign) (isPlain_of_mem_sign isSign)).stops_isGap rest

theorem read?_step {unit : Bool} {operand : Rule Expr} (before : Expr) {next : Expr} {sign : Sign}
    {gap gap' text rest : List Char} (isSpace : IsSpace gap) (isSign : sign ∈ joiningSigns unit)
    (isSpace' : IsSpace gap') (follows : Follows sign.isWord (gap' ++ text))
    (stop : stops isGap text = true) (read : operand.read? text = some (next, rest)) :
    (step unit operand before).read? (gap ++ (sign.text.toList ++ (gap' ++ text))) =
      some (join unit [before, next], rest) := by
  refine read?_step_eq_some_iff.mpr ⟨sign, isSign, _, ⟨?_, follows⟩, next, ?_, rfl⟩
  · exact dropWhile_run isSpace (stops_isGap_sign (joiningSigns_subset unit isSign) _)
  · rw [dropWhile_run isSpace' stop, read]

/-- A conjunction ends where the sign of disjunction comes. -/
theorem ends_of_disjunction {gap rest : List Char} {sign : Sign} (isSpace : IsSpace gap)
    (isSign : sign ∈ joiningSigns false) (follows : Follows sign.isWord rest) :
    Ends true (gap ++ (sign.text.toList ++ rest)) := by
  intro other isOther left begins
  have known := joiningSigns_subset false isSign
  rw [dropWhile_run isSpace (stops_isGap_sign known rest)] at begins
  have apart : ∀ sign ∈ joiningSigns true, sign ∉ joiningSigns false := by decide
  obtain rfl := begins.unique (joiningSigns_subset true isOther) known ⟨rfl, follows⟩
  exact apart other isOther isSign

theorem Closes.nil : Closes [] :=
  nofun

namespace Closes

variable {rest gap : List Char} (closes : Closes rest)

include closes

theorem eq_nil_or : rest = [] ∨ ∃ c left, rest = c :: left ∧ (c = ')' ∨ c = ',') := by
  cases rest with
  | nil => exact .inl rfl
  | cons c left => exact .inr ⟨c, left, rfl, closes c rfl⟩

theorem stops_isGap : stops isGap rest = true := by
  rcases closes.eq_nil_or with rfl | ⟨c, left, rfl, rfl | rfl⟩ <;> rfl

theorem ends (isSpace : IsSpace gap) (unit : Bool) : Ends unit (gap ++ rest) := by
  intro sign isSign left begins
  have known := joiningSigns_subset unit isSign
  rw [dropWhile_run isSpace closes.stops_isGap] at begins
  rcases closes.eq_nil_or with rfl | ⟨c, behind, rfl, rfl | rfl⟩
  · exact sign_ne_nil known (List.append_eq_nil_iff.mp begins.append.symm).1
  · exact not_begins_of_not_isPlain (by decide) known begins
  · exact not_begins_of_not_isPlain (by decide) known begins

theorem follows (isWord : Bool) : Follows isWord rest := by
  rcases closes.eq_nil_or with rfl | ⟨c, left, rfl, rfl | rfl⟩
  · exact follows_nil isWord
  · exact follows_cons (by decide) left
  · exact follows_cons (by decide) left

theorem follows_append (isSpace : IsSpace gap) (isWord : Bool) : Follows isWord (gap ++ rest) := by
  cases gap with
  | nil => exact closes.follows isWord
  | cons c gap =>
      exact follows_cons (isWordPart_of_isGap (isSpace c List.mem_cons_self)) (gap ++ rest)

end Closes

namespace Phrase

/-- What may come behind a phrase: nothing that would go on with it. -/
def EndsAt (rest : List Char) : Phrase → Prop
  | .operand _ => True
  | .chain unit _ => unit = false → Ends true rest
  | .layer unit _ => Ends true rest ∧ (unit = false → Ends false rest)
  | .padded _ => Closes rest

/-- The rules for operands of a depth read a phrase: its folded expression, or, of a chain, a value
that grows into what its folded expression grows into. -/
def IsRead (names : NameTable Nat) (depth : Nat) (text rest : List Char) : Phrase → Prop
  | .operand e => (operandTo names depth).read? text = some (e.folded, rest)
  | .chain unit es =>
      ∃ first between,
        (linkRule unit (operandTo names depth)).read? text = some (first, between) ∧
          ∀ last left, Grows (step unit (linkRule unit (operandTo names depth)))
              (join unit (es.map folded)) rest last left →
            Grows (step unit (linkRule unit (operandTo names depth))) first between last left
  | .layer unit e => (layerRule unit (operandTo names depth)).read? text = some (e.folded, rest)
  | .padded e =>
      ∃ between, (disjunction (operandTo names depth)).read? (text.dropWhile isGap) =
        some (e.folded, between) ∧ between.dropWhile isGap = rest

variable {names : NameTable Nat} {depth : Nat} {text rest : List Char} {unit : Bool} {e : Expr}

theorem isRead_link_iff : (link unit e).IsRead names depth text rest ↔
    (linkRule unit (operandTo names depth)).read? text = some (e.folded, rest) := by
  cases unit with
  | true => rfl
  | false =>
      rw [linkRule_false]
      rfl

theorem endsAt_link (ends : unit = false → Ends true rest) : (link unit e).EndsAt rest := by
  cases unit with
  | true => trivial
  | false => exact ⟨ends rfl, nofun⟩

/-- A chain that is read goes on with a sign and another link. -/
theorem isRead_chain_append {es : List Expr} {sign : Sign} {gap gap' back : List Char}
    (isSpace : IsSpace gap) (isSign : sign ∈ joiningSigns unit) (isSpace' : IsSpace gap')
    (between : Follows sign.isWord (gap' ++ (back ++ rest)))
    (stop : stops isGap (back ++ rest) = true)
    (read : (chain unit es).IsRead names depth text
      (gap ++ (sign.text.toList ++ (gap' ++ (back ++ rest)))))
    (readLink : (link unit e).IsRead names depth (back ++ rest) rest) :
    (chain unit (es ++ [e])).IsRead names depth text rest := by
  obtain ⟨first, behind, readFirst, grows⟩ := read
  refine ⟨first, behind, readFirst, fun last left more => grows last left ?_⟩
  refine .more (read?_step (join unit (es.map folded)) isSpace isSign isSpace' between stop
    (isRead_link_iff.mp readLink)) ?_ ?_
  · have some := List.length_pos_iff.mpr (sign_ne_nil (joiningSigns_subset unit isSign))
    simp only [List.length_append]
    omega
  · rwa [join_join isFolded_of_mem_map, ← List.map_singleton, ← List.map_append]

/-- A layer is read when a chain is read that no sign goes on with. -/
theorem isRead_layer_of_grows {first : Expr} {between : List Char}
    (read : (linkRule unit (operandTo names depth)).read? text = some (first, between))
    (grows : Grows (step unit (linkRule unit (operandTo names depth))) first between e.folded
      rest) : (layer unit e).IsRead names depth text rest := by
  rw [IsRead, layerRule_eq, read?_bind_of_some read]
  exact grows.read?_grow

end Phrase

theorem exists_succ {text : List Char} (some : text ≠ []) {depth : Nat}
    (room : text.length ≤ depth) : ∃ less, depth = less + 1 :=
  Nat.exists_eq_add_one.mpr (Nat.lt_of_lt_of_le (List.length_pos_iff.mpr some) room)

theorem Phrase.EndsAt.ends {unit : Bool} {e : Expr} {rest : List Char}
    (ends : (Phrase.layer unit e).EndsAt rest) : Ends unit rest := by
  cases unit with
  | true => exact ends.1
  | false => exact ends.2 rfl

/-- What spells a phrase is read as the phrase, if the rules go as deep as the text is long. -/
theorem Spells.isRead {names : NameTable Nat} {p : Phrase} {text : List Char} {isWord : Bool}
    (spells : Spells names p text isWord) {depth : Nat} {rest : List Char}
    (room : text.length ≤ depth) (follows : Follows isWord rest) (ends : p.EndsAt rest) :
    p.IsRead names depth (text ++ rest) rest := by
  induction spells generalizing depth rest with
  | constant isSign =>
      obtain ⟨depth, rfl⟩ := exists_succ (sign_ne_nil (constantSigns_subset _ isSign)) room
      exact read?_operandTo_constant isSign follows
  | empty isSign =>
      obtain ⟨depth, rfl⟩ := exists_succ (sign_ne_nil (constantSigns_subset _ isSign)) room
      rw [Phrase.IsRead, folded_node_nil]
      exact read?_operandTo_constant isSign follows
  | number isNumber =>
      obtain ⟨depth, rfl⟩ := exists_succ (isWord_of_unsigned? isNumber).some room
      exact read?_operandTo_number isNumber follows
  | identifier identifies known =>
      obtain ⟨depth, rfl⟩ := exists_succ (isWord_of_isIdentifier identifies).some room
      exact read?_operandTo_named known (.inr ⟨identifies, follows⟩)
  | fullName isGroup known =>
      obtain ⟨tail, rfl⟩ := isGroup.exists_cons
      obtain ⟨depth, rfl⟩ := exists_succ (List.cons_ne_nil _ _) room
      exact read?_operandTo_named known (.inl isGroup)
  | @negation sign gap body e isWord isSign isSpace spells after ih =>
      have firm := spells.firm nofun
      have some := sign_ne_nil (negationSigns_subset isSign)
      obtain ⟨depth, rfl⟩ := exists_succ (List.append_ne_nil_of_left_ne_nil some _) room
      have shorter : body.length ≤ depth := by
        have := List.length_pos_iff.mpr some
        rw [List.length_append, List.length_append] at room
        omega
      rw [List.append_assoc, List.append_assoc]
      refine read?_operandTo_negated isSign isSpace ?_ (firm.stops_isGap rest)
        (ih shorter follows trivial)
      rw [← List.append_assoc]
      exact after.append (List.append_ne_nil_of_right_ne_nil gap firm.ne_nil) rest
  | @group body e isWord spells unknown ih =>
      obtain ⟨depth, rfl⟩ := exists_succ (List.cons_ne_nil _ _) room
      have shorter : body.length ≤ depth := by
        rw [List.length_append, List.length_cons] at room
        omega
      have closes : Closes (')' :: rest) := by
        rintro c ⟨⟩
        exact .inl rfl
      obtain ⟨behind, read, closed⟩ := ih shorter (closes.follows isWord) closes
      refine read?_operandTo_parenthesised spells.isBalanced unknown ?_
      refine read?_parenthesised_eq_some_iff.mpr ⟨body ++ ')' :: rest, behind, ?_, read, closed⟩
      rw [List.append_assoc, List.singleton_append, List.cons_append]
  | first spells ih =>
      refine ⟨_, rest, Phrase.isRead_link_iff.mp (ih room follows (Phrase.endsAt_link ends)), ?_⟩
      intro last left grows
      rwa [List.map_singleton, join_singleton (isFolded_folded _)] at grows
  | @more unit sign front gap gap' back es e isWord isWord' _ isSpace isSign isSpace' spells after
      between ihFront ihBack =>
      have known := joiningSigns_subset unit isSign
      have firm := spells.firm Phrase.link_ne_padded
      have roomFront : front.length ≤ depth := by
        rw [List.length_append] at room
        omega
      have roomBack : back.length ≤ depth := by
        simp only [List.length_append] at room
        omega
      have between' : Follows sign.isWord (gap' ++ (back ++ rest)) := by
        rw [← List.append_assoc]
        exact between.append (List.append_ne_nil_of_right_ne_nil gap' firm.ne_nil) rest
      have read := ihFront roomFront (after.joined known (gap' ++ (back ++ rest))) fun isFalse => by
        subst isFalse
        exact ends_of_disjunction isSpace isSign between'
      simp only [List.append_assoc]
      exact Phrase.isRead_chain_append isSpace isSign isSpace' between' (firm.stops_isGap rest) read
        (ihBack roomBack follows (Phrase.endsAt_link ends))
  | @joined unit text es isWord spells ih =>
      obtain ⟨first, between, read, grows⟩ := ih room follows fun isFalse => ends.1
      refine Phrase.isRead_layer_of_grows read (grows _ _ ?_)
      rw [folded_node]
      exact ends.ends.grows _ _
  | lift spells ih =>
      have read := ih room follows (Phrase.endsAt_link fun isFalse => ends.1)
      exact Phrase.isRead_layer_of_grows (Phrase.isRead_link_iff.mp read) (ends.ends.grows _ _)
  | @padded gap gap' body e isWord isSpace spells isSpace' ih =>
      have shorter : body.length ≤ depth := by
        rw [List.length_append, List.length_append] at room
        omega
      have closes : Closes rest := ends
      have read := ih shorter (closes.follows_append isSpace' isWord)
        ⟨closes.ends isSpace' true, fun _ => closes.ends isSpace' false⟩
      refine ⟨gap' ++ rest, ?_, dropWhile_run isSpace' closes.stops_isGap⟩
      rw [List.append_assoc, List.append_assoc,
        dropWhile_run isSpace ((spells.firm nofun).stops_isGap (gap' ++ rest))]
      exact read

/-! ## What is read is spelled -/

/-- What stands before the rest of a text spells a phrase, whose expression is folded to `value`. -/
def SpelledBefore (names : NameTable Nat) (phrase : Expr → Phrase) (text : List Char) (value : Expr)
    (rest : List Char) : Prop :=
  ∃ e front isWord, text = front ++ rest ∧ Spells names (phrase e) front isWord ∧
    Follows isWord rest ∧ e.folded = value

/-- What stands before the rest of a text spells a chain, of which the folded operands are joined to
`value`. -/
def ChainedBefore (names : NameTable Nat) (unit : Bool) (text : List Char) (value : Expr)
    (rest : List Char) : Prop :=
  ∃ es front isWord, text = front ++ rest ∧ Spells names (.chain unit es) front isWord ∧
    Follows isWord rest ∧ join unit (es.map folded) = value

/-- A rule reads only what spells a phrase. -/
def ReadsSpelled (names : NameTable Nat) (phrase : Expr → Phrase) (rule : Rule Expr) : Prop :=
  ∀ text value rest, rule.read? text = some (value, rest) →
    SpelledBefore names phrase text value rest

theorem exists_space (text : List Char) :
    ∃ gap, IsSpace gap ∧ text = gap ++ text.dropWhile isGap :=
  ⟨text.takeWhile isGap, fun _ => List.mem_takeWhile_imp, List.takeWhile_append_dropWhile.symm⟩

theorem Follows.of_append {isWord : Bool} {front rest : List Char}
    (follows : Follows isWord (front ++ rest)) (some : front ≠ []) : Follows isWord front := by
  obtain ⟨c, front, rfl⟩ := List.exists_cons_of_ne_nil some
  exact follows

section Read

variable {names : NameTable Nat} {operand : Rule Expr}

/-- Behind a sign there are spaces and what is spelled. -/
theorem Sign.Begins.exists_space {sign : Sign} {text left rest : List Char}
    (begins : sign.Begins text left) {phrase : Expr → Phrase} {value : Expr}
    (spelled : SpelledBefore names phrase (left.dropWhile isGap) value rest)
    (bare : ∀ e f, phrase e ≠ .padded f) :
    ∃ gap e body isWord, IsSpace gap ∧ text = sign.text.toList ++ (gap ++ (body ++ rest)) ∧
      Follows sign.isWord (gap ++ body) ∧ Spells names (phrase e) body isWord ∧
        Follows isWord rest ∧ e.folded = value := by
  obtain ⟨e, body, isWord, split, spells, follows, same⟩ := spelled
  obtain ⟨gap, isSpace, whole⟩ := Expr.exists_space left
  rw [split] at whole
  refine ⟨gap, e, body, isWord, isSpace, by rw [begins.append, whole], ?_, spells, follows, same⟩
  have behind := begins.follows
  rw [whole, ← List.append_assoc] at behind
  exact behind.of_append (List.append_ne_nil_of_right_ne_nil gap (spells.firm (bare e)).ne_nil)

/-- One more operand of a chain is read as it is spelled. -/
theorem ChainedBefore.more {unit : Bool} (link : ReadsSpelled names (.link unit) operand)
    {whole text rest : List Char} {before after : Expr}
    (chained : ChainedBefore names unit whole before text)
    (read : (step unit operand before).read? text = some (after, rest)) :
    ChainedBefore names unit whole after rest := by
  obtain ⟨es, front, isWord, same, spells, follows, joined⟩ := chained
  obtain ⟨sign, isSign, left, begins, next, readNext, rfl⟩ := read?_step_eq_some_iff.mp read
  obtain ⟨gap', e, back, isWord', isSpace', split, between, spells', follows', rfl⟩ :=
    begins.exists_space (link _ _ _ readNext) fun _ => Phrase.link_ne_padded
  obtain ⟨gap, isSpace, textSplit⟩ := exists_space text
  rw [split] at textSplit
  have some := sign_ne_nil (joiningSigns_subset unit isSign)
  have after : Follows isWord (gap ++ sign.text.toList) := by
    rw [textSplit, ← List.append_assoc] at follows
    exact follows.of_append (List.append_ne_nil_of_right_ne_nil gap some)
  refine ⟨es ++ [e], _, isWord', ?_, spells.more isSpace isSign isSpace' spells' after between,
    follows', ?_⟩
  · rw [same, textSplit]
    simp only [List.append_assoc]
  · rw [← joined, join_join isFolded_of_mem_map, List.map_append, List.map_singleton]

theorem readsSpelled_layer {unit : Bool}
    (link : ReadsSpelled names (.link unit) (linkRule unit operand)) :
    ReadsSpelled names (.layer unit) (layerRule unit operand) := by
  intro text value rest read
  rw [layerRule_eq, read?_bind_eq_some_iff] at read
  obtain ⟨first, between, readFirst, grown⟩ := read
  have start : ChainedBefore names unit text first between := by
    obtain ⟨e, front, isWord, same, spells, follows, rfl⟩ := link _ _ _ readFirst
    refine ⟨[e], front, isWord, same, spells.first, follows, ?_⟩
    rw [List.map_singleton, join_singleton (isFolded_folded e)]
  obtain ⟨es, front, isWord, same, spells, follows, joined⟩ :=
    invariant_of_read?_grow (fun _ _ _ _ => ChainedBefore.more link) start grown
  exact ⟨node unit es, front, isWord, same, spells.joined, follows, by rw [folded_node, joined]⟩

theorem readsSpelled_disjunction (reads : ReadsSpelled names .operand operand) :
    ReadsSpelled names (.layer false) (disjunction operand) := by
  have conjunction : ReadsSpelled names (.layer true) (layerRule true operand) :=
    readsSpelled_layer reads
  have link : ReadsSpelled names (.link false) (linkRule false operand) := by
    rw [linkRule_false]
    exact conjunction
  exact readsSpelled_layer link

/-- An expression is read with the spaces around it. -/
theorem exists_spells_padded (reads : ReadsSpelled names .operand operand)
    {text behind : List Char} {value : Expr}
    (read : (disjunction operand).read? (text.dropWhile isGap) = some (value, behind)) :
    ∃ e front isWord, text = front ++ behind.dropWhile isGap ∧
      Spells names (.padded e) front isWord ∧ e.folded = value := by
  obtain ⟨e, body, isWord, split, spells, follows, same⟩ :=
    readsSpelled_disjunction reads _ _ _ read
  obtain ⟨gap, isSpace, textSplit⟩ := exists_space text
  obtain ⟨gap', isSpace', behindSplit⟩ := exists_space behind
  refine ⟨e, _, isWord, ?_, .padded isSpace spells isSpace', same⟩
  rw [List.append_assoc, List.append_assoc, ← behindSplit, ← split, ← textSplit]

theorem readsSpelled_operandTo (depth : Nat) :
    ReadsSpelled names .operand (operandTo names depth) := by
  induction depth with
  | zero => exact nofun
  | succ depth ih =>
      intro text value rest read
      simp only [operandTo_succ, read?_firstOf_cons, read?_firstOf_nil, Option.or_none,
        Option.or_eq_some_iff] at read
      rcases read with found | ⟨_, found | ⟨_, found | ⟨_, found | ⟨noName, found⟩⟩⟩⟩
      · obtain ⟨sign, isSign, left, begins, body, read, rfl⟩ := read?_negated_eq_some_iff.mp found
        obtain ⟨gap, e, text, isWord, isSpace, same, between, spells, follows, rfl⟩ :=
          begins.exists_space (ih _ _ _ read) fun _ _ => nofun
        refine ⟨.not e, _, isWord, ?_, .negation isSign isSpace spells between, follows, rfl⟩
        rw [same, List.append_assoc, List.append_assoc]
      · obtain ⟨constant, left, read, made⟩ := read?_bind_eq_some_iff.mp found
        obtain ⟨rfl, rfl⟩ := Prod.mk.inj (Option.some.inj made)
        obtain ⟨sign, isSign, begins⟩ := read?_truthValue_eq_some_iff.mp read
        exact ⟨_, _, _, begins.append, .constant isSign, begins.follows, rfl⟩
      · obtain ⟨id, left, read, made⟩ := read?_bind_eq_some_iff.mp found
        obtain ⟨rfl, rfl⟩ := Prod.mk.inj (Option.some.inj made)
        obtain ⟨digits, same, number, stop⟩ := read?_numbered_eq_some_iff.mp read
        exact ⟨_, digits, true, same, .number number, fun _ => stop, rfl⟩
      · obtain ⟨id, left, read, made⟩ := read?_bind_eq_some_iff.mp found
        obtain ⟨rfl, rfl⟩ := Prod.mk.inj (Option.some.inj made)
        obtain ⟨name, same, known, isGroup | ⟨identifies, stop⟩⟩ := read?_named_eq_some_iff.mp read
        · exact ⟨_, name, false, same, .fullName isGroup known, follows_symbol left, rfl⟩
        · exact ⟨_, name, true, same, .identifier identifies known, fun _ => stop, rfl⟩
      · obtain ⟨inside, behind, rfl, read, closed⟩ := read?_parenthesised_eq_some_iff.mp found
        obtain ⟨e, body, isWord, rfl, spells, rfl⟩ := exists_spells_padded ih read
        rw [closed] at noName ⊢
        have same : '(' :: (body ++ ')' :: rest) = '(' :: body ++ [')'] ++ rest := by simp
        have unknown : names.get? (String.ofList ('(' :: body ++ [')'])) = none := by
          rw [Option.eq_none_iff_forall_ne_some]
          intro id known
          have read := read?_named_eq_some_iff.mpr
            ⟨_, same, known, .inl (spells.isGroup_of_padded)⟩
          rw [read?_bind_of_some read] at noName
          contradiction
        exact ⟨e, _, false, same, .group spells unknown, follows_symbol rest, rfl⟩

end Read

/-! ## Whole expressions -/

theorem read?_expression (names : NameTable Nat) (text : List Char) :
    (expression names).read? text =
      (disjunction (operandTo names (text.length + 1))).read? text := by
  rw [read?, expression, read?]
  rfl

/-- Reading an expression gives the folded expression that the text spells, and fails if it spells
none. -/
theorem parse_eq_ok_iff {names : NameTable Nat} {text : List Char} {value : Expr} :
    parse names text = .ok value ↔
      ∃ e isWord, Spells names (.layer false e) (Text.trim text) isWord ∧ e.folded = value := by
  rw [parse, readAll_eq_ok_iff, read?_expression]
  constructor
  · intro read
    obtain ⟨e, front, isWord, same, spells, _, folded⟩ :=
      readsSpelled_disjunction (readsSpelled_operandTo _) _ _ _ read
    rw [List.append_nil] at same
    exact ⟨e, isWord, same ▸ spells, folded⟩
  · rintro ⟨e, isWord, spells, rfl⟩
    have read := spells.isRead (Nat.le_succ _) (follows_nil isWord)
      ⟨Closes.nil.ends IsSpace.nil true, fun _ => Closes.nil.ends IsSpace.nil false⟩
    rw [List.append_nil] at read
    exact read

/-- Spaces around an expression are read with it. -/
theorem parse_of_padded {names : NameTable Nat} {text : List Char} {e : Expr} {isWord : Bool}
    (spells : Spells names (.padded e) text isWord) : parse names text = .ok e.folded := by
  cases spells with
  | padded isSpace spells isSpace' =>
      refine parse_eq_ok_iff.mpr ⟨e, isWord, ?_, rfl⟩
      rwa [(spells.firm nofun).trim_eq isSpace isSpace']

end Trivalent.Expr
