import Trivalent.Formula.Printer
import Trivalent.Proofs.Formula.Names

/-!
# Texts of formulas

The text of a formula tells the formula, unless a conjunction or disjunction in it has a single
operand, which is written like the operand alone.  An operand is followed by the end of the text, by a
closing parenthesis or by a sign that binds less tightly than it does, so a text that begins with the
writing of an operand is cut behind it in one way only.
-/

namespace Trivalent.Formula

open Grammar (run_unique)

/-! ## Formulas without single operands -/

/-- No conjunction or disjunction in a formula has a single operand. -/
inductive Plural : Formula → Prop where
  | atom (a : Atom) : Plural (.atom a)
  | not {body : Formula} : Plural body → Plural (.not body)
  | and {operands : List Formula} :
      operands.length ≠ 1 → (∀ f ∈ operands, Plural f) → Plural (.and operands)
  | or {operands : List Formula} :
      operands.length ≠ 1 → (∀ f ∈ operands, Plural f) → Plural (.or operands)

/-- What binds no more tightly than a negation: negations, and conjunctions and disjunctions that have
operands. -/
def Loose (f : Formula) : Prop :=
  f.precedence ≤ 30

/-- The conjuncts of a formula as it is written: the constant true is one itself. -/
def writtenConjuncts : Formula → List Formula
  | .and (f :: rest) => f :: rest
  | f => [f]

/-- The disjuncts of a formula as it is written: the constant false is one itself. -/
def writtenDisjuncts : Formula → List Formula
  | .or (f :: rest) => f :: rest
  | f => [f]

/-- The characters of an operand inside a formula that binds with strength `outer`. -/
def operandChars (outer : Nat) (f : Formula) : List Char :=
  (enclose outer f.precedence f.text).toList

theorem operandChars_of_le {outer : Nat} {f : Formula} (loose : f.precedence ≤ outer) :
    f.operandChars outer = '(' :: (f.text.toList ++ [')']) := by
  simp [operandChars, enclose, loose]

theorem operandChars_of_lt {outer : Nat} {f : Formula} (tight : outer < f.precedence) :
    f.operandChars outer = f.text.toList := by
  simp [operandChars, enclose, Nat.not_le.mpr tight]

theorem texts_eq_map (outer : Nat) (fs : List Formula) :
    (texts outer fs).map String.toList = fs.map (operandChars outer) := by
  induction fs with
  | nil => rfl
  | cons f rest ih => simp [texts, ih, operandChars]

/-- An operand of a disjunction is written as its conjuncts are. -/
theorem operandChars_disjunct (f : Formula) :
    f.operandChars 10 =
      [' ', '&', ' '].intercalate (f.writtenConjuncts.map (operandChars 20)) := by
  cases f with
  | atom a => simp [writtenConjuncts, operandChars, enclose, precedence]
  | not body => simp [writtenConjuncts, operandChars, enclose, precedence]
  | and operands =>
      cases operands with
      | nil => simp [writtenConjuncts, operandChars, enclose, precedence]
      | cons f rest =>
          rw [operandChars_of_lt (by simp [precedence]), writtenConjuncts, ← texts_eq_map]
          simp [text]
  | or operands =>
      cases operands with
      | nil => simp [writtenConjuncts, operandChars, enclose, precedence]
      | cons f rest => simp [writtenConjuncts, operandChars, enclose, precedence]

/-- A formula is written as its disjuncts are. -/
theorem toList_text (f : Formula) :
    f.text.toList = [' ', '|', ' '].intercalate (f.writtenDisjuncts.map (operandChars 10)) := by
  cases f with
  | atom a => simp [writtenDisjuncts, operandChars, enclose, precedence]
  | not body => simp [writtenDisjuncts, operandChars, enclose, precedence]
  | and operands =>
      cases operands with
      | nil => simp [writtenDisjuncts, operandChars, enclose, precedence]
      | cons f rest => simp [writtenDisjuncts, operandChars, enclose, precedence]
  | or operands =>
      cases operands with
      | nil => simp [writtenDisjuncts, operandChars, enclose, precedence]
      | cons f rest =>
          rw [writtenDisjuncts, ← texts_eq_map]
          simp [text]

/-- The formula of its written conjuncts or disjuncts. -/
def ofWritten (make : List Formula → Formula) : List Formula → Formula
  | [f] => f
  | fs => make fs

theorem ofWritten_writtenConjuncts {f : Formula} (plural : f.Plural) :
    ofWritten .and f.writtenConjuncts = f := by
  cases plural with
  | @and operands several _ =>
      rcases operands with _ | ⟨f, _ | ⟨g, rest⟩⟩
      · rfl
      · exact absurd rfl several
      · rfl
  | _ => rfl

theorem ofWritten_writtenDisjuncts {f : Formula} (plural : f.Plural) :
    ofWritten .or f.writtenDisjuncts = f := by
  cases plural with
  | @or operands several _ =>
      rcases operands with _ | ⟨f, _ | ⟨g, rest⟩⟩
      · rfl
      · exact absurd rfl several
      · rfl
  | _ => rfl

theorem Plural.of_mem_writtenConjuncts {f : Formula} (plural : f.Plural) :
    f.writtenConjuncts ≠ [] ∧ ∀ g ∈ f.writtenConjuncts, g.Plural := by
  cases plural with
  | @and operands several each =>
      cases operands with
      | nil => simpa [writtenConjuncts] using Plural.and several each
      | cons f rest => exact ⟨nofun, each⟩
  | atom a => simpa [writtenConjuncts] using Plural.atom a
  | not body => simpa [writtenConjuncts] using Plural.not body
  | or several each => simpa [writtenConjuncts] using Plural.or several each

theorem Plural.of_mem_writtenDisjuncts {f : Formula} (plural : f.Plural) :
    f.writtenDisjuncts ≠ [] ∧ ∀ g ∈ f.writtenDisjuncts, g.Plural := by
  cases plural with
  | @or operands several each =>
      cases operands with
      | nil => simpa [writtenDisjuncts] using Plural.or several each
      | cons f rest => exact ⟨nofun, each⟩
  | atom a => simpa [writtenDisjuncts] using Plural.atom a
  | not body => simpa [writtenDisjuncts] using Plural.not body
  | and several each => simpa [writtenDisjuncts] using Plural.and several each

/-! ## What is written without parentheses -/

/-- A character of the name of an atom or of a constant. -/
def isNameChar (c : Char) : Bool :=
  c.isAlphanum || c == '_' || c == '$'

theorem isNameChar_of_atom (a : Atom) : ∀ c ∈ a.text.toList, c ≠ '$' ∧ isNameChar c = true := by
  intro c member
  rw [Atom.toList_text] at member
  rcases mem_of_mem_intercalate member with separates | ⟨field, listed, inField⟩
  · rw [List.mem_singleton.mp separates]
    decide
  · have letter := Atom.isAlphanum_of_mem_fields field listed c inField
    refine ⟨?_, by simp [isNameChar, letter]⟩
    rintro rfl
    exact absurd letter (by decide)

theorem eq_of_not_loose {f : Formula} (bare : ¬f.Loose) :
    (∃ a, f = .atom a) ∨ ∃ value, f = constant value := by
  rcases f with a | body | (_ | ⟨f, rest⟩) | (_ | ⟨f, rest⟩)
  · exact .inl ⟨a, rfl⟩
  · exact absurd (Nat.le_refl 30) bare
  · exact .inr ⟨true, rfl⟩
  · exact absurd (by decide : 20 ≤ 30) bare
  · exact .inr ⟨false, rfl⟩
  · exact absurd (by decide : 10 ≤ 30) bare

theorem isNameChar_of_not_loose {f : Formula} (bare : ¬f.Loose) :
    f.text ≠ "" ∧ ∀ c ∈ f.text.toList, isNameChar c = true := by
  rcases eq_of_not_loose bare with ⟨a, rfl⟩ | ⟨value, rfl⟩
  · exact ⟨a.text_ne_empty, fun c member => (isNameChar_of_atom a c member).2⟩
  · have each : (constant value).text.toList.all isNameChar = true := by cases value <;> decide
    refine ⟨?_, by simpa only [List.all_eq_true] using each⟩
    cases value <;> decide

theorem text_inj_of_not_loose {f g : Formula} (bare : ¬f.Loose) (bareToo : ¬g.Loose)
    (same : f.text.toList = g.text.toList) : f = g := by
  have dollar (value : Bool) : '$' ∈ (constant value).text.toList := by
    cases value <;> decide
  rcases eq_of_not_loose bare with ⟨a, rfl⟩ | ⟨value, rfl⟩ <;>
    rcases eq_of_not_loose bareToo with ⟨b, rfl⟩ | ⟨other, rfl⟩
  · rw [Atom.text_inj (String.toList_inj.mp same)]
  · exact absurd rfl (isNameChar_of_atom a '$' (same ▸ dollar other)).1
  · exact absurd rfl (isNameChar_of_atom b '$' (same ▸ dollar value)).1
  · cases value <;> cases other
    case false.false | true.true => rfl
    all_goals exact absurd same (by decide)

/-! ## What follows operands -/

/-- What may follow an operand inside a formula that binds with strength `outer`: nothing, a closing
parenthesis, or a sign that binds no more tightly. -/
inductive Ends : Nat → List Char → Prop where
  | nil (outer : Nat) : Ends outer []
  | parenthesis (outer : Nat) (behind : List Char) : Ends outer (')' :: behind)
  | or {outer : Nat} (loose : 10 ≤ outer) (behind : List Char) :
      Ends outer ([' ', '|', ' '] ++ behind)
  | and {outer : Nat} (loose : 20 ≤ outer) (behind : List Char) :
      Ends outer ([' ', '&', ' '] ++ behind)

theorem Ends.mono {outer inner : Nat} {rest : List Char} (ends : Ends outer rest)
    (le : outer ≤ inner) : Ends inner rest := by
  cases ends with
  | nil => exact .nil inner
  | parenthesis behind => exact .parenthesis inner behind
  | or loose behind => exact .or (loose.trans le) behind
  | and loose behind => exact .and (loose.trans le) behind

theorem Ends.stops {outer : Nat} {rest : List Char} (ends : Ends outer rest) :
    Grammar.stops isNameChar rest = true := by
  cases ends <;> rfl

theorem not_ends_or (text : List Char) : ¬Ends 0 ([' ', '|', ' '] ++ text) := by
  generalize isRest : [' ', '|', ' '] ++ text = rest
  intro ends
  cases ends <;> simp_all

theorem not_ends_and (text : List Char) : ¬Ends 10 ([' ', '&', ' '] ++ text) := by
  generalize isRest : [' ', '&', ' '] ++ text = rest
  intro ends
  cases ends <;> simp_all

/-! ## Texts that are cut in one way -/

/-- A text that begins with the writing of a formula is cut behind it in one way only, in whatever
surroundings the formula stands. -/
structure Unambiguous (f : Formula) : Prop where
  negated : Cuts Plural (operandChars 30) (Ends 30) f
  conjunct : Cuts Plural (operandChars 20) (Ends 20) f
  disjunct : Cuts Plural (operandChars 10) (Ends 10) f
  whole : Cuts Plural (fun f => f.text.toList) (Ends 0) f

variable {f : Formula}

/-- A name does not begin like something else. -/
theorem operandChars_ne_cons (bare : ¬f.Loose) {c : Char} (other : isNameChar c = false)
    (rest text : List Char) : f.operandChars 30 ++ rest ≠ c :: text := by
  obtain ⟨some, names⟩ := isNameChar_of_not_loose bare
  rw [operandChars_of_lt (Nat.not_le.mp bare)]
  intro same
  cases chars : f.text.toList with
  | nil => exact some (String.toList_eq_nil_iff.mp chars)
  | cons d behind =>
      rw [chars] at same names
      obtain rfl : d = c := (List.cons.inj same).1
      rw [names d List.mem_cons_self] at other
      contradiction

theorem cuts_negated_of_not_loose (bare : ¬f.Loose) :
    Cuts Plural (operandChars 30) (Ends 30) f := by
  intro g rest left _ ends endsToo same
  by_cases loose : g.Loose
  · rw [operandChars_of_le loose] at same
    exact absurd same (operandChars_ne_cons bare rfl _ _)
  · rw [operandChars_of_lt (Nat.not_le.mp bare), operandChars_of_lt (Nat.not_le.mp loose)] at same
    obtain ⟨names, rfl⟩ := run_unique (isNameChar_of_not_loose bare).2 ends.stops
      (isNameChar_of_not_loose loose).2 endsToo.stops same
    exact ⟨text_inj_of_not_loose bare loose names, rfl⟩

/-- In parentheses a formula is followed by the closing one. -/
theorem cuts_negated_of_loose (loose : f.Loose)
    (whole : Cuts Plural (fun f => f.text.toList) (Ends 0) f) :
    Cuts Plural (operandChars 30) (Ends 30) f := by
  intro g rest left plural _ _ same
  rw [operandChars_of_le loose] at same
  by_cases looseToo : g.Loose
  · rw [operandChars_of_le looseToo] at same
    have inside : f.text.toList ++ ')' :: rest = g.text.toList ++ ')' :: left := by
      simpa using same
    obtain ⟨rfl, behind⟩ := whole g _ _ plural (.parenthesis 0 rest) (.parenthesis 0 left) inside
    exact ⟨rfl, (List.cons.inj behind).2⟩
  · exact absurd same.symm (operandChars_ne_cons looseToo rfl _ _)

theorem operandChars_not (body : Formula) :
    (Formula.not body).operandChars 20 = '~' :: body.operandChars 30 := by
  simp [operandChars, enclose, precedence, text]

/-- An operand of a conjunction that is no negation is written like one of a negation. -/
theorem operandChars_of_ne_not (distinct : ∀ body, f ≠ .not body) :
    f.operandChars 20 = f.operandChars 30 := by
  rcases f with a | body | (_ | ⟨f, rest⟩) | (_ | ⟨f, rest⟩)
  case not => exact absurd rfl (distinct body)
  all_goals simp [operandChars, enclose, precedence]

theorem operandChars_ne_negation (distinct : ∀ body, f ≠ .not body) (rest text : List Char) :
    f.operandChars 20 ++ rest ≠ '~' :: text := by
  rw [operandChars_of_ne_not distinct]
  by_cases loose : f.Loose
  · rw [operandChars_of_le loose]
    exact fun same => absurd (List.cons.inj same).1 (by decide)
  · exact operandChars_ne_cons loose rfl _ _

theorem cuts_conjunct_not {body : Formula} (cuts : Cuts Plural (operandChars 30) (Ends 30) body) :
    Cuts Plural (operandChars 20) (Ends 20) (.not body) := by
  intro g rest left plural ends endsToo same
  rw [operandChars_not, List.cons_append] at same
  by_cases negation : ∃ inner, g = .not inner
  · obtain ⟨inner, rfl⟩ := negation
    cases plural with
    | not plural =>
        rw [operandChars_not] at same
        obtain ⟨rfl, rfl⟩ := cuts inner rest left plural (ends.mono (by decide))
          (endsToo.mono (by decide)) (List.cons.inj same).2
        exact ⟨rfl, rfl⟩
  · rw [not_exists] at negation
    exact absurd same.symm (operandChars_ne_negation negation _ _)

theorem cuts_conjunct_of_ne_not (distinct : ∀ body, f ≠ .not body)
    (cuts : Cuts Plural (operandChars 30) (Ends 30) f) :
    Cuts Plural (operandChars 20) (Ends 20) f := by
  intro g rest left plural ends endsToo same
  by_cases negation : ∃ inner, g = .not inner
  · obtain ⟨inner, rfl⟩ := negation
    rw [operandChars_not inner] at same
    exact absurd same (operandChars_ne_negation distinct _ _)
  · rw [not_exists] at negation
    rw [operandChars_of_ne_not distinct, operandChars_of_ne_not negation] at same
    exact cuts g rest left plural (ends.mono (by decide)) (endsToo.mono (by decide)) same

theorem cuts_disjunct (plural : f.Plural)
    (each : ∀ g ∈ f.writtenConjuncts, Cuts Plural (operandChars 20) (Ends 20) g) :
    Cuts Plural (operandChars 10) (Ends 10) f := by
  intro g rest left pluralToo ends endsToo same
  rw [operandChars_disjunct f, operandChars_disjunct g] at same
  have parts := cuts_intercalate (Ends.and (Nat.le_refl 20))
    (fun _ ends => Ends.mono ends (by decide)) not_ends_and plural.of_mem_writtenConjuncts.1 each
    g.writtenConjuncts rest left pluralToo.of_mem_writtenConjuncts ends endsToo same
  refine ⟨?_, parts.2⟩
  rw [← ofWritten_writtenConjuncts plural, parts.1, ofWritten_writtenConjuncts pluralToo]

theorem cuts_whole (plural : f.Plural)
    (each : ∀ g ∈ f.writtenDisjuncts, Cuts Plural (operandChars 10) (Ends 10) g) :
    Cuts Plural (fun f => f.text.toList) (Ends 0) f := by
  intro g rest left pluralToo ends endsToo same
  dsimp only at same
  rw [toList_text f, toList_text g] at same
  have parts := cuts_intercalate (Ends.or (Nat.le_refl 10))
    (fun _ ends => Ends.mono ends (by decide)) not_ends_or plural.of_mem_writtenDisjuncts.1 each
    g.writtenDisjuncts rest left pluralToo.of_mem_writtenDisjuncts ends endsToo same
  refine ⟨?_, parts.2⟩
  rw [← ofWritten_writtenDisjuncts plural, parts.1, ofWritten_writtenDisjuncts pluralToo]

theorem unambiguous_of_not_loose (plural : f.Plural) (bare : ¬f.Loose) : f.Unambiguous := by
  have distinct : ∀ body, f ≠ .not body := by
    rintro body rfl
    exact bare (Nat.le_refl 30)
  have conjuncts : f.writtenConjuncts = [f] ∧ f.writtenDisjuncts = [f] := by
    rcases eq_of_not_loose bare with ⟨a, rfl⟩ | ⟨value, rfl⟩
    · exact ⟨rfl, rfl⟩
    · cases value <;> exact ⟨rfl, rfl⟩
  have negated := cuts_negated_of_not_loose bare
  have conjunct := cuts_conjunct_of_ne_not distinct negated
  have disjunct := cuts_disjunct plural (by simpa [conjuncts] using conjunct)
  exact ⟨negated, conjunct, disjunct, cuts_whole plural (by simpa [conjuncts] using disjunct)⟩

mutual

theorem unambiguous (f : Formula) (plural : f.Plural) : f.Unambiguous := by
  cases f with
  | atom a => exact unambiguous_of_not_loose plural (by decide : ¬1000 ≤ 30)
  | not body =>
      cases plural with
      | not pluralBody =>
          have conjunct := cuts_conjunct_not (unambiguous body pluralBody).negated
          have disjunct := cuts_disjunct (.not pluralBody) (by simpa [writtenConjuncts])
          have whole := cuts_whole (.not pluralBody) (by simpa [writtenDisjuncts])
          exact ⟨cuts_negated_of_loose (Nat.le_refl 30) whole, conjunct, disjunct, whole⟩
  | and operands =>
      cases operands with
      | nil => exact unambiguous_of_not_loose plural (by decide : ¬1000 ≤ 30)
      | cons f rest =>
          cases plural with
          | and several each =>
              have inside := unambiguous_of_mem (f :: rest) each
              have disjunct := cuts_disjunct (.and several each)
                fun g member => (inside g member).conjunct
              have whole := cuts_whole (.and several each) (by simpa [writtenDisjuncts])
              have loose : Loose (.and (f :: rest)) := (by decide : 20 ≤ 30)
              have distinct (body : Formula) : Formula.and (f :: rest) ≠ .not body := nofun
              have negated := cuts_negated_of_loose loose whole
              have conjunct := cuts_conjunct_of_ne_not distinct negated
              exact ⟨negated, conjunct, disjunct, whole⟩
  | or operands =>
      cases operands with
      | nil => exact unambiguous_of_not_loose plural (by decide : ¬1000 ≤ 30)
      | cons f rest =>
          cases plural with
          | or several each =>
              have inside := unambiguous_of_mem (f :: rest) each
              have whole := cuts_whole (.or several each)
                fun g member => (inside g member).disjunct
              have loose : Loose (.or (f :: rest)) := (by decide : 10 ≤ 30)
              have distinct (body : Formula) : Formula.or (f :: rest) ≠ .not body := nofun
              have negated := cuts_negated_of_loose loose whole
              have conjunct := cuts_conjunct_of_ne_not distinct negated
              exact ⟨negated, conjunct,
                cuts_disjunct (.or several each) (by simpa [writtenConjuncts]), whole⟩

theorem unambiguous_of_mem (fs : List Formula) (plural : ∀ f ∈ fs, f.Plural) :
    ∀ f ∈ fs, f.Unambiguous := by
  cases fs with
  | nil => exact nofun
  | cons f rest =>
      rw [List.forall_mem_cons] at plural
      exact List.forall_mem_cons.mpr
        ⟨unambiguous f plural.1, unambiguous_of_mem rest plural.2⟩

end

/-- The text of a formula without single operands tells the formula. -/
theorem Plural.text_inj {f g : Formula} (plural : f.Plural) (pluralToo : g.Plural)
    (same : f.text = g.text) : f = g := by
  have whole : f.text.toList ++ [] = g.text.toList ++ [] := by rw [same]
  exact ((unambiguous f plural).whole g [] [] pluralToo (.nil 0) (.nil 0) whole).1

end Trivalent.Formula
