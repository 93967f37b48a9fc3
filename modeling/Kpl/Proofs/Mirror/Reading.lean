import Kpl.Analysis.Statement
import Kpl.Proofs.Mirror.Basic
import Mathlib.Data.List.Forall2

namespace Kpl

namespace Analysis

namespace Mirror

variable {m : Mirror} {α β γ δ : Type}

/-- Meanings that an analysis cannot tell apart but by the objects they name. -/
inductive Alike (m : Mirror) : Meaning → Meaning → Prop where
  | program (scope scope' : ScopeId) : Alike m (.program scope) (.program scope')
  | const (value : Constant) : Alike m (.const value) (.const value)
  | type (actual : Ty) : Alike m (.type actual) (.type actual)
  | var (ty : Ty) : Alike m (.var ty) (.var ty)
  | function {params params' : List ObjectId} (returns : Option Ty) (scope scope' : ScopeId) :
    List.Forall₂ m.object params params' →
      Alike m (.function params returns scope) (.function params' returns scope')
  | procedure {params params' : List ObjectId} (scope scope' : ScopeId) :
    List.Forall₂ m.object params params' →
      Alike m (.procedure params scope) (.procedure params' scope')
  | param (mode : PassMode) (ty : Ty) {routine routine' : ObjectId} :
    m.object routine routine' → Alike m (.param mode ty routine) (.param mode ty routine')

structure Reading (m : Mirror) : Prop extends m.Tokens where
  lookup {s t : State} {a b : Token} : m.state s t → m.token a b → a.kind = .ident →
    Option.Rel m.object (s.table.lookup a.lexeme) (t.table.lookup b.lexeme)
  meaning {s t : State} {i j : ObjectId} : m.state s t → m.object i j →
    Option.Rel m.Alike (s.table.meaning? i) (t.table.meaning? j)
  currentOwner {s t : State} : m.state s t →
    Option.Rel m.owner s.table.currentOwner? t.table.currentOwner?
  unique {i i' j j' : ObjectId} : m.object i j → m.object i' j' → (i = i' ↔ j = j')

theorem rel_refl {R : α → α → Prop} (refl : ∀ a, R a a) (x : Option α) : Option.Rel R x x := by
  cases x with
  | none => exact .none
  | some a => exact .some (refl a)

namespace Alike

variable {x y : Meaning}

theorem refl (same : ∀ i, m.object i i) (meaning : Meaning) : m.Alike meaning meaning := by
  have params (ids : List ObjectId) : List.Forall₂ m.object ids ids :=
    List.forall₂_same.mpr fun id _ => same id
  cases meaning with
  | program scope => exact .program scope scope
  | const value => exact .const value
  | type actual => exact .type actual
  | var ty => exact .var ty
  | function ids returns scope => exact .function returns scope scope (params ids)
  | procedure ids scope => exact .procedure scope scope (params ids)
  | param mode ty routine => exact .param mode ty (same routine)

theorem storage (h : m.Alike x y) : x.storage? = y.storage? := by
  cases h <;> rfl

theorem params (h : m.Alike x y) : List.Forall₂ m.object x.params y.params := by
  cases h
  case function params => exact params
  case procedure params => exact params
  all_goals exact .nil

end Alike

namespace Reading

variable (h : m.Reading) {A : α → β → Prop} {B : γ → δ → Prop}

include h

theorem resolve {s t : State} {a b : Token} (state : m.state s t) (related : m.token a b)
    (name : a.kind = .ident) :
    m.Checks m.object (s.table.resolve a.lexeme a.loc) (t.table.resolve b.lexeme b.loc) := by
  have found := h.lookup state related name
  unfold Table.resolve
  generalize s.table.lookup a.lexeme = x at found
  generalize t.table.lookup b.lexeme = y at found
  cases found with
  | some both => exact .ok both
  | none => exact h.checkNamed _ related

theorem resolveAs {s t : State} {a b : Token} {undeclared wrongClass : SemanticError.Cause}
    {accepts : Meaning → Bool} (sorts : ∀ x y, m.Alike x y → accepts x = accepts y)
    (state : m.state s t) (related : m.token a b) (name : a.kind = .ident) :
    m.Checks m.object (s.table.resolveAs undeclared wrongClass accepts a.lexeme a.loc)
      (t.table.resolveAs undeclared wrongClass accepts b.lexeme b.loc) := by
  have found := h.lookup state related name
  unfold Table.resolveAs
  generalize s.table.lookup a.lexeme = x at found
  generalize t.table.lookup b.lexeme = y at found
  cases found with
  | none => exact h.checkNamed _ related
  | @some i j both =>
    have meant := h.meaning state both
    simp only
    generalize s.table.meaning? i = u at meant
    generalize t.table.meaning? j = v at meant
    cases meant with
    | none => exact h.checkNamed _ related
    | some alike =>
      simp only [Option.map_some, Option.getD_some, sorts _ _ alike]
      split
      · exact .ok both
      · exact h.checkNamed _ related

theorem resolveTarget {s t : State} {a b : Token} (state : m.state s t) (related : m.token a b)
    (name : a.kind = .ident) :
    m.Checks m.object (s.table.resolveTarget a.lexeme a.loc)
      (t.table.resolveTarget b.lexeme b.loc) := by
  have found := h.resolve state related name
  unfold Table.resolveTarget
  generalize s.table.resolve a.lexeme a.loc = x at found
  generalize t.table.resolve b.lexeme b.loc = y at found
  cases found with
  | error both => exact .error both
  | @ok i j both =>
    have meant := h.meaning state both
    have own : s.table.currentOwner? = some i ↔ t.table.currentOwner? = some j := by
      have owners := h.currentOwner state
      generalize s.table.currentOwner? = u at owners
      generalize t.table.currentOwner? = v at owners
      cases owners with
      | none => simp
      | some owner => simpa using h.unique (m.owned owner) both
    simp only [bind, Except.bind]
    generalize s.table.meaning? i = u at meant
    generalize t.table.meaning? j = v at meant
    cases meant with
    | none => exact h.checkNamed _ related
    | some alike =>
      cases alike
      case var => exact .ok both
      case param => exact .ok both
      case function =>
        simp only [own]
        split
        · exact .ok both
        · exact h.checkNamed _ related
      all_goals exact h.checkNamed _ related

theorem signature {s t : State} {i j : ObjectId} (state : m.state s t) (both : m.object i j) :
    s.table.signature i = t.table.signature j := by
  have params : List.Forall₂ m.object (s.table.params i) (t.table.params j) := by
    have meant := h.meaning state both
    unfold Table.params
    generalize s.table.meaning? i = u at meant
    generalize t.table.meaning? j = v at meant
    cases meant with
    | none => exact .nil
    | some alike => exact alike.params
  unfold Table.signature
  generalize s.table.params i = ps at params
  generalize t.table.params j = qs at params
  induction params with
  | nil => rfl
  | @cons p q ps qs param _ ih =>
    have meant := h.meaning state param
    rw [List.filterMap_cons, List.filterMap_cons, ih]
    generalize s.table.meaning? p = u at meant
    generalize t.table.meaning? q = v at meant
    cases meant with
    | none => rfl
    | some alike => cases alike <;> rfl

theorem storage {s t : State} {i j : ObjectId} (state : m.state s t) (both : m.object i j) :
    s.table.meaning? i >>= (·.storage?) = t.table.meaning? j >>= (·.storage?) := by
  have meant := h.meaning state both
  generalize s.table.meaning? i = u at meant
  generalize t.table.meaning? j = v at meant
  cases meant with
  | none => rfl
  | some alike => exact alike.storage

section Expressions

variable {inner inner' : Analysis Ty} (below : m.Mirrors Eq inner inner')

include below

theorem selectorsOver (ty : Ty) :
    m.Mirrors Eq (selectorsOver inner ty) (selectorsOver inner' ty) := by
  apply h.repeatScanning rfl _ rfl
  rintro ty _ bracket bracket' rfl place
  apply Mirrors.bind_check (h.requireArray (h.place place) ty)
  intro element _ same
  cases same
  apply (h.expecting below .int).bind
  intro _ _ _
  refine h.bind_eat (by nofun) ?_
  intro _ _ _ _
  exact Mirrors.pure rfl

theorem referenceOver : m.Mirrors Eq (referenceOver inner) (referenceOver inner') := by
  apply h.bind_peek
  intro k s t state known
  split
  · rename_i same
    refine h.bind_scan (by nofun) state (known.trans same) ?_
    intro name name' related ident
    apply Mirrors.bind_resolved fun state => h.resolve state related ident
    intro id id' s t both state
    rw [h.storage state both]
    cases t.table.meaning? id' >>= (·.storage?) with
    | none => exact Mirrors.throw (h.named _ related)
    | some ty =>
      apply (h.selectorsOver below ty).bind
      intro ty _ same
      cases same
      apply h.bind_peek
      intro k s t state _
      split
      · exact Mirrors.pure rfl state
      · exact Mirrors.pure rfl state
      · exact Mirrors.throw (h.named _ related) state
  · have failed := h.named .invalidLValue (h.lookahead state)
    exact .error failed (m.failing state)

theorem argumentOver (mode : PassMode) (ty : Ty) :
    m.Mirrors (fun _ _ => True) (argumentOver inner mode ty) (argumentOver inner' mode ty) := by
  apply h.expecting
  cases mode with
  | value => exact below
  | reference => exact h.referenceOver below

theorem argumentAtOver (signature : List (PassMode × Ty)) (i : Nat) :
    m.Mirrors (fun _ _ => True) (argumentAtOver inner signature i)
      (argumentAtOver inner' signature i) := by
  unfold Analysis.argumentAtOver
  split
  · exact h.argumentOver below _ _
  · apply below.bind
    intro _ _ _
    exact Mirrors.pure trivial

theorem argumentListOver (signature : List (PassMode × Ty)) :
    m.Mirrors Eq (argumentListOver inner signature) (argumentListOver inner' signature) := by
  apply h.bind_peek
  intro k s t state _
  split
  · exact Mirrors.pure rfl state
  · refine Agree.bind (h.argumentAtOver below signature 0 state) ?_
    intro _ _ _
    apply h.repeatScanning rfl _ rfl
    rintro i _ _ _ rfl _
    apply (h.argumentAtOver below signature i).bind
    intro _ _ _
    exact Mirrors.pure rfl

theorem argumentsOver {id id' : ObjectId} {l l' : Loc} (both : m.object id id')
    (place : m.loc l l') :
    m.Mirrors (fun _ _ => True) (argumentsOver inner id l) (argumentsOver inner' id' l') := by
  apply Mirrors.bind_table
  intro s t state
  rw [h.signature state both]
  apply h.bind_peek
  intro next s t state known
  split
  · rename_i same
    refine h.bind_scan (by nofun) state (known.trans same) ?_
    intro _ _ _ _
    apply (h.argumentListOver below _).bind
    intro count _ same
    cases same
    apply Mirrors.ite
    · intro _
      refine h.bind_eat (by nofun) ?_
      intro _ _ _ _
      exact Mirrors.pure trivial
    · intro _
      exact h.failSemantic _
  · split
    · split
      · exact Mirrors.pure trivial state
      · exact Mirrors.throw (h.semantic _ place) state
    · exact h.failGrammar _ state

theorem namedValueOver : m.Mirrors Eq (namedValueOver inner) (namedValueOver inner') := by
  refine h.bind_eat (by nofun) ?_
  intro name name' related ident
  apply Mirrors.bind_resolved fun state => h.resolve state related ident
  intro id id' s t both state
  have meant := h.meaning state both
  generalize s.table.meaning? id = x at meant
  generalize t.table.meaning? id' = y at meant
  have failed : m.Mirrors Eq (throw (namedError .invalidFactor name) : Analysis Ty)
      (throw (namedError .invalidFactor name')) := Mirrors.throw (h.named _ related)
  cases meant with
  | none => exact failed
  | some alike =>
    cases alike
    case const => exact Mirrors.pure rfl
    case var => exact h.selectorsOver below _
    case param => exact h.selectorsOver below _
    case function returns _ _ _ =>
      apply (h.argumentsOver below both (h.place related)).bind
      intro _ _ _
      cases returns with
      | none => exact failed
      | some ty => exact Mirrors.pure rfl
    all_goals exact failed

omit below in
theorem operatorsOver {operand operand' : Analysis Ty} (both : m.Mirrors Eq operand operand')
    {operator : Kind → Bool} (stops : operator .eof = false) {l l' : Loc} (place : m.loc l l')
    (ty : Ty) : m.Mirrors Eq (operatorsOver operator operand l ty) (operatorsOver operator operand' l' ty) := by
  apply h.repeatWhile _ rfl
  rintro ty _ s t rfl state again
  have real := (Kind.ne_of_accepts stops again).symm
  refine Agree.bind_check (h.requireInt place ty) state fun _ _ _ => ?_
  refine h.bind_scan real state rfl ?_
  intro _ _ _ _
  apply (h.expecting both .int).bind
  intro _ _ _
  exact Mirrors.pure rfl

theorem factorOver {named named' : Analysis Ty} (names : m.Mirrors Eq named named') :
    m.Mirrors Eq (factorOver named inner) (factorOver named' inner') := by
  apply h.bind_peek
  intro k s t state known
  split
  · refine h.bind_scan (by nofun) state known ?_
    intro _ _ _ _
    exact Mirrors.pure rfl
  · refine h.bind_scan (by nofun) state known ?_
    intro _ _ _ _
    exact Mirrors.pure rfl
  · refine h.bind_scan (by nofun) state known ?_
    intro _ _ _ _
    apply below.bind
    intro ty _ same
    cases same
    refine h.bind_eat (by nofun) ?_
    intro _ _ _ _
    exact Mirrors.pure rfl
  · exact names state
  · exact h.failGrammar _ state

omit below in
theorem termOver {factor factor' : Analysis Ty} (factors : m.Mirrors Eq factor factor') :
    m.Mirrors Eq (termOver factor) (termOver factor') := by
  apply h.bind_here
  intro l l' place
  apply factors.bind
  intro first _ same
  cases same
  apply (h.operatorsOver factors rfl place first).bind
  intro ty _ same
  cases same
  apply h.bind_peek
  intro k s t state _
  split
  · exact Mirrors.pure rfl state
  · exact h.failGrammar _ state

omit below in
theorem sign : m.Mirrors Eq sign sign := by
  apply h.bind_peek
  intro k s t state known
  split
  · rename_i additive
    refine h.bind_scan ?_ state known ?_
    · rintro rfl
      cases additive
    · intro _ _ _ _
      exact Mirrors.pure rfl
  · exact Mirrors.pure rfl state

omit below in
theorem sumOver {term term' : Analysis Ty} (terms : m.Mirrors Eq term term') :
    m.Mirrors Eq (sumOver term) (sumOver term') := by
  apply h.sign.bind
  intro signed _ same
  cases same
  apply h.bind_here
  intro l l' place
  apply terms.bind
  intro first _ same
  cases same
  have checked : m.Checks (fun _ _ => True) (if signed then first.requireInt l else .ok ())
      (if signed then first.requireInt l' else .ok ()) := by
    cases signed with
    | false => exact .ok trivial
    | true => exact h.requireInt place first
  apply Mirrors.bind_check checked
  intro _ _ _
  apply (h.operatorsOver terms rfl place first).bind
  intro ty _ same
  cases same
  apply h.bind_peek
  intro k s t state _
  split
  · exact Mirrors.pure rfl state
  · exact h.failGrammar _ state

theorem expressionOver : m.Mirrors Eq (expressionOver inner) (expressionOver inner') :=
  h.sumOver (h.termOver (h.factorOver below (h.namedValueOver below)))

end Expressions

theorem expression : m.Mirrors Eq expression expression :=
  h.nesting fun _ _ => h.expressionOver

section Statements

variable {value value' : Analysis Ty} (values : m.Mirrors Eq value value')

include values

theorem conditionOver :
    m.Mirrors (fun _ _ => True) (conditionOver value) (conditionOver value') := by
  apply h.bind_here
  intro l l' place
  apply values.bind
  intro left _ same
  cases same
  apply Mirrors.bind_check (h.requireBasic place left)
  intro _ _ _
  apply h.bind_peek
  intro k s t state known
  split
  · rename_i relational
    refine h.bind_scan ?_ state known ?_
    · rintro rfl
      cases relational
    · intro _ _ _ _
      apply h.bind_here
      intro l l' place
      apply values.bind
      intro right _ same
      cases same
      apply Mirrors.bind_check (h.requireBasic place right)
      intro _ _ _
      exact Mirrors.check (h.requireSame place left right)
  · exact h.failSemantic _ state

theorem targetOver : m.Mirrors Eq (targetOver value) (targetOver value') := by
  refine h.bind_eat (by nofun) ?_
  intro name name' related ident
  apply Mirrors.bind_resolved fun state => h.resolveTarget state related ident
  intro id id' s t both state
  have meant := h.meaning state both
  generalize s.table.meaning? id = x at meant
  generalize t.table.meaning? id' = y at meant
  have failed : m.Mirrors Eq (throw (namedError .invalidLValue name) : Analysis Ty)
      (throw (namedError .invalidLValue name')) := Mirrors.throw (h.named _ related)
  cases meant with
  | none => exact failed
  | some alike =>
    cases alike
    case var => exact h.selectorsOver values _
    case param => exact h.selectorsOver values _
    case function returns _ _ _ =>
      cases returns with
      | none => exact failed
      | some ty => exact Mirrors.pure rfl
    all_goals exact failed

omit values in
theorem targetsOver {target target' : Analysis Ty} (targets : m.Mirrors Eq target target') :
    m.Mirrors Eq (targetsOver target) (targetsOver target') := by
  apply targets.bind
  intro first _ same
  cases same
  apply h.repeatScanning rfl _ rfl
  rintro tys _ _ _ rfl _
  apply targets.bind
  intro ty _ same
  cases same
  exact Mirrors.pure rfl

theorem sourceOver (targets : List Ty) (operator : Kind) (i : Nat) :
    m.Mirrors (fun _ _ => True) (sourceOver value targets operator i)
      (sourceOver value' targets operator i) := by
  apply h.bind_here
  intro l l' place
  apply values.bind
  intro ty _ same
  cases same
  split
  · rename_i target _
    apply Mirrors.bind_check (h.requireSame place target ty)
    intro _ _ _
    apply Mirrors.check
    split
    · exact .ok trivial
    · exact h.requireInt place target
  · exact Mirrors.pure trivial

theorem sourcesOver (targets : List Ty) (operator : Kind) :
    m.Mirrors Eq (sourcesOver value targets operator) (sourcesOver value' targets operator) := by
  apply (h.sourceOver values targets operator 0).bind
  intro _ _ _
  apply h.repeatScanning rfl _ rfl
  rintro i _ _ _ rfl _
  apply (h.sourceOver values targets operator i).bind
  intro _ _ _
  exact Mirrors.pure rfl

theorem assignmentOver {target target' : Analysis Ty} (targets : m.Mirrors Eq target target') :
    m.Mirrors (fun _ _ => True) (assignmentOver target value) (assignmentOver target' value') := by
  apply (h.targetsOver targets).bind
  intro tys _ same
  cases same
  apply h.bind_peek
  intro k s t state known
  split
  · rename_i assigns
    refine h.bind_scan ?_ state known ?_
    · rintro rfl
      cases assigns
    · intro operator operator' related _
      rw [h.kind related]
      apply (h.sourcesOver values tys _).bind
      intro count _ same
      cases same
      apply Mirrors.ite
      · intro _
        exact Mirrors.pure trivial
      · intro _
        exact Mirrors.throw (h.semantic _ (h.place related))
  · exact h.failMissing _ state

theorem callStatementOver :
    m.Mirrors (fun _ _ => True) (callStatementOver value) (callStatementOver value') := by
  refine h.bind_eat (by nofun) ?_
  intro _ _ _ _
  refine h.bind_eat (by nofun) ?_
  intro name name' related ident
  apply Mirrors.bind_table
  intro s t state
  have resolved : m.Checks m.object (s.table.resolveProcedure name.lexeme name.loc)
      (t.table.resolveProcedure name'.lexeme name'.loc) := by
    apply h.resolveAs _ state related ident
    intro x y alike
    cases alike <;> rfl
  apply Mirrors.bind_check resolved
  intro id id' both
  exact h.argumentsOver values both (h.place related)

variable {inner inner' : Analysis Unit} (below : m.Mirrors (fun _ _ => True) inner inner')

include below

omit values in
theorem statementsOver :
    m.Mirrors (fun _ _ => True) (statementsOver inner) (statementsOver inner') := by
  apply below.bind
  intro _ _ _
  apply h.repeatScanning rfl _ trivial
  intro _ _ _ _ _ _
  exact below

omit values in
theorem groupOver : m.Mirrors (fun _ _ => True) (groupOver inner) (groupOver inner') := by
  refine h.bind_eat (by nofun) ?_
  intro _ _ _ _
  apply (h.statementsOver below).bind
  intro _ _ _
  refine h.bind_eat (by nofun) ?_
  intro _ _ _ _
  exact Mirrors.pure trivial

theorem ifOver : m.Mirrors (fun _ _ => True) (ifOver value inner) (ifOver value' inner') := by
  refine h.bind_eat (by nofun) ?_
  intro _ _ _ _
  apply (h.conditionOver values).bind
  intro _ _ _
  refine h.bind_eat (by nofun) ?_
  intro _ _ _ _
  apply below.bind
  intro _ _ _
  apply h.bind_peek
  intro k s t state known
  split
  · rename_i same
    refine h.bind_scan (by nofun) state (known.trans same) ?_
    intro _ _ _ _
    exact below
  · exact Mirrors.pure trivial state

theorem whileOver :
    m.Mirrors (fun _ _ => True) (whileOver value inner) (whileOver value' inner') := by
  refine h.bind_eat (by nofun) ?_
  intro _ _ _ _
  apply (h.conditionOver values).bind
  intro _ _ _
  refine h.bind_eat (by nofun) ?_
  intro _ _ _ _
  exact below

theorem forOver : m.Mirrors (fun _ _ => True) (forOver value inner) (forOver value' inner') := by
  refine h.bind_eat (by nofun) ?_
  intro _ _ _ _
  refine h.bind_eat (by nofun) ?_
  intro name name' related ident
  have resolved {s t : State} (state : m.state s t) :
      m.Checks m.object (s.table.resolveVariable name.lexeme name.loc)
        (t.table.resolveVariable name'.lexeme name'.loc) := by
    apply h.resolveAs _ state related ident
    intro x y alike
    cases alike <;> rfl
  apply Mirrors.bind_resolved resolved
  intro id id' s t both state
  rw [h.storage state both]
  cases t.table.meaning? id' >>= (·.storage?) with
  | none => exact Mirrors.throw (h.named _ related)
  | some ty =>
    apply Mirrors.bind_check (h.requireInt (h.place related) ty)
    intro _ _ _
    refine h.bind_eat (by nofun) ?_
    intro _ _ _ _
    apply (h.expecting values ty).bind
    intro _ _ _
    refine h.bind_eat (by nofun) ?_
    intro _ _ _ _
    apply (h.expecting values ty).bind
    intro _ _ _
    refine h.bind_eat (by nofun) ?_
    intro _ _ _ _
    exact below

theorem statementOver {assign assign' : Analysis Unit}
    (assigns : m.Mirrors (fun _ _ => True) assign assign') :
    m.Mirrors (fun _ _ => True) (statementOver assign value inner)
      (statementOver assign' value' inner') := by
  apply h.bind_peek
  intro k s t state _
  split
  · exact assigns state
  · exact h.callStatementOver values state
  · exact h.groupOver below state
  · exact h.ifOver values below state
  · exact h.whileOver values below state
  · exact h.forOver values below state
  · exact Mirrors.pure trivial state
  · exact Mirrors.pure trivial state
  · exact Mirrors.pure trivial state
  · exact h.failGrammar _ state

end Statements

theorem assignment : m.Mirrors (fun _ _ => True) assignment assignment :=
  h.assignmentOver h.expression (h.targetOver h.expression)

theorem statement : m.Mirrors (fun _ _ => True) statement statement :=
  h.nesting fun _ _ below => h.statementOver h.expression below h.assignment

end Reading

end Mirror

end Analysis

end Kpl
