import Kpl.Proofs.Expected.Loops
import Kpl.Proofs.Grammar.Expressions

namespace Kpl

namespace Analysis

namespace Offer

namespace Faces

variable {o : Offer} {kinds : Kind → Prop} {lost after : Prop} {α : Type}

theorem failNamed (cause : SemanticError.Cause) :
    o.Faces kinds lost after
      (do MonadExcept.throw (namedError cause (← get).lookahead) : Analysis α)
      (do MonadExcept.throw (namedError cause (← get).lookahead)) where
  first k _ seen _ := .error (Nat.lt_succ_self k) seen.pulled rfl
  second k _ seen _ := .error (Nat.lt_succ_self k) seen.pulled rfl
  both _ _ _ _ _ _ := .alone (.gone (gone_of_missed?_eq_none rfl))
  alone _ _ _ _ _ := .gone (gone_of_missed?_eq_none rfl)

theorem ended {ends : Kind → Bool} {cause : GrammarError.Cause}
    (missesNone : ∀ loc, missed? (grammarError cause loc) = none) (a : α) :
    o.Faces kinds (ends o.kind = false) (ends o.kind = false)
      (peek >>= fun kind => if ends kind then Pure.pure a else Analysis.failGrammar cause)
      (peek >>= fun kind => if ends kind then Pure.pure a else Analysis.failGrammar cause) := by
  apply bind_peek_stays (ends · = true) id eq_false_of_ne_true
  · exact fun kind fits => if_pos fits
  · exact fun kind fits => if_pos fits
  · exact pure a id
  · intro kind _ miss
    rw [if_neg miss]
    exact failGrammar missesNone

section Expressions

variable {inner : Analysis Ty}
  (inners : o.Faces anyKind True (o.kind.followsExpression = false) inner inner)

include inners

theorem selectorsOver (ty : Ty) :
    o.Faces kinds lost lost (selectorsOver inner ty) (selectorsOver inner ty) := by
  apply repeatScan rfl
  intro ty bracket
  apply bind_check fun _ ok => ok
  intro element
  apply ((inners.mono False.elim id).expecting .int).bind
  intro _
  exact bind_eat_apart (by nofun) rfl fun _ => pure element False.elim

theorem referenceOver :
    o.Faces anyKind True (o.kind ≠ .symbol .rParen) (referenceOver inner)
      (referenceOver inner) := by
  apply bind_peek
  intro kind _
  split
  · rename_i ident
    subst ident
    apply bind_scan nofun
    intro name
    apply bind_resolved
    intro id t
    split
    · exact throw rfl rfl
    · apply (selectorsOver inners _).bind
      intro ty
      apply bind_peek_stays fun kind => kind = .symbol .comma ∨ kind = .symbol .rParen
      · exact False.elim
      · intro apart closes
        exact apart (.inr closes)
      · rintro _ (rfl | rfl) <;> rfl
      · rintro _ (rfl | rfl) <;> rfl
      · exact pure ty fun lost => lost
      · intro kind _ other
        split
        · exact absurd (.inl rfl) other
        · exact absurd (.inr rfl) other
        · exact throw rfl rfl
  · exact failNamed _

theorem argumentOver (mode : PassMode) (ty : Ty) :
    o.Faces anyKind True (o.kind ≠ .symbol .rParen) (argumentOver inner mode ty)
      (argumentOver inner mode ty) := by
  cases mode with
  | value =>
    apply expecting
    exact inners.mono id fun apart => Kind.ne_of_accepts apart rfl
  | reference => exact (referenceOver inners).expecting ty

theorem argumentAtOver (signature : List (PassMode × Ty)) (i : Nat) :
    o.Faces anyKind True (o.kind ≠ .symbol .rParen) (argumentAtOver inner signature i)
      (argumentAtOver inner signature i) := by
  unfold Analysis.argumentAtOver
  split
  · exact argumentOver inners _ _
  · have fits : o.Faces anyKind True (o.kind ≠ .symbol .rParen) inner inner :=
      inners.mono id fun apart => Kind.ne_of_accepts apart rfl
    exact fits.bind fun _ => pure () id

theorem argumentListOver (signature : List (PassMode × Ty)) :
    o.Faces anyKind False (o.kind ≠ .symbol .rParen) (argumentListOver inner signature)
      (argumentListOver inner signature) := by
  apply bind_peek
  intro kind _
  split
  · rename_i closes
    exact pure 0 fun other => closes ▸ other.symm
  · have first := argumentAtOver inners signature 0
    apply (first.imp (fun _ _ => trivial) (fun _ => trivial) id).bind
    intro _
    apply repeatScan rfl
    intro i comma
    apply ((argumentAtOver inners signature i).mono False.elim id).bind
    intro _
    exact pure (i + 1) id

theorem argumentsOver (routine : ObjectId) (loc : Loc) :
    o.Faces anyKind False (o.kind.followsCall = false) (argumentsOver inner routine loc)
      (argumentsOver inner routine loc) := by
  apply bind_table
  intro t
  let bare : Analysis Unit := if (t.signature routine).length = 0 then Pure.pure () else
    MonadExcept.throw (semanticError (.arityMismatch (t.signature routine).length 0) loc)
  have call {kind : Kind} (ends : kind.followsCall = true) : kind ≠ .symbol .lParen :=
    (Kind.ne_of_accepts rfl ends).symm
  apply bind_peek_stays (Kind.followsCall · = true) False.elim eq_false_of_ne_true
    (p := bare) (q := bare)
  · intro kind ends
    rw [if_neg (call ends), if_pos ends]
  · intro kind ends
    rw [if_neg (call ends), if_pos ends]
  · dsimp only [bare]
    split
    · exact pure () id
    · exact throw rfl rfl
  · intro kind _ other
    split
    · rename_i opens
      subst opens
      apply bind_scan nofun
      intro _
      apply (argumentListOver inners _).bind
      intro count
      split
      · exact bind_eat (by nofun) (fun other => .inl other) fun _ => pure () False.elim
      · exact failSemantic _
    · exact failGrammar fun _ => rfl

theorem namedValueOver :
    o.Faces (· = .ident) True (o.kind.followsCall = false) (namedValueOver inner)
      (namedValueOver inner) := by
  apply bind_eat_known (by nofun)
  intro name
  apply bind_resolved
  intro id t
  split
  · exact pure _ False.elim
  · exact (selectorsOver inners _).mono False.elim False.elim
  · exact (selectorsOver inners _).mono False.elim False.elim
  · apply (argumentsOver inners id name.loc).bind
    intro _
    split
    · exact pure _ fun lost => lost
    · exact throw rfl rfl
  · exact throw rfl rfl

theorem factorOver {named : Analysis Ty}
    (names : o.Faces (· = .ident) True (o.kind.followsCall = false) named named) :
    o.Faces anyKind True (o.kind.followsCall = false) (factorOver named inner)
      (factorOver named inner) := by
  apply bind_peek
  intro kind _
  split
  · exact bind_scan nofun fun _ => pure _ False.elim
  · exact bind_scan nofun fun _ => pure _ False.elim
  · apply bind_scan nofun
    intro _
    apply (inners.mono False.elim id).bind
    intro ty
    exact bind_eat_apart (by nofun) rfl fun _ => pure ty False.elim
  · exact names.mono (fun _ => trivial) id
  · exact failGrammar fun _ => rfl

omit inners in
theorem operatorsOver {operator : Kind → Bool} {operand : Analysis Ty}
    (operands : o.Faces anyKind False after operand operand) (real : operator .eof = false)
    (apart : operator o.kind → after) (loc loc' : Loc) (ty : Ty) :
    o.Faces kinds after after (operatorsOver operator operand loc ty)
      (operatorsOver operator operand loc' ty) := by
  apply repeatWhile _ fun taken => .inl (apart taken)
  intro ty
  apply bind_check fun _ => Ty.requireInt_at
  intro _
  apply bind_scan fun taken => Kind.ne_of_accepts real taken rfl
  intro _
  apply (operands.expecting .int).bind
  intro _
  exact pure _ fun lost => lost

omit inners in
theorem termOver {factor : Analysis Ty}
    (factors : o.Faces anyKind True (o.kind.followsCall = false) factor factor) :
    o.Faces anyKind True (o.kind.followsTerm = false) (termOver factor) (termOver factor) := by
  apply bind_here
  intro loc loc'
  have wider (apart : o.kind.followsCall = false) : o.kind.followsTerm = false := by
    rw [Kind.followsCall, Bool.or_eq_false_iff] at apart
    exact apart.2
  have operands : o.Faces anyKind True (o.kind.followsTerm = false) factor factor :=
    factors.mono id wider
  apply operands.bind
  intro first
  have apart (product : o.kind.isMultiplicative) : o.kind.followsTerm = false := by
    apply eq_false_of_ne_true
    intro ends
    rw [Kind.not_multiplicative ends] at product
    cases product
  apply (operatorsOver (operands.mono False.elim id) rfl apart loc loc' first).bind
  intro ty
  exact ended (fun _ => rfl) ty

omit inners in
theorem sign : o.Faces kinds lost True sign sign := by
  apply bind_peek
  intro kind _
  split
  · rename_i additive
    have real : Kind.eof ≠ kind := Kind.ne_of_accepts rfl additive
    exact bind_scan real fun _ => pure true False.elim
  · exact pure false fun _ => trivial

omit inners in
theorem sumOver {term : Analysis Ty}
    (terms : o.Faces anyKind True (o.kind.followsTerm = false) term term) :
    o.Faces anyKind True (o.kind.followsExpression = false) (sumOver term) (sumOver term) := by
  have wider (apart : o.kind.followsTerm = false) : o.kind.followsExpression = false := by
    rw [Kind.followsTerm, Bool.or_eq_false_iff] at apart
    exact apart.2
  have operands : o.Faces anyKind True (o.kind.followsExpression = false) term term :=
    terms.mono id wider
  have apart (sum : o.kind.isAdditive) : o.kind.followsExpression = false := by
    apply eq_false_of_ne_true
    intro ends
    rw [Kind.not_additive ends] at sum
    cases sum
  apply sign.bind
  intro signed
  apply bind_here
  intro loc loc'
  apply operands.bind
  intro first
  apply bind_check
  · intro _ ok
    cases signed with
    | false => exact ok
    | true => exact Ty.requireInt_at ok
  · intro _
    apply (operatorsOver (operands.mono False.elim id) rfl apart loc loc' first).bind
    intro ty
    exact ended (fun _ => rfl) ty

theorem expressionOver :
    o.Faces anyKind True (o.kind.followsExpression = false) (expressionOver inner)
      (expressionOver inner) :=
  sumOver (termOver (factorOver inners (namedValueOver inners)))

end Expressions

theorem expression :
    o.Faces anyKind True (o.kind.followsExpression = false) expression expression :=
  nesting fun _ inners => expressionOver inners

section Statements

variable {value : Analysis Ty}
  (values : o.Faces anyKind True (o.kind.followsExpression = false) value value)

include values

theorem conditionOver :
    o.Faces anyKind False (o.kind.followsExpression = false) (conditionOver value)
      (conditionOver value) := by
  apply bind_here
  intro loc loc'
  apply (values.mono False.elim id).bind
  intro left
  apply bind_check fun _ => Ty.requireBasic_at
  intro _
  apply bind_peek
  intro kind _
  split
  · rename_i relational
    have real : Kind.eof ≠ kind := Kind.ne_of_accepts rfl relational
    apply bind_scan real
    intro _
    apply bind_here
    intro loc loc'
    apply (values.mono False.elim id).bind
    intro right
    apply bind_check fun _ => Ty.requireBasic_at
    intro _
    exact check (fun _ => Ty.requireSame_at) id
  · exact failSemantic _

theorem targetOver (opens : lost → o.kind ≠ .ident ∨ ∀ kind, kinds kind → kind = .ident) :
    o.Faces kinds lost False (targetOver value) (targetOver value) := by
  apply bind_eat (by nofun) opens
  intro name
  apply bind_resolved
  intro id t
  split
  · exact selectorsOver values _
  · exact selectorsOver values _
  · exact pure _ False.elim
  · exact throw rfl rfl

theorem targetsOver :
    o.Faces (· = .ident) True False (targetsOver (Analysis.targetOver value))
      (targetsOver (Analysis.targetOver value)) := by
  apply (targetOver values fun _ => .inr fun _ ident => ident).bind
  intro first
  apply repeatScan rfl
  intro tys _
  apply (targetOver values False.elim).bind
  intro ty
  exact pure (tys ++ [ty]) id

theorem sourceOver (targets : List Ty) (operator : Kind) (i : Nat) :
    o.Faces anyKind False (o.kind.followsExpression = false) (sourceOver value targets operator i)
      (sourceOver value targets operator i) := by
  apply bind_here
  intro loc loc'
  apply (values.mono False.elim id).bind
  intro ty
  split
  · apply bind_check fun _ => Ty.requireSame_at
    intro _
    by_cases plain : operator = .symbol .assign
    · simp only [if_pos plain]
      exact check (fun _ ok => ok) id
    · simp only [if_neg plain]
      exact check (fun _ => Ty.requireInt_at) id
  · exact pure () id

theorem sourcesOver (targets : List Ty) (operator : Kind) :
    o.Faces anyKind False (o.kind.followsExpression = false) (sourcesOver value targets operator)
      (sourcesOver value targets operator) := by
  apply (sourceOver values targets operator 0).bind
  intro _
  apply repeatScan rfl
  intro i _
  apply (sourceOver values targets operator i).bind
  intro _
  exact pure (i + 1) id

theorem assignmentOver :
    o.Faces (· = .ident) True (o.kind.followsExpression = false)
      (assignmentOver (Analysis.targetOver value) value)
      (assignmentOver (Analysis.targetOver value) value) := by
  unfold Analysis.assignmentOver
  simp only [← bind_eatOf]
  apply (targetsOver values).bind
  intro targets
  apply (eatOf rfl rfl False.elim).bind
  intro operator
  apply (sourcesOver values targets operator.kind).bind
  intro count
  split
  · exact pure () id
  · exact throw rfl rfl

theorem callStatementOver :
    o.Faces (· = .keyword .call) True (o.kind.followsCall = false) (callStatementOver value)
      (callStatementOver value) := by
  apply bind_eat_known (by nofun)
  intro _
  apply bind_eat (by nofun) False.elim
  intro name
  apply bind_table
  intro t
  apply bind_check fun _ ok => ok
  intro id
  exact argumentsOver values id name.loc

section Inner

variable {inner : Analysis Unit}
  (inners : o.Faces anyKind False (o.kind ≠ .keyword .end_) inner inner)

include inners

omit values in
theorem statementsOver :
    o.Faces anyKind False (o.kind ≠ .keyword .end_) (statementsOver inner)
      (statementsOver inner) := by
  apply inners.bind
  intro _
  apply repeatScan rfl
  intro _ _
  exact inners

omit values in
theorem groupOver
    (opens : lost → o.kind ≠ .keyword .begin_ ∨ ∀ kind, kinds kind → kind = .keyword .begin_) :
    o.Faces kinds lost False (groupOver inner) (groupOver inner) := by
  apply bind_eat (by nofun) opens
  intro _
  apply (statementsOver inners).bind
  intro _
  apply bind_eat (by nofun) fun other => .inl other
  intro _
  exact pure () False.elim

theorem ifOver :
    o.Faces (· = .keyword .if_) True (o.kind ≠ .keyword .end_) (ifOver value inner)
      (ifOver value inner) := by
  apply bind_eat_known (by nofun)
  intro _
  apply (conditionOver values).bind
  intro _
  apply bind_eat_apart (by nofun) rfl
  intro _
  apply inners.bind
  intro _
  apply bind_peek_stays (· ≠ .keyword .else_) id
  · intro other
    rw [not_not.mp other]
    nofun
  · exact fun kind other => if_neg other
  · exact fun kind other => if_neg other
  · exact pure () id
  · intro kind _ other
    have else_ : kind = .keyword .else_ := not_not.mp other
    subst else_
    exact bind_scan nofun fun _ => inners

theorem whileOver :
    o.Faces (· = .keyword .while_) True (o.kind ≠ .keyword .end_) (whileOver value inner)
      (whileOver value inner) := by
  apply bind_eat_known (by nofun)
  intro _
  apply (conditionOver values).bind
  intro _
  apply bind_eat_apart (by nofun) rfl
  intro _
  exact inners

theorem forOver :
    o.Faces (· = .keyword .for_) True (o.kind ≠ .keyword .end_) (forOver value inner)
      (forOver value inner) := by
  apply bind_eat_known (by nofun)
  intro _
  apply bind_eat (by nofun) False.elim
  intro name
  apply bind_resolved
  intro id t
  split
  · exact throw rfl rfl
  · have bound (ty : Ty) := (values.mono False.elim fun apart => apart).expecting ty
    apply bind_check fun _ ok => ok
    intro _
    apply bind_eat (by nofun) False.elim
    intro _
    apply (bound _).bind
    intro _
    apply bind_eat_apart (by nofun) rfl
    intro _
    apply (bound _).bind
    intro _
    apply bind_eat_apart (by nofun) rfl
    intro _
    exact inners

theorem statementOver {assign : Analysis Unit}
    (assigns : o.Faces (· = .ident) True (o.kind.followsExpression = false) assign assign) :
    o.Faces anyKind False (o.kind ≠ .keyword .end_) (statementOver assign value inner)
      (statementOver assign value inner) := by
  apply bind_peek_stays
    fun kind => kind = .symbol .semicolon ∨ kind = .keyword .end_ ∨ kind = .keyword .else_
  · exact False.elim
  · intro other same
    exact other (.inr (.inl same))
  · rintro _ (rfl | rfl | rfl) <;> rfl
  · rintro _ (rfl | rfl | rfl) <;> rfl
  · exact pure () id
  · intro kind _ other
    split
    · apply assigns.mono fun _ => trivial
      exact fun apart => Kind.ne_of_accepts apart rfl
    · apply (callStatementOver values).mono fun _ => trivial
      exact fun apart => Kind.ne_of_accepts apart rfl
    · exact (groupOver inners fun _ => .inr fun _ key => key).mono id False.elim
    · exact (ifOver values inners).mono (fun _ => trivial) id
    · exact (whileOver values inners).mono (fun _ => trivial) id
    · exact (forOver values inners).mono (fun _ => trivial) id
    · exact absurd (.inl rfl) other
    · exact absurd (.inr (.inl rfl)) other
    · exact absurd (.inr (.inr rfl)) other
    · exact failGrammar fun _ => rfl

end Inner

end Statements

theorem statement : o.Faces anyKind False (o.kind ≠ .keyword .end_) statement statement :=
  nesting fun _ inners => statementOver expression inners (assignmentOver expression)

end Faces

end Offer

end Analysis

end Kpl
