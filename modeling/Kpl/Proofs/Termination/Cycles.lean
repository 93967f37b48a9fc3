import Kpl.Proofs.Termination.Declaring

namespace Kpl

namespace Analysis

variable {α β γ : Type}

def round (more : Kind → Bool) (step further : β → Analysis β) (b : β) : Analysis β := do
  if more (← peek) then further (← step b) else return b

/-- The analysis calls itself through `body`. In front of less than `n` it makes fewer than `n` calls
    inside each other, so that a further one does not take place, whatever it would do. -/
def Recursion (measure : State → Nat) (body : Analysis α → Analysis α) (p : Analysis α) : Prop :=
  ∀ (n : Nat) (further : Analysis α) (s : State), measure s < n → body^[n] further s = p s

/-- The analysis runs a loop inside `around`. In front of fewer than `n` tokens the loop makes fewer
    than `n` rounds, so that a further one does not take place, whatever it would do. -/
structure Loop (more : Kind → Bool) (step : β → Analysis β)
    (around : (β → Analysis β) → Analysis γ) (p : Analysis γ) : Prop where
  shape : p = around (repeatWhile more · step)
  ends (n : Nat) (further : β → Analysis β) (b : β) (s : State) :
    s.remaining < n → (round more step)^[n] further b s = repeatWhile more b step s

def factor : Analysis Ty := factorOver (namedValueOver expression) expression

def term : Analysis Ty := termOver factor

def SectionLoop (keyword : Keyword) (separator : Symbol) (meaning : Analysis Meaning)
    (p : Analysis Unit) : Prop :=
  let entry := sectionEntry separator meaning
  Loop (· = .ident) (fun _ => entry) (fun loop => do
    let _ ← eat (.keyword keyword)
    entry
    loop ()) p

structure Cycles : Prop where
  type : Recursion State.remaining typeOver type
  block : Recursion State.remaining (blockOver statement) block
  expression : Recursion State.levels (fun inner => nested (expressionOver inner)) expression
  statement : Recursion State.levels
    (fun inner => nested (statementOver assignment Analysis.expression inner)) statement
  selectors (ty : Ty) : Loop (· = .symbol .lSelector) (selectorOver Analysis.expression)
    (fun loop => loop ty) (selectors ty)
  arguments (signature : List (PassMode × Ty)) : Loop (· = .symbol .comma)
    (nextArgumentOver Analysis.expression signature)
    (fun loop => do
      if (← peek) = .symbol .rParen then return 0
      else
        argumentAtOver Analysis.expression signature 0
        loop 1)
    (argumentListOver Analysis.expression signature)
  products (loc : Loc) (ty : Ty) : Loop Kind.isMultiplicative (operationOver factor loc)
    (fun loop => loop ty) (operatorsOver Kind.isMultiplicative factor loc ty)
  sums (loc : Loc) (ty : Ty) : Loop Kind.isAdditive (operationOver term loc)
    (fun loop => loop ty) (operatorsOver Kind.isAdditive term loc ty)
  targets : Loop (· = .symbol .comma) (nextTargetOver target) (fun loop => do loop [← target])
    (targetsOver target)
  sources (targets : List Ty) (operator : Kind) : Loop (· = .symbol .comma)
    (nextSourceOver Analysis.expression targets operator)
    (fun loop => do
      sourceOver Analysis.expression targets operator 0
      loop 1)
    (sourcesOver Analysis.expression targets operator)
  statements : Loop (· = .symbol .semicolon) (fun _ => nextStatementOver Analysis.statement)
    (fun loop => do
      Analysis.statement
      loop ())
    statements
  consts : SectionLoop .const .eq (.const <$> constant) constSection
  typeNames : SectionLoop .type .eq (.type <$> Analysis.type) typeSection
  vars : SectionLoop .var .colon (.var <$> Analysis.type) varSection
  params : Loop (· = .symbol .semicolon) (fun _ => nextParam)
    (fun loop => do
      if (← peek) = .symbol .lParen then
        let _ ← scan
        if (← peek) = .symbol .rParen then
          let _ ← scan
        else
          param
          loop ()
          let _ ← eat (.symbol .rParen)
      else return ())
    params
  declarations : Loop Kind.opensDeclaration (fun _ => declarationOver Analysis.block)
    (fun loop => do
      loop ()
      groupOver Analysis.statement)
    (blockOver Analysis.statement Analysis.block)

theorem round_iterate {more : Kind → Bool} {step : β → Analysis β}
    (used : ∀ b n l, Coincide n l (more · = true) 1 (step b) (step b)) (n : Nat)
    (further : β → Analysis β) (b : β) (s : State) (left : s.remaining < n) :
    (round more step)^[n] further b s = repeatWhile more b step s := by
  induction n generalizing b s with
  | zero => exact absurd left (Nat.not_lt_zero _)
  | succ n ih =>
    rw [Function.iterate_succ_apply', round, bind_of_ok (peek_apply s), repeatWhile_apply]
    split
    · have progress := Coincide.progress (used b) (s := s) ‹_›
      rw [bind_apply]
      generalize step b s = r at progress
      cases progress with
      | error => rfl
      | @ok c t _ less =>
        have less : t.remaining < s.remaining := less
        dsimp only
        rw [if_pos less]
        exact ih c t (by omega)
    · rfl

theorem Loop.of_coincide {more : Kind → Bool} {step : β → Analysis β}
    {around : (β → Analysis β) → Analysis γ} {p : Analysis γ}
    (shape : p = around (repeatWhile more · step))
    (used : ∀ b n l, Coincide n l (more · = true) 1 (step b) (step b)) :
    Loop more step around p :=
  ⟨shape, round_iterate used⟩

theorem factor_coincides {n l : Nat} : Coincide n l anyKind 1 factor factor :=
  .factorOver .expression (.namedValueOver .expression)

theorem term_coincides {n l : Nat} : Coincide n l anyKind 1 term term := .termOver factor_coincides

theorem SectionLoop.of_coincide {keyword : Keyword} {separator : Symbol} {meaning : Analysis Meaning}
    (meanings : ∀ n l, Coincide n l anyKind 0 meaning meaning) :
    SectionLoop keyword separator meaning (declarationSection keyword separator meaning) :=
  Loop.of_coincide rfl fun _ n l => .sectionEntry (meanings n l) separator

theorem cycles : Cycles where
  type _ further _ left := (Coincide.type_tied further left rfl trivial).1
  block _ further _ left := (Coincide.block_tied further left rfl trivial).1
  expression _ further s left :=
    (Coincide.expression_tied further left (Nat.lt_succ_self s.remaining) rfl trivial).1
  statement _ further s left :=
    (Coincide.statement_tied further left (Nat.lt_succ_self s.remaining) rfl trivial).1
  selectors _ := .of_coincide rfl fun ty _ _ => .selectorOver .expression (by decide) ty
  arguments signature :=
    .of_coincide rfl fun i _ _ => .nextArgumentOver .expression (by decide) signature i
  products loc _ :=
    .of_coincide rfl fun ty _ _ => .operationOver factor_coincides.lax (by decide) loc ty
  sums loc _ :=
    .of_coincide rfl fun ty _ _ => .operationOver term_coincides.lax (by decide) loc ty
  targets := .of_coincide rfl fun tys _ _ =>
    .nextTargetOver (Coincide.targetOver .expression).lax (by decide) tys
  sources targets operator := .of_coincide rfl fun i _ _ =>
    .nextSourceOver .expression (by decide) targets operator i
  statements := .of_coincide rfl fun _ _ _ => .nextStatementOver .statement (by decide)
  consts := .of_coincide fun _ _ => Coincide.constant.lax.map
  typeNames := .of_coincide fun _ _ => Coincide.type.map
  vars := .of_coincide fun _ _ => Coincide.type.map
  params := .of_coincide rfl fun _ _ _ => .nextParam (by decide)
  declarations := .of_coincide rfl fun _ _ _ => (Coincide.declarationOver .block).below

end Analysis

end Kpl
