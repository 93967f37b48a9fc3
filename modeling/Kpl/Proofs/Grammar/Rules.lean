import Kpl.Analysis.Declaration
import Kpl.Proofs.Grammar.Environment

/-!
The language of well-formed programs, without a table and without lookahead. Each rule says which
token lists spell a construct, and what the construct means in the environment `env`.

Expressions and statements have levels, as many as may be nested. The rules for one level are
written over the level below: `E` for its expressions and `S` for its statements.
-/

namespace Kpl

namespace Grammar

abbrev Typed := List Token → Ty → Prop

inductive Behind {ι : Type} (separator : Symbol) (item : ι → List Token → Prop) :
    List ι → List Token → Prop where
  | nil : Behind separator item [] []
  | cons {t : Token} {i : ι} {is : List ι} {ts rest : List Token} :
    t.kind = .symbol separator → item i ts → Behind separator item is rest →
      Behind separator item (i :: is) (t :: (ts ++ rest))

inductive Separated {ι : Type} (separator : Symbol) (item : ι → List Token → Prop) :
    List ι → List Token → Prop where
  | mk {i : ι} {is : List ι} {ts rest : List Token} :
    item i ts → Behind separator item is rest → Separated separator item (i :: is) (ts ++ rest)

section Expressions

variable (env : Env) (E : Typed)

/-- `{[expression]}` behind storage of a type. -/
inductive Selectors : Ty → List Token → Ty → Prop where
  | nil (ty : Ty) : Selectors ty [] ty
  | cons {size : UInt32} {element ty : Ty} {l r : Token} {ts rest : List Token} :
    l.kind = .symbol .lSelector → E ts .int → r.kind = .symbol .rSelector →
      Selectors element rest ty → Selectors (.array size element) (l :: (ts ++ r :: rest)) ty

inductive Storage : Typed where
  | mk {name : Token} {entity : Entity} {stored ty : Ty} {ts : List Token} :
    name.kind = .ident → env.resolve name.lexeme = some entity → entity.storage? = some stored →
      Selectors E stored ts ty → Storage (name :: ts) ty

inductive Argument : PassMode × Ty → List Token → Prop where
  | value {ty : Ty} {ts : List Token} : E ts ty → Argument (.value, ty) ts
  | reference {ty : Ty} {ts : List Token} : Storage env E ts ty → Argument (.reference, ty) ts

inductive Arguments : List (PassMode × Ty) → List Token → Prop where
  | none : Arguments [] []
  | empty {l r : Token} :
    l.kind = .symbol .lParen → r.kind = .symbol .rParen → Arguments [] [l, r]
  | list {signature : List (PassMode × Ty)} {l r : Token} {ts : List Token} :
    l.kind = .symbol .lParen → Separated .comma (Argument env E) signature ts →
      r.kind = .symbol .rParen → Arguments signature (l :: (ts ++ [r]))

inductive Named : Entity → Typed where
  | const {value : Constant} : Named (.const value) [] value.ty
  | storage {entity : Entity} {stored ty : Ty} {ts : List Token} :
    entity.storage? = some stored → Selectors E stored ts ty → Named entity ts ty
  | call {signature : List (PassMode × Ty)} {ty : Ty} {ts : List Token} :
    Arguments env E signature ts → Named (.function signature (some ty)) ts ty

inductive Factor : Typed where
  | number {t : Token} : t.kind = .number → Factor [t] .int
  | char {t : Token} : t.kind = .char → Factor [t] .char
  | group {l r : Token} {ts : List Token} {ty : Ty} :
    l.kind = .symbol .lParen → E ts ty → r.kind = .symbol .rParen → Factor (l :: (ts ++ [r])) ty
  | named {name : Token} {entity : Entity} {ts : List Token} {ty : Ty} :
    name.kind = .ident → env.resolve name.lexeme = some entity → Named env E entity ts ty →
      Factor (name :: ts) ty

end Expressions

/-- The operators of one precedence behind an operand of a type: with an operator all operands are
    integers. -/
inductive Operands (operator : Kind → Bool) (operand : Typed) : Ty → List Token → Ty → Prop where
  | nil (ty : Ty) : Operands operator operand ty [] ty
  | cons {op : Token} {ts rest : List Token} {ty : Ty} :
    operator op.kind → operand ts .int → Operands operator operand .int rest ty →
      Operands operator operand .int (op :: (ts ++ rest)) ty

section Expressions

variable (env : Env) (E : Typed)

inductive Term : Typed where
  | mk {ts rest : List Token} {first ty : Ty} :
    Factor env E ts first → Operands Kind.isMultiplicative (Factor env E) first rest ty →
      Term (ts ++ rest) ty

inductive Sum : Typed where
  | plain {ts rest : List Token} {first ty : Ty} :
    Term env E ts first → Operands Kind.isAdditive (Term env E) first rest ty → Sum (ts ++ rest) ty
  | signed {sign : Token} {ts rest : List Token} {ty : Ty} :
    sign.kind.isAdditive → Term env E ts .int →
      Operands Kind.isAdditive (Term env E) .int rest ty → Sum (sign :: (ts ++ rest)) ty

end Expressions

def Expression (env : Env) : Nat → Typed
  | 0 => fun _ _ => False
  | levels + 1 => Sum env (Expression env levels)

section Statements

variable (env : Env) (E : Typed)

inductive Condition : List Token → Prop where
  | mk {left right : List Token} {relation : Token} {ty : Ty} :
    E left ty → ty.isBasic → relation.kind.isRelational → E right ty →
      Condition (left ++ relation :: right)

/-- The target of an assignment: storage, or the result of the function being read. -/
inductive Target : Ty → List Token → Prop where
  | storage {ty : Ty} {ts : List Token} : Storage env E ts ty → Target ty ts
  | result {name : Token} {ty : Ty} :
    name.kind = .ident → env.result? name.lexeme = some ty → Target ty [name]

/-- The source for a target; a compound operator is for integers. -/
inductive Source (operator : Kind) : Ty → List Token → Prop where
  | mk {ty : Ty} {ts : List Token} :
    E ts ty → operator = .symbol .assign ∨ ty = .int → Source operator ty ts

inductive Assignment : List Token → Prop where
  | mk {operator : Token} {tys : List Ty} {targets sources : List Token} :
    Separated .comma (Target env E) tys targets → operator.kind.isAssignment →
      Separated .comma (Source E operator.kind) tys sources →
      Assignment (targets ++ operator :: sources)

variable (S : Bool → List Token → Prop)

/-- Statements, sorted into those that an `else` behind would continue, and the others. An `else`
    belongs to the nearest `if`, so the first branch of an `if` with `else` is of the others. -/
inductive Statement : Bool → List Token → Prop where
  | empty : Statement false []
  | assignment {ts : List Token} : Assignment env E ts → Statement false ts
  | call {call name : Token} {signature : List (PassMode × Ty)} {ts : List Token} :
    call.kind = .keyword .call → name.kind = .ident →
      env.resolve name.lexeme = some (.procedure signature) → Arguments env E signature ts →
      Statement false (call :: name :: ts)
  | group {begin_ end_ : Token} {sorts : List Bool} {ts : List Token} :
    begin_.kind = .keyword .begin_ → Separated .semicolon S sorts ts →
      end_.kind = .keyword .end_ → Statement false (begin_ :: (ts ++ [end_]))
  | ifThen {if_ then_ : Token} {sort : Bool} {ts us : List Token} :
    if_.kind = .keyword .if_ → Condition E ts → then_.kind = .keyword .then_ → S sort us →
      Statement true (if_ :: (ts ++ then_ :: us))
  | ifElse {if_ then_ else_ : Token} {sort : Bool} {ts us vs : List Token} :
    if_.kind = .keyword .if_ → Condition E ts → then_.kind = .keyword .then_ → S false us →
      else_.kind = .keyword .else_ → S sort vs →
      Statement sort (if_ :: (ts ++ then_ :: (us ++ else_ :: vs)))
  | while {while_ do_ : Token} {sort : Bool} {ts us : List Token} :
    while_.kind = .keyword .while_ → Condition E ts → do_.kind = .keyword .do_ → S sort us →
      Statement sort (while_ :: (ts ++ do_ :: us))
  | for {for_ name assign to_ do_ : Token} {sort : Bool} {first last us : List Token} :
    for_.kind = .keyword .for_ → name.kind = .ident →
      env.resolve name.lexeme = some (.var .int) → assign.kind = .symbol .assign →
      E first .int → to_.kind = .keyword .to_ → E last .int → do_.kind = .keyword .do_ →
      S sort us →
      Statement sort (for_ :: name :: assign :: (first ++ to_ :: (last ++ do_ :: us)))

end Statements

def StatementAt (env : Env) : Nat → Bool → List Token → Prop
  | 0 => fun _ _ => False
  | levels + 1 => Statement env (Expression env levels) (StatementAt env levels)

section Declarations

variable (env : Env)

inductive UnsignedConstant : List Token → Constant → Prop where
  | number {t : Token} {value : Int32} :
    t.kind = .number → t.value = some value → UnsignedConstant [t] (.int value)
  | named {name : Token} {value : Int32} :
    name.kind = .ident → env.resolve name.lexeme = some (.const (.int value)) →
      UnsignedConstant [name] (.int value)

inductive SignedConstant : List Token → Constant → Prop where
  | plain {ts : List Token} {value : Constant} :
    UnsignedConstant env ts value → SignedConstant ts value
  | plus {sign : Token} {ts : List Token} {value : Constant} :
    sign.kind = .symbol .plus → UnsignedConstant env ts value → SignedConstant (sign :: ts) value
  | minus {sign : Token} {ts : List Token} {value negated : Constant} :
    sign.kind = .symbol .minus → UnsignedConstant env ts value → value.negate? = some negated →
      SignedConstant (sign :: ts) negated
  | char {t : Token} {value : Char} :
    t.kind = .char → t.char? = some value → SignedConstant [t] (.char value)

inductive BasicType : List Token → Ty → Prop where
  | integer {t : Token} : t.kind = .keyword .integer → BasicType [t] .int
  | char {t : Token} : t.kind = .keyword .char → BasicType [t] .char

inductive TypeDenoter : Typed where
  | basic {ts : List Token} {ty : Ty} : BasicType ts ty → TypeDenoter ts ty
  | array {array l number r of : Token} {size : UInt32} {ts : List Token} {element : Ty} :
    array.kind = .keyword .array → l.kind = .symbol .lSelector → number.kind = .number →
      Analysis.arraySize? number = some size → r.kind = .symbol .rSelector →
      of.kind = .keyword .of → TypeDenoter ts element →
      TypeDenoter (array :: l :: number :: r :: of :: ts) (.array size element)
  | named {name : Token} {actual : Ty} :
    name.kind = .ident → env.resolve name.lexeme = some (.type actual) → TypeDenoter [name] actual

inductive Described : Keyword → List Token → Plain → Prop where
  | const {ts : List Token} {value : Constant} :
    SignedConstant env ts value → Described .const ts (.const value)
  | type {ts : List Token} {actual : Ty} : TypeDenoter env ts actual → Described .type ts (.type actual)
  | var {ts : List Token} {ty : Ty} : TypeDenoter env ts ty → Described .var ts (.var ty)

end Declarations

def separator : Keyword → Symbol
  | .var => .colon
  | _ => .eq

/-- One declaration of a section: `name separator meaning ;`. -/
inductive Entry (env : Env) (keyword : Keyword) : List Token → String → Loc → Plain → Prop where
  | mk {name sep semicolon : Token} {ts : List Token} {what : Plain} :
    name.kind = .ident → name.lexeme ∉ env.names → sep.kind = .symbol (separator keyword) →
      Described env keyword ts what → semicolon.kind = .symbol .semicolon →
      Entry env keyword (name :: sep :: (ts ++ [semicolon])) name.lexeme name.loc what

/-- The declarations of a section, one or more; each is known to those behind it. -/
inductive Entries (keyword : Keyword) : Env → List Token → Contents → Prop where
  | one {env : Env} {name : String} {loc : Loc} {ts : List Token} {what : Plain} :
    Entry env keyword ts name loc what → Entries keyword env ts (.plain name loc what .nil)
  | more {env : Env} {name : String} {loc : Loc} {ts rest : List Token} {what : Plain}
      {ds : Contents} :
    Entry env keyword ts name loc what →
      Entries keyword (env.declare [(name, what.entity)]) rest ds →
      Entries keyword env (ts ++ rest) (.plain name loc what ds)

inductive Parameter : Param → List Token → Prop where
  | value {name colon : Token} {ty : Ty} {ts : List Token} :
    name.kind = .ident → colon.kind = .symbol .colon → BasicType ts ty →
      Parameter ⟨name.lexeme, name.loc, .value, ty⟩ (name :: colon :: ts)
  | reference {var name colon : Token} {ty : Ty} {ts : List Token} :
    var.kind = .keyword .var → name.kind = .ident → colon.kind = .symbol .colon →
      BasicType ts ty →
      Parameter ⟨name.lexeme, name.loc, .reference, ty⟩ (var :: name :: colon :: ts)

inductive Parameters : List Param → List Token → Prop where
  | none : Parameters [] []
  | empty {l r : Token} :
    l.kind = .symbol .lParen → r.kind = .symbol .rParen → Parameters [] [l, r]
  | list {params : List Param} {l r : Token} {ts : List Token} :
    l.kind = .symbol .lParen → Separated .semicolon Parameter params ts →
      (params.map (·.name)).Nodup → r.kind = .symbol .rParen → Parameters params (l :: (ts ++ [r]))

inductive Heading : Keyword → Header → List Token → Prop where
  | function {params : List Param} {returns : Ty} {colon semicolon : Token} {ts us : List Token} :
    Parameters params ts → colon.kind = .symbol .colon → BasicType us returns →
      semicolon.kind = .symbol .semicolon →
      Heading .function (.function params (some returns)) (ts ++ colon :: (us ++ [semicolon]))
  | procedure {params : List Param} {semicolon : Token} {ts : List Token} :
    Parameters params ts → semicolon.kind = .symbol .semicolon →
      Heading .procedure (.procedure params) (ts ++ [semicolon])

/-- Declarations, and then the statements. A routine is known inside itself, and its block is
    read in a scope of its own. -/
inductive Block (maxDepth : Nat) : Env → List Token → Contents → Prop where
  | body {env : Env} {begin_ end_ : Token} {sorts : List Bool} {ts : List Token} :
    begin_.kind = .keyword .begin_ → Separated .semicolon (StatementAt env maxDepth) sorts ts →
      end_.kind = .keyword .end_ → Block maxDepth env (begin_ :: (ts ++ [end_])) .nil
  | section {env : Env} {keyword : Keyword} {t : Token} {ts rest : List Token}
      {ds ds' : Contents} :
    t.kind = .keyword keyword → Entries keyword env ts ds →
      Block maxDepth (env.declare ds.bindings) rest ds' →
      Block maxDepth env (t :: (ts ++ rest)) (ds ++ ds')
  | routine {env : Env} {keyword : Keyword} {t name semicolon : Token} {header : Header}
      {ts us rest : List Token} {inside ds : Contents} :
    t.kind = .keyword keyword → name.kind = .ident → name.lexeme ∉ env.names →
      Heading keyword header ts → Block maxDepth (env.enter name.lexeme header) us inside →
      semicolon.kind = .symbol .semicolon →
      Block maxDepth (env.declare [(name.lexeme, header.entity)]) rest ds →
      Block maxDepth env (t :: name :: (ts ++ (us ++ semicolon :: rest)))
        (.routine name.lexeme name.loc header inside ds)

inductive Program (maxDepth : Nat) : List Token → Root → Prop where
  | mk {program name semicolon period : Token} {ts : List Token} {ds : Contents} :
    program.kind = .keyword .program → name.kind = .ident →
      semicolon.kind = .symbol .semicolon → Block maxDepth [⟨none, []⟩] ts ds →
      period.kind = .symbol .period →
      Program maxDepth (program :: name :: semicolon :: (ts ++ [period]))
        ⟨name.lexeme, name.loc, ds⟩

end Grammar

end Kpl
