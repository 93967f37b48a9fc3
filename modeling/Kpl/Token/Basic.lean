import Kpl.Diagnostic

namespace Kpl

/-- A token: its kind, its spelling (a character constant without the quotes), the value of a
    number, and its place. -/
structure Token where
  kind : Kind
  lexeme : String
  value : Option Int32
  loc : Loc
deriving DecidableEq, Repr

namespace Token

def eof (loc : Loc) : Token := ⟨.eof, "", none, loc⟩

def char? (t : Token) : Option Char :=
  if t.kind = .char then t.lexeme.toList.head? else none

def listing (t : Token) : String :=
  let head := t.loc.text ++ ":" ++ t.kind.tag
  match t.kind with
  | .ident | .number => head ++ "(" ++ t.lexeme ++ ")"
  | .char => head ++ "('" ++ t.lexeme ++ "')"
  | _ => head

end Token

abbrev Item := Except LexicalError Token

/-- A source of tokens: finitely many items, and then the end of the input at every pull, always
    at the place `stop`. -/
structure TokenStream where
  items : List Item
  stop : Loc

namespace TokenStream

def eof (s : TokenStream) : Token := .eof s.stop

def next (s : TokenStream) : Item × TokenStream :=
  match s.items with
  | [] => (.ok s.eof, s)
  | item :: rest => (item, { s with items := rest })

def push (item : Item) (s : TokenStream) : TokenStream := { s with items := item :: s.items }

def toTokens (s : TokenStream) : Except LexicalError (List Token) := do
  let tokens ← s.items.mapM id
  return tokens ++ [s.eof]

def ofItems (items : List Item) : TokenStream := ⟨items, .start⟩

@[simp] theorem next_push (item : Item) (s : TokenStream) : (s.push item).next = (item, s) := rfl

end TokenStream

end Kpl
