import Kpl.Digits
import Kpl.Token.Basic

namespace Kpl

namespace Lexer

def isBlank (c : Char) : Bool :=
  c = ' ' || c = '\t' || c = '\r' || c = '\n' || c = '\x0c'

/-- The characters of a word behind its first letter (ASCII only). -/
def isWordChar (c : Char) : Bool := c.isAlphanum || c = '_'

inductive Content where
  | layout
  | token (kind : Kind) (lexeme : List Char) (value : Option Int32)
  | error (cause : LexicalError.Cause)

/-- The piece at the front of a text: what it is, and how many characters it has behind the
    first one. -/
structure Piece where
  content : Content
  more : Nat

/-- How far the first `*)` of a comment's body reaches. -/
def commentEnd? : List Char → Option Nat
  | '*' :: ')' :: _ => some 2
  | _ :: text => (commentEnd? text).map (· + 1)
  | [] => none

def maxNumber : Nat := 2147483647

def wordContent (maxIdentLen : Nat) (word : List Char) : Content :=
  match Keyword.ofWord? word with
  | some k => .token k word none
  | none =>
    if maxIdentLen < word.length then .error (.identTooLong maxIdentLen)
    else .token .ident word none

def numberContent (digits : List Char) : Content :=
  let value := Digits.value 10 digits
  if maxNumber < value then .error .numberTooLarge
  else .token .number digits (some (.ofNat value))

/-- The operator or bracket at the front of a text, the longest first. -/
def symbolPiece : Char → List Char → Piece
  | ':', '=' :: _ => long ':' '=' .assign
  | '+', '=' :: _ => long '+' '=' .plusAssign
  | '-', '=' :: _ => long '-' '=' .minusAssign
  | '*', '=' :: _ => long '*' '=' .timesAssign
  | '/', '=' :: _ => long '/' '=' .slashAssign
  | '!', '=' :: _ => long '!' '=' .ne
  | '<', '=' :: _ => long '<' '=' .le
  | '>', '=' :: _ => long '>' '=' .ge
  | '(', '.' :: _ => long '(' '.' .lSelector
  | '.', ')' :: _ => long '.' ')' .rSelector
  | ';', _ => short ';' .semicolon
  | ':', _ => short ':' .colon
  | '.', _ => short '.' .period
  | ',', _ => short ',' .comma
  | '=', _ => short '=' .eq
  | '<', _ => short '<' .lt
  | '>', _ => short '>' .gt
  | '+', _ => short '+' .plus
  | '-', _ => short '-' .minus
  | '*', _ => short '*' .times
  | '/', _ => short '/' .slash
  | '(', _ => short '(' .lParen
  | ')', _ => short ')' .rParen
  | '[', _ => short '[' .lSelector
  | ']', _ => short ']' .rSelector
  | _, _ => ⟨.error .invalidSymbol, 0⟩
where
  short (c : Char) (s : Symbol) : Piece := ⟨.token s [c] none, 0⟩
  long (c d : Char) (s : Symbol) : Piece := ⟨.token s [c, d] none, 1⟩

/-- A character constant is one character, neither a quote nor a newline, between quotes. A quote
    that starts none is an error of its own. -/
def quotePiece : List Char → Piece
  | c :: '\x27' :: _ =>
    if c = '\x27' ∨ c = '\n' then ⟨.error .invalidChar, 0⟩ else ⟨.token .char [c] none, 2⟩
  | _ => ⟨.error .invalidChar, 0⟩

def commentPiece (body : List Char) : Piece :=
  match commentEnd? body with
  | some n => ⟨.layout, n + 1⟩
  | none => ⟨.error .unclosedComment, body.length + 1⟩

def piece (maxIdentLen : Nat) (c : Char) (text : List Char) : Piece :=
  if isBlank c then ⟨.layout, (text.takeWhile isBlank).length⟩
  else if c.isAlpha then
    let word := text.takeWhile isWordChar
    ⟨wordContent maxIdentLen (c :: word), word.length⟩
  else if c.isDigit then
    let digits := text.takeWhile Char.isDigit
    ⟨numberContent (c :: digits), digits.length⟩
  else match c, text with
    | '\x27', text => quotePiece text
    | '(', '*' :: body => commentPiece body
    | '/', '/' :: line => ⟨.layout, (line.takeWhile (· ≠ '\n')).length + 1⟩
    | c, text => symbolPiece c text

def Content.item? (loc : Loc) : Content → Option Item
  | layout => none
  | token kind lexeme value => some (.ok ⟨kind, .ofList lexeme, value, loc⟩)
  | error cause => some (.error ⟨cause, loc⟩)

def streamAt (maxIdentLen : Nat) (p : Position) : List Char → TokenStream
  | [] => ⟨[], p.upTo p⟩
  | c :: text =>
    let first := piece maxIdentLen c text
    let q := p.after (c :: text.take first.more)
    let later := streamAt maxIdentLen q (text.drop first.more)
    match first.content.item? (p.upTo q) with
    | some item => later.push item
    | none => later
  termination_by text => text.length
  decreasing_by simp only [List.length_drop, List.length_cons]; omega

end Lexer

/-- The tokens of a source text in which names have at most `maxIdentLen` characters. -/
def TokenStream.ofSource (maxIdentLen : Nat) (source : String) : TokenStream :=
  Lexer.streamAt maxIdentLen .start source.toList

end Kpl
