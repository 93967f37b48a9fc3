namespace Kpl

inductive Keyword where
  | program | const | type | var | integer | char | array | of | function | procedure
  | begin_ | end_ | call | if_ | then_ | else_ | while_ | do_ | for_ | to_
deriving DecidableEq, Repr

namespace Keyword

def all : List Keyword :=
  [program, const, type, var, integer, char, array, of, function, procedure,
    begin_, end_, call, if_, then_, else_, while_, do_, for_, to_]

def word : Keyword → String
  | program => "program"
  | const => "const"
  | type => "type"
  | var => "var"
  | integer => "integer"
  | char => "char"
  | array => "array"
  | of => "of"
  | function => "function"
  | procedure => "procedure"
  | begin_ => "begin"
  | end_ => "end"
  | call => "call"
  | if_ => "if"
  | then_ => "then"
  | else_ => "else"
  | while_ => "while"
  | do_ => "do"
  | for_ => "for"
  | to_ => "to"

/-- The keyword that a word spells, in any letter case. -/
def ofWord? (run : List Char) : Option Keyword :=
  all.find? fun k => k.word.toList = run.map Char.toLower

end Keyword

/-- Operators and punctuation. The selector brackets have a second spelling, `(.` and `.)`. -/
inductive Symbol where
  | semicolon | colon | period | comma
  | assign | plusAssign | minusAssign | timesAssign | slashAssign
  | eq | ne | lt | le | gt | ge
  | plus | minus | times | slash
  | lParen | rParen | lSelector | rSelector
deriving DecidableEq, Repr

namespace Symbol

def all : List Symbol :=
  [semicolon, colon, period, comma,
    assign, plusAssign, minusAssign, timesAssign, slashAssign,
    eq, ne, lt, le, gt, ge, plus, minus, times, slash,
    lParen, rParen, lSelector, rSelector]

def spelling : Symbol → String
  | semicolon => ";"
  | colon => ":"
  | period => "."
  | comma => ","
  | assign => ":="
  | plusAssign => "+="
  | minusAssign => "-="
  | timesAssign => "*="
  | slashAssign => "/="
  | eq => "="
  | ne => "!="
  | lt => "<"
  | le => "<="
  | gt => ">"
  | ge => ">="
  | plus => "+"
  | minus => "-"
  | times => "*"
  | slash => "/"
  | lParen => "("
  | rParen => ")"
  | lSelector => "["
  | rSelector => "]"

def listed : Symbol → String
  | semicolon => "SEMICOLON"
  | colon => "COLON"
  | period => "PERIOD"
  | comma => "COMMA"
  | assign => "ASSIGN"
  | plusAssign => "ASSIGN_PLUS"
  | minusAssign => "ASSIGN_MINUS"
  | timesAssign => "ASSIGN_TIMES"
  | slashAssign => "ASSIGN_SLASH"
  | eq => "EQ"
  | ne => "NEQ"
  | lt => "LT"
  | le => "LE"
  | gt => "GT"
  | ge => "GE"
  | plus => "PLUS"
  | minus => "MINUS"
  | times => "TIMES"
  | slash => "SLASH"
  | lParen => "LPAR"
  | rParen => "RPAR"
  | lSelector => "LSEL"
  | rSelector => "RSEL"

end Symbol

inductive Kind where
  | ident | number | char | eof
  | keyword (k : Keyword)
  | symbol (s : Symbol)
deriving DecidableEq, Repr

instance : Coe Keyword Kind := ⟨.keyword⟩

instance : Coe Symbol Kind := ⟨.symbol⟩

namespace Kind

def all : List Kind :=
  [ident, number, char, eof] ++ Keyword.all.map keyword ++ Symbol.all.map symbol

/-- The tag of token listings: `KW_BEGIN`, `SB_SEMICOLON`, `TK_IDENT`. -/
def tag : Kind → String
  | ident => "TK_IDENT"
  | number => "TK_NUMBER"
  | char => "TK_CHAR"
  | eof => "TK_EOF"
  | keyword k => "KW_" ++ k.word.map Char.toUpper
  | symbol s => "SB_" ++ s.listed

def text : Kind → String
  | ident => "an identifier"
  | number => "a number"
  | char => "a character constant"
  | eof => "end of input"
  | keyword k => "'" ++ k.word ++ "'"
  | symbol s => "'" ++ s.spelling ++ "'"

def isRelational : Kind → Bool
  | symbol .eq | symbol .ne | symbol .lt | symbol .le | symbol .gt | symbol .ge => true
  | _ => false

def isAssignment : Kind → Bool
  | symbol .assign | symbol .plusAssign | symbol .minusAssign | symbol .timesAssign
  | symbol .slashAssign => true
  | _ => false

def isAdditive : Kind → Bool
  | symbol .plus | symbol .minus => true
  | _ => false

def isMultiplicative : Kind → Bool
  | symbol .times | symbol .slash => true
  | _ => false

end Kind

end Kpl
