namespace Kpl

structure Span where
  offset : Nat
  length : Nat
deriving DecidableEq, Repr

def Span.between (start stop : Nat) : Span := ⟨start, stop - start⟩

/-- A span with the one-based line and column of its first character. -/
structure Loc where
  span : Span
  line : Nat
  column : Nat
deriving DecidableEq, Repr

def Loc.start : Loc := ⟨⟨0, 0⟩, 1, 1⟩

/-- The line and the column as a location keeps them, in thirty-two bits each. -/
def Loc.place (loc : Loc) : UInt32 × UInt32 := (.ofNat loc.line, .ofNat loc.column)

def Loc.text (loc : Loc) : String := toString loc.line ++ "-" ++ toString loc.column

structure Position where
  offset : Nat
  line : Nat
  column : Nat
deriving DecidableEq, Repr

namespace Position

def start : Position := ⟨0, 1, 1⟩

/-- The place behind `c`: a newline opens the next line, every other character takes one column
    however many bytes it has. -/
def advance (p : Position) (c : Char) : Position :=
  if c = '\n' then ⟨p.offset + c.utf8Size, p.line + 1, 1⟩
  else ⟨p.offset + c.utf8Size, p.line, p.column + 1⟩

def after (p : Position) (text : List Char) : Position := text.foldl advance p

def upTo (p q : Position) : Loc := ⟨.between p.offset q.offset, p.line, p.column⟩

theorem after_append (p : Position) (a b : List Char) :
    p.after (a ++ b) = (p.after a).after b := List.foldl_append

end Position

end Kpl
