import Kpl.Text.Hidden

namespace Kpl

namespace Text

/-- A character between quotes. Quotes of both kinds and backslashes stand behind a backslash, and
    what does not show is named by a letter or by its number. -/
def quotedChar (c : Char) : String :=
  if c = '"' then "\\\""
  else if c = '\x27' then "\\\x27"
  else if c = '\\' then "\\\\"
  else if c = '\n' then "\\n"
  else if c = '\r' then "\\r"
  else if c = '\t' then "\\t"
  else if c = '\x00' then "\\0"
  else if isHidden c then "\\u\x7b" ++ .ofList (Nat.toDigits 16 c.toNat) ++ "\x7d"
  else String.singleton c

def quoted (s : String) : String := "\"" ++ .join (s.toList.map quotedChar) ++ "\""

def optional : Option String → String
  | some s => "Some(" ++ quoted s ++ ")"
  | none => "None"

end Text

end Kpl
