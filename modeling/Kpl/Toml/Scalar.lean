import Kpl.Decimal
import Kpl.Digits
import Kpl.Toml.Reader
import Kpl.Toml.Value

namespace Kpl

namespace Toml

open Reader

def isWhite (c : Char) : Bool := c = ' ' || c = '\t'

def white : Reader Unit := do let _ ← takeWhile isWhite

def newline : Reader Unit := char '\n' <|> word "\r\n"

/-- The characters of comments and strings: no control characters but the tab. -/
def isText (c : Char) : Bool := c = '\t' || (' ' ≤ c && c ≠ '\x7f')

def comment : Reader Unit := do
  char '#'
  let _ ← takeWhile isText

def isHexDigit (c : Char) : Bool :=
  c.isDigit || ('a' ≤ c && c ≤ 'f') || ('A' ≤ c && c ≤ 'F')

def codePoint (n : Nat) : Reader Char := do
  let value := Digits.value 16 (← times (satisfy isHexDigit) n)
  if value.isValidChar then return .ofNat value else failure

def escape : Reader Char := do
  match ← satisfy fun _ => true with
  | 'b' => return '\x08'
  | 't' => return '\t'
  | 'n' => return '\n'
  | 'f' => return '\x0c'
  | 'r' => return '\r'
  | '"' => return '"'
  | '\\' => return '\\'
  | 'u' => codePoint 4
  | 'U' => codePoint 8
  | _ => failure

def basicChar : Reader Char :=
  satisfy (fun c => isText c && c ≠ '"' && c ≠ '\\') <|> do
    char '\\'
    escape

def isLiteralChar (c : Char) : Bool := isText c && c ≠ '\x27'

def lineString : Reader (List Char) :=
  (do
    char '"'
    let content ← many basicChar
    char '"'
    return content) <|>
  do
    char '\x27'
    let content ← takeWhile isLiteralChar
    char '\x27'
    return content

def lineContinuation : Reader (List Char) := do
  char '\\'
  white
  newline
  let _ ← many (newline <|> do let _ ← satisfy isWhite)
  return []

def innerQuotes (quote : Char) : Reader (List Char) := do
  let quotes ← takeWhile (· = quote)
  if quotes.length = 1 ∨ quotes.length = 2 then return quotes else failure

/-- A string over several lines between three quotes. A newline right behind the opening quotes
    does not count, and up to two quotes may stand right before the closing ones. -/
def linesString (quote : Char) (content : Reader (List Char)) : Reader (List Char) := do
  let _ ← times (char quote) 3
  let _ ← option newline
  let body ← many (content <|> innerQuotes quote <|> do newline; return ['\n'])
  let closing ← takeWhile (· = quote)
  if 3 ≤ closing.length ∧ closing.length ≤ 5 then
    return body.flatten ++ closing.drop 3
  else failure

def string : Reader (List Char) :=
  linesString '"' (lineContinuation <|> List.singleton <$> basicChar) <|>
  linesString '\x27' (List.singleton <$> satisfy isLiteralChar) <|>
  lineString

/-- Digits of a class, with single underscores between them. The underscores are dropped. -/
def digits (isDigit : Char → Bool) : Reader (List Char) := do
  let first ← satisfy isDigit
  let others ← many (do let _ ← option (char '_'); satisfy isDigit)
  return first :: others

def sign : Reader Bool :=
  (do char '-'; return true) <|> (do char '+'; return false) <|> pure false

def signed (negative : Bool) (magnitude : Nat) : Int :=
  if negative then -magnitude else magnitude

/-- A decimal integer part: no leading zeros. -/
def integerPart : Reader (List Char) :=
  (do absent (char '0'); digits Char.isDigit) <|> List.singleton <$> satisfy (· = '0')

def radix (mark : String) (base : Nat) (isDigit : Char → Bool) : Reader Int := do
  word mark
  return Digits.value base (← digits isDigit)

def leastInteger : Int := -9223372036854775808

def greatestInteger : Int := 9223372036854775807

/-- An integer, decimal with an optional sign or in base 16, 8 or 2 without one. -/
def integer : Reader Int := do
  let value ←
    radix "0x" 16 isHexDigit <|> radix "0o" 8 (fun c => '0' ≤ c && c ≤ '7') <|>
    radix "0b" 2 (fun c => c = '0' || c = '1') <|> do
      let negative ← sign
      return signed negative (Digits.value 10 (← integerPart))
  if leastInteger ≤ value ∧ value ≤ greatestInteger then return value else failure

def fraction : Reader (List Char) := do
  char '.'
  digits Char.isDigit

def exponent : Reader Int := do
  char 'e' <|> char 'E'
  let negative ← sign
  return signed negative (Digits.value 10 (← digits Char.isDigit))

def decimal : Reader Decimal := do
  let negative ← sign
  let whole ← integerPart
  let (places, power) ←
    (do return (← fraction, (← option exponent).getD 0)) <|> do return ([], ← exponent)
  return ⟨negative, whole ++ places, power - places.length⟩

/-- A float: an infinity, a non-number or a decimal number. A number too great for a float is an
    error, but one too far below zero stands for negative infinity. -/
def float : Reader Unit :=
  (do let _ ← sign; word "inf" <|> word "nan") <|> do
    if (← decimal).overflows then failure

def fixedDigits (n least greatest : Nat) : Reader Nat := do
  let value := Digits.value 10 (← times (satisfy Char.isDigit) n)
  if least ≤ value ∧ value ≤ greatest then return value else failure

def daysIn (year month : Nat) : Nat :=
  if month = 2 then
    if year % 4 = 0 ∧ (year % 100 ≠ 0 ∨ year % 400 = 0) then 29 else 28
  else if month = 4 ∨ month = 6 ∨ month = 9 ∨ month = 11 then 30
  else 31

def day : Reader Unit := do
  let year ← fixedDigits 4 0 9999
  char '-'
  let month ← fixedDigits 2 1 12
  char '-'
  let _ ← fixedDigits 2 1 (daysIn year month)

/-- A time of day; a leap second counts. -/
def time : Reader Unit := do
  let _ ← fixedDigits 2 0 23
  char ':'
  let _ ← fixedDigits 2 0 59
  char ':'
  let _ ← fixedDigits 2 0 60
  let _ ← option (do char '.'; let _ ← satisfy Char.isDigit; takeWhile Char.isDigit)

def zone : Reader Unit :=
  char 'Z' <|> char 'z' <|> do
    char '+' <|> char '-'
    let _ ← fixedDigits 2 0 23
    char ':'
    let _ ← fixedDigits 2 0 59

def date : Reader Unit :=
  (do
    day
    let _ ← option (do
      char 'T' <|> char 't' <|> char ' '
      time
      option zone)) <|>
  time

def scalar : Reader Value :=
  (do return .string (.ofList (← string))) <|>
  (do return .date (.ofList (← taken date))) <|>
  (do return .float (.ofList (← taken float))) <|>
  (do return .integer (← integer)) <|>
  (do word "true"; return .boolean true) <|>
  (do word "false"; return .boolean false)

end Toml

end Kpl
