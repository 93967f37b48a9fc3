namespace Kpl

namespace Toml

abbrev Reader := StateT (List Char) Option

namespace Reader

def satisfy (p : Char → Bool) : Reader Char := fun
  | c :: text => if p c then some (c, text) else none
  | [] => none

def char (c : Char) : Reader Unit := do let _ ← satisfy (· = c)

def word (w : String) : Reader Unit := w.toList.forM char

def takeWhile (p : Char → Bool) : Reader (List Char) := fun text =>
  some (text.takeWhile p, text.dropWhile p)

def finish : Reader Unit := fun
  | [] => some ((), [])
  | _ :: _ => none

/-- Fails where `r` would succeed; takes nothing. -/
def absent (r : Reader α) : Reader Unit := fun text =>
  match r text with
  | some _ => none
  | none => some ((), text)

/-- As many values as there are, perhaps none. A value that takes nothing is not counted. -/
def many (r : Reader α) : Reader (List α) := fun text =>
  match r text with
  | none => some ([], text)
  | some (a, rest) =>
    if rest.length < text.length then (many r rest).map fun (as, rest) => (a :: as, rest)
    else some ([], text)
  termination_by text => text.length

def separated (separator : Reader Unit) (r : Reader α) : Reader (List α) := do
  let first ← r
  let others ← many (do separator; r)
  return first :: others

def times (r : Reader α) : Nat → Reader (List α)
  | 0 => return []
  | n + 1 => do
    let a ← r
    return a :: (← times r n)

def option (r : Reader α) : Reader (Option α) := some <$> r <|> pure none

def taken (r : Reader α) : Reader (List Char) := fun text =>
  (r text).map fun (_, rest) => (text.take (text.length - rest.length), rest)

end Reader

end Toml

end Kpl
