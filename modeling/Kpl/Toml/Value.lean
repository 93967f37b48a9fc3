/-!
The values of a TOML 1.0 document and how tables grow. A table knows what opened it, because that
decides who may add to it: a header may complete a table that other headers only implied, a dotted
key may extend a table that dotted keys made, and an inline table is closed.
-/

namespace Kpl

namespace Toml

inductive Origin where
  | header
  | implied
  | dotted
  | inline
deriving DecidableEq, Repr

/-- A TOML value. Floats and dates are kept as written. `tables` is an array of tables under
    construction: `last` is the one that headers and keys still reach. -/
inductive Value where
  | string (text : String)
  | integer (value : Int)
  | float (text : String)
  | boolean (value : Bool)
  | date (text : String)
  | array (items : List Value)
  | table (origin : Origin) (entries : List (String × Value))
  | tables (earlier : List Value) (last : List (String × Value))

abbrev Entries := List (String × Value)

namespace Entries

/-- Gives `key` the value that `f` makes of its present one, unless `f` refuses. A new key comes
    last. -/
def alter (key : String) (f : Option Value → Option Value) : Entries → Option Entries
  | [] => (f none).map fun v => [(key, v)]
  | (k, v) :: rest =>
    if k = key then (f (some v)).map fun w => (k, w) :: rest
    else (alter key f rest).map ((k, v) :: ·)

def add (key : String) (value : Value) : Entries → Option Entries :=
  alter key fun
    | none => some value
    | some _ => none

/-- Sets `key` below the tables that the dotted keys of `path` name, which are made as needed. -/
def setDotted (key : String) (value : Value) : List String → Entries → Option Entries
  | [], entries => entries.add key value
  | step :: path, entries =>
    entries.alter step fun
      | none => (setDotted key value path []).map (.table .dotted)
      | some (.table .dotted inner) => (setDotted key value path inner).map (.table .dotted)
      | some _ => none

/-- Works on the entries of the table that a header's `path` leads to. Tables on the way are made
    as needed, and of an array of tables the last one is meant. -/
def below (f : Entries → Option Entries) : List String → Entries → Option Entries
  | [], entries => f entries
  | step :: path, entries =>
    entries.alter step fun
      | none => (below f path []).map (.table .implied)
      | some (.table .inline _) => none
      | some (.table origin inner) => (below f path inner).map (.table origin)
      | some (.tables earlier last) => (below f path last).map (.tables earlier)
      | some _ => none

def openTable (path : List String) (key : String) : Entries → Option Entries :=
  below (alter key fun
    | none => some (.table .header [])
    | some (.table .implied inner) => some (.table .header inner)
    | some _ => none) path

def openElement (path : List String) (key : String) : Entries → Option Entries :=
  below (alter key fun
    | none => some (.tables [] [])
    | some (.tables earlier last) => some (.tables (earlier ++ [.table .header last]) [])
    | some _ => none) path

end Entries

end Toml

end Kpl
