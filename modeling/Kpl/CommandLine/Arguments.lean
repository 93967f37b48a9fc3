import Kpl.Digits

namespace Kpl

namespace CommandLine

inductive Command where
  | check
  | tokens
  | symbols
deriving DecidableEq, Repr

def Command.name : Command → String
  | check => "check"
  | tokens => "tokens"
  | symbols => "symbols"

def Command.ofName? : String → Option Command
  | "check" => some check
  | "tokens" => some tokens
  | "symbols" => some symbols
  | _ => none

structure Options where
  verbosity : Option Nat
  maxIdentLen : Option Nat
  maxDepth : Option Nat
  config : Option String
deriving DecidableEq, Repr

namespace Options

def empty : Options := ⟨none, none, none, none⟩

/-- Each option as `a` gives it, else as `b` does. -/
def orElse (a b : Options) : Options :=
  ⟨a.verbosity <|> b.verbosity, a.maxIdentLen <|> b.maxIdentLen, a.maxDepth <|> b.maxDepth,
    a.config <|> b.config⟩

def raise (o : Options) : Options := { o with verbosity := some (o.verbosity.getD 0 + 1) }

end Options

structure Invocation where
  command : Command
  path : String
  options : Options
deriving DecidableEq, Repr

inductive Topic where
  | program
  | command (command : Command)
  | help
deriving DecidableEq, Repr

/-- What the words behind `help` name: no word for the program, or one of the words that the
    program takes. None of these takes a further word. -/
def Topic.ofWords? : List String → Option Topic
  | [] => some program
  | ["help"] => some help
  | [name] => (Command.ofName? name).map command
  | _ => none

inductive Stop where
  | misuse
  | version
  | help (topic : Topic)
deriving DecidableEq, Repr

def greatestNumber : Nat := 18446744073709551615

/-- An unsigned number of 64 bits: decimal digits, perhaps behind a plus sign. -/
def number? (text : String) : Option Nat :=
  let digits := match text.toList with
    | '+' :: digits => digits
    | digits => digits
  if digits ≠ [] ∧ digits.all Char.isDigit then
    let value := Digits.value 10 digits
    if value ≤ greatestNumber then some value else none
  else none

/-- Sets an option that takes a value. It may be set once, and the value must not be empty. -/
def Options.set (o : Options) (name value : String) : Except Stop Options :=
  match name with
  | "max-ident-len" =>
    match o.maxIdentLen, number? value with
    | none, some n => .ok { o with maxIdentLen := some n }
    | _, _ => .error .misuse
  | "max-depth" =>
    match o.maxDepth, number? value with
    | none, some n => .ok { o with maxDepth := some n }
    | _, _ => .error .misuse
  | "config" =>
    if o.config = none ∧ value ≠ "" then .ok { o with config := some value }
    else .error .misuse
  | _ => .error .misuse

def valued : List String := ["max-ident-len", "max-depth", "config"]

/-- The version is an option of the program, not of a command. -/
def versionIn : Topic → Stop
  | .program => .version
  | _ => .misuse

def shortOptions (topic : Topic) (o : Options) : List Char → Except Stop Options
  | [] => .ok o
  | 'v' :: letters => shortOptions topic o.raise letters
  | 'h' :: _ => .error (.help topic)
  | 'V' :: _ => .error (versionIn topic)
  | _ => .error .misuse

inductive Front where
  | word
  | divider
  | option (options : Except Stop Options)
  | awaiting (name : String)

def longOption (topic : Topic) (o : Options) (text : List Char) : Front :=
  let name := String.ofList (text.takeWhile (· ≠ '='))
  match text.dropWhile (· ≠ '=') with
  | _ :: value => .option (o.set name (.ofList value))
  | [] =>
    if valued.contains name then .awaiting name
    else .option <| match name with
      | "verbose" => .ok o.raise
      | "help" => .error (.help topic)
      | "version" => .error (versionIn topic)
      | _ => .error .misuse

/-- A single hyphen is a word, two are the divider behind which every argument is a word. -/
def front (topic : Topic) (o : Options) (arg : String) : Front :=
  match arg.toList with
  | ['-', '-'] => .divider
  | '-' :: '-' :: text => longOption topic o text
  | '-' :: letter :: letters => .option (shortOptions topic o (letter :: letters))
  | _ => .word

def isValue (arg : String) : Bool :=
  match arg.toList with
  | '-' :: _ :: _ => false
  | _ => true

def addPath (path : Option String) (arg : String) : Except Stop (Option String) :=
  if path = none ∧ arg ≠ "" then .ok (some arg) else .error .misuse

def commandArguments (command : Command) (o : Options) (path : Option String) :
    List String → Except Stop (Options × Option String)
  | [] => .ok (o, path)
  | arg :: args =>
    match front (.command command) o arg with
    | .word => do commandArguments command o (← addPath path arg) args
    | .divider => do return (o, ← args.foldlM addPath path)
    | .option options => do commandArguments command (← options) path args
    | .awaiting name =>
      match args with
      | [] => .error .misuse
      | value :: args =>
        if isValue value then do commandArguments command (← o.set name value) path args
        else .error .misuse

/-- The options before the command, and all that follows. The value of an option is judged when
    the argument behind it is read; a command is read with all its arguments first. -/
def arguments (given : Except Stop Options) : List String → Except Stop Invocation
  | [] => .error .misuse
  | arg :: args =>
    if arg = "help" then
      match Topic.ofWords? args with
      | some topic => .error (.help topic)
      | none => .error .misuse
    else
      match Command.ofName? arg with
      | some command => do
        let (inner, path) ← commandArguments command .empty none args
        let outer ← given
        match path with
        | some path => return ⟨command, path, inner.orElse outer⟩
        | none => .error .misuse
      | none => do
        let o ← given
        match front .program o arg with
        | .word | .divider => .error .misuse
        | .option options => do arguments (.ok (← options)) args
        | .awaiting name =>
          match args with
          | [] => .error .misuse
          | value :: args =>
            if isValue value then arguments (o.set name value) args else .error .misuse

def parse (args : List String) : Except Stop Invocation := arguments (.ok .empty) args

end CommandLine

end Kpl
