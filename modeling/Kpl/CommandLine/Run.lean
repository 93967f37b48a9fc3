import Kpl.CommandLine.Arguments
import Kpl.CommandLine.Help
import Kpl.Log

namespace Kpl

namespace CommandLine

structure Failure where
  message : String
  code : Option String
deriving DecidableEq, Repr

structure Report where
  exit : Nat
  output : String
  failure : Option Failure
  logs : List String
deriving DecidableEq, Repr

namespace Failure

def ofManifest (e : ManifestError) : Failure := ⟨e.message, some e.code⟩

def ofRead (e : ReadError) : Failure := ⟨e.message, none⟩

def ofCompile (e : CompileError) : Failure := ⟨e.message, some e.code⟩

end Failure

def version : String := "0.1.0"

/-- The limits of a run: the options count more than the manifest, and the manifest more than
    the standard limits. -/
def Options.limits (o : Options) (manifest : Manifest) : Limits :=
  let limits := manifest.apply .standard
  ⟨o.maxIdentLen.getD limits.maxIdentLen, o.maxDepth.getD limits.maxDepth⟩

structure Answer where
  output : String
  failure : Option Failure
  logs : List Log.Line

def compiling (limits : Limits) (source : String) (shown : Compiled → String) : Answer :=
  let (result, events) := compileJournal (.ofSource limits.maxIdentLen source) limits.maxDepth
  let logs := events.filterMap Log.event ++ [Log.outcome result]
  match result with
  | .ok c => ⟨shown c, none, logs⟩
  | .error e => ⟨"", some (.ofCompile e), logs⟩

def listing (eof : Token) : List Item → Answer
  | [] => ⟨"", none, [Log.token eof]⟩
  | .ok t :: items =>
    let later := listing eof items
    ⟨t.listing ++ "\n" ++ later.output, later.failure, Log.token t :: later.logs⟩
  | .error e :: _ => ⟨"", some (.ofCompile (.lexical e)), []⟩

def Command.answer (command : Command) (path : String) (limits : Limits) (source : String) :
    Answer :=
  match command with
  | .check =>
    compiling limits source fun c => Path.shown path ++ ": program " ++ c.name ++ " ok\n"
  | .symbols => compiling limits source Compiled.render
  | .tokens =>
    let stream := TokenStream.ofSource limits.maxIdentLen source
    listing stream.eof stream.items

section

variable {m : Type → Type} [Monad m]

/-- Resolves the manifest, then reads the source, then does what the command says. -/
def Invocation.answer (files : Files m) (i : Invocation) : m Answer := do
  match ← Manifest.resolve files i.path i.options.config with
  | .error e => return ⟨"", some (.ofManifest e), []⟩
  | .ok manifest =>
    let limits := i.options.limits manifest
    let configuration := Log.configuration limits manifest.path
    match ← files.text i.path with
    | .error e => return ⟨"", some (.ofRead e), [configuration]⟩
    | .ok source =>
      let answer := i.command.answer i.path limits source
      return { answer with logs := configuration :: answer.logs }

/-- Runs a command line. A failed run ends with status 1, and arguments that make no sense with
    status 2. -/
def run (files : Files m) (args : List String) : m Report := do
  match parse args with
  | .error .misuse => return ⟨2, "", none, []⟩
  | .error .version => return ⟨0, programName ++ " " ++ version ++ "\n", none, []⟩
  | .error (.help topic) => return ⟨0, topic.text, none, []⟩
  | .ok invocation =>
    let answer ← invocation.answer files
    return ⟨if answer.failure.isSome then 1 else 0, answer.output, answer.failure,
      Log.shown (invocation.options.verbosity.getD 0) answer.logs⟩

end

end CommandLine

end Kpl
