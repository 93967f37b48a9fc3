import Kpl.CommandLine.Arguments

namespace Kpl

namespace CommandLine

def programName : String := "kplc"

def Command.summary : Command → String
  | check => "Parse, resolve and type-check a program"
  | tokens => "Print the token stream, one token per line"
  | symbols => "Check a program and print its symbol table"

namespace Topic

def summary : Topic → String
  | program => "KPL front end: parse, resolve and type-check programs"
  | command c => c.summary
  | help => "Print this message or the help of the given subcommand(s)"

def usage : Topic → String
  | program => programName ++ " [OPTIONS] <COMMAND>"
  | command c => programName ++ " " ++ c.name ++ " [OPTIONS] <PATH>"
  | help => programName ++ " help [COMMAND]..."

def commandLine (name summary : String) : String :=
  "  " ++ name.pushn ' ' (9 - name.length) ++ summary ++ "\n"

def commands : String :=
  let line (c : Command) := commandLine c.name c.summary
  "\nCommands:\n" ++ line .check ++ line .tokens ++ line .symbols ++
    commandLine "help" help.summary

def optionLines (form meaning : String) : String :=
  "  " ++ form ++ "\n          " ++ meaning ++ "\n"

def options : String :=
  "\nOptions:\n" ++
  optionLines "-v, --verbose..."
    "More log output on stderr (-v info, -vv debug, -vvv trace)" ++
  optionLines "    --max-ident-len <MAX_IDENT_LEN>"
    "Longest accepted identifier. Overrides `kpl.toml`" ++
  optionLines "    --max-depth <MAX_DEPTH>"
    "Deepest statement/expression nesting. Overrides `kpl.toml`" ++
  optionLines "    --config <CONFIG>"
    "Compiler settings file to use instead of the `kpl.toml` next to the source" ++
  optionLines "-h, --help" "Print help"

def parts : Topic → String
  | program => commands ++ options ++ optionLines "-V, --version" "Print version"
  | command _ => "\nArguments:\n  <PATH>  Input .kpl file\n" ++ options
  | help => "\nArguments:\n  [COMMAND]...  Print help for the subcommand(s)\n"

def text (topic : Topic) : String :=
  topic.summary ++ "\n\nUsage: " ++ topic.usage ++ "\n" ++ topic.parts

end Topic

end CommandLine

end Kpl
