import Kpl.CommandLine.Run

namespace Kpl

namespace Main

/-- The number of an error; some calls of the machine report it negated. -/
def errorNumber (code : UInt32) : Nat := min code.toNat (-code).toNat

def readError : IO.Error → ReadError
  | .noFileOrDirectory .. => .notFound
  | .inappropriateType _ code details =>
    match errorNumber code with
    | 20 => .notDirectory
    | 21 => .isDirectory
    | number => .system details number
  | .permissionDenied _ code _ => .system "Permission denied" (errorNumber code)
  | e => .system (toString e) 0

/-- The files of the machine. A file that may not be read is a file all the same. -/
def machineFiles : Files IO where
  isFile path := do
    match ← (IO.FS.readBinFile path).toBaseIO with
    | .ok _ => return true
    | .error (.permissionDenied ..) => return true
    | .error _ => return false
  bytes path := do
    match ← (IO.FS.readBinFile path).toBaseIO with
    | .ok bytes => return .ok bytes
    | .error e => return .error (readError e)

end Main

end Kpl

def main (args : List String) : IO UInt32 := do
  let report ← Kpl.CommandLine.run Kpl.Main.machineFiles args
  for line in report.logs do
    IO.eprintln line
  IO.print report.output
  if let some failure := report.failure then
    IO.eprintln ("Error: " ++ failure.message)
    if let some code := failure.code then IO.eprintln ("    diagnostic code: " ++ code)
  return report.exit.toUInt32
