import Famicom.CommandLine.Program

/-!
# The executable

Connects the program to files, standard output, the log on standard error and the clock.
-/

namespace Famicom.CommandLine

def fileError : IO.Error → FileError
  | .noFileOrDirectory .. => .notFound
  | .inappropriateType _ code _ => if code = 21 then .isDirectory else .notDirectory
  | .invalidArgument _ code details =>
    if code = 36 ∨ code = 0 - 36 then .nameTooLong else .other details
  | error => .other (toString error)

def attempt {α : Type} (action : IO α) : IO (Except FileError α) := do
  try
    let value ← action
    return .ok value
  catch error =>
    return .error (fileError error)

def Environment.ofProcess : Environment IO where
  load path := attempt do
    let bytes ← IO.FS.readBinFile path
    return bytes.data
  save path image := attempt (IO.FS.writeBinFile path ⟨image.toBytes⟩)
  now := IO.monoNanosNow
  print line := do
    let output ← IO.getStdout
    output.putStrLn line
    output.flush
  log record := record.lines.forM IO.eprintln
  warn := IO.eprintln

end Famicom.CommandLine

open Famicom.CommandLine in
def main (arguments : List String) : IO UInt32 := do
  let filter ← IO.getEnv "RUST_LOG"
  let code ← Environment.ofProcess.runProgram arguments filter
  return code.toUInt32
