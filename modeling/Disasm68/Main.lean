import Disasm68.CommandLine.Program

/-!
# The command

Runs the program on the files of the disk.
-/

namespace Disasm68.CommandLine

/-- A failure of the operating system as the program words it. -/
def FileError.ofSystem : IO.Error → FileError
  | .noFileOrDirectory .. => .notFound
  | .inappropriateType _ code _ => if code = 21 then .isADirectory else .notADirectory
  | .invalidArgument _ 36 _ => .nameTooLong
  | e => .other e.toString

/-- Access to the files of the disk. -/
def diskFiles : Files IO where
  read path := do
    try
      return .ok ((← IO.FS.readBinFile path).data.map UInt8.toBitVec)
    catch e => return .error (.ofSystem e)
  write path text := do
    try
      IO.FS.writeFile path text
      return .ok ()
    catch e => return .error (.ofSystem e)

end Disasm68.CommandLine

/-- Prints what the program answers and exits with its code. -/
def main (arguments : List String) : IO UInt32 := do
  let outcome ← Disasm68.CommandLine.program Disasm68.CommandLine.diskFiles arguments
  (← IO.getStdout).putStr outcome.stdout
  if let some text := outcome.stderr then
    IO.eprintln text
  return outcome.code.toUInt32
