import TeachLang.Command.Output

/-! # The command

Reads the files that the arguments name, and writes the log.
-/

namespace TeachLang

/-- Why a file could not be read, from what the system reports. -/
def ReadError.ofSystem : IO.Error → ReadError
  | .noFileOrDirectory .. => .notFound
  | .inappropriateType _ code _ => if code = 21 then .isAFolder else .notAFolder
  | e => .other e.toString

def readText (path : String) : IO (Except ReadError String) := do
  match ← (IO.FS.readBinFile path).toBaseIO with
  | .ok bytes => return textOfBytes bytes
  | .error e => return .error (.ofSystem e)

end TeachLang

open TeachLang in
def main (arguments : List String) : IO UInt32 := do
  let output ← match Options.parse arguments with
    | .ok o =>
      let files ← o.files.mapM fun path => do return (path, ← readText path)
      pure (o.output (← IO.getEnv "RUST_LOG") files)
    | .error n => pure n.output
  (← IO.getStdout).putStr output.out
  (← IO.getStderr).putStr output.err
  return output.exitCode.toUInt32
