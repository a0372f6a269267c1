import Pushdown.CommandLine.Run

/-!
# The command as a program

Reads the arguments, the environment, the files and the standard input, and prints the outcome.
-/

namespace Pushdown.Program

/-- The variables of the environment, which the system shows as a file. -/
def environment : IO (List (String × String)) := do
  let text ← try IO.FS.readFile "/proc/self/environ" catch _ => pure ""
  return (text.splitOn "\x00").filterMap fun entry =>
    match entry.splitOn "=" with
    | name :: value :: rest => some (name, "=".intercalate (value :: rest))
    | _ => none

/-- What a reading gives, or why it fails. -/
def attempt (read : IO String) : IO (Except FileError String) := do
  try return .ok (← read)
  catch
    | .noFileOrDirectory .. => return .error .missing
    | .inappropriateType .. => return .error .directory
    | e => return .error (.other (toString e))

/-- Everything that is left of a stream. -/
partial def readAll (stream : IO.FS.Stream) (text : String := "") : IO String := do
  let line ← stream.getLine
  if line.isEmpty then return text else readAll stream (text ++ line)

/-- Whether the request is read from the standard input. -/
def readsStdin (args : List String) : Bool :=
  match CommandLine.Options.read args with
  | .ok o => (o.request == "" || o.request == "-") && !o.dialects && !o.capabilities
  | .error _ => false

/-- An identifier of random hexadecimal digits. -/
def freshId : IO String := do
  let digits ← (List.replicate 32 ()).mapM fun _ => Text.hexDigit <$> IO.rand 0 15
  return String.ofList digits

end Pushdown.Program

open Pushdown CommandLine in
def main (args : List String) : IO UInt32 := do
  let files ← (CommandLine.files args).mapM fun (path : String) =>
    (path, ·) <$> Program.attempt (IO.FS.readFile path)
  let stdin ←
    if Program.readsStdin args then Program.attempt (do Program.readAll (← IO.getStdin))
    else pure (.ok "")
  let outcome := run {
      stdin
      file := fun path => (files.lookup path).getD (.error .missing)
      environment := ← Program.environment } args
  let fresh ← Program.freshId
  IO.eprint (String.join (outcome.log.map (logLine fresh)))
  IO.eprint outcome.stderr
  IO.print outcome.stdout
  return outcome.exitCode.toUInt32
