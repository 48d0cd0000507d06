/-
  The program: arguments and files come from the outside, the answer goes there.
-/
import GuardedReach.Command.Response

namespace GuardedReach

/-- The reason why a file could not be read. -/
def ReadFault.ofError : IO.Error → ReadFault
  | .noFileOrDirectory .. => .notFound
  | .inappropriateType _ 21 _ => .isDirectory
  | .inappropriateType .. => .notADirectory
  | .invalidArgument _ 36 _ => .nameTooLong
  | error => .other (toString error)

/-- The path that a command reads, if it reads one. -/
def Command.path? : Command → Option String
  | run path _ => some path
  | jugs .. | template _ => none

/-- The contents of a file. -/
def readContents (path : String) : IO (Except ReadFault ByteArray) := do
  try
    return .ok (← IO.FS.readBinFile path)
  catch error =>
    return .error (ReadFault.ofError error)

end GuardedReach

open GuardedReach in
def main (arguments : List String) : IO UInt32 := do
  let path := (Command.ofArguments? arguments).bind Command.path?
  let contents ← path.elim (pure (.error .notFound)) readContents
  let response := Command.answer (fun _ => contents) arguments
  (← IO.getStderr).putStr response.errors
  (← IO.getStdout).putStr response.output
  return UInt32.ofNat response.status
