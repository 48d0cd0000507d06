/-
  Puzzle files — reading a puzzle from text or from a file, and saving it as text.

  What is read is also built, so a puzzle that was loaded can be searched; what is saved need not be.
  A file is whatever a reader gives for a path: bytes, or the reason why there are none.  Files as a
  whole are whatever a writer makes of them.
-/
import GuardedReach.Format.Puzzle
import GuardedReach.Json.Printer
import GuardedReach.Json.Reader

namespace GuardedReach

/-- Why the contents of a file could not be had as text. -/
inductive ReadFault where
  | notFound
  | isDirectory
  | notADirectory
  | nameTooLong
  | notText
  /-- Another reason, in the words of the system. -/
  | other (words : String)
deriving DecidableEq

def ReadFault.message : ReadFault → String
  | notFound => "No such file or directory (os error 2)"
  | isDirectory => "Is a directory (os error 21)"
  | notADirectory => "Not a directory (os error 20)"
  | nameTooLong => "File name too long (os error 36)"
  | notText => "stream did not contain valid UTF-8"
  | other words => words

/-- Why a puzzle could not be loaded. -/
inductive PuzzleError where
  | io (path : String) (fault : ReadFault)
  /-- The text is no JSON, or no puzzle. -/
  | json
  /-- The puzzle was read but cannot be built. -/
  | invalid (name : String) (reason : SetupError)
deriving DecidableEq

namespace PuzzleError

def message : PuzzleError → String
  | io path _ => "I/O error on " ++ path
  | json => "JSON error"
  | invalid name _ => "puzzle '" ++ name ++ "' is invalid"

/-- The messages of what lies behind the error, outermost first. -/
def causes : PuzzleError → List String
  | io _ fault => [fault.message]
  | json => []
  | invalid _ reason => reason.message :: reason.causes

end PuzzleError

namespace Puzzle

/-- The text a puzzle is saved as. -/
def fileText (p : Puzzle) : String :=
  p.toJson.prettyText

/-- Reads a puzzle from a text. -/
def decode? (text : String) : Option Puzzle :=
  (Json.ofText? text).bind ofJson?

/-- Reads a puzzle from a text and sees that it can be built. -/
def ofText (text : String) : Except PuzzleError Puzzle :=
  match decode? text with
  | none => .error .json
  | some p =>
    match p.build with
    | .error reason => .error (.invalid p.name reason)
    | .ok _ => .ok p

/-- Reads a puzzle from a file and sees that it can be built. -/
def load (read : String → Except ReadFault ByteArray) (path : String) :
    Except PuzzleError Puzzle :=
  match read path with
  | .error fault => .error (.io path fault)
  | .ok bytes =>
    match String.fromUTF8? bytes with
    | none => .error (.io path .notText)
    | some text => ofText text

/-- Writes a puzzle to a file.  Gives the files as they are then. -/
def save {Files : Type} (write : Files → String → ByteArray → Except ReadFault Files) (p : Puzzle)
    (path : String) (files : Files) : Except PuzzleError Files :=
  match write files path p.fileText.toUTF8 with
  | .error fault => .error (.io path fault)
  | .ok files => .ok files

end Puzzle

end GuardedReach
