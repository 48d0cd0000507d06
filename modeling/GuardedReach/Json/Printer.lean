/-
  Printing JSON — from a value to a text.

  A layout says what white space goes where, and so the two forms in use are one function: `compact`
  puts none, `pretty` gives each item and member a line of its own, indented by two spaces for each
  container around it, and a space after each colon.  Empty containers are `[]` and `{}` in both.

  Strings escape the quote, the backslash and the characters below U+0020, and nothing else.
-/
import GuardedReach.Json.Syntax

namespace GuardedReach

/-! ## Strings

    What has to be escaped is what a string literal may not hold as it is. -/

/-- One character of a string literal. -/
def escapedChar (c : Char) : List Char :=
  match c with
  | '"' => ['\\', '"']
  | '\\' => ['\\', '\\']
  | '\x08' => ['\\', 'b']
  | '\x0c' => ['\\', 'f']
  | '\n' => ['\\', 'n']
  | '\r' => ['\\', 'r']
  | '\t' => ['\\', 't']
  | _ =>
    if c.toNat < 0x20 then
      ['\\', 'u', '0', '0', (c.toNat / 16).digitChar, (c.toNat % 16).digitChar]
    else [c]

/-- A string literal.  One without a text is written as a surrogate without its partner. -/
def stringLiteral (value : JsonText) : List Char :=
  match value with
  | some text => '"' :: text.toList.flatMap escapedChar ++ ['"']
  | none => ['"', '\\', 'u', 'd', '8', '0', '0', '"']

/-! ## Layouts

    White space depends on how deep a container lies, and on nothing else. -/

/-- What white space a printed value has. -/
structure Layout where
  /-- What stands before an item that lies `depth` containers deep, and before the end of the
      container at that depth. -/
  line : Nat → List Char
  /-- What stands after a colon. -/
  gap : List Char

namespace Layout

def compact : Layout :=
  { line := fun _ => [], gap := [] }

def pretty : Layout :=
  { line := fun depth => '\n' :: List.replicate (2 * depth) ' ', gap := [' '] }

end Layout

/-! ## Values

    A container puts what its layout asks for before each item and before its end. -/

namespace Json

mutual

/-- **The program**: the text of a value that lies `depth` containers deep. -/
def print (layout : Layout) (depth : Nat) : Json → List Char
  | .null => ['n', 'u', 'l', 'l']
  | .bool true => ['t', 'r', 'u', 'e']
  | .bool false => ['f', 'a', 'l', 's', 'e']
  | .number value => value.chars
  | .string value => stringLiteral value
  | .array [] => ['[', ']']
  | .array (item :: rest) =>
    '[' :: layout.line (depth + 1) ++ item.print layout (depth + 1) ++
      printItems layout (depth + 1) rest ++ layout.line depth ++ [']']
  | .object [] => ['{', '}']
  | .object ((key, value) :: rest) =>
    '{' :: layout.line (depth + 1) ++ stringLiteral key ++ ':' :: layout.gap ++
      value.print layout (depth + 1) ++ printMembers layout (depth + 1) rest ++
      layout.line depth ++ ['}']

/-- The items after the first, each behind a comma. -/
def printItems (layout : Layout) (depth : Nat) : List Json → List Char
  | [] => []
  | item :: rest =>
    ',' :: layout.line depth ++ item.print layout depth ++ printItems layout depth rest

/-- The members after the first, each behind a comma. -/
def printMembers (layout : Layout) (depth : Nat) : List (JsonText × Json) → List Char
  | [] => []
  | (key, value) :: rest =>
    ',' :: layout.line depth ++ stringLiteral key ++ ':' :: layout.gap ++
      value.print layout depth ++ printMembers layout depth rest

end

/-- The text in the compact form. -/
def compactText (value : Json) : String :=
  String.ofList (value.print .compact 0)

/-- The text in the indented form. -/
def prettyText (value : Json) : String :=
  String.ofList (value.print .pretty 0)

end Json

end GuardedReach
