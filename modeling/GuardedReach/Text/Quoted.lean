/-
  Quoted text — a text between double quotes, written so that every character of it can be seen.

  A quote and a backslash get a backslash in front, the usual line controls are written by letter,
  and any other hidden character by its code point in hexadecimal, as in `\u{7f}`.
-/
import GuardedReach.Text.Hidden

namespace GuardedReach

/-- One character inside quoted text. -/
def quotedChar (c : Char) : List Char :=
  match c with
  | '"' => ['\\', '"']
  | '\\' => ['\\', '\\']
  | '\n' => ['\\', 'n']
  | '\r' => ['\\', 'r']
  | '\t' => ['\\', 't']
  | '\x00' => ['\\', '0']
  | _ =>
    if isHidden c then
      ['\\', 'u', '\x7b'] ++ Nat.toDigits 16 c.toNat ++ ['\x7d']
    else [c]

/-- The text between double quotes. -/
def quoted (text : String) : String :=
  "\"" ++ String.ofList (text.toList.flatMap quotedChar) ++ "\""

example : quoted "q\"\\\n\t'" = "\"q\\\"\\\\\\n\\t'\"" := by decide +kernel

end GuardedReach
