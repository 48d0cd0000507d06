/-
  Tokens — the words of JSON texts.

  A scanner goes over a text one character at a time.  Its state is what it is in the middle of
  (`Scan`) together with the tokens read so far, the latest first.  A word or a number ends where a
  character comes that cannot continue it, and that character is then looked at afresh.

  Strings may hold any character from U+0020 on, quotes and backslashes escaped.  A `\u` escape
  outside the basic plane is two surrogates, high before low; a string in which one of them stands
  without the other is still a string, but has no text.
-/
import GuardedReach.Json.Syntax

namespace GuardedReach

/-- The words a text is made of. -/
inductive Token where
  | openBrace
  | closeBrace
  | openBracket
  | closeBracket
  | comma
  | colon
  | null
  | bool (value : Bool)
  | number (value : Numeral)
  | string (value : JsonText)
deriving DecidableEq

/-! ## String literals

    A literal is taken up escape by escape.  Whether it has a text shows only when a high surrogate has met
    what follows it. -/

/-- A string literal as far as it has been read. -/
structure PartialText where
  /-- The characters so far, the latest first. -/
  chars : List Char
  /-- A high surrogate that waits for its partner. -/
  lead : Option Nat
  /-- Whether every surrogate before has met its partner. -/
  paired : Bool
deriving DecidableEq

namespace PartialText

def empty : PartialText :=
  { chars := [], lead := none, paired := true }

/-- Adds a character.  A high surrogate that waits now waits in vain. -/
def push (t : PartialText) (c : Char) : PartialText :=
  { chars := c :: t.chars, lead := none, paired := t.paired && t.lead.isNone }

/-- The first half of a pair, -/
def isHighSurrogate (code : Nat) : Bool :=
  0xd800 ≤ code && code < 0xdc00

/-- and the second. -/
def isLowSurrogate (code : Nat) : Bool :=
  0xdc00 ≤ code && code < 0xe000

/-- The character that two surrogates stand for. -/
def ofSurrogates (high low : Nat) : Char :=
  Char.ofNat (0x10000 + (high - 0xd800) * 0x400 + (low - 0xdc00))

/-- Adds a 16-bit code given by an escape. -/
def pushCode (t : PartialText) (code : Nat) : PartialText :=
  if isHighSurrogate code then
    { t with lead := some code, paired := t.paired && t.lead.isNone }
  else if isLowSurrogate code then
    match t.lead with
    | some high => { t with chars := ofSurrogates high code :: t.chars, lead := none }
    | none => { t with paired := false }
  else t.push (Char.ofNat code)

/-- What the literal says, once it is closed. -/
def close (t : PartialText) : JsonText :=
  if t.paired && t.lead.isNone then some (String.ofList t.chars.reverse) else none

end PartialText

/-- The value of a hexadecimal digit. -/
def hexValue? (c : Char) : Option Nat :=
  if c.isDigit then some (c.toNat - 48)
  else if 97 ≤ c.toNat ∧ c.toNat ≤ 102 then some (c.toNat - 87)
  else if 65 ≤ c.toNat ∧ c.toNat ≤ 70 then some (c.toNat - 55)
  else none

/-- The character that a one-letter escape stands for. -/
def simpleEscape? (c : Char) : Option Char :=
  match c with
  | '"' => some '"'
  | '\\' => some '\\'
  | '/' => some '/'
  | 'b' => some '\x08'
  | 'f' => some '\x0c'
  | 'n' => some '\n'
  | 'r' => some '\r'
  | 't' => some '\t'
  | _ => none

/-! ## The scanner

    One transition for every character, and the end of the text is the last of them. -/

/-- What the scanner is in the middle of. -/
inductive Scan where
  | between
  /-- A word of small letters, the latest first. -/
  | word (letters : List Char)
  /-- A number, its latest character first. -/
  | number (chars : List Char)
  | text (t : PartialText)
  /-- A string literal just after a backslash. -/
  | escape (t : PartialText)
  /-- A string literal inside a `\u` escape: so many digits have been read, with this value. -/
  | unicode (t : PartialText) (count code : Nat)
deriving DecidableEq

/-- White space is space, tab, line feed and carriage return. -/
def isBlank (c : Char) : Bool :=
  c = ' ' || c = '\t' || c = '\n' || c = '\r'

/-- Whether a character can continue a number. -/
def continuesNumber (c : Char) : Bool :=
  c.isDigit || c = '-' || c = '+' || c = '.' || c = 'e' || c = 'E'

/-- The token that a word is, its letters given latest first. -/
def wordToken? (letters : List Char) : Option Token :=
  match letters with
  | ['l', 'l', 'u', 'n'] => some .null
  | ['e', 'u', 'r', 't'] => some (.bool true)
  | ['e', 's', 'l', 'a', 'f'] => some (.bool false)
  | _ => none

/-- Looks at a character between tokens. -/
def scanFresh (tokens : List Token) (c : Char) : Option (Scan × List Token) :=
  if isBlank c then some (.between, tokens)
  else if c.isDigit || c = '-' then some (.number [c], tokens)
  else if c.isLower then some (.word [c], tokens)
  else
    match c with
    | '{' => some (.between, .openBrace :: tokens)
    | '}' => some (.between, .closeBrace :: tokens)
    | '[' => some (.between, .openBracket :: tokens)
    | ']' => some (.between, .closeBracket :: tokens)
    | ',' => some (.between, .comma :: tokens)
    | ':' => some (.between, .colon :: tokens)
    | '"' => some (.text .empty, tokens)
    | _ => none

/-- Ends what the scanner is in the middle of, which must be a complete token. -/
def Scan.finish? (tokens : List Token) : Scan → Option (List Token)
  | between => some tokens
  | word letters => (wordToken? letters).map (· :: tokens)
  | number chars => (Numeral.ofChars? chars.reverse).map (.number · :: tokens)
  | text _ | escape _ | unicode .. => none

/-- Takes one character. -/
def scanStep (scan : Scan) (tokens : List Token) (c : Char) : Option (Scan × List Token) :=
  match scan with
  | .between => scanFresh tokens c
  | .word letters =>
    if c.isLower then some (.word (c :: letters), tokens)
    else (scan.finish? tokens).bind fun tokens => scanFresh tokens c
  | .number chars =>
    if continuesNumber c then some (.number (c :: chars), tokens)
    else (scan.finish? tokens).bind fun tokens => scanFresh tokens c
  | .text t =>
    if c = '"' then some (.between, .string t.close :: tokens)
    else if c = '\\' then some (.escape t, tokens)
    else if c.toNat < 0x20 then none
    else some (.text (t.push c), tokens)
  | .escape t =>
    if c = 'u' then some (.unicode t 0 0, tokens)
    else (simpleEscape? c).map fun c => (.text (t.push c), tokens)
  | .unicode t count code =>
    (hexValue? c).map fun digit =>
      let code := 16 * code + digit
      if count = 3 then (.text (t.pushCode code), tokens)
      else (.unicode t (count + 1) code, tokens)

/-- Takes all characters. -/
def scanAll (scan : Scan) (tokens : List Token) : List Char → Option (Scan × List Token)
  | [] => some (scan, tokens)
  | c :: rest =>
    match scanStep scan tokens c with
    | some (scan, tokens) => scanAll scan tokens rest
    | none => none

/-- **The program**: the tokens of a text. -/
def tokens? (chars : List Char) : Option (List Token) :=
  (scanAll .between [] chars).bind fun (scan, tokens) => (scan.finish? tokens).map List.reverse

/-! ## Running the program

    Escapes, and surrogates with their partners and without. -/

example : tokens? "[1,-2 ]".toList =
    some [.openBracket, .number (.integer 1), .comma, .number (.integer (-2)), .closeBracket] := by
  decide +kernel
example : tokens? "\"\\ud83d\\ude00\\n\"".toList = some [.string (some "😀\n")] := by
  decide +kernel
example : tokens? "\"\\ude00\"".toList = some [.string none] := by decide +kernel
example : tokens? "tru".toList = none := by decide +kernel

end GuardedReach
