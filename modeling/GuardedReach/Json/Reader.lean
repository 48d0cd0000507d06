/-
  Reading JSON — from tokens to a value.

  A machine takes the tokens one at a time.  Containers that are still open stand on a stack of
  frames, so a text may be nested to any depth; where the machine is in the innermost one is its
  `Cursor`.  A text is a value when the tokens end just as one value is complete.
-/
import GuardedReach.Json.Token

namespace GuardedReach

/-- A container whose next value is being read; what it holds so far stands latest first. -/
inductive Frame where
  | array (items : List Json)
  | object (members : List (JsonText × Json)) (key : JsonText)

/-- What may come next. -/
inductive Cursor where
  /-- A value. -/
  | value
  /-- An item or the end of the array, just after its start. -/
  | firstItem
  /-- A comma or the end of the array. -/
  | afterItem (items : List Json)
  /-- A member or the end of the object, just after its start. -/
  | firstMember
  /-- A member, after a comma. -/
  | member (members : List (JsonText × Json))
  /-- The colon after a member's name. -/
  | colon (members : List (JsonText × Json)) (key : JsonText)
  /-- A comma or the end of the object. -/
  | afterMember (members : List (JsonText × Json))
  /-- Nothing: the text's value is complete. -/
  | done (value : Json)

/-- Where reading goes on once a value is complete. -/
def resume (value : Json) : List Frame → Cursor × List Frame
  | [] => (.done value, [])
  | .array items :: frames => (.afterItem (value :: items), frames)
  | .object members key :: frames => (.afterMember ((key, value) :: members), frames)

/-- Takes a token where a value must start. -/
def beginValue (frames : List Frame) : Token → Option (Cursor × List Frame)
  | .null => some (resume .null frames)
  | .bool value => some (resume (.bool value) frames)
  | .number value => some (resume (.number value) frames)
  | .string value => some (resume (.string value) frames)
  | .openBracket => some (.firstItem, frames)
  | .openBrace => some (.firstMember, frames)
  | .closeBrace | .closeBracket | .comma | .colon => none

/-- Takes one token. -/
def readStep (frames : List Frame) : Cursor → Token → Option (Cursor × List Frame)
  | .value, token => beginValue frames token
  | .firstItem, .closeBracket => some (resume (.array []) frames)
  | .firstItem, token => beginValue (.array [] :: frames) token
  | .afterItem items, .comma => some (.value, .array items :: frames)
  | .afterItem items, .closeBracket => some (resume (.array items.reverse) frames)
  | .firstMember, .closeBrace => some (resume (.object []) frames)
  | .firstMember, .string key => some (.colon [] key, frames)
  | .member members, .string key => some (.colon members key, frames)
  | .colon members key, .colon => some (.value, .object members key :: frames)
  | .afterMember members, .comma => some (.member members, frames)
  | .afterMember members, .closeBrace => some (resume (.object members.reverse) frames)
  | _, _ => none

/-- Takes all tokens. -/
def readAll (cursor : Cursor) (frames : List Frame) : List Token → Option (Cursor × List Frame)
  | [] => some (cursor, frames)
  | token :: rest =>
    match readStep frames cursor token with
    | some (cursor, frames) => readAll cursor frames rest
    | none => none

/-- The value that a row of tokens is. -/
def Json.ofTokens? (tokens : List Token) : Option Json :=
  match readAll .value [] tokens with
  | some (.done value, _) => some value
  | _ => none

/-- **The program**: the value that a text is. -/
def Json.ofChars? (chars : List Char) : Option Json :=
  (tokens? chars).bind ofTokens?

/-- The value that a text is. -/
def Json.ofText? (text : String) : Option Json :=
  ofChars? text.toList

end GuardedReach
