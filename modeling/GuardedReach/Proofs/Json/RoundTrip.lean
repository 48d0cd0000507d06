/-
  JSON round trip — a printed value is read as itself.

  1. **Reader** — where a value is expected, reading its tokens leaves the machine where it is when the
     value is complete (`readAll_tokens`).  The frames around the value are arbitrary, and it is this
     that the induction over values needs; lists of items and members have a statement each.

  2. **Statement** — `ofChars?_print`: under every layout that adds nothing but white space, a value
     of any kind and size is read back, and more white space may follow.  `ReadsBack` puts this to
     use for what has a JSON form: it is enough that the form is decoded (`readsBack_of_decode`).
-/
import GuardedReach.Json.Reader
import GuardedReach.Proofs.Json.Tokens

namespace GuardedReach

namespace Json

/-! ## Reader

    The three statements are proved together, by recursion on the value as it is printed. -/

/-- An array goes on with its first item where it does not end. -/
theorem readAll_firstItem (item : Json) (frames : List Frame) (rest : List Token) :
    readAll .firstItem frames (item.tokens ++ rest) =
      readAll .value (.array [] :: frames) (item.tokens ++ rest) := by
  cases item with
  | array items => cases items <;> rfl
  | object members =>
    cases members with
    | nil => rfl
    | cons member members => rfl
  | _ => rfl

mutual

/-- **A value is read from its tokens**, wherever it is expected. -/
theorem readAll_tokens : ∀ (value : Json) (frames : List Frame) (rest : List Token),
    readAll .value frames (value.tokens ++ rest) =
      readAll (resume value frames).1 (resume value frames).2 rest
  | .null, _, _ => rfl
  | .bool _, _, _ => rfl
  | .number _, _, _ => rfl
  | .string _, _, _ => rfl
  | .array [], _, _ => rfl
  | .array (item :: items), frames, rest => by
    -- the first item is read with the array open around it, and the others one by one
    have hitem := readAll_tokens item (.array [] :: frames)
      (itemTokens items ++ (.closeBracket :: rest))
    have hitems := readAll_itemTokens items [item] frames rest
    simp only [tokens, List.append_assoc, List.cons_append, List.nil_append]
    show readAll .firstItem frames _ = _
    rw [readAll_firstItem, hitem]
    exact hitems
  | .object [], _, _ => rfl
  | .object ((key, value) :: members), frames, rest => by
    have hvalue := readAll_tokens value (.object [] key :: frames)
      (memberTokens members ++ (.closeBrace :: rest))
    have hmembers := readAll_memberTokens members [(key, value)] frames rest
    simp only [tokens, List.append_assoc, List.cons_append, List.nil_append]
    show readAll .value (.object [] key :: frames) _ = _
    rw [hvalue]
    exact hmembers

/-- The rest of an array, with the items before it kept in reverse, -/
theorem readAll_itemTokens : ∀ (items seen : List Json) (frames : List Frame) (rest : List Token),
    readAll (.afterItem seen) frames (itemTokens items ++ (.closeBracket :: rest)) =
      readAll (resume (.array (seen.reverse ++ items)) frames).1
        (resume (.array (seen.reverse ++ items)) frames).2 rest
  | [], seen, _, _ => by
    rw [List.append_nil]
    rfl
  | item :: items, seen, frames, rest => by
    have hitem := readAll_tokens item (.array seen :: frames)
      (itemTokens items ++ (.closeBracket :: rest))
    have hitems := readAll_itemTokens items (item :: seen) frames rest
    simp only [itemTokens, List.append_assoc, List.cons_append]
    show readAll .value (.array seen :: frames) _ = _
    rw [List.reverse_cons, List.append_assoc] at hitems
    rw [hitem]
    exact hitems

/-- and the rest of an object. -/
theorem readAll_memberTokens : ∀ (members seen : List (JsonText × Json)) (frames : List Frame)
    (rest : List Token),
    readAll (.afterMember seen) frames (memberTokens members ++ (.closeBrace :: rest)) =
      readAll (resume (.object (seen.reverse ++ members)) frames).1
        (resume (.object (seen.reverse ++ members)) frames).2 rest
  | [], seen, _, _ => by
    rw [List.append_nil]
    rfl
  | (key, value) :: members, seen, frames, rest => by
    have hvalue := readAll_tokens value (.object seen key :: frames)
      (memberTokens members ++ (.closeBrace :: rest))
    have hmembers := readAll_memberTokens members ((key, value) :: seen) frames rest
    simp only [memberTokens, List.append_assoc, List.cons_append]
    show readAll .value (.object seen key :: frames) _ = _
    rw [List.reverse_cons, List.append_assoc] at hmembers
    rw [hvalue]
    exact hmembers

end

/-! ## Statement

    From tokens to characters, and from values to whatever is written as one. -/

/-- **Every printed value is read back**, also where white space follows. -/
theorem ofChars?_print {layout : Layout} (h : layout.IsBlank) (value : Json) (depth : Nat)
    {blanks : List Char} (hblank : ∀ c ∈ blanks, isBlank c = true) :
    ofChars? (value.print layout depth ++ blanks) = some value := by
  have hread := readAll_tokens value [] []
  rw [List.append_nil] at hread
  unfold ofChars?
  rw [tokens?_print h value depth hblank, Option.bind_some]
  unfold ofTokens?
  rw [hread]
  rfl

/-- A value reads back from its compact text. -/
theorem ofText?_compactText (value : Json) : ofText? value.compactText = some value := by
  have hread := ofChars?_print Layout.isBlank_compact value 0 (List.forall_mem_nil _)
  rw [List.append_nil] at hread
  unfold ofText? compactText
  rw [String.toList_ofList]
  exact hread

/-- The lines of a value may be followed by blank ones. -/
theorem ofText?_prettyText_append (value : Json) (blanks : String)
    (hblank : ∀ c ∈ blanks.toList, isBlank c = true) :
    ofText? (value.prettyText ++ blanks) = some value := by
  unfold ofText? prettyText
  rw [String.toList_append, String.toList_ofList]
  exact ofChars?_print Layout.isBlank_pretty value 0 hblank

/-- A value reads back from its pretty text. -/
theorem ofText?_prettyText (value : Json) : ofText? value.prettyText = some value := by
  have hread := ofText?_prettyText_append value "" (by simp)
  rwa [String.append_empty] at hread

/-- What is written in either form, and then read and decoded, is there again. -/
def ReadsBack {α : Type} (encode : α → Json) (decode : Json → Option α) (a : α) : Prop :=
  (ofText? (encode a).compactText).bind decode = some a ∧
    (ofText? (encode a).prettyText).bind decode = some a

/-- What decodes from its JSON form reads back from both texts. -/
theorem readsBack_of_decode {α : Type} {encode : α → Json} {decode : Json → Option α} {a : α}
    (h : decode (encode a) = some a) : ReadsBack encode decode a := by
  unfold ReadsBack
  rw [ofText?_compactText, ofText?_prettyText]
  exact ⟨h, h⟩

end Json

end GuardedReach
