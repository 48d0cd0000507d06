/-
  The tokens of a printed value — what a scanner makes of a text that a printer has written.

  1. **Ends** — `scanEnd` scans a text to its end.  A word or a number goes on until a character comes
     that cannot belong to it, so each piece of a text is looked at together with what follows, of
     which only the first character matters (`Bounded`).

  2. **Pieces** — white space leaves no token; marks, words, numbers and string literals leave one
     each.  A string literal is scanned one written character at a time, and what one character is
     written as puts that character behind those before it (`scanEnd_escapedChar`).

  3. **Values** — `Json.tokens` is the row of tokens that a value consists of, and every layout that
     adds nothing but white space leaves just these (`tokens?_print`).
-/
import GuardedReach.Json.Printer
import GuardedReach.Json.Token
import GuardedReach.Proofs.Json.Numeral

namespace GuardedReach

/-! ## Ends

    A scanner is asked for the tokens of a rest of the text rather than of the whole, so that a token can be
    scanned without knowing what follows.  It only has to be known that what follows ends the token. -/

/-- The tokens, latest first, of a text whose rest is still to be scanned. -/
def scanEnd (scan : Scan) (tokens : List Token) (chars : List Char) : Option (List Token) :=
  (scanAll scan tokens chars).bind fun state => state.1.finish? state.2

/-- The tokens of a text are what the scanner has at the end, in reverse. -/
theorem tokens?_eq (chars : List Char) :
    tokens? chars = (scanEnd .between [] chars).map List.reverse := by
  unfold tokens? scanEnd
  cases scanAll .between [] chars with
  | none => rfl
  | some state => rfl

/-- One character is one step. -/
theorem scanEnd_cons (scan : Scan) (tokens : List Token) (c : Char) (rest : List Char) :
    scanEnd scan tokens (c :: rest) =
      (scanStep scan tokens c).bind fun state => scanEnd state.1 state.2 rest := by
  unfold scanEnd
  rw [scanAll]
  cases scanStep scan tokens c with
  | none => rfl
  | some state => rfl

/-- No character of a word or of a number stands first. -/
def Bounded (chars : List Char) : Prop :=
  ∀ c ∈ chars.head?, c.isLower = false ∧ continuesNumber c = false

/-- The end of the text ends every token. -/
theorem bounded_nil : Bounded [] := by
  intro c hc
  exact absurd hc (by simp)

/-- So does a character that can continue none. -/
theorem bounded_cons {c : Char} (hl : c.isLower = false) (hn : continuesNumber c = false)
    (rest : List Char) : Bounded (c :: rest) := by
  intro first hfirst
  obtain rfl := Option.some.inj hfirst
  exact ⟨hl, hn⟩

/-- White space may stand between. -/
theorem bounded_append {blanks : List Char} (hblank : ∀ c ∈ blanks, isBlank c = true)
    {rest : List Char} (h : Bounded rest) : Bounded (blanks ++ rest) := by
  cases blanks with
  | nil => exact h
  | cons c blanks =>
    have hc := hblank c (List.mem_cons_self ..)
    unfold isBlank at hc
    simp only [Bool.or_eq_true, decide_eq_true_eq] at hc
    rcases hc with ((rfl | rfl) | rfl) | rfl <;> exact bounded_cons (by decide) (by decide) _

/-- What can be finished is finished where a text ends and where a boundary comes. -/
theorem scanEnd_of_finish {scan : Scan} {tokens tokens' : List Token}
    (hfinish : scan.finish? tokens = some tokens')
    (hstep : ∀ c, c.isLower = false → continuesNumber c = false →
      scanStep scan tokens c = scanStep .between tokens' c)
    {rest : List Char} (h : Bounded rest) :
    scanEnd scan tokens rest = scanEnd .between tokens' rest := by
  cases rest with
  | nil => exact hfinish
  | cons c rest =>
    obtain ⟨hl, hn⟩ := h c rfl
    rw [scanEnd_cons, scanEnd_cons, hstep c hl hn]

/-! ## White space, marks and words

    Blanks leave no token; a word is complete where something else follows. -/

/-- Blanks in front are passed over. -/
theorem scanEnd_blanks {blanks : List Char} (hblank : ∀ c ∈ blanks, isBlank c = true)
    (tokens : List Token) (rest : List Char) :
    scanEnd .between tokens (blanks ++ rest) = scanEnd .between tokens rest := by
  induction blanks with
  | nil => rfl
  | cons c blanks ih =>
    have hc : scanStep .between tokens c = some (.between, tokens) := by
      show scanFresh tokens c = _
      unfold scanFresh
      rw [if_pos (hblank c (List.mem_cons_self ..))]
    rw [List.cons_append, scanEnd_cons, hc]
    exact ih fun c hc => hblank c (List.mem_cons_of_mem _ hc)

/-- A word that stands for a token becomes that token. -/
theorem scanEnd_word {letters : List Char} {token : Token} (h : wordToken? letters = some token)
    (tokens : List Token) {rest : List Char} (hrest : Bounded rest) :
    scanEnd (.word letters) tokens rest = scanEnd .between (token :: tokens) rest := by
  have hfinish : Scan.finish? tokens (.word letters) = some (token :: tokens) := by
    simp only [Scan.finish?, h, Option.map_some]
  refine scanEnd_of_finish hfinish ?_ hrest
  intro c hl _
  simp only [scanStep, hl, Bool.false_eq_true, if_false, hfinish, Option.bind_some]

/-! ## Numbers

    A numeral is scanned character by character into a buffer, and read when it ends.  That it is read as
    itself is what the numerals have been shown before; here its characters are shown to be gathered. -/

/-- Digits continue a number, -/
theorem continuesNumber_of_isDigit {c : Char} (h : c.isDigit = true) : continuesNumber c = true := by
  simp only [continuesNumber, h, Bool.true_or]

/-- so all of a written number does, -/
theorem continuesNumber_of_mem_toDigits {n : Nat} {c : Char} (h : c ∈ Nat.toDigits 10 n) :
    continuesNumber c = true :=
  continuesNumber_of_isDigit (Numeral.isDigit_of_mem_toDigits h)

/-- with its sign if it has one, -/
theorem continuesNumber_of_mem_repr {value : Int} {c : Char} (h : c ∈ value.repr.toList) :
    continuesNumber c = true := by
  rw [Numeral.toList_repr_int] at h
  rcases List.mem_append.mp h with hsign | hdigits
  · split at hsign
    · rw [List.mem_singleton.mp hsign]
      decide
    · exact absurd hsign (by simp)
  · exact continuesNumber_of_mem_toDigits hdigits

/-- and so does a fraction with its exponent. -/
theorem continuesNumber_of_mem_fractionChars {fraction : List Digit} {c : Char}
    (h : c ∈ Numeral.fractionChars fraction) : continuesNumber c = true := by
  cases fraction with
  | nil => exact absurd h (by simp [Numeral.fractionChars])
  | cons digit others =>
    rcases List.mem_cons.mp h with rfl | h
    · decide
    · obtain ⟨digit, -, rfl⟩ := List.mem_map.mp h
      have hdigit : (Nat.digitChar digit.val).isDigit = true := by
        rw [Nat.isDigit_digitChar]
        exact decide_eq_true digit.isLt
      exact continuesNumber_of_isDigit hdigit

/-- A digit or a minus sign stands first, and characters of a number follow. -/
def StartsNumber (chars : List Char) : Prop :=
  ∃ c rest, chars = c :: rest ∧ (c.isDigit = true ∨ c = '-') ∧
    ∀ d ∈ rest, continuesNumber d = true

/-- A sign or a digit starts a number, and what continues it may follow. -/
theorem startsNumber_append (negative : Bool) (n : Nat) (rest : List Char)
    (hrest : ∀ d ∈ rest, continuesNumber d = true) :
    StartsNumber ((if negative then ['-'] else []) ++ Nat.toDigits 10 n ++ rest) := by
  have hall : ∀ d ∈ Nat.toDigits 10 n ++ rest, continuesNumber d = true := by
    intro d hd
    rcases List.mem_append.mp hd with hd | hd
    · exact continuesNumber_of_mem_toDigits hd
    · exact hrest d hd
  cases negative with
  | true => exact ⟨'-', Nat.toDigits 10 n ++ rest, by simp, Or.inr rfl, hall⟩
  | false =>
    obtain ⟨c, others, hcons, hc, -⟩ := Numeral.exists_toDigits n
    refine ⟨c, others ++ rest, by simp [hcons], Or.inl hc, ?_⟩
    intro d hd
    exact hall d (by rw [hcons]; exact List.mem_cons_of_mem _ hd)

/-- Every numeral starts as a number does. -/
theorem startsNumber_chars (value : Numeral) : StartsNumber value.chars := by
  cases value with
  | integer value =>
    have hstarts := startsNumber_append (decide (value < 0)) value.natAbs [] (by simp)
    rw [List.append_nil] at hstarts
    show StartsNumber value.repr.toList
    rw [Numeral.toList_repr_int]
    simpa only [decide_eq_true_eq] using hstarts
  | decimal value =>
    have hrest : ∀ d ∈ Numeral.fractionChars value.fraction ++ 'e' :: value.exponent.repr.toList,
        continuesNumber d = true := by
      intro d hd
      rcases List.mem_append.mp hd with hd | hd
      · exact continuesNumber_of_mem_fractionChars hd
      · rcases List.mem_cons.mp hd with rfl | hd
        · decide
        · exact continuesNumber_of_mem_repr hd
    have hstarts := startsNumber_append value.negative value.whole _ hrest
    simpa only [Numeral.chars, Nat.repr_eq_ofList_toDigits, String.toList_ofList,
      List.append_assoc] using hstarts

/-- Characters that continue a number are gathered. -/
theorem scanEnd_number {more : List Char} (hmore : ∀ c ∈ more, continuesNumber c = true)
    (seen : List Char) (tokens : List Token) (rest : List Char) :
    scanEnd (.number seen) tokens (more ++ rest) =
      scanEnd (.number (more.reverse ++ seen)) tokens rest := by
  induction more generalizing seen with
  | nil => rfl
  | cons c more ih =>
    have hc : scanStep (.number seen) tokens c = some (.number (c :: seen), tokens) := by
      show (if continuesNumber c = true then _ else _) = _
      rw [if_pos (hmore c (List.mem_cons_self ..))]
    rw [List.cons_append, scanEnd_cons, hc, Option.bind_some,
      ih fun d hd => hmore d (List.mem_cons_of_mem _ hd)]
    simp

/-- **A numeral becomes its token**, where it ends. -/
theorem scanEnd_chars (value : Numeral) (tokens : List Token) {rest : List Char}
    (hrest : Bounded rest) :
    scanEnd .between tokens (value.chars ++ rest) = scanEnd .between (.number value :: tokens) rest := by
  obtain ⟨c, more, hchars, hc, hmore⟩ := startsNumber_chars value
  have hfresh : scanStep .between tokens c = some (.number [c], tokens) := by
    have hblank : isBlank c = false := by
      rcases hc with hc | rfl
      · unfold isBlank
        simp only [Bool.or_eq_false_iff, decide_eq_false_iff_not]
        refine ⟨⟨⟨?_, ?_⟩, ?_⟩, ?_⟩ <;> rintro rfl <;> exact absurd hc (by decide)
      · decide
    show scanFresh tokens c = _
    unfold scanFresh
    rw [hblank, if_neg (by simp), if_pos (by simpa using hc)]
  have hread := Numeral.ofChars?_chars value
  have hfinish : Scan.finish? tokens (.number (more.reverse ++ [c])) = some (.number value :: tokens) := by
    simp only [Scan.finish?, List.reverse_append, List.reverse_reverse, List.reverse_singleton,
      List.singleton_append, ← hchars, hread, Option.map_some]
  rw [hchars, List.cons_append, scanEnd_cons, hfresh, Option.bind_some, scanEnd_number hmore]
  refine scanEnd_of_finish hfinish ?_ hrest
  intro d _ hn
  simp only [scanStep, hn, Bool.false_eq_true, if_false, hfinish, Option.bind_some]

/-! ## String literals

    Each character is escaped on its own, and each escape gives the character back; the literal follows by
    induction over the text. -/

/-- A string literal so far, all of whose surrogates are paired. -/
def PartialText.plain (chars : List Char) : PartialText :=
  { chars, lead := none, paired := true }

/-- The digits of a hexadecimal number have the values they were written for. -/
theorem hexValue?_digitChar : ∀ digit < 16, hexValue? (Nat.digitChar digit) = some digit := by
  decide

/-- A code below U+0020 is no surrogate. -/
theorem PartialText.pushCode_plain (chars : List Char) {code : Nat} (h : code < 0x20) :
    (plain chars).pushCode code = plain (Char.ofNat code :: chars) := by
  have hhigh : isHighSurrogate code = false := by
    unfold isHighSurrogate
    simp only [Bool.and_eq_false_iff, decide_eq_false_iff_not]
    omega
  have hlow : isLowSurrogate code = false := by
    unfold isLowSurrogate
    simp only [Bool.and_eq_false_iff, decide_eq_false_iff_not]
    omega
  unfold pushCode
  rw [hhigh, hlow]
  rfl

/-- What one character is written as puts that character behind those before it. -/
theorem scanEnd_escapedChar (chars : List Char) (tokens : List Token) (c : Char)
    (rest : List Char) :
    scanEnd (.text (.plain chars)) tokens (escapedChar c ++ rest) =
      scanEnd (.text (.plain (c :: chars))) tokens rest := by
  unfold escapedChar
  split
  case h_8 hquote hslash _ _ _ _ _ =>
    split
    · next hc =>
      have hhigh := hexValue?_digitChar (c.toNat / 16) (by omega)
      have hlow := hexValue?_digitChar (c.toNat % 16) (by omega)
      have hcode : 16 * (16 * 0 + c.toNat / 16) + c.toNat % 16 = c.toNat := by omega
      have hpush := PartialText.pushCode_plain chars hc
      rw [Char.ofNat_toNat] at hpush
      show scanEnd (.unicode (.plain chars) 2 0) tokens (_ :: _ :: rest) = _
      rw [scanEnd_cons]
      simp only [scanStep, hhigh, Option.map_some, Option.bind_some]
      rw [if_neg (by decide), scanEnd_cons]
      simp only [scanStep, hlow, Option.map_some, Option.bind_some]
      rw [if_pos (by decide), hcode, hpush]
    · next hc =>
      rw [List.singleton_append, scanEnd_cons]
      simp only [scanStep]
      rw [if_neg hquote, if_neg hslash, if_neg hc]
      rfl
  -- the characters with an escape of one letter
  all_goals rfl

/-- An escaped text is gathered as the text. -/
theorem scanEnd_escaped (text chars : List Char) (tokens : List Token) (rest : List Char) :
    scanEnd (.text (.plain chars)) tokens (text.flatMap escapedChar ++ rest) =
      scanEnd (.text (.plain (text.reverse ++ chars))) tokens rest := by
  induction text generalizing chars with
  | nil => rfl
  | cons c text ih =>
    rw [List.flatMap_cons, List.append_assoc, scanEnd_escapedChar, ih]
    simp

/-- A string literal is one token, also if it has no text. -/
theorem scanEnd_stringLiteral (value : JsonText) (tokens : List Token) (rest : List Char) :
    scanEnd .between tokens (stringLiteral value ++ rest) =
      scanEnd .between (.string value :: tokens) rest := by
  cases value with
  | none => rfl
  | some text =>
    have hclose : (PartialText.plain text.toList.reverse).close = some text := by
      show some (String.ofList text.toList.reverse.reverse) = some text
      rw [List.reverse_reverse, String.ofList_toList]
    show scanEnd (.text (.plain [])) tokens
      ((text.toList.flatMap escapedChar ++ ['"']) ++ rest) = _
    rw [List.append_assoc, scanEnd_escaped, List.append_nil, List.singleton_append, scanEnd_cons]
    show scanEnd .between (.string (PartialText.plain text.toList.reverse).close :: tokens) rest = _
    rw [hclose]

/-! ## Values

    A value is printed as its tokens with white space between them.  The three statements, of values, items
    and members, are proved together, in the recursion of the printer. -/

namespace Json

mutual

/-- The tokens of a value. -/
def tokens : Json → List Token
  | .null => [.null]
  | .bool value => [.bool value]
  | .number value => [.number value]
  | .string value => [.string value]
  | .array [] => [.openBracket, .closeBracket]
  | .array (item :: rest) => .openBracket :: item.tokens ++ itemTokens rest ++ [.closeBracket]
  | .object [] => [.openBrace, .closeBrace]
  | .object ((key, value) :: rest) =>
    .openBrace :: .string key :: .colon :: value.tokens ++ memberTokens rest ++ [.closeBrace]

/-- The tokens of the items after the first. -/
def itemTokens : List Json → List Token
  | [] => []
  | item :: rest => .comma :: item.tokens ++ itemTokens rest

/-- The tokens of the members after the first. -/
def memberTokens : List (JsonText × Json) → List Token
  | [] => []
  | (key, value) :: rest => .comma :: .string key :: .colon :: value.tokens ++ memberTokens rest

end

end Json

/-- A layout that adds nothing but white space. -/
structure Layout.IsBlank (layout : Layout) : Prop where
  line : ∀ depth, ∀ c ∈ layout.line depth, GuardedReach.isBlank c = true
  gap : ∀ c ∈ layout.gap, GuardedReach.isBlank c = true

/-- The compact layout puts nothing between tokens. -/
theorem Layout.isBlank_compact : Layout.compact.IsBlank where
  line := by
    intro depth c hc
    exact absurd hc (by simp [compact])
  gap := by
    intro c hc
    exact absurd hc (by simp [compact])

/-- The pretty one puts blanks and line feeds. -/
theorem Layout.isBlank_pretty : Layout.pretty.IsBlank where
  line := by
    intro depth c hc
    rcases List.mem_cons.mp hc with rfl | hc
    · decide
    · rw [List.eq_of_mem_replicate hc]
      decide
  gap := by
    intro c hc
    rw [List.mem_singleton.mp hc]
    decide

namespace Json

variable {layout : Layout}

/-- Items after the first begin with a comma, and without any a container ends. -/
theorem bounded_printItems (depth : Nat) (items : List Json) {rest : List Char}
    (hrest : Bounded rest) : Bounded (printItems layout depth items ++ rest) := by
  cases items with
  | nil => exact hrest
  | cons item items => exact bounded_cons (by decide) (by decide) _

/-- What the members of an object begin with ends any token before it. -/
theorem bounded_printMembers (depth : Nat) (members : List (JsonText × Json)) {rest : List Char}
    (hrest : Bounded rest) : Bounded (printMembers layout depth members ++ rest) := by
  cases members with
  | nil => exact hrest
  | cons member members => exact bounded_cons (by decide) (by decide) _

mutual

/-- **A printed value is scanned as its tokens.** -/
theorem scanEnd_print (h : layout.IsBlank) : ∀ (value : Json) (depth : Nat) (tokens : List Token)
    (rest : List Char), Bounded rest →
      scanEnd .between tokens (value.print layout depth ++ rest) =
        scanEnd .between (value.tokens.reverse ++ tokens) rest
  | .null, _, tokens, _, hrest => scanEnd_word rfl tokens hrest
  | .bool true, _, tokens, _, hrest => scanEnd_word rfl tokens hrest
  | .bool false, _, tokens, _, hrest => scanEnd_word rfl tokens hrest
  | .number value, _, tokens, _, hrest => by
    rw [print]
    exact scanEnd_chars value tokens hrest
  | .string value, _, tokens, rest, _ => by
    rw [print]
    exact scanEnd_stringLiteral value tokens rest
  | .array [], _, _, _, _ => rfl
  | .array (item :: items), depth, tokens, rest, hrest => by
    -- a number in the last place is ended by the line or by the bracket behind it
    have hend : Bounded (layout.line depth ++ (']' :: rest)) :=
      bounded_append (h.line depth) (bounded_cons (by decide) (by decide) rest)
    have hitem := scanEnd_print h item (depth + 1) (.openBracket :: tokens)
      (printItems layout (depth + 1) items ++ (layout.line depth ++ (']' :: rest)))
      (bounded_printItems (depth + 1) items hend)
    have hitems := scanEnd_printItems h items (depth + 1)
      (item.tokens.reverse ++ .openBracket :: tokens) _ hend
    simp only [print, List.append_assoc, List.cons_append, List.nil_append]
    show scanEnd .between (.openBracket :: tokens) _ = _
    rw [scanEnd_blanks (h.line (depth + 1)), hitem, hitems, scanEnd_blanks (h.line depth)]
    show scanEnd .between (.closeBracket :: _) rest = _
    simp [Json.tokens]
  | .object [], _, _, _, _ => rfl
  | .object ((key, value) :: members), depth, tokens, rest, hrest => by
    have hend : Bounded (layout.line depth ++ ('}' :: rest)) :=
      bounded_append (h.line depth) (bounded_cons (by decide) (by decide) rest)
    have hvalue := scanEnd_print h value (depth + 1) (.colon :: .string key :: .openBrace :: tokens)
      (printMembers layout (depth + 1) members ++ (layout.line depth ++ ('}' :: rest)))
      (bounded_printMembers (depth + 1) members hend)
    have hmembers := scanEnd_printMembers h members (depth + 1)
      (value.tokens.reverse ++ .colon :: .string key :: .openBrace :: tokens) _ hend
    simp only [print, List.append_assoc, List.cons_append, List.nil_append]
    show scanEnd .between (.openBrace :: tokens) _ = _
    rw [scanEnd_blanks (h.line (depth + 1)), scanEnd_stringLiteral]
    show scanEnd .between (.colon :: .string key :: .openBrace :: tokens) _ = _
    rw [scanEnd_blanks h.gap, hvalue, hmembers, scanEnd_blanks (h.line depth)]
    show scanEnd .between (.closeBrace :: _) rest = _
    simp [Json.tokens]

/-- The items of an array are scanned as their tokens. -/
theorem scanEnd_printItems (h : layout.IsBlank) : ∀ (items : List Json) (depth : Nat)
    (tokens : List Token) (rest : List Char), Bounded rest →
      scanEnd .between tokens (printItems layout depth items ++ rest) =
        scanEnd .between ((itemTokens items).reverse ++ tokens) rest
  | [], _, _, _, _ => rfl
  | item :: items, depth, tokens, rest, hrest => by
    have hitem := scanEnd_print h item depth (.comma :: tokens)
      (printItems layout depth items ++ rest) (bounded_printItems depth items hrest)
    have hitems := scanEnd_printItems h items depth
      (item.tokens.reverse ++ .comma :: tokens) rest hrest
    simp only [printItems, List.append_assoc, List.cons_append]
    show scanEnd .between (.comma :: tokens) _ = _
    rw [scanEnd_blanks (h.line depth), hitem, hitems]
    simp [itemTokens]

/-- The members of an object are scanned as theirs. -/
theorem scanEnd_printMembers (h : layout.IsBlank) : ∀ (members : List (JsonText × Json))
    (depth : Nat) (tokens : List Token) (rest : List Char), Bounded rest →
      scanEnd .between tokens (printMembers layout depth members ++ rest) =
        scanEnd .between ((memberTokens members).reverse ++ tokens) rest
  | [], _, _, _, _ => rfl
  | (key, value) :: members, depth, tokens, rest, hrest => by
    have hvalue := scanEnd_print h value depth (.colon :: .string key :: .comma :: tokens)
      (printMembers layout depth members ++ rest) (bounded_printMembers depth members hrest)
    have hmembers := scanEnd_printMembers h members depth
      (value.tokens.reverse ++ .colon :: .string key :: .comma :: tokens) rest hrest
    simp only [printMembers, List.append_assoc, List.cons_append]
    show scanEnd .between (.comma :: tokens) _ = _
    rw [scanEnd_blanks (h.line depth), scanEnd_stringLiteral]
    show scanEnd .between (.colon :: .string key :: .comma :: tokens) _ = _
    rw [scanEnd_blanks h.gap, hvalue, hmembers]
    simp [memberTokens]

end

/-- White space may follow. -/
theorem tokens?_print (h : layout.IsBlank) (value : Json) (depth : Nat) {blanks : List Char}
    (hblank : ∀ c ∈ blanks, isBlank c = true) :
    tokens? (value.print layout depth ++ blanks) = some value.tokens := by
  have hend : Bounded (blanks ++ []) := bounded_append hblank bounded_nil
  have hscan := scanEnd_print h value depth [] (blanks ++ []) hend
  rw [scanEnd_blanks hblank, List.append_nil, List.append_nil] at hscan
  rw [tokens?_eq, hscan]
  show some value.tokens.reverse.reverse = _
  rw [List.reverse_reverse]

end Json

end GuardedReach
