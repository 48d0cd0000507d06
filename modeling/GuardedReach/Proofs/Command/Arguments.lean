/-
  Arguments read back — every command can be asked for, and so can help.

  1. **Values** — a number is read from its decimal text (`int64OfText?_repr`, `countOfText?_repr`).

  2. **Options** — `written name value` is the form with an equals sign, in which a value may begin with
     a hyphen, as negative numbers do.  An option that was not given before adds its value to the
     settings (`readSettings_written`).

  3. **Reading** — `Understood` says of arguments that they are options, one behind the other.  Reading
     ends behind the last one, at a request for help or at something else (`readSettings_ends`).  So help
     is given exactly if one argument asks for it and all that stands before it is understood
     (`readSettings_eq_help_iff`).

  4. **Commands** — `JugOptions.arguments` and `SearchOptions.arguments` write what a command can ask
     for, and the arguments of the three commands are read as what was written.
-/
import GuardedReach.Command.Arguments
import GuardedReach.Proofs.Json.Numeral

namespace GuardedReach

/-! ## Values

    The decimal digits of a number are read back as the number; a sign in front is told from them. -/

/-- The digits of a number read back. -/
theorem natOfDigits?_toDigits (n : Nat) : natOfDigits? (Nat.toDigits 10 n) = some n := by
  have hne : (Nat.toDigits 10 n).isEmpty = false := List.isEmpty_eq_false_iff.mpr Nat.toDigits_ne_nil
  have hall : (Nat.toDigits 10 n).all Char.isDigit = true :=
    List.all_eq_true.mpr fun c hc => Numeral.isDigit_of_mem_toDigits hc
  unfold natOfDigits?
  rw [hne, hall]
  exact congrArg some Nat.ofDigitChars_ten_toDigits

/-- A word is read from its text, with its sign if it is negative. -/
theorem int64OfText?_repr (word : Int64) : int64OfText? word.toInt.repr = some word := by
  have hword := wordOfInt?_toInt word
  have hdigits := natOfDigits?_toDigits word.toInt.natAbs
  unfold int64OfText?
  rw [Numeral.toList_repr_int]
  by_cases hneg : word.toInt < 0
  · have habs : -(word.toInt.natAbs : Int) = word.toInt := by omega
    rw [if_pos hneg, List.singleton_append]
    simp only [hdigits, Option.pure_def, Option.bind_eq_bind, Option.bind_some, Option.map_some, habs,
      hword]
  · have habs : (word.toInt.natAbs : Int) = word.toInt := by omega
    obtain ⟨c, rest, hcons, -, hminus, hplus⟩ := Numeral.exists_toDigits word.toInt.natAbs
    rw [if_neg hneg, List.nil_append]
    split
    · next heq => exact absurd (List.cons.inj (hcons.symm.trans heq)).1 hminus
    · next heq => exact absurd (List.cons.inj (hcons.symm.trans heq)).1 hplus
    · simp only [hdigits, Option.pure_def, Option.bind_eq_bind, Option.bind_some, Option.map_some, habs,
      hword]

/-- A count is read from its text if it fits 64 bits. -/
theorem countOfText?_repr {n : Nat} (h : n < UInt64.size) : countOfText? n.repr = some n := by
  have hdigits := natOfDigits?_toDigits n
  obtain ⟨c, rest, hcons, -, -, hplus⟩ := Numeral.exists_toDigits n
  rw [hcons] at hdigits
  unfold countOfText?
  rw [Nat.repr_eq_ofList_toDigits, String.toList_ofList, hcons]
  split
  · next heq => exact absurd (List.cons.inj heq).1 hplus
  · simp [hdigits, h]

/-! ## Options

    An option with its value behind an equals sign is one argument, whatever the value begins with. -/

/-- An option with its value behind an equals sign. -/
def written (name value : String) : String :=
  "--" ++ name ++ "=" ++ value

/-- The characters of an option with its value. -/
theorem toList_written (name value : String) :
    (written name value).toList = '-' :: '-' :: (name.toList ++ '=' :: value.toList) := by
  simp [written, String.toList_append]

/-- The first equals sign divides the name from the value. -/
theorem splitEquals_append {name : List Char} (hname : '=' ∉ name) (value : List Char) :
    splitEquals (name ++ '=' :: value) = (name, some value) := by
  have hbefore : ∀ c ∈ name, decide (c ≠ '=') = true := by
    intro c hc
    refine decide_eq_true ?_
    rintro rfl
    exact hname hc
  have hstop : ('=' :: value).dropWhile (fun c => decide (c ≠ '=')) = '=' :: value := rfl
  have htake : ('=' :: value).takeWhile (fun c => decide (c ≠ '=')) = [] := rfl
  unfold splitEquals
  rw [List.dropWhile_append_of_pos hbefore, List.takeWhile_append_of_pos hbefore, hstop, htake,
    List.append_nil]
  rfl

/-- Such an argument is read as the option and its value, whatever stands in the value. -/
theorem optionUse?_written {specs : List OptionSpec} {spec : OptionSpec}
    (hname : '=' ∉ spec.name.toList)
    (hfind : (specs.find? fun other => other.name = spec.name) = some spec) (value : String) :
    optionUse? specs (written spec.name value) = some (.withValue spec value) := by
  unfold optionUse?
  simp only [toList_written, splitEquals_append hname, String.ofList_toList, hfind, Option.map_some]

/-- It makes no request: the name of one holds no equals sign. -/
theorem asksForHelp_written (name value : String) : asksForHelp (written name value) = false := by
  unfold asksForHelp asksFor
  rw [toList_written]
  refine decide_eq_false fun heq => ?_
  have hm : '=' ∈ "help".toList := by
    rw [← heq]
    exact List.mem_append_right _ (List.mem_cons_self ..)
  exact absurd hm (by decide)

/-- An option that is new adds what it was given, if that is what it takes. -/
theorem addSetting_of_fresh {settings : List Setting} {spec : OptionSpec}
    (hnew : spec.name ∉ settings.map Prod.fst) {text : Option String} {value : OptionValue}
    (hvalue : spec.value? text = some value) :
    addSetting settings spec text = some (settings ++ [(spec.name, value)]) := by
  unfold addSetting
  rw [if_neg (fun hold => hnew (List.contains_iff_mem.mp hold)), hvalue]
  rfl

theorem lookup_of_fresh {settings : List Setting} {name : String}
    (hnew : name ∉ settings.map Prod.fst) : settings.lookup name = none := by
  induction settings with
  | nil => rfl
  | cons setting settings ih =>
    rw [List.map_cons, List.mem_cons, not_or] at hnew
    obtain ⟨hne, hrest⟩ := hnew
    rw [List.lookup_cons, beq_false_of_ne hne]
    exact ih hrest

/-- An option that is known and new adds its value to the settings. -/
theorem readSettings_written {specs : List OptionSpec} (spec : OptionSpec)
    (hname : '=' ∉ spec.name.toList)
    (hfind : (specs.find? fun other => other.name = spec.name) = some spec) {settings : List Setting}
    (hnew : spec.name ∉ settings.map Prod.fst) {text : String} {value : OptionValue}
    (hvalue : spec.value? (some text) = some value) (rest : List String) :
    readSettings specs settings (written spec.name text :: rest) =
      readSettings specs (settings ++ [(spec.name, value)]) rest := by
  have hne : written spec.name text ≠ "--" := by
    intro heq
    have hlength := congrArg (fun text => text.toList.length) heq
    simp [toList_written] at hlength
  rw [readSettings, if_neg hne, asksForHelp_written]
  simp only [optionUse?_written hname hfind, Bool.false_eq_true, if_false,
    addSetting_of_fresh hnew hvalue]

/-! ## Reading

    The options in front of the arguments are taken one by one.  An induction along the reader, with one
    case for each of its branches, tells how it comes to an end; what holds of an end is then the same
    behind any option in front. -/

/-- What one option takes from the front of the arguments, and what it makes of the settings. -/
inductive Takes (specs : List OptionSpec) (settings : List Setting) :
    List String → List Setting → Prop
  /-- Its value is in the same argument. -/
  | attached {argument text : String} {spec : OptionSpec} {next : List Setting}
      (hmore : argument ≠ "--") (hrequest : asksForHelp argument = false)
      (huse : optionUse? specs argument = some (.withValue spec text))
      (hadd : addSetting settings spec (some text) = some next) : Takes specs settings [argument] next
  /-- It takes none. -/
  | flag {argument : String} {spec : OptionSpec} {next : List Setting}
      (hmore : argument ≠ "--") (hrequest : asksForHelp argument = false)
      (huse : optionUse? specs argument = some (.bare spec)) (hkind : spec.kind = none)
      (hadd : addSetting settings spec none = some next) : Takes specs settings [argument] next
  /-- Its value is the next argument. -/
  | separate {argument text : String} {spec : OptionSpec} {next : List Setting}
      (hmore : argument ≠ "--") (hrequest : asksForHelp argument = false)
      (huse : optionUse? specs argument = some (.bare spec)) (hkind : spec.kind ≠ none)
      (hplain : isPlainValue text = true)
      (hadd : addSetting settings spec (some text) = some next) :
      Takes specs settings [argument, text] next

/-- Arguments that are options, one behind the other, and the settings they amount to. -/
inductive Understood (specs : List OptionSpec) : List Setting → List String → List Setting → Prop
  | nil {settings : List Setting} : Understood specs settings [] settings
  | cons {settings next final : List Setting} {taken rest : List String}
      (h : Takes specs settings taken next) (hrest : Understood specs next rest final) :
      Understood specs settings (taken ++ rest) final

section

variable {specs : List OptionSpec} {settings next final : List Setting} {front arguments : List String}

/-- Reading goes on behind an option. -/
theorem Takes.readSettings_append {taken : List String} (h : Takes specs settings taken next)
    (back : List String) :
    readSettings specs settings (taken ++ back) = readSettings specs next back := by
  cases h with
  | attached hmore hrequest huse hadd =>
    rw [List.singleton_append, readSettings, if_neg hmore, hrequest]
    simp only [Bool.false_eq_true, if_false, huse, hadd]
  | flag hmore hrequest huse hkind hadd =>
    rw [List.singleton_append, readSettings, if_neg hmore, hrequest]
    simp only [Bool.false_eq_true, if_false, huse, hkind, if_true, hadd]
  | separate hmore hrequest huse hkind hplain hadd =>
    rw [List.cons_append, List.singleton_append, readSettings, if_neg hmore, hrequest]
    simp only [Bool.false_eq_true, if_false, huse, hkind, hplain, if_true, hadd]

/-- Reading goes on behind any number of them. -/
theorem Understood.readSettings_append (h : Understood specs settings front final)
    (back : List String) :
    readSettings specs settings (front ++ back) = readSettings specs final back := by
  induction h with
  | nil => rfl
  | cons htakes _ ih => rw [List.append_assoc, htakes.readSettings_append, ih]

/-- How reading ends: behind the last option, at a request for help, or at something else. -/
inductive Ends (specs : List OptionSpec) (settings : List Setting) (arguments : List String) :
    Reading (List Setting) → Prop
  | read {front : List String} {final : List Setting} (h : Understood specs settings front final)
      (hall : arguments = front ∨ arguments = front ++ ["--"]) :
      Ends specs settings arguments (.read final)
  | help {front back : List String} {request : String} {final : List Setting}
      (h : Understood specs settings front final) (hsplit : arguments = front ++ request :: back)
      (hrequest : asksForHelp request = true) : Ends specs settings arguments .help
  | misread : Ends specs settings arguments .misread

/-- An option in front changes nothing about the end. -/
theorem Takes.ends {taken : List String} {reading : Reading (List Setting)}
    (h : Takes specs settings taken next) (hends : Ends specs next arguments reading) :
    Ends specs settings (taken ++ arguments) reading := by
  cases hends with
  | read hrest hall =>
    refine .read (.cons h hrest) ?_
    rcases hall with rfl | rfl
    · exact Or.inl rfl
    · exact Or.inr (List.append_assoc ..).symm
  | help hrest hsplit hrequest =>
    subst hsplit
    exact .help (.cons h hrest) (List.append_assoc ..).symm hrequest
  | misread => exact .misread

/-- **Reading ends in one of these ways.** -/
theorem readSettings_ends (specs : List OptionSpec) (settings : List Setting)
    (arguments : List String) :
    Ends specs settings arguments (readSettings specs settings arguments) := by
  fun_induction readSettings specs settings arguments
  case case1 => exact .read .nil (Or.inl rfl)
  case case2 hempty =>
    rw [List.isEmpty_iff.mp hempty]
    exact .read .nil (Or.inr rfl)
  case case4 hrequest => exact .help .nil rfl hrequest
  case case7 hmore hrequest _ _ huse _ hadd ih =>
    exact (Takes.attached hmore (eq_false_of_ne_true hrequest) huse hadd).ends ih
  case case9 hmore hrequest _ huse hkind _ hadd ih =>
    exact (Takes.flag hmore (eq_false_of_ne_true hrequest) huse hkind hadd).ends ih
  case case12 hmore hrequest _ huse hkind _ _ hplain _ hadd ih =>
    exact (Takes.separate hmore (eq_false_of_ne_true hrequest) huse hkind hplain hadd).ends ih
  all_goals exact .misread

/-- Arguments ask for help if one of them does and all that stands before it can be understood. -/
def AsksForHelp (specs : List OptionSpec) (arguments : List String) : Prop :=
  ∃ front request back settings, arguments = front ++ request :: back ∧
    Understood specs [] front settings ∧ asksForHelp request = true

/-- **Help is given exactly if it is asked for.** -/
theorem readSettings_eq_help_iff :
    readSettings specs [] arguments = .help ↔ AsksForHelp specs arguments := by
  constructor
  · intro hread
    have hends := readSettings_ends specs [] arguments
    rw [hread] at hends
    cases hends with
    | help h hsplit hrequest => exact ⟨_, _, _, _, hsplit, h, hrequest⟩
  · rintro ⟨front, request, back, final, rfl, h, hrequest⟩
    have hmore : request ≠ "--" := by
      rintro rfl
      exact absurd hrequest (by decide)
    rw [h.readSettings_append, readSettings, if_neg hmore, if_pos hrequest]

end

/-! ## Commands

    What the measures of the jugs and the options of a search are written as is read as the settings they
    amount to, one option after the other. -/

/-- The arguments that give the measures. -/
def JugOptions.arguments (measures : JugOptions) : List String :=
  [written "small" measures.small.toInt.repr, written "big" measures.big.toInt.repr,
    written "goal" measures.goal.toInt.repr]

/-- The settings that the measures amount to. -/
def JugOptions.settings (measures : JugOptions) : List Setting :=
  [("small", .number measures.small), ("big", .number measures.big), ("goal", .number measures.goal)]

/-- The arguments that say how to search. -/
def SearchOptions.arguments (options : SearchOptions) : List String :=
  (options.maxStates.elim [] fun budget => [written "max-states" budget.repr]) ++
    if options.json then ["--json"] else []

/-- The settings that they amount to. -/
def SearchOptions.settings (options : SearchOptions) : List Setting :=
  (options.maxStates.elim [] fun budget => [("max-states", .count budget)]) ++
    if options.json then [("json", .present)] else []

namespace Command

/-- A number is what its text was written for. -/
theorem value?_number (name : String) (letter : Option Char) (word : Int64) :
    OptionSpec.value? { name, letter, kind := some .number } (some word.toInt.repr) =
      some (.number word) :=
  congrArg (Option.map OptionValue.number) (int64OfText?_repr word)

/-- The three measures are read in whatever follows them. -/
theorem readSettings_jugs (more : List OptionSpec) (measures : JugOptions) (rest : List String) :
    readSettings (jugSpecs ++ more) [] (measures.arguments ++ rest) =
      readSettings (jugSpecs ++ more) measures.settings rest := by
  show readSettings _ [] (written "small" _ :: written "big" _ :: written "goal" _ :: rest) = _
  rw [readSettings_written { name := "small", letter := none, kind := some .number }
      (by decide) (by simp [jugSpecs]) (by simp) (value?_number ..),
    readSettings_written { name := "big", letter := none, kind := some .number }
      (by decide) (by simp [jugSpecs]) (by simp) (value?_number ..),
    readSettings_written { name := "goal", letter := none, kind := some .number }
      (by decide) (by simp [jugSpecs]) (by simp) (value?_number ..)]
  rfl

/-- The options of a search are known where they stand behind others. -/
theorem find?_searchSpecs {specs : List OptionSpec} {spec : OptionSpec} (hspec : spec ∈ searchSpecs)
    (hspecs : ∀ other ∈ specs, other.name ≠ spec.name) :
    ((specs ++ searchSpecs).find? fun other => other.name = spec.name) = some spec := by
  have hnone : (specs.find? fun other => other.name = spec.name) = none := by
    rw [List.find?_eq_none]
    intro other hother
    simpa using hspecs other hother
  rw [List.find?_append, hnone, Option.none_or]
  simp only [searchSpecs, List.mem_cons, List.not_mem_nil, or_false] at hspec
  rcases hspec with rfl | rfl <;> rfl

/-- Where no option of a search has been given, all of them can be. -/
theorem readSettings_search {specs : List OptionSpec}
    (hspecs : ∀ spec ∈ searchSpecs, ∀ other ∈ specs, other.name ≠ spec.name)
    {settings : List Setting}
    (hnew : ∀ spec ∈ searchSpecs, spec.name ∉ settings.map Prod.fst) {options : SearchOptions}
    (hmax : ∀ budget ∈ options.maxStates, budget < UInt64.size) :
    readSettings (specs ++ searchSpecs) settings options.arguments =
      .read (settings ++ options.settings) := by
  have hbudget : { name := "max-states", letter := none, kind := some .count } ∈ searchSpecs := by
    decide
  have hjson : { name := "json", letter := none, kind := none } ∈ searchSpecs := by decide
  -- the flag alone, behind any settings that do not have it
  have hflag : ∀ settings : List Setting, "json" ∉ settings.map Prod.fst →
      readSettings (specs ++ searchSpecs) settings (if options.json then ["--json"] else []) =
        .read (settings ++ if options.json then [("json", .present)] else []) := by
    intro settings hnew
    have huse : optionUse? (specs ++ searchSpecs) "--json" =
        some (.bare { name := "json", letter := none, kind := none }) :=
      congrArg (Option.map OptionUse.bare) (find?_searchSpecs hjson (hspecs _ hjson))
    have hadd : addSetting settings { name := "json", letter := none, kind := none } none =
        some (settings ++ [("json", .present)]) := addSetting_of_fresh hnew rfl
    have hrequest : asksForHelp "--json" = false := by decide
    cases options.json with
    | false => simp [readSettings]
    | true =>
      show readSettings _ settings ["--json"] = _
      rw [readSettings, if_neg (by decide), hrequest]
      simp only [huse, hadd, Bool.false_eq_true, if_false, readSettings, if_true]
  unfold SearchOptions.arguments SearchOptions.settings
  cases hbound : options.maxStates with
  | none => exact hflag settings (hnew _ hjson)
  | some budget =>
    have hcount : OptionSpec.value? { name := "max-states", letter := none, kind := some .count }
        (some budget.repr) = some (.count budget) :=
      congrArg (Option.map OptionValue.count) (countOfText?_repr (hmax budget hbound))
    show readSettings _ settings
      (written "max-states" budget.repr :: if options.json then ["--json"] else []) = _
    rw [readSettings_written _ (by decide) (find?_searchSpecs hbudget (hspecs _ hbudget))
      (hnew _ hbudget) hcount, hflag, List.append_assoc]
    · rfl
    · have hother : "json" ∉ ["max-states"] := by decide
      rw [List.map_append, List.mem_append, not_or]
      exact ⟨hnew _ hjson, hother⟩

/-- The measures of the jugs are not options of a search. -/
theorem fresh_jugs (measures : JugOptions) :
    ∀ spec ∈ searchSpecs, spec.name ∉ measures.settings.map Prod.fst := by
  show ∀ spec ∈ searchSpecs, spec.name ∉ ["small", "big", "goal"]
  decide

/-- Neither is the path of a puzzle. -/
theorem fresh_puzzle (path : String) :
    ∀ spec ∈ searchSpecs, spec.name ∉ [("puzzle", OptionValue.path path)].map Prod.fst := by
  show ∀ spec ∈ searchSpecs, spec.name ∉ ["puzzle"]
  decide

/-- Whatever stands behind them, the measures are found. -/
theorem jugOptions_settings (measures : JugOptions) (more : List Setting) :
    jugOptions (measures.settings ++ more) = measures := by
  simp [jugOptions, JugOptions.settings, measure, List.lookup_cons]

/-- Settings of other options leave the options of a search as they are. -/
theorem searchOptions_settings {settings : List Setting}
    (hnew : ∀ spec ∈ searchSpecs, spec.name ∉ settings.map Prod.fst) (options : SearchOptions) :
    searchOptions (settings ++ options.settings) = options := by
  obtain ⟨maxStates, json⟩ := options
  have hm : settings.lookup "max-states" = none :=
    lookup_of_fresh (hnew { name := "max-states", letter := none, kind := some .count } (by decide))
  have hj : settings.lookup "json" = none :=
    lookup_of_fresh (hnew { name := "json", letter := none, kind := none } (by decide))
  unfold searchOptions
  rw [List.lookup_append, List.lookup_append, hm, hj]
  cases maxStates with
  | none => cases json <;> rfl
  | some budget => cases json <;> rfl

/-! ## Statement

    The three commands are told apart by the subcommand; the rest is that the settings read are those
    written, and that each option is found among them. -/

/-- **Every command can be asked for.** -/
theorem ofArguments?_template (measures : JugOptions) :
    ofArguments? ("template" :: measures.arguments) = some (.template measures) := by
  have hread := readSettings_jugs [] measures []
  have hjugs := jugOptions_settings measures []
  simp only [List.append_nil] at hread hjugs
  simp only [ofArguments?, ofArguments, hread, readSettings, Reading.bind, hjugs, Reading.read?]

/-- The arguments that a search of two jugs is written with ask for it, -/
theorem ofArguments?_jugs (measures : JugOptions) {options : SearchOptions}
    (hmax : ∀ budget ∈ options.maxStates, budget < UInt64.size) :
    ofArguments? ("jugs" :: (measures.arguments ++ options.arguments)) =
      some (.jugs measures options) := by
  have hread : readSettings (jugSpecs ++ searchSpecs) [] (measures.arguments ++ options.arguments) =
      .read (measures.settings ++ options.settings) := by
    rw [readSettings_jugs]
    exact readSettings_search (by decide) (fresh_jugs measures) hmax
  have hsearch := searchOptions_settings (fresh_jugs measures) options
  simp only [ofArguments?, ofArguments, hread, Reading.bind, jugOptions_settings, hsearch,
    Reading.read?]

/-- and those of a search of a file ask for that. -/
theorem ofArguments?_run {path : String} (hpath : path ≠ "") {options : SearchOptions}
    (hmax : ∀ budget ∈ options.maxStates, budget < UInt64.size) :
    ofArguments? ("run" :: written "puzzle" path :: options.arguments) =
      some (.run path options) := by
  have hvalue : OptionSpec.value? { name := "puzzle", letter := some 'p', kind := some .path }
      (some path) = some (.path path) :=
    congrArg (Option.map OptionValue.path) (if_neg hpath)
  have hread : readSettings (puzzleSpecs ++ searchSpecs) []
      (written "puzzle" path :: options.arguments) =
        .read ([("puzzle", .path path)] ++ options.settings) := by
    rw [readSettings_written { name := "puzzle", letter := some 'p', kind := some .path }
      (by decide) (by simp [puzzleSpecs]) (by simp) hvalue]
    exact readSettings_search (by decide) (fresh_puzzle path) hmax
  have hsearch := searchOptions_settings (fresh_puzzle path) options
  have hlookup : puzzlePath? ([("puzzle", .path path)] ++ options.settings) = some path := rfl
  simp only [ofArguments?, ofArguments, hread, Reading.bind, hlookup, hsearch, Reading.read?]

end Command

end GuardedReach
