/-
  The arguments of the command line.

  The first argument names a subcommand; options follow in any order, each at most once.  An option
  with a value takes it behind an equals sign or as the next argument, which then must not look like
  an option; one with a short letter also takes `-p value`, `-pvalue` and `-p=value`.  A final `--`
  is allowed and says nothing.

  Reading goes from front to back and stops at the first argument that settles the matter.  A request
  for help is granted if all that stands before it can be understood, whatever stands behind it;
  anything else that is no option, or not the value that its option takes, is refused.
-/
import GuardedReach.Machine.Word
import GuardedReach.Puzzle.Basic

namespace GuardedReach

/-! ## Values

    A value is read as soon as its option is, so that one that cannot be read is refused before the
    arguments behind it are looked at. -/

/-- A row of decimal digits, at least one. -/
def natOfDigits? (cs : List Char) : Option Nat :=
  if cs.isEmpty || !cs.all Char.isDigit then none else some (Nat.ofDigitChars 10 cs 0)

/-- A signed 64-bit number, with an optional sign. -/
def int64OfText? (text : String) : Option Int64 := do
  let value ←
    match text.toList with
    | '-' :: digits => (natOfDigits? digits).map fun n => -(n : Int)
    | '+' :: digits => (natOfDigits? digits).map fun n => (n : Int)
    | digits => (natOfDigits? digits).map fun n => (n : Int)
  wordOfInt? value

/-- An unsigned 64-bit number, with an optional plus sign. -/
def countOfText? (text : String) : Option Nat := do
  let value ←
    match text.toList with
    | '+' :: digits => natOfDigits? digits
    | digits => natOfDigits? digits
  if value < UInt64.size then return value else none

/-- A path, which must not be empty. -/
def pathOfText? (text : String) : Option String :=
  if text = "" then none else some text

/-- What an option takes. -/
inductive ValueKind where
  /-- A signed 64-bit number. -/
  | number
  /-- An unsigned 64-bit number. -/
  | count
  /-- The path of a file. -/
  | path
deriving DecidableEq

/-- What an option has been given. -/
inductive OptionValue where
  | number (value : Int64)
  | count (value : Nat)
  | path (value : String)
  /-- The option takes nothing, and it is there. -/
  | present
deriving DecidableEq

/-- The value that a text stands for. -/
def ValueKind.read? : ValueKind → String → Option OptionValue
  | number, text => (int64OfText? text).map .number
  | count, text => (countOfText? text).map .count
  | path, text => (pathOfText? text).map .path

/-! ## Options

    What a subcommand knows is a list of specifications.  The options of its arguments become settings,
    in the order in which they were given. -/

/-- An option that a subcommand knows. -/
structure OptionSpec where
  /-- The name behind two hyphens. -/
  name : String
  /-- The letter behind one hyphen. -/
  letter : Option Char
  /-- The kind of its value, if it takes one. -/
  kind : Option ValueKind
deriving DecidableEq

/-- What an option with or without a text behind it has been given. -/
def OptionSpec.value? (spec : OptionSpec) (text : Option String) : Option OptionValue :=
  match spec.kind, text with
  | none, none => some .present
  | some kind, some text => kind.read? text
  | _, _ => none

/-- An option by its name, and what it was given. -/
abbrev Setting := String × OptionValue

/-- What an argument says about an option. -/
inductive OptionUse where
  /-- The option alone. -/
  | bare (spec : OptionSpec)
  | withValue (spec : OptionSpec) (text : String)

/-- What has been read from arguments, or why they were not read to their end. -/
inductive Reading (α : Type) where
  | read (value : α)
  /-- They ask for help, or for the version of the program. -/
  | help
  /-- They cannot be understood. -/
  | misread
deriving DecidableEq

namespace Reading

/-- Goes on with what has been read. -/
def bind {α β : Type} (reading : Reading α) (next : α → Reading β) : Reading β :=
  match reading with
  | read value => next value
  | help => help
  | misread => misread

/-- What has been read, if anything has. -/
def read? {α : Type} : Reading α → Option α
  | read value => some value
  | help | misread => none

/-- What is read in two parts is read in each. -/
theorem exists_read_of_bind {α β : Type} {reading : Reading α} {next : α → Reading β} {result : β}
    (h : reading.bind next = read result) :
    ∃ value, reading = read value ∧ next value = read result := by
  cases reading with
  | read value => exact ⟨value, rfl, h⟩
  | help => cases h
  | misread => cases h

/-- What goes on without asking for help asks for it only if it has done so before. -/
theorem bind_eq_help_iff {α β : Type} {reading : Reading α} {next : α → Reading β}
    (h : ∀ value, next value ≠ help) : reading.bind next = help ↔ reading = help := by
  cases reading with
  | read value => exact ⟨fun hnext => absurd hnext (h value), nofun⟩
  | help => exact ⟨fun _ => rfl, fun _ => rfl⟩
  | misread => exact ⟨nofun, nofun⟩

end Reading

/-- Splits `name=value` at the first equals sign. -/
def splitEquals (cs : List Char) : List Char × Option (List Char) :=
  match cs.dropWhile (· ≠ '=') with
  | '=' :: value => (cs.takeWhile (· ≠ '='), some value)
  | _ => (cs, none)

/-- The option that an argument uses. -/
def optionUse? (specs : List OptionSpec) (argument : String) : Option OptionUse :=
  match argument.toList with
  | '-' :: '-' :: cs =>
    let (name, value) := splitEquals cs
    (specs.find? fun spec => spec.name = String.ofList name).map fun spec =>
      match value with
      | none => .bare spec
      | some value => .withValue spec (String.ofList value)
  | '-' :: letter :: cs =>
    (specs.find? fun spec => spec.letter = some letter).map fun spec =>
      match cs with
      | [] => .bare spec
      | '=' :: value => .withValue spec (String.ofList value)
      | value => .withValue spec (String.ofList value)
  | _ => none

/-- Whether an argument may be the value of the option before it: a lone hyphen may. -/
def isPlainValue (argument : String) : Bool :=
  match argument.toList with
  | '-' :: _ :: _ => false
  | _ => true

/-- Whether an argument makes a request by name, or by a letter, behind which anything may stand. -/
def asksFor (name : String) (letter : Char) (argument : String) : Bool :=
  match argument.toList with
  | '-' :: '-' :: cs => cs = name.toList
  | '-' :: first :: _ => first = letter
  | _ => false

def asksForHelp : String → Bool :=
  asksFor "help" 'h'

/-- A request for the version is granted like one for help. -/
def asksForVersion : String → Bool :=
  asksFor "version" 'V'

/-- Adds a setting, whose option must not have been given before. -/
def addSetting (settings : List Setting) (spec : OptionSpec) (text : Option String) :
    Option (List Setting) :=
  if (settings.map Prod.fst).contains spec.name then none
  else (spec.value? text).map fun value => settings ++ [(spec.name, value)]

/-- Reads options up to the end of the arguments. -/
def readSettings (specs : List OptionSpec) (settings : List Setting) :
    List String → Reading (List Setting)
  | [] => .read settings
  | argument :: rest =>
    if argument = "--" then if rest.isEmpty then .read settings else .misread
    else if asksForHelp argument then .help
    else
      match optionUse? specs argument with
      | none => .misread
      | some (.withValue spec text) =>
        match addSetting settings spec (some text) with
        | none => .misread
        | some settings => readSettings specs settings rest
      | some (.bare spec) =>
        if spec.kind = none then
          match addSetting settings spec none with
          | none => .misread
          | some settings => readSettings specs settings rest
        else
          -- the value is the next argument
          match rest with
          | [] => .misread
          | text :: rest =>
            if isPlainValue text then
              match addSetting settings spec (some text) with
              | none => .misread
              | some settings => readSettings specs settings rest
            else .misread

/-! ## Commands

    A command is what is left when the arguments are understood, with what was not given filled in. -/

/-- How a search is to be run and shown. -/
structure SearchOptions where
  maxStates : Option Nat
  /-- Whether the report is to be JSON. -/
  json : Bool
deriving DecidableEq

/-- The measures of a two-jug puzzle. -/
structure JugOptions where
  small : Int64
  big : Int64
  goal : Int64
deriving DecidableEq

/-- What the command line asks for. -/
inductive Command where
  /-- Solve the two-jug puzzle. -/
  | jugs (measures : JugOptions) (options : SearchOptions)
  /-- Solve the puzzle in a file. -/
  | run (path : String) (options : SearchOptions)
  /-- Print the two-jug puzzle. -/
  | template (measures : JugOptions)
deriving DecidableEq

namespace Command

/-- The options that set the measures of two jugs, -/
def jugSpecs : List OptionSpec :=
  [{ name := "small", letter := none, kind := some .number },
    { name := "big", letter := none, kind := some .number },
    { name := "goal", letter := none, kind := some .number }]

/-- those of a search, -/
def searchSpecs : List OptionSpec :=
  [{ name := "max-states", letter := none, kind := some .count },
    { name := "json", letter := none, kind := none }]

/-- and the one that names a file. -/
def puzzleSpecs : List OptionSpec :=
  [{ name := "puzzle", letter := some 'p', kind := some .path }]

/-- A number among the settings, or what it is when not given. -/
def measure (settings : List Setting) (name : String) (absent : Int64) : Int64 :=
  match settings.lookup name with
  | some (.number value) => value
  | _ => absent

/-- The measures, or those of the well-known puzzle where they are not given. -/
def jugOptions (settings : List Setting) : JugOptions :=
  { small := measure settings "small" 3
    big := measure settings "big" 5
    goal := measure settings "goal" 4 }

/-- The budget, if one is given, and whether to answer in JSON. -/
def searchOptions (settings : List Setting) : SearchOptions :=
  { maxStates :=
      match settings.lookup "max-states" with
      | some (.count budget) => some budget
      | _ => none
    json := (settings.lookup "json").isSome }

/-- The path of the puzzle, which has to be given. -/
def puzzlePath? (settings : List Setting) : Option String :=
  match settings.lookup "puzzle" with
  | some (.path path) => some path
  | _ => none

/-- The subcommands, of each of which help can be asked for by its name. -/
def subcommands : List String :=
  ["jugs", "run", "template", "help"]

/-- **The program**: what the arguments ask for. -/
def ofArguments : List String → Reading Command
  | "jugs" :: rest =>
    (readSettings (jugSpecs ++ searchSpecs) [] rest).bind fun settings =>
      .read (.jugs (jugOptions settings) (searchOptions settings))
  | "run" :: rest =>
    (readSettings (puzzleSpecs ++ searchSpecs) [] rest).bind fun settings =>
      match puzzlePath? settings with
      | some path => .read (.run path (searchOptions settings))
      | none => .misread
  | "template" :: rest =>
    (readSettings jugSpecs [] rest).bind fun settings => .read (.template (jugOptions settings))
  | "help" :: rest => if rest = [] ∨ ∃ name ∈ subcommands, rest = [name] then .help else .misread
  | argument :: _ => if asksForHelp argument || asksForVersion argument then .help else .misread
  | [] => .misread

/-- The command in the arguments, if there is one. -/
def ofArguments? (arguments : List String) : Option Command :=
  (ofArguments arguments).read?

end Command

/-! ## Running the program

    An option by its letter, a value that looks like an option, and a request for help. -/

example : Command.ofArguments ["run", "-p=a.json", "--max-states", "+7"] =
    .read (.run "a.json" { maxStates := some 7, json := false }) := by decide +kernel
example : Command.ofArguments ["template", "--small", "-3"] = .misread := by decide +kernel
example : Command.ofArguments ["jugs", "--json", "-h", "four"] = .help := by decide +kernel
example : Command.ofArguments ["jugs", "--goal=four", "-h"] = .misread := by decide +kernel

end GuardedReach
