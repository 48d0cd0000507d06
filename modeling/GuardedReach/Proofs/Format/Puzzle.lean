/-
  Puzzle files read back — saving a puzzle loses nothing, whatever is in it.

  1. **Decoding** — the JSON forms of registers, of actions and of whole puzzles are decoded to what
     they were made of.  A puzzle need not be one that can be built, and its names may be any text.

  2. **Bytes** — a text is what its UTF-8 bytes decode to (`fromUTF8?_toUTF8`).

  3. **Statement** — `Puzzle.saved_reads_back`.  Reading also builds, so a puzzle that cannot be built
     is refused by its name and with the reason, though it was decoded.
-/
import GuardedReach.Proofs.Format.Fields
import GuardedReach.Proofs.Json.RoundTrip
import GuardedReach.Proofs.Puzzle.Search
import GuardedReach.Puzzle.File

namespace GuardedReach

/-! ## Decoding

    No check of the puzzle is made in decoding, so none is assumed. -/

/-- A register is written with its initial value, also if it is zero. -/
theorem RegisterDecl.ofJson?_toJson (decl : RegisterDecl) : ofJson? decl.toJson = some decl := by
  unfold ofJson? toJson
  rw [Json.record?_record ["name", "initial"] rfl (by decide)]
  simp [Json.int64?_ofInt]

/-- An action reads back, however many instructions it has. -/
theorem ActionDecl.ofJson?_toJson (decl : ActionDecl) : ofJson? decl.toJson = some decl := by
  have hinstructions : (Json.ofList Instruction.toJson decl.instructions).list? Instruction.ofJson? =
      some decl.instructions := Json.list?_ofList fun ins _ => ins.ofJson?_toJson
  unfold ofJson? toJson
  rw [Json.record?_record ["name", "instructions"] rfl (by decide)]
  simp [hinstructions]

namespace Puzzle

/-- A puzzle reads back, sound or not, -/
theorem ofJson?_toJson (p : Puzzle) : ofJson? p.toJson = some p := by
  have hregisters : (Json.ofList RegisterDecl.toJson p.registers).list? RegisterDecl.ofJson? =
      some p.registers := Json.list?_ofList fun decl _ => decl.ofJson?_toJson
  have hactions : (Json.ofList ActionDecl.toJson p.actions).list? ActionDecl.ofJson? =
      some p.actions := Json.list?_ofList fun decl _ => decl.ofJson?_toJson
  have htarget : (Json.ofList Instruction.toJson p.target).list? Instruction.ofJson? =
      some p.target := Json.list?_ofList fun ins _ => ins.ofJson?_toJson
  unfold ofJson? toJson
  rw [Json.record?_record ["name", "registers", "actions", "target"] rfl (by decide)]
  simp [hregisters, hactions, htarget]

/-- and so does the text that is saved of it. -/
theorem decode?_fileText (p : Puzzle) : decode? p.fileText = some p :=
  (Json.readsBack_of_decode p.ofJson?_toJson).2

/-! ## Bytes

    What is written is bytes and what is decoded is a text, so between the two stands the encoding. -/

/-- The bytes of a text are valid and decode to the text. -/
theorem fromUTF8?_toUTF8 (text : String) : String.fromUTF8? text.toUTF8 = some text := by
  unfold String.fromUTF8?
  rw [dif_pos (by simpa using text.isValidUTF8)]
  rfl

/-- A file that holds the text of a puzzle is loaded as that text is read. -/
theorem load_fileText {read : String → Except ReadFault ByteArray} {path : String} {p : Puzzle}
    (h : read path = .ok p.fileText.toUTF8) : load read path = ofText p.fileText := by
  unfold load
  rw [h]
  simp only [fromUTF8?_toUTF8]

/-- If a puzzle has been saved, its text has been written. -/
theorem write_of_save {Files : Type} {write : Files → String → ByteArray → Except ReadFault Files}
    {p : Puzzle} {path : String} {files after : Files} (h : p.save write path files = .ok after) :
    write files path p.fileText.toUTF8 = .ok after := by
  unfold save at h
  split at h
  · exact absurd h (by simp)
  · next files' hwrite => rw [hwrite, Except.ok.inj h]

/-- Its text is refused only for what building finds. -/
theorem ofText_fileText (p : Puzzle) :
    ofText p.fileText =
      match p.build with
      | .error reason => .error (.invalid p.name reason)
      | .ok _ => .ok p := by
  cases hbuild : p.build <;> simp [ofText, decode?_fileText, hbuild]

/-! ## Statement

    Saving never asks whether the puzzle can be built.  Loading does, so what it gives depends on that. -/

/-- **What was saved reads back.**  The text of a puzzle is decoded to that puzzle.  Reading it gives
    the puzzle if it can be built; otherwise it gives the puzzle's name and the reason why it cannot.
    So does loading it from where it was saved, with any files of which a path that was written to
    gives the bytes that were written. -/
theorem saved_reads_back (p : Puzzle) :
    decode? p.fileText = some p ∧
    (∀ built, p.build = .ok built → ofText p.fileText = .ok p) ∧
    (∀ reason, p.build = .error reason → ofText p.fileText = .error (.invalid p.name reason)) ∧
    ∀ (Files : Type) (read : Files → String → Except ReadFault ByteArray)
      (write : Files → String → ByteArray → Except ReadFault Files),
      (∀ files path bytes after, write files path bytes = .ok after → read after path = .ok bytes) →
      ∀ path files after, p.save write path files = .ok after →
        (∀ built, p.build = .ok built → load (read after) path = .ok p) ∧
        (∀ reason, p.build = .error reason →
          load (read after) path = .error (.invalid p.name reason)) := by
  have hgood : ∀ built, p.build = .ok built → ofText p.fileText = .ok p := by
    intro built hbuild
    rw [ofText_fileText, hbuild]
  have hbad : ∀ reason, p.build = .error reason →
      ofText p.fileText = .error (.invalid p.name reason) := by
    intro reason hbuild
    rw [ofText_fileText, hbuild]
  refine ⟨p.decode?_fileText, hgood, hbad, ?_⟩
  intro Files read write hkeeps path files after hsave
  have hread := hkeeps files path p.fileText.toUTF8 after (write_of_save hsave)
  rw [load_fileText hread]
  exact ⟨hgood, hbad⟩

/-- A puzzle whose names need escapes and whose numbers are extreme.  It can be built if the initial
    values are not too many. -/
def awkward (initials : List Int64) : Puzzle :=
  { name := "a \"quoted\" \\ name\x00\n\t\x7f\u00e9\u2028😀"
    registers := initials.map fun initial => { name := "", initial }
    actions := [{ name := "\x1f", instructions := [.boundedTransfer 0 0 Int64.minValue] },
      { name := "/", instructions := [] }]
    target := [.lessThan 0 Int64.maxValue] }

/-- Files as a list of what was written, latest first. -/
def writtenFirst (files : List (String × ByteArray)) (path : String) (bytes : ByteArray) :
    Except ReadFault (List (String × ByteArray)) :=
  .ok ((path, bytes) :: files)

/-- Reading what has been written: the latest under the path. -/
def readWritten (files : List (String × ByteArray)) (path : String) : Except ReadFault ByteArray :=
  match files.lookup path with
  | some bytes => .ok bytes
  | none => .error .notFound

/-- With two extreme registers it is saved and loaded; with none it is saved, and refused when it is
    loaded. -/
theorem awkward_reads_back :
    ∃ good bad : List (String × ByteArray),
      (awkward [Int64.minValue, Int64.maxValue]).save writtenFirst "p" [] = .ok good ∧
      load (readWritten good) "p" = .ok (awkward [Int64.minValue, Int64.maxValue]) ∧
      (awkward []).save writtenFirst "p" good = .ok bad ∧
      load (readWritten bad) "p" =
        .error (.invalid (awkward []).name (.machine (.invalidWidth 0))) ∧
      decode? (awkward []).fileText = some (awkward []) := by
  have hkeeps : ∀ files path bytes after, writtenFirst files path bytes = .ok after →
      readWritten after path = .ok bytes := by
    intro files path bytes after h
    obtain rfl := Except.ok.inj h
    simp [readWritten]
  have hbuilt : (awkward [Int64.minValue, Int64.maxValue]).build.toOption.isSome = true := by
    decide +kernel
  obtain ⟨built, hsome⟩ := Option.isSome_iff_exists.mp hbuilt
  have hgood := eq_ok_of_toOption hsome
  have hbad : (awkward []).build = .error (.machine (.invalidWidth 0)) := rfl
  obtain ⟨-, -, -, hload⟩ := saved_reads_back (awkward [Int64.minValue, Int64.maxValue])
  obtain ⟨hdecode, -, -, hrefuse⟩ := saved_reads_back (awkward [])
  exact ⟨_, _, rfl, (hload _ readWritten writtenFirst hkeeps "p" [] _ rfl).1 built hgood, rfl,
    (hrefuse _ readWritten writtenFirst hkeeps "p" _ _ rfl).2 _ hbad, hdecode⟩

end Puzzle

end GuardedReach
