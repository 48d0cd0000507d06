/-
  The lines of a report — names are printed as they are, and a line feed in a name ends a line.

  1. **Lines** — `breaks text` is the number of line feeds in a text, and `FallsInto text lines` says that
     the text consists of these lines, each ended by a line feed and holding none.  A text falls into
     lines in one way at most (`FallsInto.unique`).

  2. **Texts shown** — whatever else is in a line is fixed or a number, so the line feeds in it are those
     of the texts it shows: of a step its action and the names of its registers (`Step.texts`), of a
     report its heading as well (`Report.texts`).

  3. **Statement** — `lines_exact`.  A witness and a report fall into the lines they are made of exactly
     if no text shown holds a line feed; otherwise there are more lines by as many as there are line feeds.
     A name can then pass off a line of its own for one of the report's (`forged_result_line`).
-/
import GuardedReach.Proofs.Goal.Text
import GuardedReach.Proofs.Puzzle.Search
import GuardedReach.Report.Text

namespace GuardedReach

/-! ## Lines

    A line feed ends a line, so lines are counted by their ends.  A text without a line feed adds no line,
    wherever it is put. -/

/-- The number of line feeds in a text. -/
def breaks (text : String) : Nat :=
  text.toList.count '\n'

/-- The number of line feeds in several texts. -/
def breaksOf : List String → Nat
  | [] => 0
  | text :: texts => breaks text + breaksOf texts

/-- Of a fixed text its characters are counted as they are written. -/
theorem breaks_ofList (chars : List Char) : breaks (String.ofList chars) = chars.count '\n' := by
  rw [breaks, String.toList_ofList]

/-- Of two texts in a row the line feeds add up. -/
@[simp] theorem breaks_append (front back : String) : breaks (front ++ back) = breaks front + breaks back := by
  unfold breaks
  rw [String.toList_append, List.count_append]

/-- There is none in no texts. -/
@[simp] theorem breaksOf_nil : breaksOf [] = 0 := rfl

/-- One text more adds its own. -/
@[simp] theorem breaksOf_cons (text : String) (texts : List String) :
    breaksOf (text :: texts) = breaks text + breaksOf texts := rfl

/-- A text that has none can be left out. -/
theorem breaksOf_cons_of_eq_zero {text : String} (h : breaks text = 0) (texts : List String) :
    breaksOf (text :: texts) = breaksOf texts := by
  rw [breaksOf_cons, h, Nat.zero_add]

/-- They add up over lists of texts as well. -/
@[simp] theorem breaksOf_append (front back : List String) :
    breaksOf (front ++ back) = breaksOf front + breaksOf back := by
  induction front with
  | nil => exact (Nat.zero_add _).symm
  | cons text texts ih => rw [List.cons_append, breaksOf_cons, breaksOf_cons, ih, Nat.add_assoc]

/-- No line feed is counted exactly if none is there. -/
theorem breaks_eq_zero_iff {text : String} : breaks text = 0 ↔ '\n' ∉ text.toList :=
  List.count_eq_zero

/-- The same of several texts. -/
theorem breaksOf_eq_zero_iff {texts : List String} :
    breaksOf texts = 0 ↔ ∀ text ∈ texts, '\n' ∉ text.toList := by
  induction texts with
  | nil => simp
  | cons text texts ih => simp [ih, breaks_eq_zero_iff]

/-- A number is written in digits. -/
@[simp] theorem breaks_repr (n : Nat) : breaks n.repr = 0 :=
  breaks_eq_zero_iff.mpr (not_mem_repr (by decide) n)

/-- With a sign it has no line feed either. -/
@[simp] theorem breaks_repr_int (n : Int) : breaks n.repr = 0 :=
  breaks_eq_zero_iff.mpr (not_mem_repr_int (by decide) (by decide) n)

/-- Blanks fill a line up, but do not end it. -/
theorem breaks_blanks (n : Nat) : breaks (String.ofList (List.replicate n ' ')) = 0 := by
  simp [breaks_eq_zero_iff]

/-- So padding changes nothing, on the left, -/
@[simp] theorem breaks_padLeft (width : Nat) (text : String) : breaks (padLeft width text) = breaks text := by
  rw [padLeft, breaks_append, breaks_blanks, Nat.zero_add]

/-- and on the right. -/
@[simp] theorem breaks_padRight (width : Nat) (text : String) :
    breaks (padRight width text) = breaks text := by
  rw [padRight, breaks_append, breaks_blanks, Nat.add_zero]

/-- If the separator has none, joined texts have those of the pieces. -/
theorem breaks_intercalate {separator : String} (h : breaks separator = 0) (texts : List String) :
    breaks (separator.intercalate texts) = breaksOf texts := by
  induction texts with
  | nil => rfl
  | cons text rest ih =>
    cases rest with
    | nil => simp
    | cons next rest =>
      rw [String.intercalate_cons_cons, breaks_append, breaks_append, h, ih, Nat.add_zero]
      exact (breaksOf_cons ..).symm

/-- Each line has the line feed at its end besides its own. -/
theorem breaks_unlines (lines : List String) : breaks (unlines lines) = lines.length + breaksOf lines := by
  induction lines with
  | nil => rfl
  | cons line rest ih =>
    have hcons : unlines (line :: rest) = line ++ "\n" ++ unlines rest := String.join_cons
    have hfeed : breaks "\n" = 1 := rfl
    rw [hcons, breaks_append, breaks_append, hfeed, ih, List.length_cons, breaksOf_cons]
    omega

/-- The text consists of these lines. -/
def FallsInto (text : String) (lines : List String) : Prop :=
  text = unlines lines ∧ ∀ line ∈ lines, '\n' ∉ line.toList

/-- However a text falls into lines, they are as many as its line feeds. -/
theorem FallsInto.length_eq {text : String} {lines : List String} (h : FallsInto text lines) :
    lines.length = breaks text := by
  rw [h.1, breaks_unlines, breaksOf_eq_zero_iff.mpr h.2]
  rfl

/-- The characters of the first line, the line feed that ends it, and the rest. -/
theorem toList_unlines_cons (line : String) (rest : List String) :
    (unlines (line :: rest)).toList = line.toList ++ '\n' :: (unlines rest).toList := by
  have hcons : unlines (line :: rest) = line ++ "\n" ++ unlines rest := String.join_cons
  rw [hcons, String.toList_append, String.toList_append, List.append_assoc]
  rfl

/-- **There is one way at most**: the first line feed ends the first line, since the line itself has none.
    -/
theorem FallsInto.unique {text : String} {lines others : List String} (h : FallsInto text lines)
    (h' : FallsInto text others) : lines = others := by
  obtain ⟨rfl, hlines⟩ := h
  obtain ⟨heq, hothers⟩ := h'
  -- line by line: what stands before the first line feed is the same in both
  induction lines generalizing others with
  | nil =>
    cases others with
    | nil => rfl
    | cons other rest' =>
      have hchars := congrArg String.toList heq
      rw [toList_unlines_cons] at hchars
      exact absurd hchars.symm (by simp [unlines])
  | cons line rest ih =>
    cases others with
    | nil =>
      have hchars := congrArg String.toList heq
      rw [toList_unlines_cons] at hchars
      exact absurd hchars (by simp [unlines])
    | cons other rest' =>
      have hchars := congrArg String.toList heq
      rw [toList_unlines_cons, toList_unlines_cons] at hchars
      obtain ⟨hline, hrest⟩ := eq_and_eq_of_append_cons_eq (hlines line (List.mem_cons_self ..))
        (hothers other (List.mem_cons_self ..)) hchars
      rw [String.toList_inj.mp hline, ih (fun l hm => hlines l (List.mem_cons_of_mem _ hm))
        (String.toList_inj.mp hrest) fun l hm => hothers l (List.mem_cons_of_mem _ hm)]

/-- Lines in a row fall into themselves exactly if none of them holds a line feed. -/
theorem fallsInto_unlines_iff {lines : List String} :
    FallsInto (unlines lines) lines ↔ breaksOf lines = 0 :=
  (and_iff_right rfl).trans breaksOf_eq_zero_iff.symm

/-! ## The beginning of a result

    What a line begins with can be read off any text in front of it that is long enough. -/

namespace Report

/-- Whether a line begins as the one does that gives the verdict. -/
def isResult (line : String) : Bool :=
  "Result:".toList.isPrefixOf line.toList

/-- A label in front of a line decides, if it is as long as the beginning asked for. -/
theorem isResult_label {label : List Char} (h : 7 ≤ label.length) (back : String) :
    isResult (String.ofList label ++ back) = "Result:".toList.isPrefixOf label := by
  have hlabel : (String.ofList label).toList = label := String.toList_ofList
  rw [isResult, String.toList_append, hlabel, Bool.eq_iff_iff, List.isPrefixOf_iff_prefix,
    List.isPrefixOf_iff_prefix]
  constructor
  · intro hprefix
    exact List.prefix_of_prefix_length_le hprefix (List.prefix_append ..) h
  · intro hprefix
    exact hprefix.trans (List.prefix_append ..)

/-- Of a fixed text it is decided by the characters as they are written. -/
theorem isResult_ofList (chars : List Char) :
    isResult (String.ofList chars) = "Result:".toList.isPrefixOf chars := by
  have hchars : (String.ofList chars).toList = chars := String.toList_ofList
  rw [isResult, hchars]

end Report

/-! ## Fixed texts

    Whatever a report is about, some of its lines are the same, and each of the others begins with a label.
    What is needed of these texts is proved of all of them at once. -/

namespace Report

/-- The lines that show nothing. -/
def fixedLines : List String :=
  [rule, "", statsHeading, witnessHeading, noWitnessHeading, noWitnessSentence]

/-- What stands in front of the values, but for the verdict. -/
def labels : List String :=
  [ "  Register Search Report: ",
    "Registers:              ",
    "Target:                 ",
    "States discovered:      ",
    "States expanded:        ",
    "Actions applied:        ",
    "Duplicates skipped:     ",
    "Max depth:              ",
    "Frontier peak:          ",
    "Hash collisions:        " ]

-- A text of seventy characters is a list nested as deep.
set_option maxRecDepth 2000 in
/-- A fixed line is one line, and it gives no verdict. -/
theorem plain_fixedLines : ∀ line ∈ fixedLines, breaks line = 0 ∧ isResult line = false := by
  intro line hm
  simp only [fixedLines, List.mem_cons, List.not_mem_nil, or_false] at hm
  rcases hm with rfl | rfl | rfl | rfl | rfl | rfl <;> exact ⟨breaks_ofList _, isResult_ofList _⟩

/-- Among other lines it counts for nothing. -/
theorem breaksOf_cons_fixed : ∀ line ∈ fixedLines, ∀ rest, breaksOf (line :: rest) = breaksOf rest :=
  fun line hm => breaksOf_cons_of_eq_zero (plain_fixedLines line hm).1

/-- A label ends no line, and nothing behind it makes a verdict of it. -/
theorem plain_labels : ∀ label ∈ labels,
    breaks label = 0 ∧ ∀ back, isResult (label ++ back) = false := by
  intro label hm
  simp only [labels, List.mem_cons, List.not_mem_nil, or_false] at hm
  rcases hm with rfl | rfl | rfl | rfl | rfl | rfl | rfl | rfl | rfl | rfl <;>
    exact ⟨breaks_ofList _, fun back => isResult_label (by decide) back⟩

end Report

/-! ## Texts shown

    A line consists of fixed texts, of numbers, and of texts that come from outside.  The last alone can
    hold line feeds, so they are collected, for a step, a witness and a report. -/

/-- Line feeds of lines that are made of the items of a list, each with its position. -/
theorem breaksOf_mapIdx {α : Type} {texts : α → List String} {items : List α} {line : Nat → α → String}
    (h : ∀ position item, breaks (line position item) = breaksOf (texts item)) :
    breaksOf (items.mapIdx line) = breaksOf (items.flatMap texts) := by
  induction items generalizing line with
  | nil => rfl
  | cons item rest ih =>
    rw [List.mapIdx_cons, List.flatMap_cons, breaksOf_cons, breaksOf_append, h,
      ih fun position other => h (position + 1) other]

/-- Those of registers are those of their names. -/
theorem breaksOf_registers {names : List String} {values : List Int64} {shown : Nat → Int64 → String}
    (h : ∀ index value, breaks (shown index value) = breaksOf names[index]?.toList) :
    breaksOf (values.mapIdx shown) = breaksOf (names.take values.length) := by
  induction values generalizing names shown with
  | nil => simp
  | cons value rest ih =>
    rw [List.mapIdx_cons, breaksOf_cons, h]
    cases names with
    | nil =>
      have hrest : breaksOf (rest.mapIdx fun index => shown (index + 1)) =
          breaksOf (([] : List String).take rest.length) := ih fun index other => h (index + 1) other
      rw [hrest, List.take_nil, List.take_nil]
      rfl
    | cons name names =>
      have hrest : breaksOf (rest.mapIdx fun index => shown (index + 1)) =
          breaksOf (names.take rest.length) := ih fun index other => h (index + 1) other
      rw [hrest, List.length_cons, List.take_succ_cons, breaksOf_cons]
      rfl

/-- The line feeds among the registers are those of the names shown; a register without a name shows its
    number. -/
theorem breaks_registersText (names : List String) (s : State) :
    breaks (registersText names s) = breaksOf (names.take s.width) := by
  unfold registersText
  rw [breaks_intercalate rfl, ← s.length_active]
  refine breaksOf_registers fun index value => ?_
  have hequals : breaks "=" = 0 := rfl
  have hnumber : breaks ("r" ++ index.repr) = 0 := by
    rw [breaks_append, breaks_repr]
    rfl
  rw [registerText, breaks_append, breaks_append, breaks_repr_int, hequals, List.getD_eq_getElem?_getD]
  cases names[index]? with
  | none => rw [Option.getD_none, hnumber, Option.toList_none, breaksOf_nil]
  | some name => simp

/-- The texts from outside that the line of a step shows: its action, and the names of its registers. -/
def Step.texts (names : List String) (step : Step) : List String :=
  step.action.toList ++ names.take step.state.width

/-- The texts that a witness shows, step by step. -/
def Witness.texts (names : List String) (w : Witness) : List String :=
  w.steps.flatMap (Step.texts names)

/-- The line of a step has the line feeds of the texts that it shows, and no others. -/
theorem Step.breaks_line (names : List String) (position : Nat) (step : Step) :
    breaks (step.line names position) = breaksOf (step.texts names) := by
  have haction : breaks (step.action.getD "(initial)") = breaksOf step.action.toList := by
    cases step.action with
    | none => rfl
    | some name => simp
  have hindent : breaks "  " = 0 := rfl
  have hdot : breaks ". " = 0 := rfl
  have hblank : breaks " " = 0 := rfl
  simp only [Step.line, Step.texts, breaks_append, breaks_padLeft, breaks_padRight, breaks_repr,
    breaks_registersText, breaksOf_append, haction, hindent, hdot, hblank, Nat.zero_add, Nat.add_zero]

/-- Hence so have all of them together. -/
theorem Witness.breaksOf_lines (names : List String) (w : Witness) :
    breaksOf (w.lines names) = breaksOf (w.texts names) :=
  breaksOf_mapIdx (Step.breaks_line names)

/-- A witness is made of one line for each step. -/
@[simp] theorem Witness.length_lines (names : List String) (w : Witness) :
    (w.lines names).length = w.length :=
  List.length_mapIdx

/-- Only a witness shows any. -/
def Outcome.texts (names : List String) : Outcome → List String
  | .found witness => witness.texts names
  | .exhausted | .truncated => []

namespace Report

/-- The texts from outside that a report shows. -/
def texts (report : Report) : List String :=
  report.puzzle :: report.registerNames ++ report.target :: report.outcome.texts report.registerNames

/-- The number of lines a report is made of. -/
def lineCount (report : Report) : Nat :=
  (match report.outcome with
    | .found witness => 19 + witness.length
    | .exhausted | .truncated => 20) +
  if 0 < report.stats.collisions then 1 else 0

/-- A report is made of as many lines as its outcome, its collisions and its witness ask for. -/
theorem length_lines (report : Report) : report.lines.length = report.lineCount := by
  have hstats : (statsLines report.stats).length =
      8 + if 0 < report.stats.collisions then 1 else 0 := by
    unfold statsLines
    split <;> rfl
  have hheader : report.headerLines.length = 8 := rfl
  have hrule : [rule].length = 1 := rfl
  simp only [lines, witnessLines, lineCount, List.length_append, hstats, hheader, hrule]
  cases report.outcome with
  | found w =>
    simp only [List.length_cons, List.length_append, Witness.length_lines, List.length_nil]
    omega
  | exhausted =>
    simp only [List.length_cons, List.length_nil]
    omega
  | truncated =>
    simp only [List.length_cons, List.length_nil]
    omega

/-- A verdict is made of fixed words and a number. -/
theorem breaks_verdict (outcome : Outcome) : breaks (verdict outcome) = 0 := by
  cases outcome with
  | found w =>
    simp only [verdict, breaks_append, breaks_repr]
    rfl
  | exhausted => exact breaks_ofList _
  | truncated => exact breaks_ofList _

/-- The head shows the name of the puzzle, the names of the registers and the target. -/
theorem breaksOf_headerLines (report : Report) :
    breaksOf report.headerLines =
      breaks report.puzzle + breaksOf report.registerNames + breaks report.target := by
  have hfixed := plain_fixedLines
  have hlabels := plain_labels
  have hresult : breaks "Result:                 " = 0 := breaks_ofList _
  have hnames : breaks (", ".intercalate report.registerNames) = breaksOf report.registerNames :=
    breaks_intercalate rfl _
  simp only [fixedLines, labels, List.forall_mem_cons] at hfixed hlabels
  simp [headerLines, breaks_verdict, hfixed, hlabels, hresult, hnames, Nat.add_assoc]

/-- The counters show nothing from outside. -/
theorem breaksOf_statsLines (stats : Stats) : breaksOf (statsLines stats) = 0 := by
  have hfixed := plain_fixedLines
  have hlabels := plain_labels
  have hslash : breaks " / " = 0 := breaks_ofList _
  have htried : breaks " tried" = 0 := breaks_ofList _
  simp only [fixedLines, labels, List.forall_mem_cons] at hfixed hlabels
  unfold statsLines
  split <;> simp [hfixed, hlabels, hslash, htried]

/-- The last part shows what the witness shows, if there is one. -/
theorem breaksOf_witnessLines (report : Report) :
    breaksOf report.witnessLines = breaksOf (report.outcome.texts report.registerNames) := by
  have hfixed := breaksOf_cons_fixed
  simp only [fixedLines, List.forall_mem_cons] at hfixed
  unfold witnessLines Outcome.texts
  cases report.outcome with
  | found w =>
    simp only [List.cons_append, hfixed, breaksOf_append, w.breaksOf_lines, breaksOf_nil, Nat.add_zero]
  | exhausted => simp only [hfixed]
  | truncated => simp only [hfixed]

/-- What line feeds a report's lines hold are those of the texts it shows. -/
theorem breaksOf_lines (report : Report) : breaksOf report.lines = breaksOf report.texts := by
  have hrule : breaksOf [rule] = 0 := breaksOf_cons_fixed rule (List.mem_cons_self ..) []
  simp only [lines, texts, List.cons_append, breaksOf_append, breaksOf_headerLines, breaksOf_statsLines,
    breaksOf_witnessLines, hrule, breaksOf_cons, Nat.add_zero, Nat.add_assoc]

/-! ## The result line

    Of all the lines that a report is made of, the line with the verdict is the only one that begins as it
    does. -/

/-- The line of a step begins with a blank. -/
theorem isResult_line (names : List String) (position : Nat) (step : Step) :
    isResult (step.line names position) = false := by
  unfold Step.line
  simp only [String.append_assoc]
  rw [isResult, String.toList_append]
  rfl

/-- In the head the verdict is the only one. -/
theorem filter_headerLines (report : Report) :
    report.headerLines.filter isResult = ["Result:                 " ++ verdict report.outcome] := by
  have hfixed := plain_fixedLines
  have hlabels := plain_labels
  have hresult : isResult ("Result:                 " ++ verdict report.outcome) = true :=
    isResult_label (by decide) _
  simp only [fixedLines, labels, List.forall_mem_cons] at hfixed hlabels
  simp [headerLines, hresult, hfixed, hlabels]

/-- Among the counters there is none. -/
theorem filter_statsLines (stats : Stats) : (statsLines stats).filter isResult = [] := by
  have hfixed := plain_fixedLines
  have hlabels := plain_labels
  simp only [fixedLines, labels, List.forall_mem_cons] at hfixed hlabels
  unfold statsLines
  split <;> simp [String.append_assoc, hfixed, hlabels]

/-- There is none in the last part, whatever actions and registers are called. -/
theorem filter_witnessLines (report : Report) : report.witnessLines.filter isResult = [] := by
  have hfixed := plain_fixedLines
  simp only [fixedLines, List.forall_mem_cons] at hfixed
  unfold witnessLines
  cases report.outcome with
  | found w =>
    have hsteps : (w.lines report.registerNames).filter isResult = [] := by
      refine List.filter_eq_nil_iff.mpr fun line hm => ?_
      obtain ⟨position, h, rfl⟩ := List.mem_mapIdx.mp hm
      simp [isResult_line]
    rw [List.filter_append, List.filter_cons_of_neg (by simp [hfixed]), hsteps,
      List.filter_cons_of_neg (by simp [hfixed])]
    rfl
  | exhausted => simp [hfixed]
  | truncated => simp [hfixed]

/-- Of the lines a report is made of, one gives the verdict. -/
theorem filter_lines (report : Report) :
    report.lines.filter isResult = ["Result:                 " ++ verdict report.outcome] := by
  have hrule : [rule].filter isResult = [] :=
    List.filter_cons_of_neg (by simp [(plain_fixedLines rule (List.mem_cons_self ..)).2])
  rw [lines, List.filter_append, List.filter_append, List.filter_append, filter_headerLines,
    filter_statsLines, filter_witnessLines, hrule]
  rfl

end Report

/-- A goal is printed on one line. -/
theorem Goal.not_mem_text (goal : Goal) : '\n' ∉ goal.text.toList := by
  cases goal with
  | predicate holds =>
    have hshown : breaks "<predicate>" = 0 := breaks_ofList _
    exact breaks_eq_zero_iff.mp hshown
  | allOf guards =>
    by_cases hnone : guards = []
    · rw [hnone]
      exact breaks_eq_zero_iff.mp (breaks_ofList _)
    · rw [toList_text_of_ne_nil hnone]
      intro hm
      rcases mem_intercalate_cases hm with hm | ⟨piece, hpiece, hm⟩
      · exact absurd hm (by decide)
      · obtain ⟨ins, -, rfl⟩ := List.mem_map.mp hpiece
        exact Instruction.not_mem_text (by decide) (by decide) (by decide) hm

/-! ## Statement

    What is said of a witness, of a report and of a goal is put together. -/

/-- **The lines of a witness and of a report.**  A witness has one line for each of its states, and one
    more for every line feed in a text it shows; so it falls into the lines of its steps exactly if there
    is none.  A report likewise has a number of lines that depends on the kind of its outcome, on whether
    there were collisions and on the length of its witness, and one more for every line feed in a text it
    shows.  If there is none, then a single line of the report begins as a result does, and it is the
    verdict.  The goal of a search never has any. -/
theorem lines_exact (names : List String) (w : Witness) (report : Report) :
    (breaks (w.text names) = w.length + breaksOf (w.texts names) ∧
      (FallsInto (w.text names) (w.lines names) ↔ ∀ text ∈ w.texts names, '\n' ∉ text.toList)) ∧
    (breaks report.text = report.lineCount + breaksOf report.texts ∧
      (FallsInto report.text report.lines ↔ ∀ text ∈ report.texts, '\n' ∉ text.toList)) ∧
    ((∀ text ∈ report.texts, '\n' ∉ text.toList) → ∀ lines, FallsInto report.text lines →
      lines.filter Report.isResult = ["Result:                 " ++ Report.verdict report.outcome]) ∧
    ∀ goal : Goal, '\n' ∉ goal.text.toList := by
  have hwitness : FallsInto (w.text names) (w.lines names) ↔ ∀ text ∈ w.texts names, '\n' ∉ text.toList := by
    rw [Witness.text, fallsInto_unlines_iff, w.breaksOf_lines, breaksOf_eq_zero_iff]
  have hreport : FallsInto report.text report.lines ↔ ∀ text ∈ report.texts, '\n' ∉ text.toList := by
    rw [Report.text, fallsInto_unlines_iff, report.breaksOf_lines, breaksOf_eq_zero_iff]
  refine ⟨⟨?_, hwitness⟩, ⟨?_, hreport⟩, ?_, Goal.not_mem_text⟩
  · rw [Witness.text, breaks_unlines, w.breaksOf_lines, w.length_lines]
  · rw [Report.text, breaks_unlines, report.breaksOf_lines, report.length_lines]
  · intro hplain lines hlines
    rw [hlines.unique (hreport.mpr hplain)]
    exact report.filter_lines

/-- Seven states on the way to four units in the big one of jugs of three and five, on seven lines of the
    twenty-six of the report. -/
theorem jugs_lines_exact :
    ∃ (system : TransitionSystem) (goal : Goal) (e : Explorer) (finished : Finished) (w : Witness),
      (waterJugs 3 5 4).build = .ok (system, goal) ∧
      Explorer.start system goal Settings.default = .ok e ∧
      e.run (fun _ => false) = .ok finished ∧ finished.outcome = .found w ∧ w.length = 7 ∧
      FallsInto (w.text ["small", "big"]) (w.lines ["small", "big"]) ∧
      breaks (finished.explorer.report "water-jugs" finished.outcome).text = 26 ∧
      (finished.explorer.report "water-jugs" finished.outcome).lines.filter Report.isResult =
        ["Result:                 found in 6 actions"] := by
  have hquery : ((waterJugs 3 5 4).finish Settings.default).any (fun finished =>
      finished.outcome.witness?.any fun w =>
        decide (w.length = 7 ∧ (∀ text ∈ w.texts ["small", "big"], '\n' ∉ text.toList) ∧
          (∀ text ∈ (finished.explorer.report "water-jugs" finished.outcome).texts,
            '\n' ∉ text.toList) ∧
          (finished.explorer.report "water-jugs" finished.outcome).lineCount = 26 ∧
          Report.verdict finished.outcome = "found in 6 actions")) = true := by decide +kernel
  obtain ⟨finished, hfinish, hquery⟩ := (Option.any_eq_true ..).mp hquery
  obtain ⟨w, hsome, hquery⟩ := (Option.any_eq_true ..).mp hquery
  obtain ⟨hlength, hplain, hplain', hcount, hverdict⟩ := of_decide_eq_true hquery
  obtain ⟨system, goal, e, hbuild, hstart, hrun⟩ := Puzzle.exists_of_finish hfinish
  obtain ⟨⟨-, hwitness⟩, ⟨hbreaks, hreport⟩, hresult, -⟩ := lines_exact ["small", "big"] w
    (finished.explorer.report "water-jugs" finished.outcome)
  rw [hcount, breaksOf_eq_zero_iff.mpr hplain'] at hbreaks
  have hresult := hresult hplain' _ (hreport.mpr hplain')
  have hline : "Result:                 " ++
      Report.verdict (finished.explorer.report "water-jugs" finished.outcome).outcome =
        "Result:                 found in 6 actions" :=
    congrArg ("Result:                 " ++ ·) hverdict
  exact ⟨system, goal, e, finished, w, hbuild, hstart, hrun, Explorer.eq_found_of_witness? hsome, hlength,
    hwitness.mpr hplain, hbreaks, hresult.trans (by rw [hline])⟩

/-- A puzzle of one step, whose action has a line feed in its name. -/
def Puzzle.forging : Puzzle :=
  { name := "forging"
    registers := [{ name := "x", initial := 0 }]
    actions :=
      [{ name := "Go\nResult:                 unreachable (space exhausted)"
         instructions := [.assign 0 1] }]
    target := [.equal 0 1] }

/-- The two states of its witness take three lines, and one of them begins as a result does. -/
theorem forged_result_line :
    ∃ (system : TransitionSystem) (goal : Goal) (e : Explorer) (finished : Finished) (w : Witness),
      Puzzle.forging.build = .ok (system, goal) ∧
      Explorer.start system goal Settings.default = .ok e ∧
      e.run (fun _ => false) = .ok finished ∧ finished.outcome = .found w ∧ w.length = 2 ∧
      FallsInto (w.text ["x"])
        ["   0. (initial)        x=0", "   1. Go",
          "Result:                 unreachable (space exhausted) x=1"] ∧
      Report.isResult "Result:                 unreachable (space exhausted) x=1" = true ∧
      ∀ lines, FallsInto (w.text ["x"]) lines → lines.length ≠ w.length := by
  have hquery : (Puzzle.forging.finish Settings.default).any (fun finished =>
      finished.outcome.witness?.any fun w =>
        decide (w.length = 2 ∧ w.lines ["x"] = ["   0. (initial)        x=0",
          "   1. Go\nResult:                 unreachable (space exhausted) x=1"])) = true := by
    decide +kernel
  obtain ⟨finished, hfinish, hquery⟩ := (Option.any_eq_true ..).mp hquery
  obtain ⟨w, hsome, hquery⟩ := (Option.any_eq_true ..).mp hquery
  obtain ⟨hlength, hlines⟩ := of_decide_eq_true hquery
  obtain ⟨system, goal, e, hbuild, hstart, hrun⟩ := Puzzle.exists_of_finish hfinish
  have hfalls : FallsInto (w.text ["x"])
      ["   0. (initial)        x=0", "   1. Go",
        "Result:                 unreachable (space exhausted) x=1"] := by
    refine ⟨?_, breaksOf_eq_zero_iff.mp ?_⟩
    · rw [Witness.text, hlines]
      rfl
    · rw [breaksOf_cons_of_eq_zero (breaks_ofList _), breaksOf_cons_of_eq_zero (breaks_ofList _),
        breaksOf_cons_of_eq_zero (breaks_ofList _), breaksOf_nil]
  refine ⟨system, goal, e, finished, w, hbuild, hstart, hrun, Explorer.eq_found_of_witness? hsome,
    hlength, hfalls, Report.isResult_ofList _, ?_⟩
  intro lines hother
  rw [hother.length_eq, ← hfalls.length_eq, hlength]
  decide

end GuardedReach
