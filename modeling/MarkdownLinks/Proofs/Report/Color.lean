import Mathlib.Data.List.Forall2
import MarkdownLinks.Proofs.Text.Number
import MarkdownLinks.Report.AsText

/-!
# Color in reports for people

Color only puts escape sequences around what a report says.  A colored text is related to a plain
one if the sequences can be taken out of it again whatever follows; a report is colored line by
line in this sense, so that the whole of it is.  The premise is that nothing in the report starts an
escape sequence of its own.
-/

namespace MarkdownLinks

namespace Terminal

/-- The character that an escape sequence starts with. -/
def escape : Char := '\x1b'

/-- Whether a character can stand between the two ends of an escape sequence for colors. -/
def isParameter (c : Char) : Bool :=
  isDigit c || c == ';'

/-- What comes after the escape sequence that a text starts with: the escape character, `[`, any
number of digits and `;`, and `m`. -/
def afterSequence? : Text → Option Text
  | '\x1b' :: '[' :: rest =>
    match rest.dropWhile isParameter with
    | 'm' :: after => some after
    | _ => none
  | _ => none

theorem length_lt_of_afterSequence? {t after : Text} (found : afterSequence? t = some after) :
    after.length < t.length := by
  unfold afterSequence? at found
  split at found
  · next rest =>
    split at found
    · next dropped =>
      cases found
      have shorter := (List.dropWhile_suffix isParameter (l := rest)).length_le
      rw [dropped, List.length_cons] at shorter
      simp only [List.length_cons]
      omega
    · cases found
  · cases found

/-- A text without the escape sequences for colors in it. -/
def withoutSequences (t : Text) : Text :=
  match t with
  | [] => []
  | c :: rest =>
    match found : afterSequence? (c :: rest) with
    | some after =>
      have := length_lt_of_afterSequence? found
      withoutSequences after
    | none => c :: withoutSequences rest
termination_by t.length
decreasing_by
  · assumption
  · exact Nat.lt_succ_self rest.length

example : withoutSequences "a\x1b[33;1mb\x1b[0m[0m\x1b[x".toList = "ab[0m\x1b[x".toList := by
  cbv

theorem withoutSequences_of_afterSequence? {t after : Text}
    (found : afterSequence? t = some after) : withoutSequences t = withoutSequences after := by
  cases t with
  | nil => cases found
  | cons c rest =>
    rw [withoutSequences]
    split
    · next other otherFound =>
      cases found.symm.trans otherFound
      rfl
    · next absent => cases found.symm.trans absent

theorem withoutSequences_cons_of_ne {c : Char} (notEscape : c ≠ escape) (rest : Text) :
    withoutSequences (c :: rest) = c :: withoutSequences rest := by
  have noSequence : afterSequence? (c :: rest) = none := by
    unfold afterSequence?
    split
    · next isEscape =>
      cases isEscape
      exact absurd rfl notEscape
    · rfl
  rw [withoutSequences]
  split
  · next found => cases noSequence.symm.trans found
  · rfl

theorem withoutSequences_append_of_not_mem {t : Text} (noEscape : escape ∉ t) (rest : Text) :
    withoutSequences (t ++ rest) = t ++ withoutSequences rest := by
  induction t with
  | nil => rfl
  | cons c more ih =>
    rw [List.mem_cons, not_or] at noEscape
    rw [List.cons_append, withoutSequences_cons_of_ne (Ne.symm noEscape.1), ih noEscape.2,
      List.cons_append]

/-- A whole escape sequence is taken out, and nothing after it. -/
theorem withoutSequences_sequence_append {parameters : Text}
    (areParameters : ∀ c ∈ parameters, isParameter c = true) (rest : Text) :
    withoutSequences ("\x1b[".toList ++ parameters ++ "m".toList ++ rest) =
      withoutSequences rest := by
  apply withoutSequences_of_afterSequence?
  have written : "\x1b[".toList ++ parameters ++ "m".toList ++ rest =
      '\x1b' :: '[' :: (parameters ++ 'm' :: rest) := by
    simp
  have dropped : (parameters ++ 'm' :: rest).dropWhile isParameter = 'm' :: rest := by
    rw [List.dropWhile_append_of_pos areParameters, List.dropWhile_cons_of_neg (by decide)]
  simp only [written, afterSequence?, dropped]

/-- Whether a text is a plain one with escape sequences put into it, which are taken out again
whatever follows. -/
structure Colors (plain colored : Text) : Prop where
  noEscape : escape ∉ plain
  takenOut : ∀ rest, withoutSequences (colored ++ rest) = plain ++ withoutSequences rest

namespace Colors

variable {plain colored t : Text} {plainLines coloredLines : List Text}

theorem refl (noEscape : escape ∉ t) : Colors t t :=
  ⟨noEscape, withoutSequences_append_of_not_mem noEscape⟩

theorem append {more moreColored : Text} (colors : Colors plain colored)
    (colorsMore : Colors more moreColored) : Colors (plain ++ more) (colored ++ moreColored) where
  noEscape := by simp [colors.noEscape, colorsMore.noEscape]
  takenOut rest := by
    rw [List.append_assoc, colors.takenOut, colorsMore.takenOut, List.append_assoc]

theorem withoutSequences_eq (colors : Colors plain colored) : withoutSequences colored = plain := by
  have whole := colors.takenOut []
  rw [List.append_nil, withoutSequences, List.append_nil] at whole
  exact whole

theorem paint (tone : Tone) (noEscape : escape ∉ t) :
    Colors (tone.paint false t) (tone.paint true t) where
  noEscape := noEscape
  takenOut rest := by
    have areParameters : tone.parameters.all isParameter = true := by
      cases tone <;> rfl
    have zero : "0".toList.all isParameter = true := rfl
    have ending : withoutSequences ("\x1b[0m".toList ++ rest) = withoutSequences rest :=
      withoutSequences_sequence_append (List.all_eq_true.1 zero) rest
    have painted : tone.paint true t ++ rest =
        "\x1b[".toList ++ tone.parameters ++ "m".toList ++ (t ++ ("\x1b[0m".toList ++ rest)) := by
      simp [Tone.paint]
    rw [painted, withoutSequences_sequence_append (List.all_eq_true.1 areParameters),
      withoutSequences_append_of_not_mem noEscape, ending]
    rfl

/-- Lines that are colored one by one are colored together. -/
theorem unlines (colors : List.Forall₂ Colors plainLines coloredLines) :
    Colors (unlines plainLines) (unlines coloredLines) := by
  induction colors with
  | nil => exact refl List.not_mem_nil
  | cons first _ ih =>
    have newline : Colors ['\n'] ['\n'] := refl (by decide)
    exact (first.append newline).append ih

theorem lines_refl {lines : List Text} (noEscape : ∀ line ∈ lines, escape ∉ line) :
    List.Forall₂ Colors lines lines :=
  List.forall₂_same.2 fun line mem => refl (noEscape line mem)

end Colors

end Terminal

open Terminal (escape Colors withoutSequences)

section Displayed

/-- What a report shows of the cause of a defect besides its name. -/
def Defect.Cause.displayed : Cause → List Text
  | missingAnchor available _ _ => available
  | refused _ => []
  | missingFile expected => [expected.display]

/-- What a report shows of a defect besides numbers and words of its own. -/
def Defect.displayed (defect : Defect) : List Text :=
  [defect.file.display, defect.url, defect.text, defect.message] ++ defect.cause.displayed

/-- What a report shows of a reason for advice besides its name. -/
def Advice.Reason.displayed : Reason → List Text
  | directoryWithoutSlash suggestion => [suggestion]
  | unverified reason => [reason]
  | missingExtension suggestion => [suggestion]

def Advice.displayed (advice : Advice) : List Text :=
  [advice.file.display, advice.url] ++ advice.reason.displayed

/-- All that a report shows of the root and of its findings, besides numbers and words of its
own. -/
def Report.displayed (report : Report) (root : Path) : List Text :=
  root.display :: (report.defects.flatMap Defect.displayed ++
    report.advice.flatMap Advice.displayed)

end Displayed

namespace Report

section Lines

theorem escape_not_mem_decimal (n : Nat) : escape ∉ decimal n := by
  intro mem
  exact absurd (isDigit_of_mem_decimal mem) (by decide)

theorem escape_not_mem_intercalate {separator : Text} {texts : List Text}
    (noSeparator : escape ∉ separator) (noEscape : ∀ t ∈ texts, escape ∉ t) :
    escape ∉ separator.intercalate texts := by
  induction texts with
  | nil => simp
  | cons first rest ih =>
    have later := ih fun t mem => noEscape t (List.mem_cons_of_mem first mem)
    cases rest with
    | nil => simpa using noEscape
    | cons next more =>
      rw [List.intercalate_cons_cons]
      exact List.not_mem_append
        (List.not_mem_append (noEscape first List.mem_cons_self) noSeparator) later

theorem escape_not_mem_heading {title : Text} (noEscape : escape ∉ title) (count : Nat) :
    escape ∉ heading title count := by
  have ruled : escape ∉ rule := by decide
  have above : escape ∉ rule ++ ['\n'] := by decide
  have titled := List.not_mem_append above noEscape
  have opened := List.not_mem_append titled (by decide : escape ∉ " (".toList)
  have counted := List.not_mem_append opened (escape_not_mem_decimal count)
  have closed := List.not_mem_append counted (by decide : escape ∉ ")\n".toList)
  exact List.not_mem_append closed ruled

theorem escape_not_mem_location {file : Path} (noEscape : escape ∉ file.display) (line : Nat) :
    escape ∉ location file line :=
  List.not_mem_append
    (List.not_mem_append (List.not_mem_append (by decide) noEscape) (by decide))
    (escape_not_mem_decimal line)

theorem escape_not_mem_of_mem_causeLines {cause : Defect.Cause}
    (noEscape : ∀ t ∈ cause.displayed, escape ∉ t) : ∀ line ∈ causeLines cause, escape ∉ line := by
  cases cause with
  | missingAnchor available missing target =>
    have listed : escape ∉ ", ".toList.intercalate available :=
      escape_not_mem_intercalate (by decide) noEscape
    rw [causeLines]
    split
    · simp
    · exact List.forall_mem_singleton.2
        (List.not_mem_append (List.not_mem_append (by decide) listed) (by decide))
  | refused status => simp [causeLines]
  | missingFile expected =>
    have shown : escape ∉ expected.display := noEscape _ List.mem_cons_self
    exact List.forall_mem_singleton.2 (List.not_mem_append (by decide) shown)

theorem escape_not_mem_reasonLine {reason : Advice.Reason}
    (noEscape : ∀ t ∈ reason.displayed, escape ∉ t) : escape ∉ reasonLine reason := by
  cases reason with
  | directoryWithoutSlash suggestion =>
    exact List.not_mem_append (by decide) (noEscape suggestion List.mem_cons_self)
  | unverified reason => exact List.not_mem_append (by decide) (noEscape reason List.mem_cons_self)
  | missingExtension suggestion =>
    exact List.not_mem_append (by decide) (noEscape suggestion List.mem_cons_self)

theorem colors_defectLines {defect : Defect} (noEscape : ∀ t ∈ defect.displayed, escape ∉ t) :
    List.Forall₂ Colors (defectLines false defect) (defectLines true defect) := by
  simp only [Defect.displayed, List.forall_mem_append, List.forall_mem_cons] at noEscape
  rcases noEscape with ⟨⟨file, url, text, message, -⟩, cause⟩
  have title : escape ∉ "✗ ".toList ++ titleCase defect.cause.name := by
    cases defect.cause with
    | missingAnchor available missing target =>
      exact (by decide : escape ∉ "✗ ".toList ++ titleCase "broken_anchor".toList)
    | refused status =>
      exact (by decide : escape ∉ "✗ ".toList ++ titleCase "broken_external".toList)
    | missingFile expected =>
      exact (by decide : escape ∉ "✗ ".toList ++ titleCase "broken_link".toList)
  have body : ∀ line ∈ [location defect.file defect.line, "  Link: ".toList ++ defect.url,
      "  Text: ".toList ++ defect.text, "  ".toList ++ defect.message], escape ∉ line := by
    simp only [List.forall_mem_cons]
    exact ⟨escape_not_mem_location file defect.line, List.not_mem_append (by decide) url,
      List.not_mem_append (by decide) text, List.not_mem_append (by decide) message, by simp⟩
  apply List.rel_append
  · exact List.rel_append (.cons (Colors.paint .bad title) (Colors.lines_refl body))
      (Colors.lines_refl (escape_not_mem_of_mem_causeLines cause))
  · exact Colors.lines_refl (by simp)

theorem colors_adviceLines {advice : Advice} (noEscape : ∀ t ∈ advice.displayed, escape ∉ t) :
    List.Forall₂ Colors (adviceLines false advice) (adviceLines true advice) := by
  simp only [Advice.displayed, List.forall_mem_append, List.forall_mem_cons] at noEscape
  rcases noEscape with ⟨⟨file, url, -⟩, reason⟩
  have title : escape ∉ "⚠ ".toList ++ titleCase advice.reason.name := by
    cases advice.reason with
    | directoryWithoutSlash suggestion =>
      exact (by decide : escape ∉ "⚠ ".toList ++ titleCase "directory_no_slash".toList)
    | unverified reason =>
      exact (by decide : escape ∉ "⚠ ".toList ++ titleCase "external_unverified".toList)
    | missingExtension suggestion =>
      exact (by decide : escape ∉ "⚠ ".toList ++ titleCase "missing_md_extension".toList)
  have body : ∀ line ∈ [location advice.file advice.line, "  Link: ".toList ++ advice.url,
      reasonLine advice.reason, []], escape ∉ line := by
    simp only [List.forall_mem_cons]
    exact ⟨escape_not_mem_location file advice.line, List.not_mem_append (by decide) url,
      escape_not_mem_reasonLine reason, by simp, by simp⟩
  exact .cons (Colors.paint .caution title) (Colors.lines_refl body)

/-- A part of a report is colored if what it lists is. -/
theorem colors_listing (tone : Tone) {title : Text} (noEscape : escape ∉ title)
    {plain colored : List (List Text)} (items : List.Forall₂ (List.Forall₂ Colors) plain colored) :
    List.Forall₂ Colors (listing false tone title plain) (listing true tone title colored) := by
  have sameLength : plain.length = colored.length := items.length_eq
  have sameEmpty : plain.isEmpty = colored.isEmpty := by
    rw [Bool.eq_iff_iff, List.isEmpty_iff_length_eq_zero, List.isEmpty_iff_length_eq_zero,
      sameLength]
  have blank : Colors [] [] := Colors.refl List.not_mem_nil
  rw [listing, listing, sameEmpty, sameLength]
  split
  · exact .nil
  · have titled := Colors.paint tone (escape_not_mem_heading noEscape colored.length)
    exact List.rel_append (.cons blank (.cons titled (.cons blank .nil))) (List.rel_flatten items)

theorem colors_brokenLine (count : Nat) :
    Colors (brokenLine false count) (brokenLine true count) := by
  rw [brokenLine, brokenLine]
  split
  · exact Colors.paint .good (by decide)
  · exact Colors.paint .bad (List.not_mem_append (by decide) (escape_not_mem_decimal count))

theorem colors_adviceLine (count : Nat) :
    Colors (adviceLine false count) (adviceLine true count) := by
  rw [adviceLine, adviceLine]
  split
  · exact Colors.paint .good (by decide)
  · exact Colors.paint .caution (List.not_mem_append (by decide) (escape_not_mem_decimal count))

theorem colors_verdictLine (success : Bool) :
    Colors (verdictLine false success) (verdictLine true success) := by
  cases success with
  | true => exact Colors.paint .good (by decide)
  | false => exact Colors.paint .bad (by decide)

theorem colors_summaryLines (report : Report) :
    List.Forall₂ Colors (summaryLines false report) (summaryLines true report) := by
  have counts : ∀ line ∈ [[], rule, "SUMMARY".toList, rule,
      "Files checked:      ".toList ++ decimal report.documents,
      "Links validated:    ".toList ++ decimal report.links, []], escape ∉ line := by
    simp only [List.forall_mem_cons]
    exact ⟨by decide, by decide, by decide, by decide,
      List.not_mem_append (by decide) (escape_not_mem_decimal _),
      List.not_mem_append (by decide) (escape_not_mem_decimal _), by decide, by simp⟩
  have ruled : ∀ line ∈ [rule, []], escape ∉ line := by decide
  have results := List.Forall₂.cons (colors_brokenLine report.brokenCount)
    (.cons (colors_adviceLine report.advice.length) (Colors.lines_refl ruled))
  have verdict := List.Forall₂.cons (colors_verdictLine report.isSuccess) .nil
  exact List.rel_append (Colors.lines_refl counts) (List.rel_append results verdict)

end Lines

theorem escape_mem_renderText (report : Report) (root : Path) :
    escape ∈ report.renderText root true := by
  have painted : escape ∈ verdictLine true report.isSuccess := by
    cases report.isSuccess <;> decide
  refine List.mem_flatMap.2 ⟨verdictLine true report.isSuccess, ?_, List.mem_append_left _ painted⟩
  apply List.mem_append_right
  simp [summaryLines]

/-- Where nothing that a report shows holds an escape character, only the report with color holds
any, and without its escape sequences it is the report without color. -/
theorem renderText_color {report : Report} {root : Path}
    (noEscape : ∀ t ∈ report.displayed root, escape ∉ t) :
    escape ∉ report.renderText root false ∧ escape ∈ report.renderText root true ∧
      withoutSequences (report.renderText root true) = report.renderText root false := by
  simp only [Report.displayed, List.forall_mem_cons, List.forall_mem_append, List.mem_flatMap,
    forall_exists_index, and_imp] at noEscape
  rcases noEscape with ⟨rootShown, defects, advice⟩
  have opening : ∀ line ∈ ["Validating markdown links in ".toList ++ root.display,
      "Found ".toList ++ decimal report.documents ++ " markdown files".toList, []],
      escape ∉ line := by
    simp only [List.forall_mem_cons]
    have found := List.not_mem_append (by decide : escape ∉ "Found ".toList)
      (escape_not_mem_decimal report.documents)
    exact ⟨List.not_mem_append (by decide) rootShown, List.not_mem_append found (by decide),
      by decide, by simp⟩
  have defectItems : List.Forall₂ (List.Forall₂ Colors) (report.defects.map (defectLines false))
      (report.defects.map (defectLines true)) := by
    rw [List.forall₂_map_left_iff, List.forall₂_map_right_iff, List.forall₂_same]
    intro defect mem
    exact colors_defectLines fun t shown => defects t defect mem shown
  have adviceItems : List.Forall₂ (List.Forall₂ Colors) (report.advice.map (adviceLines false))
      (report.advice.map (adviceLines true)) := by
    rw [List.forall₂_map_left_iff, List.forall₂_map_right_iff, List.forall₂_same]
    intro one mem
    exact colors_adviceLines fun t shown => advice t one mem shown
  have errors := colors_listing .bad (by decide : escape ∉ "ERRORS".toList) defectItems
  have warnings := colors_listing .caution (by decide : escape ∉ "WARNINGS".toList) adviceItems
  have lines := List.rel_append
    (List.rel_append (List.rel_append (Colors.lines_refl opening) errors) warnings)
    (colors_summaryLines report)
  have colors : Colors (report.renderText root false) (report.renderText root true) :=
    Colors.unlines lines
  exact ⟨colors.noEscape, escape_mem_renderText report root, colors.withoutSequences_eq⟩

/-- A report with findings of all kinds, whose texts look like escape sequences without their first
character. -/
def colorful : Report where
  defects := [
    { file := .ofText "a[31m.md".toList, line := 1, url := "[0m".toList, text := "m".toList,
      message := "HTTP 404".toList, cause := .refused 404 },
    { file := .ofText "b.md".toList, line := 2, url := "#0;1m".toList, text := "[33;1m".toList,
      message := "[".toList,
      cause := .missingAnchor ["#[32m".toList, "#31m".toList] "#0;1m".toList none },
    { file := .ofText "b.md".toList, line := 3, url := "31m".toList, text := "x".toList,
      message := "File not found".toList, cause := .missingFile (.ofText "/r/31m".toList) }]
  documents := 2
  links := 6
  advice := [
    { file := .ofText "a[31m.md".toList, line := 1, url := "d".toList,
      reason := .directoryWithoutSlash "[0m/".toList },
    { file := .ofText "a[31m.md".toList, line := 2, url := "[".toList,
      reason := .missingExtension "[.md".toList },
    { file := .ofText "b.md".toList, line := 9, url := "http://m".toList,
      reason := .unverified ";m".toList }]

theorem renderText_color_sample :
    (∀ t ∈ colorful.displayed (.ofText "/r/[1m".toList), escape ∉ t) ∧
      escape ∉ colorful.renderText (.ofText "/r/[1m".toList) false ∧
      escape ∈ colorful.renderText (.ofText "/r/[1m".toList) true ∧
      withoutSequences (colorful.renderText (.ofText "/r/[1m".toList) true) =
        colorful.renderText (.ofText "/r/[1m".toList) false := by
  have noEscape : ∀ t ∈ colorful.displayed (.ofText "/r/[1m".toList), escape ∉ t := by decide
  exact ⟨noEscape, renderText_color noEscape⟩

end Report

end MarkdownLinks
