import MarkdownLinks.Proofs.Link.Title
import MarkdownLinks.Proofs.Link.Written

/-!
# Scanning what was written

A text of links, with prose between them that opens no bracket, is taken apart into these links
again: with the numbers of their lines, their texts and their URLs, and without their titles.
-/

namespace MarkdownLinks

namespace Link

/-- A link as it can be written.  Its URL is what reading it leaves, and may be empty only before a
title. -/
structure Source where
  text : Text
  url : Text
  title : Option Title.Clause
  textNe : text ≠ []
  inText : ∀ c ∈ text, c ≠ ']' ∧ c ≠ '\n'
  inUrl : ∀ c ∈ url, c ≠ ')' ∧ c ≠ '\n'
  isBare : Title.stripAll url = url
  urlNe : title = none → url ≠ []

namespace Source

/-- The URL, and the title if there is one. -/
def target (source : Source) : Text :=
  match source.title with
  | some clause => source.url ++ clause.written
  | none => source.url

def written (source : Source) : Text :=
  Link.written source.text source.target

/-- The link that is found where a source stands. -/
def link (line : Nat) (source : Source) : Link :=
  ⟨line, source.text, source.url⟩

variable {source : Source}

theorem target_ne_nil (source : Source) : source.target ≠ [] := by
  unfold target
  cases title : source.title with
  | some clause => simp [Title.Clause.written]
  | none => exact source.urlNe title

theorem mem_target {c : Char} (mem : c ∈ source.target) : c ≠ ')' ∧ c ≠ '\n' := by
  unfold target at mem
  cases title : source.title with
  | some clause =>
    rw [title] at mem
    rcases List.mem_append.1 mem with inUrl | inClause
    · exact source.inUrl c inUrl
    · exact Title.Clause.mem_written inClause
  | none =>
    rw [title] at mem
    exact source.inUrl c mem

theorem isWritable (source : Source) : IsWritable source.text source.target where
  textNe := source.textNe
  noBracket mem := (source.inText _ mem).1 rfl
  targetNe := source.target_ne_nil
  noParen mem := (mem_target mem).1 rfl

theorem newline_not_mem_written (source : Source) : '\n' ∉ source.written := by
  have notInText : '\n' ∉ source.text := fun mem => (source.inText _ mem).2 rfl
  have notInTarget : '\n' ∉ source.target := fun mem => (mem_target mem).2 rfl
  simp [written, Link.written, notInText, notInTarget]

theorem stripAll_target (source : Source) : Title.stripAll source.target = source.url := by
  unfold target
  cases source.title with
  | some clause => exact Title.stripAll_append_clause source.isBare clause
  | none => exact source.isBare

end Source

/-- Text between links: it opens no bracket. -/
structure Prose where
  text : Text
  isPlain : ∀ c ∈ text, c ≠ '[' ∧ c ≠ '\n'

theorem matchAt?_cons_of_ne {c : Char} (notOpening : c ≠ '[') (rest : Text) :
    matchAt? (c :: rest) = none := by
  unfold matchAt?
  split
  · next same =>
    cases same
    exact absurd rfl notOpening
  · rfl

/-- No link starts in prose. -/
theorem matchesOn_prose_append (prose : Prose) (rest : Text) :
    matchesOn (prose.text ++ rest) = matchesOn rest := by
  rcases prose with ⟨text, isPlain⟩
  simp only
  induction text with
  | nil => rfl
  | cons c more ih =>
    have notOpening : c ≠ '[' := (isPlain c List.mem_cons_self).1
    rw [List.cons_append, matchesOn_cons (matchAt?_cons_of_ne notOpening (more ++ rest))]
    exact ih fun c mem => isPlain c (List.mem_cons_of_mem _ mem)

/-- A line of links, with prose before each of them and after the last. -/
structure SourceLine where
  links : List (Prose × Source)
  last : Prose

namespace SourceLine

def written (sourceLine : SourceLine) : Text :=
  sourceLine.links.flatMap (fun (prose, source) => prose.text ++ source.written) ++
    sourceLine.last.text

/-- The links that are found on a line with a number. -/
def scanned (sourceLine : SourceLine) (line : Nat) : List Link :=
  sourceLine.links.map fun (_, source) => source.link line

theorem newline_not_mem_written (sourceLine : SourceLine) : '\n' ∉ sourceLine.written := by
  intro mem
  rcases List.mem_append.1 mem with inLinks | inLast
  · rcases List.mem_flatMap.1 inLinks with ⟨⟨prose, source⟩, -, inPart⟩
    rcases List.mem_append.1 inPart with inProse | inSource
    · exact (prose.isPlain _ inProse).2 rfl
    · exact source.newline_not_mem_written inSource
  · exact (sourceLine.last.isPlain _ inLast).2 rfl

/-- The links of a written line are those that it was written from.  The induction is on the links:
what is left of the line after one of them is a written line again. -/
theorem onLine_written (sourceLine : SourceLine) (line : Nat) :
    onLine line sourceLine.written = sourceLine.scanned line := by
  rcases sourceLine with ⟨links, last⟩
  induction links with
  | nil =>
    have none : matchesOn (last.text ++ []) = [] :=
      (matchesOn_prose_append last []).trans matchesOn_nil
    rw [List.append_nil] at none
    simp only [written, List.flatMap_nil, List.nil_append, onLine, none]
    rfl
  | cons part rest ih =>
    rcases part with ⟨prose, source⟩
    have split : written ⟨(prose, source) :: rest, last⟩ =
        prose.text ++ (Link.written source.text source.target ++ written ⟨rest, last⟩) := by
      simp [written, Source.written]
    have here := matchesOn_written source.isWritable (written ⟨rest, last⟩)
    simp only [onLine] at ih
    simp only [split, onLine, matchesOn_prose_append, here, List.map_cons, ih,
      source.stripAll_target]
    rfl

/-- The text of written lines. -/
def joined (sourceLines : List SourceLine) : Text :=
  ['\n'].intercalate (sourceLines.map written)

end SourceLine

theorem scan_joined_lineNumber (sourceLines : List SourceLine) :
    scan (SourceLine.joined sourceLines) =
      (sourceLines.zipIdx 1).flatMap fun (sourceLine, line) =>
        sourceLine.scanned (lineNumber line) := by
  cases sourceLines with
  | nil => exact scan_nil
  | cons first rest =>
    have cut : lines (SourceLine.joined (first :: rest)) =
        (first :: rest).map SourceLine.written := by
      apply splitAtEach_intercalate
      · simp
      · intro piece mem
        rcases List.mem_map.1 mem with ⟨sourceLine, -, rfl⟩
        exact sourceLine.newline_not_mem_written
    rw [scan, cut, onLines_eq_flatMap, List.zipIdx_map, List.flatMap_map]
    simp only [Prod.map, id_eq, SourceLine.onLine_written]

/-- Scanning undoes writing, up to line numbers that start over. -/
theorem scan_joined (sourceLines : List SourceLine) :
    scan (SourceLine.joined sourceLines) =
        (sourceLines.zipIdx 1).flatMap (fun (sourceLine, line) =>
          sourceLine.scanned (lineNumber line)) ∧
      (sourceLines.length < UInt32.size → scan (SourceLine.joined sourceLines) =
        (sourceLines.zipIdx 1).flatMap fun (sourceLine, line) => sourceLine.scanned line) := by
  refine ⟨scan_joined_lineNumber sourceLines, fun few => ?_⟩
  rw [scan_joined_lineNumber, List.flatMap_def, List.flatMap_def]
  refine congrArg List.flatten (List.map_congr_left ?_)
  rintro ⟨sourceLine, line⟩ mem
  have inRange := List.mem_zipIdx mem
  have isSmall : line < UInt32.size := by omega
  simp only [lineNumber_of_lt isSmall]

/-- A link whose text, URL and title hold marks of links and titles. -/
def Source.sample : Source where
  text := "a[b(".toList
  url := "c](\"d".toList
  title := some {
    blanks := " \t".toList
    quote := .single
    title := "e](\"f".toList
    blanksNe := by decide
    areBlank := by simp [isBlank, CharClass.contains, CharClass.covers, whiteSpace]
    inQuotes := by simp [Title.Quote.mark] }
  textNe := by decide
  inText := by simp
  inUrl := by simp
  isBare := by decide
  urlNe := by decide

example :
    scan (SourceLine.joined [⟨[], ⟨[], by simp⟩⟩,
      ⟨[(⟨"](".toList, by simp⟩, .sample), (⟨[], by simp⟩, .sample)], ⟨[], by simp⟩⟩]) =
      [⟨2, "a[b(".toList, "c](\"d".toList⟩, ⟨2, "a[b(".toList, "c](\"d".toList⟩] := by
  cbv

end Link

end MarkdownLinks
