import MarkdownLinks.Proofs.Json.Written
import MarkdownLinks.Proofs.Text.Decoding
import MarkdownLinks.Report.AsJson

/-!
# Reports read back from JSON

A report that was written as JSON is read back from it member by member, each finding by the name
of its kind.  So the JSON of a report holds all of it, and two reports are never written alike.  A
report is refused exactly if one of its paths is not UTF-8.
-/

namespace MarkdownLinks

section Lists

variable {α β : Type} {write : α → Option β} {read : β → Option α} {l : List α}

theorem exists_mapM_iff :
    (∃ written, l.mapM write = some written) ↔ ∀ a ∈ l, ∃ b, write a = some b := by
  induction l with
  | nil => exact ⟨fun _ a mem => absurd mem List.not_mem_nil, fun _ => ⟨[], rfl⟩⟩
  | cons a rest ih =>
    rw [List.forall_mem_cons, ← ih, List.mapM_cons]
    constructor
    · rintro ⟨written, mapped⟩
      rcases Option.bind_eq_some_iff.1 mapped with ⟨b, first, others⟩
      rcases Option.bind_eq_some_iff.1 others with ⟨later, areLater, -⟩
      exact ⟨⟨b, first⟩, later, areLater⟩
    · rintro ⟨⟨b, first⟩, later, areLater⟩
      rw [first, areLater]
      exact ⟨b :: later, rfl⟩

theorem mapM_readBack (readsBack : ∀ a ∈ l, ∀ b, write a = some b → read b = some a)
    {written : List β} (mapped : l.mapM write = some written) : written.mapM read = some l := by
  induction l generalizing written with
  | nil =>
    cases mapped
    rfl
  | cons a rest ih =>
    rw [List.mapM_cons] at mapped
    rcases Option.bind_eq_some_iff.1 mapped with ⟨b, first, others⟩
    rcases Option.bind_eq_some_iff.1 others with ⟨later, areLater, made⟩
    cases made
    have firstBack := readsBack a List.mem_cons_self b first
    have laterBack := ih (fun other mem => readsBack other (List.mem_cons_of_mem a mem)) areLater
    rw [List.mapM_cons, firstBack, laterBack]
    rfl

end Lists

namespace Json

/-- The value of the member with a key. -/
def member? (key : Text) : Json → Option Json
  | object members => members.lookup key
  | _ => none

def asText? : Json → Option Text
  | string t => some t
  | _ => none

def asNumber? : Json → Option Nat
  | number n => some n
  | _ => none

def asItems? : Json → Option (List Json)
  | array items => some items
  | _ => none

def asPath? (json : Json) : Option Path :=
  json.asText?.map .ofText

theorem mapM_asText? (texts : List Text) : (texts.map string).mapM asText? = some texts := by
  induction texts with
  | nil => rfl
  | cons t rest ih =>
    rw [List.map_cons, List.mapM_cons, ih]
    rfl

end Json

namespace Path

variable {p : Path} {json : Json}

/-- Whether every path of a list is UTF-8. -/
def AreText (paths : List Path) : Prop :=
  ∀ p ∈ paths, Utf8.IsText p.bytes

theorem exists_toJson?_iff : (∃ json, p.toJson? = some json) ↔ Utf8.IsText p.bytes := by
  rw [Utf8.isText_iff]
  constructor
  · rintro ⟨json, written⟩
    rcases Option.map_eq_some_iff.1 written with ⟨t, decoded, -⟩
    exact ⟨t, decoded⟩
  · rintro ⟨t, decoded⟩
    exact ⟨.string t, Option.map_eq_some_iff.2 ⟨t, decoded, rfl⟩⟩

theorem asPath?_of_toJson? (written : p.toJson? = some json) : json.asPath? = some p := by
  rcases Option.map_eq_some_iff.1 written with ⟨t, decoded, rfl⟩
  have bytes : p.bytes = Utf8.encode t := Utf8.decode?_eq_some_iff.1 decoded
  exact congrArg (some ∘ Path.mk) bytes.symm

end Path

namespace Defect

namespace Cause

/-- The paths that a cause names. -/
def paths : Cause → List Path
  | missingAnchor _ _ target => target.toList
  | refused _ => []
  | missingFile expected => [expected]

/-- The target of a missing anchor, which may be null. -/
def targetOfJson? : Json → Option (Option Path)
  | .null => some none
  | json => json.asPath?.map some

/-- The cause that the members of a defect tell, by its name. -/
def ofJson? (json : Json) : Option Cause := do
  let kind ← (← json.member? "kind".toList).asText?
  if kind = "broken_anchor".toList then
    let available ← (← json.member? "available".toList).asItems?
    let missing ← (← json.member? "missing".toList).asText?
    let target ← targetOfJson? (← json.member? "target".toList)
    return .missingAnchor (← available.mapM Json.asText?) missing target
  else if kind = "broken_external".toList then
    return .refused (← (← json.member? "status".toList).asNumber?)
  else if kind = "broken_link".toList then
    return .missingFile (← (← json.member? "expected".toList).asPath?)
  else
    none

theorem targetOfJson?_of_toJson? {p : Path} {json : Json} (written : p.toJson? = some json) :
    targetOfJson? json = some (some p) := by
  have readBack := Path.asPath?_of_toJson? written
  cases json with
  | string t => exact congrArg (Option.map some) readBack
  | _ => cases readBack

theorem ofJson?_missingAnchor {json targetJson : Json} {available : List Text} {missing : Text}
    {target : Option Path}
    (kind : json.member? "kind".toList = some (.string "broken_anchor".toList))
    (availableIs : json.member? "available".toList = some (.array (available.map .string)))
    (missingIs : json.member? "missing".toList = some (.string missing))
    (targetIs : json.member? "target".toList = some targetJson)
    (targetBack : targetOfJson? targetJson = some target) :
    ofJson? json = some (.missingAnchor available missing target) := by
  simp only [ofJson?, kind, availableIs, missingIs, targetIs, targetBack, Option.bind_eq_bind,
    Option.bind_some, Json.asText?, Json.asItems?, Json.mapM_asText?, if_pos]
  rfl

theorem ofJson?_missingFile {json expectedJson : Json} {expected : Path}
    (kind : json.member? "kind".toList = some (.string "broken_link".toList))
    (expectedIs : json.member? "expected".toList = some expectedJson)
    (expectedBack : expectedJson.asPath? = some expected) :
    ofJson? json = some (.missingFile expected) := by
  simp only [ofJson?, kind, expectedIs, expectedBack, Option.bind_eq_bind, Option.bind_some,
    Json.asText?]
  rfl

end Cause

/-- The paths that a defect names. -/
def paths (defect : Defect) : List Path :=
  defect.file :: defect.cause.paths

def ofJson? (json : Json) : Option Defect := do
  return {
    file := ← (← json.member? "file".toList).asPath?
    line := ← (← json.member? "line".toList).asNumber?
    url := ← (← json.member? "link".toList).asText?
    text := ← (← json.member? "text".toList).asText?
    message := ← (← json.member? "message".toList).asText?
    cause := ← Cause.ofJson? json }

variable {defect : Defect} {json : Json}

theorem ofJson?_of_members {fileJson : Json} {file : Path} {line : Nat} {url text message : Text}
    {cause : Cause} (fileIs : json.member? "file".toList = some fileJson)
    (fileBack : fileJson.asPath? = some file)
    (lineIs : json.member? "line".toList = some (.number line))
    (urlIs : json.member? "link".toList = some (.string url))
    (textIs : json.member? "text".toList = some (.string text))
    (messageIs : json.member? "message".toList = some (.string message))
    (causeBack : Cause.ofJson? json = some cause) :
    ofJson? json = some ⟨file, line, url, text, message, cause⟩ := by
  simp only [ofJson?, fileIs, fileBack, lineIs, urlIs, textIs, messageIs, causeBack,
    Option.bind_eq_bind, Option.bind_some, Json.asText?, Json.asNumber?]
  rfl

/-- A written defect is read back as it was. -/
theorem ofJson?_of_toJson? (written : defect.toJson? = some json) :
    ofJson? json = some defect := by
  rcases defect with ⟨file, line, url, text, message, cause⟩
  rcases Option.bind_eq_some_iff.1 written with ⟨fileJson, fileWritten, rest⟩
  have fileBack := Path.asPath?_of_toJson? fileWritten
  cases cause with
  | missingAnchor available missing target =>
    cases target with
    | none =>
      cases rest
      exact ofJson?_of_members rfl fileBack rfl rfl rfl rfl
        (Cause.ofJson?_missingAnchor rfl rfl rfl rfl rfl)
    | some target =>
      rcases Option.bind_eq_some_iff.1 rest with ⟨targetJson, targetWritten, made⟩
      cases made
      exact ofJson?_of_members rfl fileBack rfl rfl rfl rfl
        (Cause.ofJson?_missingAnchor rfl rfl rfl rfl
          (Cause.targetOfJson?_of_toJson? targetWritten))
  | refused status =>
    cases rest
    exact ofJson?_of_members rfl fileBack rfl rfl rfl rfl rfl
  | missingFile expected =>
    rcases Option.bind_eq_some_iff.1 rest with ⟨expectedJson, expectedWritten, made⟩
    cases made
    exact ofJson?_of_members rfl fileBack rfl rfl rfl rfl
      (Cause.ofJson?_missingFile rfl rfl (Path.asPath?_of_toJson? expectedWritten))

/-- A defect can be written exactly if its paths are UTF-8. -/
theorem exists_toJson?_iff : (∃ json, defect.toJson? = some json) ↔ Path.AreText defect.paths := by
  rcases defect with ⟨file, line, url, text, message, cause⟩
  rw [Path.AreText, paths, List.forall_mem_cons, ← Path.exists_toJson?_iff]
  constructor
  · rintro ⟨json, written⟩
    rcases Option.bind_eq_some_iff.1 written with ⟨fileJson, fileWritten, rest⟩
    refine ⟨⟨fileJson, fileWritten⟩, ?_⟩
    intro p mem
    rw [← Path.exists_toJson?_iff]
    cases cause with
    | missingAnchor available missing target =>
      cases target with
      | none => cases mem
      | some target =>
        rcases Option.bind_eq_some_iff.1 rest with ⟨targetJson, targetWritten, -⟩
        exact ⟨targetJson, (List.mem_singleton.1 mem) ▸ targetWritten⟩
    | refused status => cases mem
    | missingFile expected =>
      rcases Option.bind_eq_some_iff.1 rest with ⟨expectedJson, expectedWritten, -⟩
      exact ⟨expectedJson, (List.mem_singleton.1 mem) ▸ expectedWritten⟩
  · rintro ⟨⟨fileJson, fileWritten⟩, others⟩
    rw [toJson?, fileWritten]
    cases cause with
    | missingAnchor available missing target =>
      cases target with
      | none => exact ⟨_, rfl⟩
      | some target =>
        rcases Path.exists_toJson?_iff.2 (others target List.mem_cons_self) with
          ⟨targetJson, targetWritten⟩
        simp only [Option.bind_eq_bind, Option.bind_some, targetWritten]
        exact ⟨_, rfl⟩
    | refused status => exact ⟨_, rfl⟩
    | missingFile expected =>
      rcases Path.exists_toJson?_iff.2 (others expected List.mem_cons_self) with
        ⟨expectedJson, expectedWritten⟩
      simp only [Option.bind_eq_bind, Option.bind_some, expectedWritten]
      exact ⟨_, rfl⟩

end Defect

namespace Advice

/-- The reason that the members of a piece of advice tell, by its name. -/
def Reason.ofJson? (json : Json) : Option Reason := do
  let kind ← (← json.member? "kind".toList).asText?
  if kind = "directory_no_slash".toList then
    return .directoryWithoutSlash (← (← json.member? "suggestion".toList).asText?)
  else if kind = "external_unverified".toList then
    return .unverified (← (← json.member? "reason".toList).asText?)
  else if kind = "missing_md_extension".toList then
    return .missingExtension (← (← json.member? "suggestion".toList).asText?)
  else
    none

def ofJson? (json : Json) : Option Advice := do
  return {
    file := ← (← json.member? "file".toList).asPath?
    line := ← (← json.member? "line".toList).asNumber?
    url := ← (← json.member? "link".toList).asText?
    reason := ← Reason.ofJson? json }

variable {advice : Advice} {json : Json}

theorem ofJson?_of_members {fileJson : Json} {file : Path} {line : Nat} {url : Text}
    {reason : Reason} (fileIs : json.member? "file".toList = some fileJson)
    (fileBack : fileJson.asPath? = some file)
    (lineIs : json.member? "line".toList = some (.number line))
    (urlIs : json.member? "link".toList = some (.string url))
    (reasonBack : Reason.ofJson? json = some reason) :
    ofJson? json = some ⟨file, line, url, reason⟩ := by
  simp only [ofJson?, fileIs, fileBack, lineIs, urlIs, reasonBack, Option.bind_eq_bind,
    Option.bind_some, Json.asText?, Json.asNumber?]
  rfl

/-- Written advice is read back as it was. -/
theorem ofJson?_of_toJson? (written : advice.toJson? = some json) :
    ofJson? json = some advice := by
  rcases advice with ⟨file, line, url, reason⟩
  rcases Option.bind_eq_some_iff.1 written with ⟨fileJson, fileWritten, made⟩
  cases made
  apply ofJson?_of_members rfl (Path.asPath?_of_toJson? fileWritten) rfl rfl
  cases reason with
  | directoryWithoutSlash suggestion => rfl
  | unverified reason => rfl
  | missingExtension suggestion => rfl

theorem exists_toJson?_iff :
    (∃ json, advice.toJson? = some json) ↔ Utf8.IsText advice.file.bytes := by
  rw [← Path.exists_toJson?_iff]
  constructor
  · rintro ⟨json, written⟩
    rcases Option.bind_eq_some_iff.1 written with ⟨fileJson, fileWritten, -⟩
    exact ⟨fileJson, fileWritten⟩
  · rintro ⟨fileJson, fileWritten⟩
    rw [toJson?, fileWritten]
    exact ⟨_, rfl⟩

end Advice

namespace Report

/-- The paths that a report names. -/
def paths (report : Report) : List Path :=
  report.defects.flatMap Defect.paths ++ report.advice.map Advice.file

def ofJson? (json : Json) : Option Report := do
  return {
    defects := ← (← (← json.member? "errors".toList).asItems?).mapM Defect.ofJson?
    documents := ← (← json.member? "total_documents".toList).asNumber?
    links := ← (← json.member? "total_links".toList).asNumber?
    advice := ← (← (← json.member? "warnings".toList).asItems?).mapM Advice.ofJson? }

/-- The keys of the members of a written report. -/
def keys : List Text :=
  ["broken_links".toList, "errors".toList, "success".toList, "total_documents".toList,
    "total_links".toList, "warnings".toList]

/-- Whether an object holds all of a report, and besides only the verdict and the number of
defects. -/
structure IsIn (report : Report) (members : List (Text × Json)) : Prop where
  keys : members.map Prod.fst = keys
  readBack : ofJson? (.object members) = some report
  brokenLinks : Json.member? "broken_links".toList (.object members) =
    some (.number report.defects.length)
  success : Json.member? "success".toList (.object members) =
    some (.bool report.defects.isEmpty)

variable {report : Report} {json : Json}

theorem ofJson?_of_members {defects advice : List Json} {documents links : Nat}
    {areDefects : List Defect} {areAdvice : List Advice}
    (defectsAre : json.member? "errors".toList = some (.array defects))
    (defectsBack : defects.mapM Defect.ofJson? = some areDefects)
    (documentsAre : json.member? "total_documents".toList = some (.number documents))
    (linksAre : json.member? "total_links".toList = some (.number links))
    (adviceIs : json.member? "warnings".toList = some (.array advice))
    (adviceBack : advice.mapM Advice.ofJson? = some areAdvice) :
    ofJson? json = some ⟨areDefects, documents, links, areAdvice⟩ := by
  simp only [ofJson?, defectsAre, defectsBack, documentsAre, linksAre, adviceIs, adviceBack,
    Option.bind_eq_bind, Option.bind_some, Json.asItems?, Json.asNumber?]
  rfl

theorem exists_isIn_of_toJson? (written : report.toJson? = some json) :
    ∃ members, json = .object members ∧ report.IsIn members := by
  rcases Option.bind_eq_some_iff.1 written with ⟨defects, defectsWritten, rest⟩
  rcases Option.bind_eq_some_iff.1 rest with ⟨advice, adviceWritten, made⟩
  have defectsBack : defects.mapM Defect.ofJson? = some report.defects := by
    apply mapM_readBack _ defectsWritten
    intro defect _ json
    exact Defect.ofJson?_of_toJson?
  have adviceBack : advice.mapM Advice.ofJson? = some report.advice := by
    apply mapM_readBack _ adviceWritten
    intro advice _ json
    exact Advice.ofJson?_of_toJson?
  cases made
  refine ⟨_, rfl, ?_⟩
  exact {
    keys := rfl
    readBack := ofJson?_of_members rfl defectsBack rfl rfl rfl adviceBack
    brokenLinks := rfl
    success := rfl }

theorem exists_toJson?_iff : (∃ json, report.toJson? = some json) ↔ Path.AreText report.paths := by
  have paths : Path.AreText report.paths ↔
      (∀ defect ∈ report.defects, Path.AreText defect.paths) ∧
        ∀ advice ∈ report.advice, Utf8.IsText advice.file.bytes := by
    simp only [Path.AreText, Report.paths, List.forall_mem_append, List.forall_mem_flatMap,
      List.forall_mem_map]
  simp only [paths, ← Defect.exists_toJson?_iff, ← Advice.exists_toJson?_iff, ← exists_mapM_iff]
  constructor
  · rintro ⟨json, written⟩
    rcases Option.bind_eq_some_iff.1 written with ⟨defects, defectsWritten, rest⟩
    rcases Option.bind_eq_some_iff.1 rest with ⟨advice, adviceWritten, -⟩
    exact ⟨⟨defects, defectsWritten⟩, advice, adviceWritten⟩
  · rintro ⟨⟨defects, defectsWritten⟩, advice, adviceWritten⟩
    rw [toJson?, defectsWritten, adviceWritten]
    exact ⟨_, rfl⟩

theorem renderJson_eq_ok_iff {text : Text} :
    report.renderJson = .ok text ↔ ∃ json, report.toJson? = some json ∧ text = json.pretty 0 := by
  rw [renderJson]
  cases report.toJson? with
  | none =>
    constructor
    · intro rendered
      cases rendered
    · rintro ⟨json, written, -⟩
      cases written
  | some json =>
    constructor
    · intro rendered
      exact ⟨json, rfl, (Except.ok.inj rendered).symm⟩
    · rintro ⟨other, written, rfl⟩
      rw [Option.some.inj written]

theorem exists_renderJson_iff :
    (∃ text, report.renderJson = .ok text) ↔ Path.AreText report.paths := by
  rw [← exists_toJson?_iff]
  constructor
  · rintro ⟨text, rendered⟩
    rcases renderJson_eq_ok_iff.1 rendered with ⟨json, written, -⟩
    exact ⟨json, written⟩
  · rintro ⟨json, written⟩
    exact ⟨_, renderJson_eq_ok_iff.2 ⟨json, written, rfl⟩⟩

/-- The only failure of rendering is that of JSON. -/
theorem exists_fault_of_renderJson {failure : Failure} (failed : report.renderJson = .error failure) :
    ∃ fault, failure = .json fault := by
  rw [renderJson] at failed
  split at failed
  · cases failed
  · exact ⟨_, (Except.error.inj failed).symm⟩

/-- A rendered report is an object that holds it, with blanks after it or without. -/
theorem exists_isIn_of_renderJson {text after : Text} (rendered : report.renderJson = .ok text)
    (blank : ∀ c ∈ after, Json.Reader.isBlank c = true) :
    ∃ members, Json.read (text ++ after) = some (.object members) ∧ report.IsIn members := by
  rcases renderJson_eq_ok_iff.1 rendered with ⟨json, written, rfl⟩
  rcases exists_isIn_of_toJson? written with ⟨members, rfl, isIn⟩
  exact ⟨members, Json.read_pretty 0 _ blank, isIn⟩

/-- Rendering fails exactly if a path is not UTF-8.  Otherwise it gives a JSON text that holds all
of the report, and that is the text of no other report. -/
theorem renderJson_exact (report : Report) :
    ((∃ fault, report.renderJson = .error (.json fault)) ↔
      ∃ p ∈ report.paths, ¬ Utf8.IsText p.bytes) ∧
    ((∀ p ∈ report.paths, Utf8.IsText p.bytes) →
      ∃ text members, report.renderJson = .ok text ∧ Json.read text = some (.object members) ∧
        report.IsIn members ∧
        ∀ other : Report, other.renderJson = .ok text → other = report) := by
  constructor
  · have notText : (∃ p ∈ report.paths, ¬ Utf8.IsText p.bytes) ↔ ¬ Path.AreText report.paths := by
      simp only [Path.AreText, Classical.not_forall, exists_prop]
    rw [notText, ← exists_renderJson_iff]
    constructor
    · rintro ⟨fault, failed⟩ ⟨text, rendered⟩
      cases failed.symm.trans rendered
    · intro refused
      cases rendered : report.renderJson with
      | ok text => exact absurd ⟨text, rendered⟩ refused
      | error failure =>
        rcases exists_fault_of_renderJson rendered with ⟨fault, rfl⟩
        exact ⟨fault, rfl⟩
  · intro areText
    rcases exists_renderJson_iff.2 areText with ⟨text, rendered⟩
    have blank : ∀ c ∈ ([] : Text), Json.Reader.isBlank c = true := by
      intro c mem
      cases mem
    rcases exists_isIn_of_renderJson rendered blank with ⟨members, read, isIn⟩
    rw [List.append_nil] at read
    refine ⟨text, members, rendered, read, isIn, ?_⟩
    intro other otherRendered
    rcases exists_isIn_of_renderJson otherRendered blank with ⟨others, otherRead, otherIsIn⟩
    rw [List.append_nil, read] at otherRead
    have back := isIn.readBack
    rw [Json.object.inj (Option.some.inj otherRead), otherIsIn.readBack] at back
    exact Option.some.inj back

/-- A report of one broken link in a file. -/
def sample (file : Path) : Report where
  defects := [⟨file, 3, "y".toList, "a \"y\"".toList, [], .missingFile (.ofText "y".toList)⟩]
  documents := 1
  links := 1
  advice := []

theorem renderJson_exact_sample :
    (∃ fault, (sample ⟨[0xFF]⟩).renderJson = .error (.json fault)) ∧
    ∃ text members, (sample (.ofText "x.md".toList)).renderJson = .ok text ∧
      Json.read text = some (.object members) ∧
      (sample (.ofText "x.md".toList)).IsIn members := by
  constructor
  · apply (renderJson_exact _).1.2
    refine ⟨⟨[0xFF]⟩, by decide, ?_⟩
    rw [← Utf8.decode?_eq_none_iff]
    decide
  · have areText : ∀ p ∈ (sample (.ofText "x.md".toList)).paths, Utf8.IsText p.bytes := by
      intro p mem
      rcases List.mem_cons.1 mem with rfl | mem
      · exact ⟨_, rfl⟩
      · rw [List.mem_singleton.1 mem]
        exact ⟨_, rfl⟩
    rcases (renderJson_exact _).2 areText with ⟨text, members, rendered, read, isIn, -⟩
    exact ⟨text, members, rendered, read, isIn⟩

end Report

end MarkdownLinks
