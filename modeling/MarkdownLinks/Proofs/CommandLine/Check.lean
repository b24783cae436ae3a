import MarkdownLinks.CommandLine.Run
import MarkdownLinks.Proofs.Disk.Placed
import MarkdownLinks.Proofs.Report.Json
import MarkdownLinks.Proofs.Settings.File
import MarkdownLinks.Proofs.Validation.Complete

/-!
# What a check prints and how it ends

Everything that can fail in a check comes before anything is printed: the root, the settings, and
the rendering as JSON.  After that the whole report is printed.  Whether links are broken is told in
four places, by the exit code, by two members of the JSON, by a count and by the verdict; they agree
because all of them are taken from the defects of one report.
-/

namespace MarkdownLinks

namespace Disk

/-- Whether a path leads to a directory, which is also there when it is asked for by its own path
from the root, and no path that is asked for on the way is too long. -/
def ResolvesToDirectory (disk : Disk) (p : Path) : Prop :=
  ∃ names, disk.locate p = .ok names ∧ (∀ a ∈ disk.asked p, a.bytes.length ≤ maxPathLength) ∧
    disk.isDirectory (.ofNames names) = true

variable {disk : Disk} {given : Path}

theorem exists_canonicalRoot_iff :
    (∃ root, canonicalRoot disk given = .ok root) ↔ disk.ResolvesToDirectory given := by
  constructor
  · rintro ⟨root, canonical⟩
    rcases canonicalRoot_eq_ok canonical with ⟨made, isDirectory⟩
    rcases canonical_eq_ok_iff.1 made with ⟨names, located, short, rfl⟩
    exact ⟨names, located, short, isDirectory⟩
  · rintro ⟨names, located, short, isDirectory⟩
    have made : disk.canonical given = .ok (.ofNames names) :=
      canonical_eq_ok_iff.2 ⟨names, located, short, rfl⟩
    refine ⟨.ofNames names, ?_⟩
    rw [canonicalRoot, made]
    simp only [isDirectory, if_true]

end Disk

namespace Report

variable {report : Report}

theorem brokenCount_eq_zero_iff : report.brokenCount = 0 ↔ report.defects = [] :=
  List.length_eq_zero_iff

theorem isSuccess_eq_beq (report : Report) : report.isSuccess = (report.exitCode == 0) := by
  rw [exitCode]
  cases report.isSuccess <;> rfl

/-- A report for people ends with the counts and the verdict. -/
theorem exists_renderText_eq (report : Report) (root : Path) (color : Bool) :
    ∃ front, report.renderText root color = front ++ unlines [
      brokenLine color report.brokenCount, adviceLine color report.advice.length, rule, [],
      verdictLine color report.isSuccess] := by
  have parts : summaryLines color report =
      [[], rule, "SUMMARY".toList, rule,
        "Files checked:      ".toList ++ decimal report.documents,
        "Links validated:    ".toList ++ decimal report.links, []] ++
      [brokenLine color report.brokenCount, adviceLine color report.advice.length, rule, [],
        verdictLine color report.isSuccess] :=
    rfl
  rw [renderText, parts, ← List.append_assoc, unlines, List.flatMap_append]
  exact ⟨_, rfl⟩

end Report

namespace CommandLine

namespace CheckOptions

/-- Whether a check with these options takes a root and settings from a disk, and what it finds is
a report. -/
structure Finds (options : CheckOptions) (network : Probe) (disk : Disk) (root : Path)
    (settings : Settings) (report : Report) : Prop where
  rootIs : canonicalRoot disk options.repo = .ok root
  settingsAre : Settings.load disk root = .ok settings
  reportIs : validate network disk (options.apply settings) root = .ok report

/-- The report that is found is that of the sheets of all documents, and nothing fails in them. -/
theorem Finds.report_eq_ofSheets {options : CheckOptions} {network : Probe} {disk : Disk}
    {root : Path} {settings : Settings} {report : Report}
    (finds : options.Finds network disk root settings report) :
    (inspectorFor network disk (options.apply settings) root).InspectsAll ∧
      report = .ofSheets ((Search.documents disk (options.apply settings) root).map
        (inspectorFor network disk (options.apply settings) root).sheet) := by
  rcases validate_eq_ok_iff.1 finds.reportIs with ⟨other, canonical, inspectsAll, written⟩
  cases canonical.symm.trans (Disk.canonicalRoot_of_canonicalRoot finds.rootIs)
  exact ⟨inspectsAll, written⟩

theorem Finds.report_eq {options : CheckOptions} {network : Probe} {disk : Disk}
    {root otherRoot : Path} {settings otherSettings : Settings} {report otherReport : Report}
    (finds : options.Finds network disk root settings report)
    (otherFinds : options.Finds network disk otherRoot otherSettings otherReport) :
    report = otherReport := by
  cases finds.rootIs.symm.trans otherFinds.rootIs
  cases finds.settingsAre.symm.trans otherFinds.settingsAre
  exact Except.ok.inj (finds.reportIs.symm.trans otherFinds.reportIs)

/-- Whether something keeps a check with these options from printing a report. -/
def IsHindered (options : CheckOptions) (network : Probe) (disk : Disk) : Prop :=
  ¬ disk.ResolvesToDirectory options.repo ∨
  (∃ root, canonicalRoot disk options.repo = .ok root ∧ Settings.IsUnusable disk root) ∨
  (options.format = .json ∧ ∃ root settings report,
    options.Finds network disk root settings report ∧ ∃ p ∈ report.paths, ¬ Utf8.IsText p.bytes)

/-- What is printed after a report. -/
def ending (options : CheckOptions) : Text :=
  match options.format with
  | .json => ['\n']
  | .text => []

end CheckOptions

/-- Whether an output tells of a report: all of it is printed in the format that was asked for, and
the exit code, the JSON and the last lines of the text agree on whether links are broken. -/
structure Output.Tells (output : Output) (options : CheckOptions) (root : Path) (report : Report) :
    Prop where
  printed : ∃ rendered, report.render root options.format options.color = .ok rendered ∧
    output.stdout = rendered ++ options.ending
  code : output.exitCode = 0 ∨ output.exitCode = 1
  broken : output.exitCode = 0 ↔ report.brokenCount = 0
  json : options.format = .json → ∃ members, Json.read output.stdout = some (.object members) ∧
    report.IsIn members ∧
    Json.member? "success".toList (.object members) = some (.bool (output.exitCode == 0))
  text : options.format = .text → ∃ front, output.stdout = front ++ unlines [
    Report.brokenLine options.color report.brokenCount,
    Report.adviceLine options.color report.advice.length, Report.rule, [],
    Report.verdictLine options.color (output.exitCode == 0)]

theorem Output.tells_of_render {output : Output} {options : CheckOptions} {root : Path}
    {report : Report} {rendered : Text}
    (renderedIs : report.render root options.format options.color = .ok rendered)
    (code : output.exitCode = report.exitCode)
    (stdout : output.stdout = rendered ++ options.ending) : output.Tells options root report where
  printed := ⟨rendered, renderedIs, stdout⟩
  code := by
    rw [code, Report.exitCode]
    cases report.isSuccess with
    | true => exact .inl rfl
    | false => exact .inr rfl
  broken := by
    rw [code, Report.brokenCount_eq_zero_iff, ← List.isEmpty_iff, ← beq_iff_eq,
      ← Report.isSuccess_eq_beq, Report.isSuccess]
  json := by
    intro isJson
    rw [isJson] at renderedIs
    have blank : ∀ c ∈ options.ending, Json.Reader.isBlank c = true := by
      intro c mem
      rw [CheckOptions.ending, isJson] at mem
      rw [List.mem_singleton.1 mem]
      rfl
    rcases Report.exists_isIn_of_renderJson renderedIs blank with ⟨members, read, isIn⟩
    refine ⟨members, by rw [stdout, read], isIn, ?_⟩
    rw [code, ← Report.isSuccess_eq_beq]
    exact isIn.success
  text := by
    intro isText
    rw [isText] at renderedIs
    rcases Report.exists_renderText_eq report root options.color with ⟨front, written⟩
    refine ⟨front, ?_⟩
    rw [stdout, CheckOptions.ending, isText, List.append_nil, code, ← Report.isSuccess_eq_beq,
      ← written]
    exact (Except.ok.inj renderedIs).symm

section Check

variable {network : Probe} {disk : Disk} {options : CheckOptions}

/-- A check that ends well has gone through all of its steps. -/
theorem check_eq_ok_iff {printed : Printed} :
    check network disk options = .ok printed ↔
      ∃ root settings report rendered, options.Finds network disk root settings report ∧
        report.render root options.format options.color = .ok rendered ∧
        printed = ⟨report.exitCode, rendered ++ options.ending⟩ := by
  rw [check]
  constructor
  · intro done
    rcases bind_eq_ok_iff.1 done with ⟨root, rootIs, done⟩
    rcases bind_eq_ok_iff.1 done with ⟨settings, settingsAre, done⟩
    rcases bind_eq_ok_iff.1 done with ⟨report, reportIs, done⟩
    rcases bind_eq_ok_iff.1 done with ⟨rendered, renderedIs, done⟩
    exact ⟨root, settings, report, rendered, ⟨rootIs, settingsAre, reportIs⟩, renderedIs,
      (Except.ok.inj done).symm⟩
  · rintro ⟨root, settings, report, rendered, ⟨rootIs, settingsAre, reportIs⟩, renderedIs, rfl⟩
    refine bind_eq_ok_iff.2 ⟨root, rootIs, ?_⟩
    refine bind_eq_ok_iff.2 ⟨settings, settingsAre, ?_⟩
    refine bind_eq_ok_iff.2 ⟨report, reportIs, ?_⟩
    exact bind_eq_ok_iff.2 ⟨rendered, renderedIs, rfl⟩

/-- A report can be rendered unless it is to be JSON and holds a path that is not UTF-8. -/
theorem exists_render_iff {report : Report} {root : Path} {format : Report.Format} {color : Bool} :
    (∃ rendered, report.render root format color = .ok rendered) ↔
      ¬ (format = .json ∧ ∃ p ∈ report.paths, ¬ Utf8.IsText p.bytes) := by
  cases format with
  | json =>
    have areText : Path.AreText report.paths ↔ ¬ ∃ p ∈ report.paths, ¬ Utf8.IsText p.bytes := by
      simp [Path.AreText]
    simp only [Report.render, Report.exists_renderJson_iff, areText, true_and]
  | text => simp [Report.render]

/-- Where all files can be read, a check fails exactly if something keeps it from printing a
report. -/
theorem exists_check_eq_error_iff (readable : disk.Readable) :
    (∃ failure, check network disk options = .error failure) ↔
      options.IsHindered network disk := by
  constructor
  · rintro ⟨failure, failed⟩
    by_contra free
    rw [CheckOptions.IsHindered, not_or, not_or, not_not] at free
    rcases free with ⟨resolves, usable, textual⟩
    rcases Disk.exists_canonicalRoot_iff.2 resolves with ⟨root, rootIs⟩
    cases settingsAre : Settings.load disk root with
    | error refusal =>
      exact usable ⟨root, rootIs, Settings.exists_load_eq_error_iff.1 ⟨refusal, settingsAre⟩⟩
    | ok settings =>
      -- Below a root that was made canonical there is always a report.
      have reportIs : validate network disk (options.apply settings) root = _ :=
        validate_of_canonicalRoot (Disk.canonicalRoot_of_canonicalRoot rootIs)
          (inspectsAll_of_readable readable rootIs)
      have finds : options.Finds network disk root settings _ := ⟨rootIs, settingsAre, reportIs⟩
      have renders : ∃ rendered, Report.render _ root options.format options.color = .ok rendered :=
        exists_render_iff.2 fun ⟨isJson, notText⟩ =>
          textual ⟨isJson, root, settings, _, finds, notText⟩
      rcases renders with ⟨rendered, renderedIs⟩
      have done := check_eq_ok_iff.2 ⟨root, settings, _, rendered, finds, renderedIs, rfl⟩
      cases failed.symm.trans done
  · intro hindered
    cases checked : check network disk options with
    | error failure => exact ⟨failure, rfl⟩
    | ok printed =>
      rcases check_eq_ok_iff.1 checked with
        ⟨root, settings, report, rendered, finds, renderedIs, -⟩
      rcases hindered with unresolved | ⟨other, otherIs, unusable⟩ |
        ⟨isJson, other, otherSettings, otherReport, otherFinds, notText⟩
      · exact absurd (Disk.exists_canonicalRoot_iff.1 ⟨root, finds.rootIs⟩) unresolved
      · cases otherIs.symm.trans finds.rootIs
        rcases Settings.exists_load_eq_error_iff.2 unusable with ⟨failure, refused⟩
        cases refused.symm.trans finds.settingsAre
      · cases otherFinds.report_eq finds
        exact absurd ⟨isJson, notText⟩ (exists_render_iff.1 ⟨rendered, renderedIs⟩)

end Check

section Once

variable {world : World} {verbose : Bool} {options : CheckOptions}

/-- A run that asks for a check and for no watch is that one check. -/
theorem run_eq_checkOnce {arguments : List Text} {invocation : Invocation}
    (parsed : parse arguments = .ok (.check invocation)) (noWatch : invocation.watch = false) :
    run world arguments =
      checkOnce world invocation.verbose (invocation.options world.terminal) := by
  simp only [run, parsed, invoke, noWatch, Bool.false_eq_true, if_false]

theorem checkOnce_of_error {failure : Failure}
    (failed : check world.network world.disk options = .error failure) :
    (checkOnce world verbose options).stdout = [] ∧
      (checkOnce world verbose options).exitCode = failureCode := by
  rw [checkOnce, failed]
  exact ⟨rfl, rfl⟩

theorem checkOnce_of_ok {printed : Printed}
    (done : check world.network world.disk options = .ok printed) :
    (checkOnce world verbose options).stdout = printed.stdout ∧
      (checkOnce world verbose options).exitCode = printed.exitCode := by
  rw [checkOnce, done]
  exact ⟨rfl, rfl⟩

/-- The exit code of a check that reports is one exactly if checking some link alone finds a
defect. -/
theorem exitCode_eq_one_iff {output : Output} {root : Path} {settings : Settings} {report : Report}
    (finds : options.Finds world.network world.disk root settings report)
    (tells : output.Tells options root report) :
    output.exitCode = 1 ↔
      (inspectorFor world.network world.disk (options.apply settings) root).FindsDefect := by
  rcases finds.report_eq_ofSheets with ⟨inspectsAll, written⟩
  have sound : output.exitCode = 0 ↔ ¬ (inspectorFor world.network world.disk
      (options.apply settings) root).FindsDefect := by
    rw [tells.broken, Report.brokenCount_eq_zero_iff, written,
      Report.defects_ofSheets_eq_nil_iff inspectsAll]
  rcases tells.code with zero | one
  · simp [zero, sound.1 zero]
  · rw [one] at sound ⊢
    simpa using sound

/-- Every run without a watch is one check, with any options.  Where all files can be read, it fails
exactly if something hinders it.  If it fails, it prints nothing and exits with two.  Otherwise all of
the report is printed, and the exit code is one if some link of some document has a defect and zero if
none has. -/
theorem checkOnce_exact (world : World) :
    (∀ arguments invocation, parse arguments = .ok (.check invocation) →
      invocation.watch = false →
      run world arguments =
        checkOnce world invocation.verbose (invocation.options world.terminal)) ∧
    ∀ (verbose : Bool) (options : CheckOptions),
      (world.disk.Readable →
        ((∃ failure, check world.network world.disk options = .error failure) ↔
          options.IsHindered world.network world.disk)) ∧
      (∀ failure, check world.network world.disk options = .error failure →
        (checkOnce world verbose options).stdout = [] ∧
          (checkOnce world verbose options).exitCode = 2) ∧
      ∀ printed, check world.network world.disk options = .ok printed →
        ∃ root settings report, options.Finds world.network world.disk root settings report ∧
          (checkOnce world verbose options).Tells options root report ∧
          ((checkOnce world verbose options).exitCode = 1 ↔
            (inspectorFor world.network world.disk (options.apply settings) root).FindsDefect) := by
  constructor
  · intro arguments invocation parsed noWatch
    exact run_eq_checkOnce parsed noWatch
  · intro verbose options
    refine ⟨exists_check_eq_error_iff, fun failure failed => checkOnce_of_error failed, ?_⟩
    intro printed done
    rcases check_eq_ok_iff.1 done with ⟨root, settings, report, rendered, finds, renderedIs, rfl⟩
    rcases @checkOnce_of_ok world verbose options _ done with ⟨stdout, code⟩
    have tells := Output.tells_of_render renderedIs code stdout
    exact ⟨root, settings, report, finds, tells, exitCode_eq_one_iff finds tells⟩

/-- A disk of two documents, one of which has a broken link. -/
def World.sample : World where
  disk := .sample
  network := fun _ => .reachable
  terminal := false

set_option maxRecDepth 10000 in
theorem checkOnce_exact_sample :
    (checkOnce .sample false { repo := .ofText "/r".toList }).exitCode = 1 ∧
    (checkOnce .sample false { repo := .ofText "/r/x".toList }).stdout = [] ∧
    (checkOnce .sample false { repo := .ofText "/r/x".toList }).exitCode = 2 := by
  rcases checkOnce_exact .sample with ⟨-, once⟩
  constructor
  · rcases once false { repo := .ofText "/r".toList } with ⟨hinders, -, tells⟩
    have readable : World.sample.disk.Readable := by decide
    have rootIs : canonicalRoot .sample (.ofText "/r".toList) = .ok (.ofText "/r".toList) := rfl
    have settingsAre : Settings.load .sample (.ofText "/r".toList) = .ok .default := rfl
    cases done : check World.sample.network .sample { repo := .ofText "/r".toList } with
    | error failure =>
      rcases (hinders readable).1 ⟨failure, done⟩ with
        unresolved | ⟨other, otherIs, unusable⟩ | ⟨isJson, -⟩
      · exact absurd (Disk.exists_canonicalRoot_iff.1 ⟨_, rootIs⟩) unresolved
      · cases rootIs.symm.trans otherIs
        rcases Settings.exists_load_eq_error_iff.2 unusable with ⟨failure, refused⟩
        cases settingsAre.symm.trans refused
      · cases isJson
    | ok printed =>
      rcases tells printed done with ⟨root, settings, report, finds, tells, -⟩
      cases rootIs.symm.trans finds.rootIs
      cases settingsAre.symm.trans finds.settingsAre
      have counted : (validate (fun _ => .reachable) .sample .default (.ofText "/r".toList)).map
          Report.brokenCount = .ok 1 := by
        cbv
      have reportIs : validate (fun _ => .reachable) .sample .default (.ofText "/r".toList) =
          .ok report :=
        finds.reportIs
      rw [reportIs] at counted
      apply tells.code.resolve_left
      intro zero
      cases (tells.broken.1 zero).symm.trans (Except.ok.inj counted)
  · rcases once false { repo := .ofText "/r/x".toList } with ⟨-, fails, -⟩
    exact fails (.noRoot (.ofText "/r/x".toList)) rfl

end Once

namespace TooDeep

def current : Name := ⟨Utf8.encode "cur".toList, by decide⟩

/-- Names of directories, one in the other, whose path is one byte longer than a path may be. -/
def names : List Name :=
  List.replicate 16 Disk.longName

/-- These directories, and a link to the one that is two above the last. -/
def disk : Disk where
  root := .link current (.below (names.drop 2)) (Disk.nested .empty names)
  distinct := ⟨by decide, Disk.distinct_nested (by trivial) names⟩
  cwd := []

/-- A check of the last directory, by way of the link. -/
def options : CheckOptions where
  repo := .ofNames [current, Disk.longName, Disk.longName]

theorem read_settings : disk.read (Settings.filePath options.repo) = .error .notFound := by
  have absent : (match disk.read (Settings.filePath options.repo) with
      | .error cause => some cause
      | .ok _ => none) = some .notFound := by
    decide +kernel
  cases result : disk.read (Settings.filePath options.repo) with
  | error cause =>
    rw [result] at absent
    rw [Option.some.inj absent]
  | ok bytes =>
    rw [result] at absent
    cases absent

theorem canonicalRoot_repo : canonicalRoot disk options.repo = .error (.noRoot options.repo) := by
  have tooLong : ((disk.canonical options.repo).toOption).isNone = true := by decide +kernel
  cases made : disk.canonical options.repo with
  | error cause =>
    rw [canonicalRoot, made]
  | ok path =>
    rw [made] at tooLong
    cases tooLong

end TooDeep

/-- A root that is a directory is not enough: if its own path from the root is too long, the check
fails, although there are no settings that could be refused and the report is not to be JSON. -/
theorem check_fails_too_deep :
    TooDeep.disk.Readable ∧
    (∃ failure, check (fun _ => .reachable) TooDeep.disk TooDeep.options = .error failure) ∧
    ¬ (TooDeep.disk.isDirectory TooDeep.options.repo = false ∨
      Settings.IsUnusable TooDeep.disk TooDeep.options.repo ∨ TooDeep.options.format = .json) := by
  refine ⟨by decide +kernel, ?_, ?_⟩
  · refine ⟨.noRoot TooDeep.options.repo, ?_⟩
    rw [check, TooDeep.canonicalRoot_repo]
    rfl
  · have isDirectory : TooDeep.disk.isDirectory TooDeep.options.repo = true := by decide +kernel
    rintro (notDirectory | unusable | isJson)
    · cases isDirectory.symm.trans notDirectory
    · rcases Settings.exists_load_eq_error_iff.2 unusable with ⟨failure, refused⟩
      cases (Settings.load_of_notFound TooDeep.read_settings).symm.trans refused
    · cases isJson

end CommandLine

end MarkdownLinks
