import MarkdownLinks.Proofs.Heading
import MarkdownLinks.Proofs.Inspection.Soundness
import MarkdownLinks.Proofs.Root
import MarkdownLinks.Proofs.Url.File

/-!
# The verdict on a link to a file

A check with nothing in the cache always gives a verdict on a link to a file, because it reads only
what it has found to be a file.  Which verdict it is follows from where the link leads and from the
lines there that are headings, and from nothing else.
-/

namespace MarkdownLinks

/-- Whether some line of the document at a path is a heading with a slug. -/
def Document.HasHeading (disk : Disk) (p : Path) (slug : Text) : Prop :=
  ∃ text, Document.read disk p = .ok text ∧ ∃ line ∈ lines text, Heading.Gives line slug

theorem Document.hasHeading_iff_of_read {disk : Disk} {p : Path} {text slug : Text}
    (read : Document.read disk p = .ok text) :
    Document.HasHeading disk p slug ↔ slug ∈ Heading.slugs text := by
  simp only [Document.HasHeading, read, Except.ok.injEq, exists_eq_left',
    Heading.mem_slugs_iff_exists_gives]

namespace Inspector

/-- Whether a link that means a path leads to a path: to the one that it means if there is such an
entry, and otherwise to this one with the extension of documents, which must not end it already. -/
def LeadsTo (inspector : Inspector) (stated reached : Path) : Prop :=
  (inspector.disk.contains stated = true ∧ reached = stated) ∨
    (inspector.disk.contains stated = false ∧ inspector.settings.endsAsDocument stated = false ∧
      inspector.disk.contains reached = true ∧
      reached = stated.append inspector.settings.dottedExtension)

/-- Whether a link that means a path leads nowhere. -/
def LeadsNowhere (inspector : Inspector) (stated : Path) : Prop :=
  inspector.disk.contains stated = false ∧
    (inspector.settings.endsAsDocument stated = true ∨
      inspector.disk.contains (stated.append inspector.settings.dottedExtension) = false)

/-- Whether a path is a file and a document. -/
def IsDocumentFile (inspector : Inspector) (p : Path) : Prop :=
  inspector.disk.isFile p = true ∧ inspector.settings.isDocumentName p = true

/-- What is wrong with a link that means a path and may have a fragment. -/
inductive Judges (inspector : Inspector) (stated : Path) (fragment : Option Text) :
    Option Defect.Cause → Prop
  | sound {reached : Path} (leads : inspector.LeadsTo stated reached)
      (answered : ∀ anchor ∈ fragment, inspector.IsDocumentFile reached →
        Document.HasHeading inspector.disk reached anchor) :
      Judges inspector stated fragment none
  | missingFile (nowhere : inspector.LeadsNowhere stated) :
      Judges inspector stated fragment (some (.missingFile stated))
  | missingAnchor {reached : Path} {anchor : Text} {all : List Text}
      (leads : inspector.LeadsTo stated reached) (isDocument : inspector.IsDocumentFile reached)
      (asked : anchor ∈ fragment) (ascending : all.Pairwise (· < ·))
      (mem_all : ∀ slug, slug ∈ all ↔ Document.HasHeading inspector.disk reached slug)
      (missing : anchor ∉ all) :
      Judges inspector stated fragment
        (some (.missingAnchor (all.take 5) anchor (some reached)))

variable {inspector : Inspector} {source stated reached : Path} {link : Link}
  {fragment : Option Text}

theorem leadsTo_iff_reach :
    inspector.LeadsTo stated reached ↔
      inspector.reach stated = .plain reached ∨ inspector.reach stated = .extended reached := by
  rw [LeadsTo, reach_eq_plain_iff, reach_eq_extended_iff]
  constructor
  · rintro (⟨contained, same⟩ | ⟨absent, notDocument, there, rfl⟩)
    · exact .inl ⟨same, contained⟩
    · exact .inr ⟨rfl, absent, notDocument, there⟩
  · rintro (⟨same, contained⟩ | ⟨rfl, absent, notDocument, there⟩)
    · exact .inl ⟨contained, same⟩
    · exact .inr ⟨absent, notDocument, there, rfl⟩

theorem leadsNowhere_iff_reach :
    inspector.LeadsNowhere stated ↔ inspector.reach stated = .nothing := by
  rw [LeadsNowhere, reach]
  split
  · next contained => simp [contained]
  · next absent =>
    simp only
    split
    · next nothing => simpa [absent] using nothing
    · next found => simpa [absent] using found

theorem isDocumentFile_iff_hasAnchors :
    inspector.IsDocumentFile reached ↔ inspector.hasAnchors reached = true := by
  rw [IsDocumentFile, hasAnchors, Bool.and_eq_true]

/-- A link leads to one path only. -/
theorem LeadsTo.unique {other : Path} (leads : inspector.LeadsTo stated reached)
    (leadsToOther : inspector.LeadsTo stated other) : reached = other := by
  rcases leads with ⟨contained, same⟩ | ⟨absent, -, -, same⟩
  · rcases leadsToOther with ⟨-, otherSame⟩ | ⟨absent, -⟩
    · rw [same, otherSame]
    · rw [contained] at absent
      cases absent
  · rcases leadsToOther with ⟨contained, -⟩ | ⟨-, -, -, otherSame⟩
    · rw [contained] at absent
      cases absent
    · rw [same, otherSame]

theorem LeadsNowhere.not_leadsTo (nowhere : inspector.LeadsNowhere stated) :
    ¬ inspector.LeadsTo stated reached := by
  intro leads
  rw [leadsNowhere_iff_reach] at nowhere
  rw [leadsTo_iff_reach, nowhere] at leads
  rcases leads with impossible | impossible <;> cases impossible

/-- A link is judged in one way only. -/
theorem Judges.unique {cause other : Option Defect.Cause}
    (judged : inspector.Judges stated fragment cause)
    (judgedOther : inspector.Judges stated fragment other) : cause = other := by
  cases judged with
  | sound leads answered =>
    cases judgedOther with
    | sound => rfl
    | missingFile nowhere => exact absurd leads nowhere.not_leadsTo
    | missingAnchor leadsToOther isDocument asked _ mem_all missing =>
      obtain rfl := leads.unique leadsToOther
      exact absurd ((mem_all _).2 (answered _ asked isDocument)) missing
  | missingFile nowhere =>
    cases judgedOther with
    | sound leads => exact absurd leads nowhere.not_leadsTo
    | missingFile => rfl
    | missingAnchor leads => exact absurd leads nowhere.not_leadsTo
  | missingAnchor leads isDocument asked ascending mem_all missing =>
    cases judgedOther with
    | sound leadsToOther answered =>
      obtain rfl := leads.unique leadsToOther
      exact absurd ((mem_all _).2 (answered _ asked isDocument)) missing
    | missingFile nowhere => exact absurd leads nowhere.not_leadsTo
    | missingAnchor leadsToOther _ otherAsked otherAscending other_mem_all =>
      obtain rfl := leads.unique leadsToOther
      obtain rfl := Option.mem_unique asked otherAsked
      have sameMembers := fun slug => (mem_all slug).trans (other_mem_all slug).symm
      rw [TextSet.eq_of_same_members ascending otherAscending sameMembers]

/-- Where a link leads somewhere, its fragment is judged by the headings there. -/
theorem exists_judged_checkFragment {soFar : List Advice} (readable : inspector.disk.Readable)
    (leads : inspector.LeadsTo stated reached) :
    ∃ verdict,
      (inspector.checkFragment source link .empty reached fragment soFar).result = .ok verdict ∧
        inspector.Judges stated fragment (verdict.defect.map Defect.cause) := by
  simp only [checkFragment]
  split
  · next anchor isAsked =>
    rcases Option.filter_eq_some_iff.1 isAsked with ⟨asked, hasAnchors⟩
    have isDocument : inspector.IsDocumentFile reached :=
      isDocumentFile_iff_hasAnchors.2 hasAnchors
    rcases Document.exists_read_of_isFile readable isDocument.1 with ⟨text, read⟩
    have mem_slugs := fun slug => (@Document.hasHeading_iff_of_read _ _ _ slug read).symm
    refine ⟨_, checkAnchor_of_read read, ?_⟩
    split
    · next mem =>
      refine .sound leads ?_
      intro other otherAsked _
      obtain rfl := Option.mem_unique asked otherAsked
      exact (mem_slugs anchor).1 mem
    · next missing =>
      exact .missingAnchor leads isDocument asked (Heading.slugs text).ascending mem_slugs missing
  · next notAsked =>
    refine ⟨_, rfl, .sound leads ?_⟩
    intro anchor asked isDocument
    rw [Option.mem_def.1 asked, Option.filter_eq_none_iff] at notAsked
    exact absurd (isDocumentFile_iff_hasAnchors.1 isDocument) (notAsked anchor rfl)

theorem exists_judged_checkFile {file : Text} (readable : inspector.disk.Readable)
    (fileNe : file ≠ []) :
    ∃ verdict, (inspector.checkFile source link .empty file fragment).result = .ok verdict ∧
      inspector.Judges (inspector.targetPath source file) fragment
        (verdict.defect.map Defect.cause) := by
  rw [checkFile, if_neg (by simpa using fileNe)]
  simp only
  cases reached : inspector.reach (inspector.targetPath source file) with
  | plain target =>
    exact exists_judged_checkFragment readable (leadsTo_iff_reach.2 (.inl reached))
  | extended target =>
    exact exists_judged_checkFragment readable (leadsTo_iff_reach.2 (.inr reached))
  | nothing => exact ⟨_, rfl, .missingFile (leadsNowhere_iff_reach.2 reached)⟩

/-- Whether a verdict says of a link to a file what is the case, and no more.  The path is the one
that the link means, and the first few slugs there are go along with one that is missing. -/
structure IsRight (inspector : Inspector) (stated : Path) (fragment : Option Text)
    (verdict : Verdict) : Prop where
  isSound_iff : verdict.defect = none ↔
    ∃ reached, inspector.LeadsTo stated reached ∧
      ∀ anchor ∈ fragment, inspector.IsDocumentFile reached →
        Document.HasHeading inspector.disk reached anchor
  missingFile_iff : ∀ expected,
    verdict.defect.map Defect.cause = some (.missingFile expected) ↔
      expected = stated ∧ inspector.LeadsNowhere stated
  missingAnchor_iff : ∀ available missing target,
    verdict.defect.map Defect.cause = some (.missingAnchor available missing target) ↔
      ∃ reached, target = some reached ∧ inspector.LeadsTo stated reached ∧
        inspector.IsDocumentFile reached ∧ missing ∈ fragment ∧
        ¬ Document.HasHeading inspector.disk reached missing ∧
        ∃ all : List Text, all.Pairwise (· < ·) ∧
          (∀ slug, slug ∈ all ↔ Document.HasHeading inspector.disk reached slug) ∧
            available = all.take 5
  not_refused : ∀ status, verdict.defect.map Defect.cause ≠ some (.refused status)

theorem Judges.isRight {verdict : Verdict}
    (judged : inspector.Judges stated fragment (verdict.defect.map Defect.cause)) :
    inspector.IsRight stated fragment verdict where
  isSound_iff := by
    rw [← Option.map_eq_none_iff (f := Defect.cause)]
    constructor
    · intro isSound
      rw [isSound] at judged
      cases judged with
      | sound leads answered => exact ⟨_, leads, answered⟩
    · rintro ⟨reached, leads, answered⟩
      exact judged.unique (.sound leads answered)
  missingFile_iff expected := by
    constructor
    · intro isMissing
      rw [isMissing] at judged
      cases judged with
      | missingFile nowhere => exact ⟨rfl, nowhere⟩
    · rintro ⟨rfl, nowhere⟩
      exact judged.unique (.missingFile nowhere)
  missingAnchor_iff available missing target := by
    constructor
    · intro isMissing
      rw [isMissing] at judged
      cases judged with
      | @missingAnchor reached _ all leads isDocument asked ascending mem_all missing =>
        refine ⟨reached, rfl, leads, isDocument, asked, ?_, all, ascending, mem_all, rfl⟩
        intro hasHeading
        exact missing ((mem_all _).2 hasHeading)
    · rintro ⟨reached, rfl, leads, isDocument, asked, noHeading, all, ascending, mem_all, rfl⟩
      refine judged.unique (.missingAnchor leads isDocument asked ascending mem_all ?_)
      intro mem
      exact noHeading ((mem_all missing).1 mem)
  not_refused status := by
    intro isRefused
    rw [isRefused] at judged
    cases judged

/-- Where all files can be read, every link to a file gets a verdict, and it is right. -/
theorem check_isRight (readable : inspector.disk.Readable) (names : Url.NamesFile link.url) :
    ∃ verdict, (inspector.check .empty source link).result = .ok verdict ∧
      inspector.IsRight (inspector.targetPath source (Url.filePath link.url))
        (Url.fragment? link.url) verdict := by
  rcases @exists_judged_checkFile inspector source link (Url.fragment? link.url) _ readable
    names.filePath_ne_nil with ⟨verdict, checked, judged⟩
  refine ⟨verdict, ?_, judged.isRight⟩
  simp only [check, Url.target_of_namesFile names]
  exact checked

/-- The link leads to a document without the heading, by its extension only. -/
theorem check_isRight_sample :
    Disk.sample.Readable ∧ Url.NamesFile "d/c%20d#x#y".toList ∧
      ∃ verdict, (check ⟨.sample, .default, .ofText "/r".toList, none⟩ .empty
          (.ofText "/r/index.md".toList) ⟨1, "x".toList, "d/c%20d#x#y".toList⟩).result =
            .ok verdict ∧
        IsRight ⟨.sample, .default, .ofText "/r".toList, none⟩ (.ofText "/r/d/c d".toList)
          (some "#x#y".toList) verdict := by
  have names : Url.NamesFile "d/c%20d#x#y".toList := ⟨by decide, by decide, by decide⟩
  have readable : Disk.sample.Readable := by decide
  exact ⟨readable, names, @check_isRight ⟨.sample, .default, .ofText "/r".toList, none⟩ _ _ readable
    names⟩

end Inspector

end MarkdownLinks
