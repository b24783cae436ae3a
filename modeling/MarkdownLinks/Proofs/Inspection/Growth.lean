import MarkdownLinks.Proofs.Disk.Growth
import MarkdownLinks.Proofs.Inspection.Soundness
import MarkdownLinks.Proofs.Path.Ending
import MarkdownLinks.Proofs.Root

/-!
# Links on growing disks

Adding files and directories to a disk without links breaks no link.  A link keeps the path that it
means, and where it led to a file or a directory it still does.  Only a link that needed the
extension of documents can lead elsewhere, if something appears at its path as it is; but this
path does not end as those of documents do, so that no heading is looked for there.
-/

namespace MarkdownLinks

namespace Inspector

section Growth

variable {inspector : Inspector} {larger : Disk} {source target : Path} {link : Link} {file : Text}
  {fragment : Option Text}

theorem targetPath_of_growth (linkFree : inspector.disk.LinkFree)
    (largerLinkFree : larger.LinkFree) (rootAbsolute : inspector.root.isAbsolute = true)
    (sourceAbsolute : source.isAbsolute = true) (file : Text) :
    targetPath { inspector with disk := larger } source file =
      inspector.targetPath source file := by
  rw [targetPath_of_linkFree linkFree rootAbsolute sourceAbsolute]
  exact @targetPath_of_linkFree { inspector with disk := larger } source largerLinkFree
    rootAbsolute sourceAbsolute file

variable (grows : inspector.disk.GrowsTo larger) (linkFree : inspector.disk.LinkFree)

include grows linkFree

theorem exists_read_of_growth {text : Text} (absolute : target.isAbsolute = true)
    (read : Document.read inspector.disk target = .ok text) :
    Document.read larger target = .ok text := by
  rcases Document.read_eq_ok_iff.1 read with ⟨content, found, rfl⟩
  apply Document.read_eq_ok_iff.2
  exact ⟨content, grows.entry_file linkFree absolute found, rfl⟩

theorem answers_of_growth (absolute : target.isAbsolute = true)
    (contained : inspector.disk.contains target = true)
    (answers : inspector.Answers target fragment) :
    Answers { inspector with disk := larger } target fragment := by
  intro anchor isFragment asked
  rcases Bool.and_eq_true_iff.1 asked with ⟨isFile, isDocumentName⟩
  rcases grows.exists_entry_file_of_isFile linkFree absolute contained isFile with
    ⟨content, found, -⟩
  have askedBefore : inspector.hasAnchors target = true :=
    Bool.and_eq_true_iff.2 ⟨Disk.isFile_of_entry found, isDocumentName⟩
  rcases answers anchor isFragment askedBefore with ⟨text, read, mem⟩
  exact ⟨text, exists_read_of_growth grows linkFree absolute read, mem⟩

variable (largerLinkFree : larger.LinkFree) (rootAbsolute : inspector.root.isAbsolute = true)
  (sourceAbsolute : source.isAbsolute = true)

include largerLinkFree rootAbsolute sourceAbsolute

theorem exists_lead_of_growth (leads : inspector.lead? source file = some target)
    (answers : inspector.Answers target fragment) :
    ∃ later, lead? { inspector with disk := larger } source file = some later ∧
      Answers { inspector with disk := larger } later fragment := by
  have tidy : (inspector.targetPath source file).IsTidy :=
    isTidy_targetPath rootAbsolute sourceAbsolute file
  simp only [lead?_eq_some_iff] at leads ⊢
  simp only [targetPath_of_growth linkFree largerLinkFree rootAbsolute sourceAbsolute]
  generalize inspector.targetPath source file = stated at leads tidy ⊢
  rcases leads with plain | extended
  · rcases reach_eq_plain_iff.1 plain with ⟨rfl, contained⟩
    refine ⟨target, .inl ?_, ?_⟩
    · apply reach_eq_plain_iff.2
      exact ⟨rfl, grows.contains_of_contains linkFree tidy.isAbsolute contained⟩
    · exact answers_of_growth grows linkFree tidy.isAbsolute contained answers
  · rcases reach_eq_extended_iff.1 extended with ⟨rfl, -, notDocument, contained⟩
    have absolute : (stated.append inspector.settings.dottedExtension).isAbsolute = true :=
      Path.isAbsolute_append tidy.isAbsolute _
    by_cases appeared : larger.contains stated = true
    · refine ⟨stated, .inl (reach_eq_plain_iff.2 ⟨rfl, appeared⟩), ?_⟩
      intro anchor _ asked
      rcases Bool.and_eq_true_iff.1 asked with ⟨-, isDocumentName⟩
      rw [Settings.endsAsDocument_of_isDocumentName tidy.ofComponents_components
        isDocumentName] at notDocument
      cases notDocument
    · refine ⟨_, .inr ?_, answers_of_growth grows linkFree absolute contained answers⟩
      apply reach_eq_extended_iff.2
      exact ⟨rfl, by simpa using appeared, notDocument,
        grows.contains_of_contains linkFree absolute contained⟩

theorem check_findsNoDefect_of_growth
    (sound : (inspector.check .empty source link).FindsNoDefect) :
    (check { inspector with disk := larger } .empty source link).FindsNoDefect := by
  simp only [check] at sound ⊢
  split at sound
  · -- The disk does not matter for external links.
    exact sound
  · rcases checkAnchor_findsNoDefect_iff.1 sound with ⟨text, read, mem⟩
    apply checkAnchor_findsNoDefect_iff.2
    exact ⟨text, exists_read_of_growth grows linkFree sourceAbsolute read, mem⟩
  · next file fragment _ =>
    by_cases fileNe : file = []
    · subst fileNe
      exact ⟨.sound, rfl, rfl⟩
    · rcases (checkFile_findsNoDefect_iff fileNe).1 sound with ⟨target, leads, answers⟩
      apply (checkFile_findsNoDefect_iff fileNe).2
      exact exists_lead_of_growth grows linkFree largerLinkFree rootAbsolute sourceAbsolute leads
        answers

end Growth

/-- Adding files and directories never breaks a link. -/
theorem check_of_growsTo {disk larger : Disk} {settings : Settings} {given root source : Path}
    {probe : Option Probe} {link : Link} {verdict : Verdict} (linkFree : disk.LinkFree)
    (largerLinkFree : larger.LinkFree) (grows : disk.GrowsTo larger)
    (canonical : canonicalRoot disk given = .ok root) (sourceAbsolute : source.isAbsolute = true)
    (checked : (check ⟨disk, settings, root, probe⟩ .empty source link).result = .ok verdict)
    (sound : verdict.isSound = true) :
    ∃ later, (check ⟨larger, settings, root, probe⟩ .empty source link).result = .ok later ∧
      later.isSound = true := by
  rcases exists_names_of_canonicalRoot canonical with ⟨base, entries, rfl, -⟩
  have rootAbsolute : (Path.ofNames base).isAbsolute = true := (Path.isTidy_ofNames base).isAbsolute
  exact check_findsNoDefect_of_growth grows linkFree largerLinkFree rootAbsolute sourceAbsolute
    ⟨verdict, checked, sound⟩

/-- A disk with a document and another one that it can link to. -/
def smallDisk : Disk where
  root := .file ⟨Utf8.encode "a.md".toList, Eq.refl true⟩ (.bytes [])
    (.file ⟨Utf8.encode "x.md".toList, Eq.refl true⟩ (.bytes (Utf8.encode "# T\n".toList)) .empty)
  distinct := by
    simp [Listing.Distinct, Listing.names]
    decide
  cwd := []

/-- The small disk with a directory whose name is that of a document without the extension. -/
def grownDisk : Disk where
  root := .directory ⟨Utf8.encode "x".toList, by decide⟩ .empty smallDisk.root
  distinct := by
    refine ⟨?_, trivial, smallDisk.distinct⟩
    decide
  cwd := []

theorem smallDisk_growsTo : smallDisk.GrowsTo grownDisk := by
  have kept : ∀ name rest entry, smallDisk.at? (name :: rest) = some entry →
      grownDisk.at? (name :: rest) = some entry := by
    intro name rest entry found
    have other : ⟨Utf8.encode "x".toList, by decide⟩ ≠ name := by
      rintro rfl
      cases found
    simp only [Disk.at?, grownDisk, Listing.at?, Listing.find?, if_neg other] at found ⊢
    exact found
  constructor
  · intro names content found
    cases names with
    | nil => cases found
    | cons name rest => exact kept name rest _ found
  · intro names entries found
    cases names with
    | nil => exact ⟨_, rfl⟩
    | cons name rest => exact ⟨entries, kept name rest _ found⟩

/-- The link leads to the document first, and to the directory once it is there. -/
theorem check_of_growsTo_sample :
    smallDisk.LinkFree ∧ grownDisk.LinkFree ∧ smallDisk.GrowsTo grownDisk ∧
      canonicalRoot smallDisk (.ofText "/".toList) = .ok (.ofText "/".toList) ∧
      ∃ verdict, (check ⟨smallDisk, .default, .ofText "/".toList, none⟩ .empty
          (.ofText "/a.md".toList) ⟨1, "x".toList, "x#t".toList⟩).result = .ok verdict ∧
        verdict.isSound = true ∧
        ∃ later, (check ⟨grownDisk, .default, .ofText "/".toList, none⟩ .empty
            (.ofText "/a.md".toList) ⟨1, "x".toList, "x#t".toList⟩).result = .ok later ∧
          later.isSound = true := by
  have linkFree : smallDisk.LinkFree := by decide
  have grownLinkFree : grownDisk.LinkFree := by decide
  have canonical : canonicalRoot smallDisk (.ofText "/".toList) = .ok (.ofText "/".toList) := rfl
  have checked : (check ⟨smallDisk, .default, .ofText "/".toList, none⟩ .empty
      (.ofText "/a.md".toList) ⟨1, "x".toList, "x#t".toList⟩).result = .ok { advice := [
        ⟨.ofText "a.md".toList, 1, "x#t".toList, .missingExtension "x.md#t".toList⟩] } := by
    rfl
  exact ⟨linkFree, grownLinkFree, smallDisk_growsTo, canonical, _, checked, rfl,
    check_of_growsTo linkFree grownLinkFree smallDisk_growsTo canonical rfl checked rfl⟩

end Inspector

end MarkdownLinks
