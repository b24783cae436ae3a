import MarkdownLinks.Proofs.Document
import MarkdownLinks.Proofs.Inspection.Target

/-!
# When a link is sound

A check with nothing in the cache finds no defect in a link to a file exactly if the link leads
somewhere and the heading that its fragment asks for is there.  Such a check only fails to give a
verdict if a heading is asked for and the document that would have it cannot be read.
-/

namespace MarkdownLinks

/-- Whether a check gives a verdict without a defect. -/
def Inspection.FindsNoDefect (inspection : Inspection Verdict) : Prop :=
  ∃ verdict, inspection.result = .ok verdict ∧ verdict.isSound = true

namespace Inspector

/-- Where a link to a file leads, with the extension of documents if it needs that. -/
def lead? (inspector : Inspector) (source : Path) (file : Text) : Option Path :=
  match inspector.reach (inspector.targetPath source file) with
  | .plain target | .extended target => some target
  | .nothing => none

/-- Whether a path has the heading that a fragment asks for, if headings are looked for at all. -/
def Answers (inspector : Inspector) (target : Path) (fragment : Option Text) : Prop :=
  ∀ anchor ∈ fragment, inspector.hasAnchors target = true →
    ∃ text, Document.read inspector.disk target = .ok text ∧ anchor ∈ Heading.slugs text

variable {inspector : Inspector} {source : Path} {link : Link}

theorem lead?_eq_some_iff {file : Text} {target : Path} :
    inspector.lead? source file = some target ↔
      inspector.reach (inspector.targetPath source file) = .plain target ∨
        inspector.reach (inspector.targetPath source file) = .extended target := by
  rw [lead?]
  cases inspector.reach (inspector.targetPath source file) <;> simp

section Anchors

variable {document : Path} {fragment message : Text} {target : Option Path}
  {soFar sound : List Advice}

theorem checkAnchor_of_read {text : Text}
    (read : Document.read inspector.disk document = .ok text) :
    (inspector.checkAnchor source link .empty document fragment message target soFar
      sound).result =
        .ok (if fragment ∈ Heading.slugs text then { advice := sound }
          else {
            defect := some (inspector.defect source link message
              (.missingAnchor ((Heading.slugs text).toList.take sampleSize) fragment target))
            advice := soFar }) := by
  have nothingKept : AnchorCache.empty.find? document = none := rfl
  simp only [checkAnchor, AnchorCache.slugs_of_read nothingKept read]
  split <;> rfl

theorem checkAnchor_of_fault {fault : ReadFault}
    (read : Document.read inspector.disk document = .error fault) :
    (inspector.checkAnchor source link .empty document fragment message target soFar
      sound).result = .error fault := by
  have nothingKept : AnchorCache.empty.find? document = none := rfl
  simp only [checkAnchor, AnchorCache.slugs_of_fault nothingKept read]

theorem checkAnchor_findsNoDefect_iff :
    (inspector.checkAnchor source link .empty document fragment message target soFar
      sound).FindsNoDefect ↔
        ∃ text, Document.read inspector.disk document = .ok text ∧
          fragment ∈ Heading.slugs text := by
  cases read : Document.read inspector.disk document with
  | error fault => simp [Inspection.FindsNoDefect, checkAnchor_of_fault read]
  | ok text =>
    simp only [Inspection.FindsNoDefect, checkAnchor_of_read read, Except.ok.injEq,
      exists_eq_left']
    split <;> simp [Verdict.isSound, *]

end Anchors

theorem checkFragment_findsNoDefect_iff {target : Path} {fragment : Option Text}
    {soFar : List Advice} :
    (inspector.checkFragment source link .empty target fragment soFar).FindsNoDefect ↔
      inspector.Answers target fragment := by
  simp only [checkFragment]
  split
  · next anchor asked =>
    rcases Option.filter_eq_some_iff.1 asked with ⟨rfl, hasAnchors⟩
    simp [checkAnchor_findsNoDefect_iff, Answers, hasAnchors]
  · next notAsked =>
    have noDefect : (Inspection.pure AnchorCache.empty ({
        advice := soFar ++ inspector.directoryAdvice source link target } :
          Verdict)).FindsNoDefect :=
      ⟨_, rfl, rfl⟩
    refine iff_of_true noDefect ?_
    intro anchor isFragment hasAnchors
    simp only [Option.mem_def.1 isFragment, Option.filter_eq_none_iff] at notAsked
    exact absurd hasAnchors (notAsked anchor rfl)

theorem checkFile_findsNoDefect_iff {file : Text} {fragment : Option Text} (fileNe : file ≠ []) :
    (inspector.checkFile source link .empty file fragment).FindsNoDefect ↔
      ∃ target, inspector.lead? source file = some target ∧ inspector.Answers target fragment := by
  rw [checkFile, if_neg (by simpa using fileNe), lead?]
  simp only
  cases inspector.reach (inspector.targetPath source file) with
  | plain target => simp [checkFragment_findsNoDefect_iff]
  | extended target => simp [checkFragment_findsNoDefect_iff]
  | nothing => simp [Inspection.FindsNoDefect, Inspection.pure, Verdict.isSound]

end Inspector

end MarkdownLinks
