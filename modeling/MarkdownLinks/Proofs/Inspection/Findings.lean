import MarkdownLinks.Inspection.Link
import MarkdownLinks.Proofs.Path.Names

/-!
# What findings say about a link

Whatever way a check ends, each of its findings names the document, the line and the URL of the link
that was checked.
-/

namespace MarkdownLinks

namespace Verdict

/-- Whether all findings of a verdict name a link and the document that it stands in. -/
structure IsAbout (verdict : Verdict) (inspector : Inspector) (source : Path) (link : Link) :
    Prop where
  defect : ∀ defect ∈ verdict.defect, defect.file = inspector.shown source ∧
    defect.line = link.line ∧ defect.url = link.url ∧ defect.text = link.text
  advice : ∀ advice ∈ verdict.advice, advice.file = inspector.shown source ∧
    advice.line = link.line ∧ advice.url = link.url

end Verdict

namespace Inspector

variable {inspector : Inspector} {source : Path} {link : Link} {cache : AnchorCache}
  {verdict : Verdict}

theorem shown_ofNames {base names : List Name} (root : inspector.root = .ofNames base)
    (nonempty : names ≠ []) : inspector.shown (.ofNames (base ++ names)) = .below names := by
  simp only [shown, root, Path.below?_ofNames base nonempty]
  rfl

theorem isAbout_sound : Verdict.sound.IsAbout inspector source link where
  defect := by simp [Verdict.sound]
  advice := by simp [Verdict.sound]

theorem isAbout_advice (reasons : List Advice.Reason) :
    Verdict.IsAbout { advice := reasons.map (inspector.advice source link) } inspector source
      link where
  defect := by simp
  advice := by simp [Inspector.advice]

theorem isAbout_defect (message : Text) (cause : Defect.Cause) (reasons : List Advice.Reason) :
    Verdict.IsAbout
      { defect := some (inspector.defect source link message cause)
        advice := reasons.map (inspector.advice source link) }
      inspector source link where
  defect := by simp [Inspector.defect]
  advice := by simp [Inspector.advice]

/-- An answer gives advice only if there is none. -/
theorem advice_probeVerdict (inspector : Inspector) (source : Path) (link : Link)
    (outcome : ProbeOutcome) :
    (inspector.probeVerdict source link outcome).advice =
      match outcome with
      | .unreachable reason => [inspector.advice source link (.unverified reason)]
      | _ => [] := by
  cases outcome with
  | reachable => rfl
  | status code =>
    simp only [probeVerdict]
    split <;> rfl
  | unreachable reason => rfl

theorem probeVerdict_isAbout (outcome : ProbeOutcome) :
    (inspector.probeVerdict source link outcome).IsAbout inspector source link := by
  cases outcome with
  | reachable => exact isAbout_sound
  | status code =>
    simp only [probeVerdict]
    split
    · exact isAbout_defect _ _ []
    · exact isAbout_sound
  | unreachable reason => exact isAbout_advice [.unverified reason]

theorem exists_directoryAdvice_eq (inspector : Inspector) (source : Path) (link : Link)
    (target : Path) :
    ∃ reasons : List Advice.Reason,
      inspector.directoryAdvice source link target =
        reasons.map (inspector.advice source link) := by
  simp only [directoryAdvice]
  split
  · exact ⟨[.directoryWithoutSlash _], rfl⟩
  · exact ⟨[], rfl⟩

theorem checkAnchor_isAbout {document : Path} {fragment message : Text} {target : Option Path}
    (soFar sound : List Advice.Reason)
    (checked : (inspector.checkAnchor source link cache document fragment message target
      (soFar.map (inspector.advice source link))
      (sound.map (inspector.advice source link))).result = .ok verdict) :
    verdict.IsAbout inspector source link := by
  rw [checkAnchor] at checked
  split at checked
  · cases checked
  · simp only at checked
    split at checked <;> cases checked
    · exact isAbout_advice sound
    · exact isAbout_defect _ _ soFar

theorem checkFragment_isAbout {target : Path} {fragment : Option Text}
    (soFar : List Advice.Reason)
    (checked : (inspector.checkFragment source link cache target fragment
      (soFar.map (inspector.advice source link))).result = .ok verdict) :
    verdict.IsAbout inspector source link := by
  rcases exists_directoryAdvice_eq inspector source link target with ⟨reasons, written⟩
  simp only [checkFragment, written, ← List.map_append] at checked
  split at checked
  · exact checkAnchor_isAbout soFar _ checked
  · cases checked
    exact isAbout_advice (soFar ++ reasons)

theorem checkFile_isAbout {file : Text} {fragment : Option Text}
    (checked : (inspector.checkFile source link cache file fragment).result = .ok verdict) :
    verdict.IsAbout inspector source link := by
  rw [checkFile] at checked
  split at checked
  · cases checked
    exact isAbout_sound
  · simp only at checked
    split at checked
    · exact checkFragment_isAbout [] checked
    · exact checkFragment_isAbout [.missingExtension _] checked
    · cases checked
      exact isAbout_defect _ _ []

/-- All findings of a check are about the link that was checked. -/
theorem check_isAbout (checked : (inspector.check cache source link).result = .ok verdict) :
    verdict.IsAbout inspector source link := by
  simp only [check] at checked
  split at checked
  · simp only [checkExternal] at checked
    split at checked
    · split at checked <;> cases checked
      · exact probeVerdict_isAbout _
      · exact isAbout_sound
    · cases checked
      exact isAbout_sound
  · exact checkAnchor_isAbout [] [] checked
  · exact checkFile_isAbout checked

end Inspector

end MarkdownLinks
