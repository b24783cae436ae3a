import MarkdownLinks.Proofs.Document
import MarkdownLinks.Proofs.Inspection.Target

/-!
# What a check asks the cache for

Checking a link needs the slugs of one document at most, and needs them only to conclude from them.
A plan says what is settled without them, and otherwise what is asked for and what follows from the
answer.  Carrying the plan of a link out is checking it, so that a check can be taken apart at the
point where it uses the cache.
-/

namespace MarkdownLinks

/-- What there is to do about a link. -/
inductive Plan where
  /-- There is a verdict without any slugs, after these URLs were given to the probe. -/
  | settled (verdict : Verdict) (probed : List Text)
  | asking (document : Path) (conclude : TextSet → Verdict)

namespace Plan

/-- Does at once what is planned. -/
def carryOut (plan : Plan) (disk : Disk) (cache : AnchorCache) : Inspection Verdict :=
  match plan with
  | .settled verdict probed => ⟨.ok verdict, cache, probed⟩
  | .asking document conclude =>
    let (slugs, after) := cache.slugs disk document
    ⟨slugs.map conclude, after, []⟩

end Plan

namespace Inspector

section Plans

variable (inspector : Inspector) (source : Path) (link : Link)

def externalPlan (scheme : Text) : Plan :=
  match inspector.probe with
  | some probe =>
    if Url.probedSchemes.contains scheme then
      .settled (inspector.probeVerdict source link (probe link.url)) [link.url]
    else
      .settled .sound []
  | none => .settled .sound []

def anchorPlan (document : Path) (fragment message : Text) (target : Option Path)
    (soFar sound : List Advice) : Plan :=
  .asking document fun slugs =>
    if fragment ∈ slugs then
      { advice := sound }
    else {
      defect := some (inspector.defect source link message
        (.missingAnchor (slugs.toList.take sampleSize) fragment target))
      advice := soFar }

def fragmentPlan (target : Path) (fragment : Option Text) (soFar : List Advice) : Plan :=
  let sound := soFar ++ inspector.directoryAdvice source link target
  match fragment.filter fun _ => inspector.hasAnchors target with
  | some fragment =>
    inspector.anchorPlan source link target fragment
      ("Anchor ".toList ++ fragment ++ " not found in target file".toList) (some target)
      soFar sound
  | none => .settled { advice := sound } []

def filePlan (file : Text) (fragment : Option Text) : Plan :=
  if file.isEmpty then
    .settled .sound []
  else
    let target := inspector.targetPath source file
    match inspector.reach target with
    | .plain target => inspector.fragmentPlan source link target fragment []
    | .extended target =>
      let suggestion := file ++ inspector.settings.dottedExtension ++ fragment.getD []
      inspector.fragmentPlan source link target fragment
        [inspector.advice source link (.missingExtension suggestion)]
    | .nothing =>
      .settled {
        defect := some (inspector.defect source link "File not found".toList
          (.missingFile target)) } []

/-- What there is to do about a link of a document. -/
def plan : Plan :=
  match Url.target link.url with
  | .external scheme => inspector.externalPlan source link scheme
  | .sameDocument =>
    inspector.anchorPlan source link source link.url
      "Anchor not found in current file".toList none [] []
  | .file path fragment => inspector.filePlan source link path fragment

end Plans

variable {inspector : Inspector} {source asked : Path} {link : Link} {cache : AnchorCache}
  {conclude : TextSet → Verdict}

section Check

variable {target : Path} {fragment : Option Text} {soFar : List Advice}

theorem checkAnchor_eq_carryOut (document : Path) (fragment message : Text) (target : Option Path)
    (soFar sound : List Advice) :
    inspector.checkAnchor source link cache document fragment message target soFar sound =
      (inspector.anchorPlan source link document fragment message target soFar sound).carryOut
        inspector.disk cache := by
  simp only [checkAnchor, anchorPlan, Plan.carryOut]
  split
  · next given => rw [given]; rfl
  · next given =>
    rw [given]
    simp only [Except.map, Inspection.pure]
    split <;> rfl

theorem checkFragment_eq_carryOut :
    inspector.checkFragment source link cache target fragment soFar =
      (inspector.fragmentPlan source link target fragment soFar).carryOut inspector.disk cache := by
  rw [checkFragment, fragmentPlan]
  cases fragment.filter fun _ => inspector.hasAnchors target with
  | some anchor => exact checkAnchor_eq_carryOut _ _ _ _ _ _
  | none => rfl

theorem checkFile_eq_carryOut (file : Text) :
    inspector.checkFile source link cache file fragment =
      (inspector.filePlan source link file fragment).carryOut inspector.disk cache := by
  rw [checkFile, filePlan]
  split
  · rfl
  · dsimp only
    cases inspector.reach (inspector.targetPath source file) with
    | plain target => exact checkFragment_eq_carryOut
    | extended target => exact checkFragment_eq_carryOut
    | nothing => rfl

/-- Checking a link is carrying out the plan for it. -/
theorem check_eq_carryOut :
    inspector.check cache source link =
      (inspector.plan source link).carryOut inspector.disk cache := by
  rw [check, plan]
  cases Url.target link.url with
  | external scheme =>
    simp only [checkExternal, externalPlan]
    cases inspector.probe with
    | some probe =>
      dsimp only
      split <;> rfl
    | none => rfl
  | sameDocument => exact checkAnchor_eq_carryOut _ _ _ _ _ _
  | file path fragment => exact checkFile_eq_carryOut path

end Check

section Tidy

theorem isTidy_of_fragmentPlan {target : Path} {fragment : Option Text} {soFar : List Advice}
    (tidy : inspector.hasAnchors target = true → target.IsTidy)
    (asks : inspector.fragmentPlan source link target fragment soFar = .asking asked conclude) :
    asked.IsTidy := by
  simp only [fragmentPlan] at asks
  split at asks
  · next anchor isAnchor =>
    cases asks
    exact tidy (Option.filter_eq_some_iff.1 isAnchor).2
  · cases asks

/-- Slugs are only ever asked for by a tidy path. -/
theorem isTidy_of_plan (rootAbsolute : inspector.root.isAbsolute = true) (tidy : source.IsTidy)
    (asks : inspector.plan source link = .asking asked conclude) : asked.IsTidy := by
  simp only [plan] at asks
  split at asks
  · simp only [externalPlan] at asks
    split at asks
    · split at asks <;> cases asks
    · cases asks
  · cases asks
    exact tidy
  · next file fragment url =>
    simp only [filePlan] at asks
    have targetTidy := isTidy_targetPath rootAbsolute tidy.isAbsolute file
    split at asks
    · cases asks
    · split at asks
      · next reached =>
        rcases reach_eq_plain_iff.1 reached with ⟨rfl, -⟩
        exact isTidy_of_fragmentPlan (fun _ => targetTidy) asks
      · next reached =>
        rcases reach_eq_extended_iff.1 reached with ⟨rfl, -⟩
        exact isTidy_of_fragmentPlan (isTidy_append_of_hasAnchors targetTidy) asks
      · cases asks

end Tidy

end Inspector

end MarkdownLinks
