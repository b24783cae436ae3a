import MarkdownLinks.Proofs.Disk.Placed
import MarkdownLinks.Proofs.Inspection.Findings
import MarkdownLinks.Proofs.Inspection.Soundness
import MarkdownLinks.Proofs.Inspection.Stated

/-!
# Links below one root and another

Checking a link of a tree that is placed at one root or at another finds the same, up to the root in
the paths of defects.  The link must not lead out of the tree, and the system must not refuse to look
a path up below one root only because it is too long there.
-/

namespace MarkdownLinks

namespace Defect

/-- The cause with the path below another root in place of one below a root. -/
def Cause.rebase (root otherRoot : Path) : Cause → Cause
  | .missingAnchor available missing target =>
    .missingAnchor available missing (target.map (·.rebase root otherRoot))
  | .refused status => .refused status
  | .missingFile expected => .missingFile (expected.rebase root otherRoot)

def rebase (defect : Defect) (root otherRoot : Path) : Defect :=
  { defect with cause := defect.cause.rebase root otherRoot }

end Defect

/-- The verdict with paths below another root in place of those below a root. -/
def Verdict.rebase (verdict : Verdict) (root otherRoot : Path) : Verdict :=
  { verdict with defect := verdict.defect.map (·.rebase root otherRoot) }

/-- Whether an inspection gives what another one gives, with paths below another root in place of
those below a root. -/
def Inspection.RebasesTo (inspection other : Inspection Verdict) (root otherRoot : Path) : Prop :=
  other.result.toOption = inspection.result.toOption.map (·.rebase root otherRoot)

namespace Move

section Meant

variable {rooted : Bool} {start : List Name} {moves : List Move}

theorem staysInside_map_names (names : List Name) :
    staysInside 0 ((names.map Component.name).map Component.move) = true := by
  have inside := @staysInside_names 0 [] names
  rw [List.append_nil] at inside
  rw [Component.map_move_names, inside]
  rfl

theorem staysInside_meant (inside : staysInside start.length moves = true) :
    staysInside 0 ((meant rooted start moves).map Component.move) = true := by
  cases rooted with
  | true =>
    simp only [meant, if_pos, List.map_append, Component.map_move_names, staysInside_names, Nat.zero_add]
    exact staysInside_filterMap inside
  | false =>
    simp only [meant, Bool.false_eq_true, if_false, staysInside_map_names]

theorem meant_below (base : List Name) (inside : staysInside start.length moves = true) :
    meant rooted (base ++ start) moves = base.map .name ++ meant rooted start moves := by
  cases rooted with
  | true => simp [meant]
  | false => simp [meant, lexical_below base inside]

end Meant

end Move

namespace Inspector

/-- Whether the moves of a link, from the directory of its document or from the root, never go above
the root. -/
def staysInside (inspector : Inspector) (source : Path) (file : Text) : Bool :=
  Move.staysInside
    (if file.head? = some '/' then 0
      else source.components.length - (inspector.root.components.length + 1))
    (Path.ofText file).moves

section Target

variable {inspector : Inspector} {base outer : List Name} {last : Name} {tree : Listing}
  {file : Text}

theorem staysInside_ofNames (root : inspector.root = .ofNames base)
    (inside : inspector.staysInside (.ofNames (base ++ (outer ++ [last]))) file = true) :
    Move.staysInside (startOf [] outer file).length
      (Path.ofText (file.dropWhile (· == '/'))).moves = true := by
  have depth : (if file.head? = some '/' then 0
      else (Path.ofNames (base ++ (outer ++ [last]))).components.length -
        ((Path.ofNames base).components.length + 1)) = (startOf [] outer file).length := by
    rw [startOf]
    split
    · rfl
    · simp only [Path.components_ofNames, List.length_cons, List.length_map, List.length_append,
        List.length_nil]
      omega
  rcases Path.exists_moves_ofText file with ⟨count, moves⟩
  rw [staysInside, root, depth, moves, Move.staysInside_stays] at inside
  exact inside

theorem startOf_append (base outer : List Name) (file : Text) :
    startOf base (base ++ outer) file = base ++ startOf [] outer file := by
  rw [startOf, startOf]
  split
  · rw [List.append_nil]
  · rfl

theorem targetPath_of_places (placed : inspector.disk.Places base tree)
    (root : inspector.root = .ofNames base)
    (inside : Move.staysInside (startOf [] outer file).length
      (Path.ofText (file.dropWhile (· == '/'))).moves = true) :
    inspector.targetPath (.ofNames (base ++ (outer ++ [last]))) file =
      .under base (Move.meant (file.head? == some '/') (startOf [] outer file)
        (Path.ofText (file.dropWhile (· == '/'))).moves) := by
  have settled : ∀ path, inspector.disk.canonical
      (inspector.statedPath (.ofNames ((base ++ outer) ++ [last])) file) = .ok path →
        path = (inspector.statedPath (.ofNames ((base ++ outer) ++ [last])) file).normalize := by
    intro path canonical
    have written := @moves_statedPath inspector base (base ++ outer) last root file
    rw [startOf_append] at written
    exact placed.canonical_eq (isAbsolute_statedPath_ofNames root file) written inside canonical
  rw [← List.append_assoc, targetPath_eq_meant_of_settled root settled, startOf_append,
    Move.meant_below base inside]
  rfl

end Target

/-- The paths that are looked up for a link to a file: the one that it means and, if nothing is
there, the one with the extension of documents. -/
inductive LooksUp (inspector : Inspector) (source : Path) (file : Text) : Path → Prop
  | target : LooksUp inspector source file (inspector.targetPath source file)
  | extended (absent : inspector.disk.contains (inspector.targetPath source file) = false)
      (notDocument :
        inspector.settings.endsAsDocument (inspector.targetPath source file) = false) :
      LooksUp inspector source file
        ((inspector.targetPath source file).append inspector.settings.dottedExtension)

/-- Whether a link can be followed alike below another root: it does not lead out of the root, and no
path is too long below one of the roots only. -/
structure Relocatable (inspector : Inspector) (otherRoot source : Path) (file : Text) : Prop where
  inside : inspector.staysInside source file = true
  fits : ∀ p, inspector.LooksUp source file p → Disk.FitsAlike inspector.root otherRoot p

/-- Whether a path on one inspector's disk can stand in for one on another's: there is the same
entry, it is below the other root, and its name decides alike whether it is a document. -/
structure Corresponds (inspector other : Inspector) (p q : Path) : Prop where
  same : inspector.disk.SameEntry p other.disk q
  rebased : p.rebase inspector.root other.root = q
  isDocumentName : inspector.disk.isFile p = true →
    inspector.settings.isDocumentName p = other.settings.isDocumentName q

section Corresponds

variable {inspector other : Inspector} {p q source otherSource : Path} {link : Link}

theorem Corresponds.hasAnchors_eq (corresponds : Corresponds inspector other p q) :
    inspector.hasAnchors p = other.hasAnchors q := by
  have isFile := corresponds.same.isFile_eq
  rw [hasAnchors, hasAnchors]
  cases found : inspector.disk.isFile p with
  | false =>
    rw [found] at isFile
    rw [← isFile, Bool.false_and, Bool.false_and]
  | true =>
    rw [found] at isFile
    rw [← isFile, corresponds.isDocumentName found]

theorem read_of_sameEntry {text : Text} (same : inspector.disk.SameEntry p other.disk q) :
    Document.read inspector.disk p = .ok text ↔ Document.read other.disk q = .ok text := by
  rw [Document.read_eq_ok_iff, Document.read_eq_ok_iff]
  exact exists_congr fun content => and_congr_left fun _ => same _

theorem advice_eq (shown : inspector.shown source = other.shown otherSource)
    (reason : Advice.Reason) :
    inspector.advice source link reason = other.advice otherSource link reason := by
  rw [advice, advice, shown]

theorem defect_rebase (shown : inspector.shown source = other.shown otherSource)
    (message : Text) (cause : Defect.Cause) (root otherRoot : Path) :
    (inspector.defect source link message cause).rebase root otherRoot =
      other.defect otherSource link message (cause.rebase root otherRoot) := by
  rw [defect, defect, shown]
  rfl

theorem directoryAdvice_eq (shown : inspector.shown source = other.shown otherSource)
    (same : inspector.disk.SameEntry p other.disk q) :
    inspector.directoryAdvice source link p = other.directoryAdvice otherSource link q := by
  rw [directoryAdvice, directoryAdvice, same.isDirectory_eq, advice_eq shown]

/-- A heading is looked for alike in documents with the same text. -/
theorem checkAnchor_rebasesTo {fragment message : Text} {target otherTarget : Option Path}
    {soFar sound : List Advice} {root otherRoot : Path}
    (shown : inspector.shown source = other.shown otherSource)
    (same : inspector.disk.SameEntry p other.disk q)
    (targets : target.map (·.rebase root otherRoot) = otherTarget) :
    (inspector.checkAnchor source link .empty p fragment message target soFar sound).RebasesTo
      (other.checkAnchor otherSource link .empty q fragment message otherTarget soFar sound)
      root otherRoot := by
  subst targets
  cases read : Document.read inspector.disk p with
  | ok text =>
    rw [Inspection.RebasesTo, checkAnchor_of_read read,
      checkAnchor_of_read ((read_of_sameEntry same).1 read)]
    simp only [Except.toOption, Option.map_some, Option.some.injEq]
    split
    · rfl
    · simp only [Verdict.rebase, Option.map_some, defect_rebase shown]
      rfl
  | error fault =>
    cases otherRead : Document.read other.disk q with
    | ok text =>
      rw [(read_of_sameEntry same).2 otherRead] at read
      cases read
    | error otherFault =>
      rw [Inspection.RebasesTo, checkAnchor_of_fault read, checkAnchor_of_fault otherRead]
      rfl

theorem checkFragment_rebasesTo (shown : inspector.shown source = other.shown otherSource)
    (corresponds : Corresponds inspector other p q) (fragment : Option Text)
    (soFar : List Advice) :
    (inspector.checkFragment source link .empty p fragment soFar).RebasesTo
      (other.checkFragment otherSource link .empty q fragment soFar)
      inspector.root other.root := by
  simp only [checkFragment, ← corresponds.hasAnchors_eq,
    ← directoryAdvice_eq shown corresponds.same]
  split
  · apply checkAnchor_rebasesTo shown corresponds.same
    rw [Option.map_some, corresponds.rebased]
  · rfl

end Corresponds

/-- Whether two inspectors differ only in where a tree without links is placed. -/
structure Relocates (inspector other : Inspector) (base otherBase : List Name) (tree : Listing) :
    Prop where
  placed : inspector.disk.Places base tree
  otherPlaced : other.disk.Places otherBase tree
  root : inspector.root = .ofNames base
  otherRoot : other.root = .ofNames otherBase
  settings : inspector.settings = other.settings
  probe : inspector.probe = other.probe

/-- Whether links lead to paths that correspond, and lead there alike. -/
inductive ReachedAlike (inspector other : Inspector) : Reached → Reached → Prop
  | plain {p q : Path} (corresponds : Corresponds inspector other p q) :
      ReachedAlike inspector other (.plain p) (.plain q)
  | extended {p q : Path} (corresponds : Corresponds inspector other p q) :
      ReachedAlike inspector other (.extended p) (.extended q)
  | nothing : ReachedAlike inspector other .nothing .nothing

section Relocates

variable {inspector other : Inspector} {base otherBase : List Name} {tree : Listing}
  (relocates : Relocates inspector other base otherBase tree)

include relocates

theorem Relocates.corresponds {steps : List Component} (areSteps : ∀ c ∈ steps, c.IsStep)
    (inside : Move.staysInside 0 (steps.map Component.move) = true)
    (fits : Disk.FitsAlike inspector.root other.root (.under base steps)) :
    Corresponds inspector other (.under base steps) (.under otherBase steps) where
  same := by
    rw [relocates.root, relocates.otherRoot] at fits
    exact relocates.placed.sameEntry relocates.otherPlaced areSteps inside fits
  rebased := by
    rw [relocates.root, relocates.otherRoot]
    exact Path.rebase_under areSteps
  isDocumentName := by
    intro isFile
    rw [relocates.settings]
    rcases steps.eq_nil_or_concat with rfl | ⟨outer, last, rfl⟩
    · rcases Disk.exists_of_isFile isFile with ⟨content, found⟩
      rw [Path.under_nil, relocates.placed.entry_root] at found
      cases found
    · rw [List.concat_eq_append] at areSteps ⊢
      exact Settings.isDocumentName_under base otherBase areSteps

theorem Relocates.reachedAlike {steps : List Component} (areSteps : ∀ c ∈ steps, c.IsStep)
    (inside : Move.staysInside 0 (steps.map Component.move) = true)
    (noSlash : slash ∉ Utf8.encode inspector.settings.extension)
    (fits : Disk.FitsAlike inspector.root other.root (.under base steps))
    (extendedFits : inspector.disk.contains (.under base steps) = false →
      inspector.settings.endsAsDocument (.under base steps) = false →
      Disk.FitsAlike inspector.root other.root
        ((Path.under base steps).append inspector.settings.dottedExtension)) :
    ReachedAlike inspector other (inspector.reach (.under base steps))
      (other.reach (.under otherBase steps)) := by
  have corresponds := relocates.corresponds areSteps inside fits
  rw [reach, reach, ← corresponds.same.contains_eq, ← relocates.settings]
  split
  · exact .plain corresponds
  · next notContained =>
    have absent : inspector.disk.contains (.under base steps) = false := by simpa using notContained
    rcases steps.eq_nil_or_concat with rfl | ⟨outer, last, rfl⟩
    · rw [Path.under_nil, Disk.contains_of_entry relocates.placed.entry_root] at absent
      cases absent
    · rw [List.concat_eq_append] at *
      rcases Path.exists_name_dotted (areSteps last (by simp)) noSlash with ⟨name, written⟩
      have extNoSlash : '/' ∉ inspector.settings.extension :=
        fun mem => noSlash (Utf8.slash_mem_encode mem)
      have appended : ∀ base, (Path.under base (outer ++ [last])).append
          inspector.settings.dottedExtension = .under base (outer ++ [.name name]) :=
        fun base => Path.append_under written
      have dottedInside :
          Move.staysInside 0 ((outer ++ [Component.name name]).map Component.move) = true := by
        rw [List.map_append] at inside ⊢
        exact Move.staysInside_concat_into inside name
      simp only [← Settings.endsAsDocument_under base otherBase extNoSlash, appended]
      cases ends : inspector.settings.endsAsDocument (.under base (outer ++ [last])) with
      | true => exact .nothing
      | false =>
        have dottedFits := extendedFits absent ends
        rw [appended] at dottedFits
        have dotted := relocates.corresponds (Component.isStep_concat_name areSteps name) dottedInside
          dottedFits
        rw [← dotted.same.contains_eq, Bool.false_or]
        split
        · exact .nothing
        · exact .extended dotted

variable {outer : List Name} {last : Name} {link : Link}

omit relocates in
theorem shown_eq (root : inspector.root = .ofNames base) (otherRoot : other.root = .ofNames otherBase)
    (outer : List Name) (last : Name) :
    inspector.shown (.ofNames (base ++ (outer ++ [last]))) =
      other.shown (.ofNames (otherBase ++ (outer ++ [last]))) := by
  rw [shown_ofNames root (by simp), shown_ofNames otherRoot (by simp)]

theorem Relocates.checkFile_rebasesTo {file : Text} (fragment : Option Text)
    (noSlash : slash ∉ Utf8.encode inspector.settings.extension)
    (relocatable : file ≠ [] → inspector.Relocatable other.root
      (.ofNames (base ++ (outer ++ [last]))) file) :
    (inspector.checkFile (.ofNames (base ++ (outer ++ [last]))) link .empty file
      fragment).RebasesTo
        (other.checkFile (.ofNames (otherBase ++ (outer ++ [last]))) link .empty file fragment)
        inspector.root other.root := by
  have shown := shown_eq relocates.root relocates.otherRoot outer last
  rw [checkFile, checkFile]
  split
  · rfl
  · next notEmpty =>
    have inside := (relocatable (by simpa using notEmpty)).inside
    have fits := (relocatable (by simpa using notEmpty)).fits
    have movesInside := staysInside_ofNames relocates.root inside
    have target := @targetPath_of_places _ _ _ last _ file relocates.placed relocates.root
      movesInside
    have otherTarget := @targetPath_of_places _ _ _ last _ file relocates.otherPlaced
      relocates.otherRoot movesInside
    have targetFits := fits _ .target
    have extendedFits := fun absent notDocument => fits _ (.extended absent notDocument)
    rw [target] at targetFits extendedFits
    have alike := relocates.reachedAlike Move.isStep_of_mem_meant (Move.staysInside_meant movesInside)
      noSlash targetFits extendedFits
    have corresponds := relocates.corresponds Move.isStep_of_mem_meant
      (Move.staysInside_meant movesInside) targetFits
    simp only [target, otherTarget, ← relocates.settings, ← advice_eq shown]
    revert alike
    generalize inspector.reach _ = reached
    generalize other.reach _ = otherReached
    intro alike
    cases alike with
    | plain reachedAlike => exact checkFragment_rebasesTo shown reachedAlike fragment _
    | extended reachedAlike => exact checkFragment_rebasesTo shown reachedAlike fragment _
    | nothing =>
      simp only [Inspection.RebasesTo, Inspection.pure, Except.toOption, Option.map_some,
        Verdict.rebase, defect_rebase shown, Defect.Cause.rebase, corresponds.rebased]

omit relocates in
theorem rebase_probeVerdict {source otherSource : Path}
    (shown : inspector.shown source = other.shown otherSource) (outcome : ProbeOutcome)
    (root otherRoot : Path) :
    (inspector.probeVerdict source link outcome).rebase root otherRoot =
      other.probeVerdict otherSource link outcome := by
  cases outcome with
  | reachable => rfl
  | status code =>
    simp only [probeVerdict]
    split
    · simp only [Verdict.rebase, Option.map_some, defect_rebase shown]
      rfl
    · rfl
  | unreachable reason =>
    simp only [probeVerdict, advice_eq shown]
    rfl

/-- A check below one root finds what it finds below the other, up to the root in its paths. -/
theorem Relocates.check_rebasesTo (noSlash : slash ∉ Utf8.encode inspector.settings.extension)
    (same : inspector.disk.SameEntry (.ofNames (base ++ (outer ++ [last]))) other.disk
      (.ofNames (otherBase ++ (outer ++ [last]))))
    (relocatable : ∀ file fragment, Url.target link.url = .file file fragment → file ≠ [] →
      inspector.Relocatable other.root (.ofNames (base ++ (outer ++ [last]))) file) :
    (inspector.check .empty (.ofNames (base ++ (outer ++ [last]))) link).RebasesTo
      (other.check .empty (.ofNames (otherBase ++ (outer ++ [last]))) link)
      inspector.root other.root := by
  have shown := shown_eq relocates.root relocates.otherRoot outer last
  simp only [check]
  split
  · simp only [checkExternal, ← relocates.probe]
    split
    · split
      · simp only [Inspection.RebasesTo, Except.toOption, Option.map_some,
          rebase_probeVerdict shown]
      · rfl
    · rfl
  · exact checkAnchor_rebasesTo shown same rfl
  · next file fragment url =>
    exact relocates.checkFile_rebasesTo fragment noSlash (relocatable file fragment url)

end Relocates

end Inspector

end MarkdownLinks
