import MarkdownLinks.Finding
import MarkdownLinks.Inspection.Basic
import MarkdownLinks.Link.Basic
import MarkdownLinks.Url.Basic

/-!
# Checking a link

An external link is sound unless a probe says otherwise.  A link that starts with `#` asks for a
heading of its own document.  Any other link names a file: it must exist, if need be with the
extension of documents after its name, and if it is a document, it must have the heading that the
link's fragment asks for.  The first defect ends the check; advice goes along with it.
-/

namespace MarkdownLinks

/-- All that the verdict on a link depends on, besides the link and its document. -/
structure Inspector where
  disk : Disk
  settings : Settings
  root : Path
  /-- The probe for external links, if they are asked for. -/
  probe : Option Probe

namespace Inspector

/-- How many of the slugs that there are go along with a missing one. -/
def sampleSize : Nat := 5

/-- The lowest status by which a server refuses. -/
def refusal : Nat := 400

/-- The path of a document as reports show it. -/
def shown (inspector : Inspector) (document : Path) : Path :=
  (inspector.root.below? document).getD document

def defect (inspector : Inspector) (source : Path) (link : Link) (message : Text)
    (cause : Defect.Cause) : Defect where
  file := inspector.shown source
  line := link.line
  url := link.url
  text := link.text
  message := message
  cause := cause

def advice (inspector : Inspector) (source : Path) (link : Link) (reason : Advice.Reason) :
    Advice where
  file := inspector.shown source
  line := link.line
  url := link.url
  reason := reason

section External

variable (inspector : Inspector) (source : Path) (link : Link)

/-- The verdict on a link after its URL was given to a probe. -/
def probeVerdict : ProbeOutcome → Verdict
  | .reachable => .sound
  | .status code =>
    if refusal ≤ code then
      { defect := some (inspector.defect source link ("HTTP ".toList ++ decimal code)
          (.refused code)) }
    else
      .sound
  | .unreachable reason => { advice := [inspector.advice source link (.unverified reason)] }

def checkExternal (cache : AnchorCache) (scheme : Text) : Inspection Verdict :=
  match inspector.probe with
  | some probe =>
    if Url.probedSchemes.contains scheme then
      ⟨.ok (inspector.probeVerdict source link (probe link.url)), cache, [link.url]⟩
    else
      .pure cache .sound
  | none => .pure cache .sound

end External

section Anchors

variable (inspector : Inspector) (source : Path) (link : Link)

/-- Checks that a document has the heading that a fragment asks for.  What else there is to say
about the link goes along. -/
def checkAnchor (cache : AnchorCache) (document : Path) (fragment message : Text)
    (target : Option Path) (soFar : List Advice) (sound : List Advice) : Inspection Verdict :=
  match cache.slugs inspector.disk document with
  | (.error fault, cache) => ⟨.error fault, cache, []⟩
  | (.ok slugs, cache) =>
    if fragment ∈ slugs then
      .pure cache { advice := sound }
    else
      let available := slugs.toList.take sampleSize
      .pure cache {
        defect := some (inspector.defect source link message
          (.missingAnchor available fragment target))
        advice := soFar }

/-- Checks a link to a heading of its own document. -/
def checkSameDocument (cache : AnchorCache) : Inspection Verdict :=
  inspector.checkAnchor source link cache source link.url
    "Anchor not found in current file".toList none [] []

end Anchors

section Files

variable (inspector : Inspector) (source : Path) (link : Link)

/-- The path that a link to a file states: a path from the root is taken below the root of the
documents, and any other from the directory of the link's document. -/
def statedPath (file : Text) : Path :=
  match file with
  | '/' :: rooted => inspector.root.join (.ofText (rooted.dropWhile (· == '/')))
  | _ => (source.parent?.getD inspector.root).join (.ofText file)

/-- The path that a link to a file means.  A path from the root is taken as it is stated; any
other is made canonical, as far as it exists. -/
def targetPath (file : Text) : Path :=
  let stated := inspector.statedPath source file
  if file.head? = some '/' then
    .ofComponents stated.components
  else
    match inspector.disk.canonical stated with
    | .ok path => path
    | .error _ => stated.normalize

/-- What a link to a file leads to. -/
inductive Reached where
  | plain (target : Path)
  /-- The path exists only with the extension of documents after it. -/
  | extended (target : Path)
  | nothing

def reach (target : Path) : Reached :=
  if inspector.disk.contains target then
    .plain target
  else
    let extended := target.append inspector.settings.dottedExtension
    if inspector.settings.endsAsDocument target || !inspector.disk.contains extended then
      .nothing
    else
      .extended extended

/-- Whether a fragment of a path is looked for: the path must be a file and a document. -/
def hasAnchors (target : Path) : Bool :=
  inspector.disk.isFile target && inspector.settings.isDocumentName target

/-- The advice on a link to a directory whose URL does not end with a slash. -/
def directoryAdvice (target : Path) : List Advice :=
  if inspector.disk.isDirectory target && link.url.getLast? != some '/' then
    [inspector.advice source link (.directoryWithoutSlash (link.url ++ ['/']))]
  else
    []

/-- Checks the fragment of a link whose target exists. -/
def checkFragment (cache : AnchorCache) (target : Path) (fragment : Option Text)
    (soFar : List Advice) : Inspection Verdict :=
  let sound := soFar ++ inspector.directoryAdvice source link target
  match fragment.filter fun _ => inspector.hasAnchors target with
  | some fragment =>
    inspector.checkAnchor source link cache target fragment
      ("Anchor ".toList ++ fragment ++ " not found in target file".toList) (some target)
      soFar sound
  | none => .pure cache { advice := sound }

def checkFile (cache : AnchorCache) (file : Text) (fragment : Option Text) :
    Inspection Verdict :=
  if file.isEmpty then
    .pure cache .sound
  else
    let target := inspector.targetPath source file
    match inspector.reach target with
    | .plain target => inspector.checkFragment source link cache target fragment []
    | .extended target =>
      let suggestion := file ++ inspector.settings.dottedExtension ++ fragment.getD []
      inspector.checkFragment source link cache target fragment
        [inspector.advice source link (.missingExtension suggestion)]
    | .nothing =>
      .pure cache {
        defect := some (inspector.defect source link "File not found".toList
          (.missingFile target)) }

end Files

def check (inspector : Inspector) (cache : AnchorCache) (source : Path) (link : Link) :
    Inspection Verdict :=
  match Url.target link.url with
  | .external scheme => inspector.checkExternal source link cache scheme
  | .sameDocument => inspector.checkSameDocument source link cache
  | .file path fragment => inspector.checkFile source link cache path fragment

end Inspector

end MarkdownLinks
