import MarkdownLinks.Inspection.Link
import MarkdownLinks.Report.Basic
import MarkdownLinks.Search

/-!
# Validation

A run checks every link of every document below a root, documents in order and links in order
within each, and folds what it finds into a report.  Documents may as well be inspected by workers
that take turns in any other order; the report is the same.
-/

namespace MarkdownLinks

/-- The canonical path of a root, which must be a directory. -/
def canonicalRoot (disk : Disk) (root : Path) : Except Failure Path :=
  match disk.canonical root with
  | .ok path => if disk.isDirectory path then .ok path else .error (.noRoot root)
  | .error _ => .error (.noRoot root)

namespace Inspector

def inspectDocument (inspector : Inspector) (cache : AnchorCache) (document : Path) :
    Inspection Findings :=
  match Document.read inspector.disk document with
  | .error fault => ⟨.error fault, cache, []⟩
  | .ok text =>
    (Inspection.each (fun cache link => inspector.check cache document link) cache
      (Link.scan text)).map Findings.ofVerdicts

def inspectAll (inspector : Inspector) (cache : AnchorCache) (documents : List Path) :
    Inspection Report :=
  (Inspection.each inspector.inspectDocument cache documents).map Report.ofFindings

end Inspector

/-- The inspector of a run; the network is asked only if the settings say so. -/
def inspectorFor (network : Probe) (disk : Disk) (settings : Settings) (root : Path) :
    Inspector where
  disk := disk
  settings := settings
  root := root
  probe := if settings.checkExternal then some network else none

/-- The report on all documents below a root. -/
def validate (network : Probe) (disk : Disk) (settings : Settings) (root : Path) :
    Except Failure Report := do
  let root ← canonicalRoot disk root
  let inspector := inspectorFor network disk settings root
  let documents := Search.documents disk settings root
  (inspector.inspectAll .empty documents).result.mapError .unreadable

end MarkdownLinks
