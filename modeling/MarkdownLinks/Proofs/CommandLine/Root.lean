import MarkdownLinks.Proofs.CommandLine.Check
import MarkdownLinks.Proofs.Search.Exact

/-!
# The root of a check

Making a root canonical follows all links on its way, so that none is left on the way to what it
gives, and making that canonical again changes nothing.  A check therefore reads its settings, looks
for documents and shows paths at one root, and how this root was given makes no difference.
-/

namespace MarkdownLinks

namespace Disk

/-- Whether a path goes down from the root to a directory, by names alone and through directories
none of which is a link. -/
structure IsStraight (disk : Disk) (p : Path) : Prop where
  isAbsolute : p.isAbsolute = true
  onlyNames : .here ∉ p.components ∧ .parent ∉ p.components
  throughDirectories : ∃ names, p = .ofNames names ∧ ∀ count, disk.IsDirectoryAt (names.take count)
  isDirectory : disk.isDirectory p = true

variable {disk : Disk} {names : List Name}

theorem isDirectoryAt_take (reached : disk.IsDirectoryAt names) (count : Nat) :
    disk.IsDirectoryAt (names.take count) := by
  rcases reached with ⟨entries, found⟩
  rw [← List.take_append_drop count names] at found
  exact Listing.exists_directory_above found

theorem isStraight_of_canonicalRoot {given root : Path}
    (canonical : canonicalRoot disk given = .ok root) : disk.IsStraight root := by
  rcases exists_directory_of_canonicalRoot canonical with ⟨names, entries, rfl, reached, -, -⟩
  refine ⟨(Path.isTidy_ofNames names).isAbsolute, ?_, ?_, (canonicalRoot_eq_ok canonical).2⟩
  · simp
  · exact ⟨names, rfl, isDirectoryAt_take ⟨entries, reached⟩⟩

end Disk

namespace CommandLine

/-- A check below a root: this is where the settings are, where documents are looked for, where
rooted links lead, and what is left out of the paths that are shown. -/
def checkBelow (network : Probe) (disk : Disk) (options : CheckOptions) (root : Path) :
    Except Failure Printed := do
  let settings := options.apply (← Settings.load disk root)
  let inspector := inspectorFor network disk settings root
  let documents := Search.documents disk settings root
  let report ← (inspector.inspectAll .empty documents).result.mapError .unreadable
  let rendered ← report.render root options.format options.color
  return ⟨report.exitCode, rendered ++ options.ending⟩

variable {disk : Disk} {given root : Path}

theorem validate_of_isCanonical {network : Probe} {settings : Settings}
    (settled : canonicalRoot disk root = .ok root) :
    validate network disk settings root =
      ((inspectorFor network disk settings root).inspectAll .empty
        (Search.documents disk settings root)).result.mapError .unreadable := by
  rw [validate, settled]
  rfl

/-- A check is one below the canonical root. -/
theorem check_eq_checkBelow {network : Probe} {options : CheckOptions}
    (canonical : canonicalRoot disk options.repo = .ok root) :
    check network disk options = checkBelow network disk options root := by
  have settled := Disk.canonicalRoot_of_canonicalRoot canonical
  rw [check, canonical, checkBelow]
  change Settings.load disk root >>= _ = Settings.load disk root >>= _
  apply bind_congr
  intro settings
  rw [validate_of_isCanonical settled]
  rfl

/-- A canonical root is reached straight and is its own canonical root.  So a check happens below
it, and happens in the same way if the root is given as another path that has this canonical
root. -/
theorem checkOnce_congr_root (canonical : canonicalRoot disk given = .ok root) :
    disk.IsStraight root ∧ canonicalRoot disk root = .ok root ∧
      (∀ (network : Probe) (options : CheckOptions), options.repo = given →
        check network disk options = checkBelow network disk options root) ∧
      ∀ other, canonicalRoot disk other = .ok root →
        ∀ (network : Probe) (terminal verbose : Bool) (options : CheckOptions),
          checkOnce ⟨disk, network, terminal⟩ verbose { options with repo := other } =
            checkOnce ⟨disk, network, terminal⟩ verbose { options with repo := given } := by
  refine ⟨Disk.isStraight_of_canonicalRoot canonical,
    Disk.canonicalRoot_of_canonicalRoot canonical, ?_, ?_⟩
  · rintro network options rfl
    exact check_eq_checkBelow canonical
  · intro other sameRoot network terminal verbose options
    have checked : check network disk { options with repo := other } =
        check network disk { options with repo := given } := by
      rw [@check_eq_checkBelow disk root network { options with repo := other } sameRoot,
        @check_eq_checkBelow disk root network { options with repo := given } canonical]
      rfl
    have logged : checkLog disk { options with repo := other } =
        checkLog disk { options with repo := given } := by
      simp only [checkLog, sameRoot, canonical]
    simp only [checkOnce, checked, logged]
    rfl

/-- The root is given by a link that leads around in a circle, and another time by way of a
directory in it. -/
theorem checkOnce_congr_root_sample :
    canonicalRoot Search.sampleDisk (.ofText "/r/loop/loop".toList) = .ok (.ofText "/r".toList) ∧
      Search.sampleDisk.IsStraight (.ofText "/r".toList) ∧
      canonicalRoot Search.sampleDisk (.ofText "/r".toList) = .ok (.ofText "/r".toList) ∧
      (∀ network options, options.repo = .ofText "/r/loop/loop".toList →
        check network Search.sampleDisk options =
          checkBelow network Search.sampleDisk options (.ofText "/r".toList)) ∧
      canonicalRoot Search.sampleDisk (.ofText "r/./odd.md/..//loop/".toList) =
        .ok (.ofText "/r".toList) ∧
      ∀ (network : Probe) (terminal verbose : Bool) (options : CheckOptions),
        checkOnce ⟨Search.sampleDisk, network, terminal⟩ verbose
            { options with repo := .ofText "r/./odd.md/..//loop/".toList } =
          checkOnce ⟨Search.sampleDisk, network, terminal⟩ verbose
            { options with repo := .ofText "/r/loop/loop".toList } := by
  have canonical : canonicalRoot Search.sampleDisk (.ofText "/r/loop/loop".toList) =
      .ok (.ofText "/r".toList) := by
    rfl
  have sameRoot : canonicalRoot Search.sampleDisk (.ofText "r/./odd.md/..//loop/".toList) =
      .ok (.ofText "/r".toList) := by
    rfl
  rcases checkOnce_congr_root canonical with ⟨straight, settled, below, congr⟩
  exact ⟨canonical, straight, settled, below, sameRoot, congr _ sameRoot⟩

end CommandLine

end MarkdownLinks
