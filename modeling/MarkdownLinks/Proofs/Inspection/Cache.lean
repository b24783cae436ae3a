import MarkdownLinks.Proofs.Document
import MarkdownLinks.Proofs.Inspection.Target
import MarkdownLinks.Proofs.Root
import MarkdownLinks.Proofs.Search.Documents

/-!
# The cache of slugs

Slugs are kept by the components of paths, but documents are read by the text of paths.  The cache
goes unnoticed nevertheless, because only tidy paths are ever asked for: the documents of the
search, canonical and normalized paths, and these with an extension after them.  The invariant is
that whatever is kept for a tidy path is what reading it afresh gives.
-/

namespace MarkdownLinks

namespace AnchorCache

/-- Whether whatever is kept for a tidy path is what reading the document gives. -/
def Faithful (cache : AnchorCache) (disk : Disk) : Prop :=
  ∀ p : Path, p.IsTidy → ∀ kept, cache.find? p = some kept →
    (Document.read disk p).map Heading.slugs = .ok kept

theorem faithful_empty (disk : Disk) : empty.Faithful disk := by
  intro p _ kept found
  cases found

variable {cache : AnchorCache} {disk : Disk} {p : Path}

theorem Faithful.add {text : Text} (faithful : cache.Faithful disk) (tidy : p.IsTidy)
    (read : Document.read disk p = .ok text) :
    (cache.add p (Heading.slugs text)).Faithful disk := by
  intro q qTidy kept found
  rw [find?_add] at found
  split at found
  · next same =>
    have samePath : p = q := tidy.eq_of_components_eq qTidy same
    cases found
    rw [← samePath, read]
    rfl
  · exact faithful q qTidy kept found

theorem Faithful.slugs (faithful : cache.Faithful disk) (tidy : p.IsTidy) :
    (cache.slugs disk p).1 = (Document.read disk p).map Heading.slugs ∧
      (cache.slugs disk p).2.Faithful disk := by
  cases known : cache.find? p with
  | some kept =>
    rw [slugs_of_find? known]
    exact ⟨(faithful p tidy kept known).symm, faithful⟩
  | none =>
    cases read : Document.read disk p with
    | ok text =>
      rw [slugs_of_read known read]
      exact ⟨rfl, faithful.add tidy read⟩
    | error fault =>
      rw [slugs_of_fault known read]
      exact ⟨rfl, faithful⟩

end AnchorCache

namespace Inspection

/-- Whether an inspection gives and asks for the same as another, and leaves a faithful cache. -/
structure SameAs {α : Type} (inspection other : Inspection α) (disk : Disk) : Prop where
  result : inspection.result = other.result
  probed : inspection.probed = other.probed
  faithful : inspection.cache.Faithful disk

theorem sameAs_pure {α : Type} {cache other : AnchorCache} {disk : Disk} (a : α)
    (faithful : cache.Faithful disk) : (pure cache a).SameAs (pure other a) disk :=
  ⟨rfl, rfl, faithful⟩

end Inspection

namespace Inspector

variable {inspector : Inspector} {source : Path} {link : Link} {cache : AnchorCache}

theorem checkAnchor_sameAs {document : Path} (faithful : cache.Faithful inspector.disk)
    (tidy : document.IsTidy) (fragment message : Text) (target : Option Path)
    (soFar sound : List Advice) :
    (inspector.checkAnchor source link cache document fragment message target soFar sound).SameAs
      (inspector.checkAnchor source link .empty document fragment message target soFar sound)
      inspector.disk := by
  have kept := faithful.slugs tidy
  have fresh := (AnchorCache.faithful_empty inspector.disk).slugs tidy
  simp only [← fresh.1] at kept
  simp only [checkAnchor]
  rcases keptSlugs : cache.slugs inspector.disk document with ⟨slugs, cacheAfter⟩
  rcases freshSlugs : AnchorCache.empty.slugs inspector.disk document with ⟨others, otherCache⟩
  rw [keptSlugs, freshSlugs] at kept
  rcases kept with ⟨same, stays⟩
  simp only at same
  subst same
  cases slugs with
  | error fault => exact ⟨rfl, rfl, stays⟩
  | ok slugs =>
    simp only
    split <;> exact Inspection.sameAs_pure _ stays

theorem checkFragment_sameAs {target : Path} (faithful : cache.Faithful inspector.disk)
    (tidy : inspector.hasAnchors target = true → target.IsTidy) (fragment : Option Text)
    (soFar : List Advice) :
    (inspector.checkFragment source link cache target fragment soFar).SameAs
      (inspector.checkFragment source link .empty target fragment soFar) inspector.disk := by
  simp only [checkFragment]
  split
  · next fragment asked =>
    have hasAnchors : inspector.hasAnchors target = true := (Option.filter_eq_some_iff.1 asked).2
    exact checkAnchor_sameAs faithful (tidy hasAnchors) _ _ _ _ _
  · exact Inspection.sameAs_pure _ faithful

theorem checkFile_sameAs (faithful : cache.Faithful inspector.disk)
    (rootAbsolute : inspector.root.isAbsolute = true) (sourceAbsolute : source.isAbsolute = true)
    (file : Text) (fragment : Option Text) :
    (inspector.checkFile source link cache file fragment).SameAs
      (inspector.checkFile source link .empty file fragment) inspector.disk := by
  rw [checkFile, checkFile]
  split
  · exact Inspection.sameAs_pure _ faithful
  · have tidy : (inspector.targetPath source file).IsTidy :=
      isTidy_targetPath rootAbsolute sourceAbsolute file
    simp only
    split
    · next target reached =>
      rcases reach_eq_plain_iff.1 reached with ⟨rfl, -⟩
      exact checkFragment_sameAs faithful (fun _ => tidy) _ _
    · next target reached =>
      rcases reach_eq_extended_iff.1 reached with ⟨rfl, -⟩
      exact checkFragment_sameAs faithful (isTidy_append_of_hasAnchors tidy) _ _
    · exact Inspection.sameAs_pure _ faithful

theorem check_sameAs (faithful : cache.Faithful inspector.disk)
    (rootAbsolute : inspector.root.isAbsolute = true) (tidy : source.IsTidy) (link : Link) :
    (inspector.check cache source link).SameAs (inspector.check .empty source link)
      inspector.disk := by
  simp only [check]
  split
  · simp only [checkExternal]
    split
    · split
      · exact ⟨rfl, rfl, faithful⟩
      · exact Inspection.sameAs_pure _ faithful
    · exact Inspection.sameAs_pure _ faithful
  · exact checkAnchor_sameAs faithful tidy _ _ _ _ _
  · exact checkFile_sameAs faithful rootAbsolute tidy.isAbsolute _ _

/-- What calls give that are made one after another with one cache, and the URLs that each of them
gives to the probe. -/
def answers (inspector : Inspector) (cache : AnchorCache) :
    List (Path × Link) → List (Except ReadFault Verdict × List Text)
  | [] => []
  | (source, link) :: rest =>
    let inspection := inspector.check cache source link
    (inspection.result, inspection.probed) :: inspector.answers inspection.cache rest

/-- What a call gives when it is the only one. -/
def answerAlone (inspector : Inspector) (call : Path × Link) :
    Except ReadFault Verdict × List Text :=
  let inspection := inspector.check .empty call.1 call.2
  (inspection.result, inspection.probed)

theorem answers_of_faithful (faithful : cache.Faithful inspector.disk)
    (rootAbsolute : inspector.root.isAbsolute = true) {calls : List (Path × Link)}
    (tidy : ∀ call ∈ calls, call.1.IsTidy) :
    inspector.answers cache calls = calls.map inspector.answerAlone := by
  induction calls generalizing cache with
  | nil => rfl
  | cons call rest ih =>
    have same := check_sameAs faithful rootAbsolute (tidy call List.mem_cons_self) call.2
    have later : ∀ other ∈ rest, other.1.IsTidy := by
      intro other mem
      exact tidy other (List.mem_cons_of_mem call mem)
    rw [answers, List.map_cons, ih same.faithful later, answerAlone, same.result, same.probed]

/-- Calls for the documents of a run give the same in any order as each of them gives alone. -/
theorem answers_eq_alone {disk : Disk} {settings : Settings} {given root : Path}
    (canonical : canonicalRoot disk given = .ok root) (probe : Option Probe)
    {calls : List (Path × Link)}
    (documents : ∀ call ∈ calls, call.1 ∈ Search.documents disk settings root) :
    answers ⟨disk, settings, root, probe⟩ .empty calls =
      calls.map (answerAlone ⟨disk, settings, root, probe⟩) := by
  apply answers_of_faithful
  · exact AnchorCache.faithful_empty disk
  · exact isAbsolute_of_canonicalRoot canonical
  · intro call mem
    exact Search.isTidy_of_canonicalRoot canonical (documents call mem)

/-- A disk with three documents, one of which cannot be read. -/
def sampleDisk : Disk where
  root :=
    .file ⟨Utf8.encode "a.md".toList, Eq.refl true⟩ (.bytes [])
      (.file ⟨Utf8.encode "b.md".toList, Eq.refl true⟩ (.unreadable (.os 13))
        (.file ⟨Utf8.encode "c.md".toList, Eq.refl true⟩ (.bytes (Utf8.encode "# C\n".toList))
          .empty))
  distinct := by
    simp [Listing.Distinct, Listing.names]
    decide
  cwd := []

theorem documents_sampleDisk : Search.documents sampleDisk .default (.ofText "/".toList) =
    [.ofText "/a.md".toList, .ofText "/b.md".toList, .ofText "/c.md".toList] := by
  have found : (Search.visited sampleDisk .default (.ofText "/".toList)).filter
      (Search.isDocument sampleDisk .default) =
        [.ofText "/a.md".toList, .ofText "/b.md".toList, .ofText "/c.md".toList] := by
    rfl
  rw [Search.documents, found]
  exact List.mergeSort_of_pairwise (by decide)

/-- Calls that go back and forth between documents, and ask twice for the slugs of one that cannot be
read and of one that can. -/
def sampleCalls : List (Path × Link) :=
  [(.ofText "/a.md".toList, ⟨1, "x".toList, "b.md#b".toList⟩),
    (.ofText "/c.md".toList, ⟨1, "x".toList, "#c".toList⟩),
    (.ofText "/a.md".toList, ⟨2, "x".toList, "./b.md#c".toList⟩),
    (.ofText "/a.md".toList, ⟨3, "x".toList, "./c.md#c".toList⟩),
    (.ofText "/b.md".toList, ⟨1, "x".toList, "#b".toList⟩)]

/-- Some of the calls fail, each of them as it does alone. -/
theorem answers_eq_alone_sample :
    canonicalRoot sampleDisk (.ofText "/".toList) = .ok (.ofText "/".toList) ∧
      (∀ call ∈ sampleCalls,
        call.1 ∈ Search.documents sampleDisk .default (.ofText "/".toList)) ∧
      answers ⟨sampleDisk, .default, .ofText "/".toList, none⟩ .empty sampleCalls =
        sampleCalls.map (answerAlone ⟨sampleDisk, .default, .ofText "/".toList, none⟩) ∧
      (answers ⟨sampleDisk, .default, .ofText "/".toList, none⟩ .empty sampleCalls).map (·.1) =
        [.error ⟨.ofText "/b.md".toList, .os 13⟩, .ok .sound,
          .error ⟨.ofText "/b.md".toList, .os 13⟩, .ok .sound,
          .error ⟨.ofText "/b.md".toList, .os 13⟩] := by
  have canonical : canonicalRoot sampleDisk (.ofText "/".toList) = .ok (.ofText "/".toList) := by
    rfl
  have documents : ∀ call ∈ sampleCalls,
      call.1 ∈ Search.documents sampleDisk .default (.ofText "/".toList) := by
    rw [documents_sampleDisk]
    decide
  exact ⟨canonical, documents, answers_eq_alone canonical none documents, by rfl⟩

end Inspector

end MarkdownLinks
