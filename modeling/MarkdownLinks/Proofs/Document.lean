import MarkdownLinks.Document
import MarkdownLinks.Proofs.Disk.Readable
import MarkdownLinks.Proofs.Text.Utf8

/-!
# Reading documents

A file that can be read can be read as a document, whatever its bytes are.  A text without carriage
returns is read from the bytes it was written as.  The cache gives what it keeps, and reads and keeps
what it does not.
-/

namespace MarkdownLinks

theorem Utf8.decodeDropping_encode (t : Text) : decodeDropping (encode t) = t := by
  rw [decodeDropping, decode_encode, List.filterMap_map]
  exact List.filterMap_some

namespace LineEnding

variable {t : Text}

theorem joinCrLf_eq_self (noReturn : '\r' ∉ t) : joinCrLf t = t := by
  fun_induction joinCrLf t with
  | case1 => rfl
  | case2 rest ih => exact absurd List.mem_cons_self noReturn
  | case3 c rest notBoth ih =>
    rw [ih]
    intro mem
    exact noReturn (List.mem_cons_of_mem c mem)

theorem unify_eq_self (noReturn : '\r' ∉ t) : unify t = t := by
  rw [unify, joinCrLf_eq_self noReturn]
  refine (List.map_congr_left ?_).trans (List.map_id' t)
  intro c mem
  apply if_neg
  rintro rfl
  exact noReturn mem

end LineEnding

namespace Document

variable {disk : Disk} {p : Path}

theorem ofBytes_encode {t : Text} (noReturn : '\r' ∉ t) : ofBytes (Utf8.encode t) = t := by
  rw [ofBytes, Utf8.decodeDropping_encode, LineEnding.unify_eq_self noReturn]

theorem read_eq_ok_iff {text : Text} :
    read disk p = .ok text ↔
      ∃ bytes, disk.entry p = .ok (.file (.bytes bytes)) ∧ text = ofBytes bytes := by
  simp only [← Disk.read_eq_ok_iff, read]
  split
  · next bytes found => simp [found, eq_comm]
  · next cause failed => simp [failed]

theorem exists_read_of_isFile (readable : disk.Readable) (isFile : disk.isFile p = true) :
    ∃ text, read disk p = .ok text := by
  rcases readable.exists_entry_of_isFile isFile with ⟨bytes, found⟩
  exact ⟨_, read_eq_ok_iff.2 ⟨bytes, found, rfl⟩⟩

end Document

namespace AnchorCache

variable {cache : AnchorCache} {disk : Disk} {p : Path}

theorem find?_congr {q : Path} (same : p.components = q.components) :
    cache.find? p = cache.find? q := by
  simp only [find?, same]

theorem slugs_of_find? {kept : TextSet} (known : cache.find? p = some kept) :
    cache.slugs disk p = (.ok kept, cache) := by
  simp only [slugs, known]

theorem slugs_of_read {text : Text} (unknown : cache.find? p = none)
    (read : Document.read disk p = .ok text) :
    cache.slugs disk p = (.ok (Heading.slugs text), cache.add p (Heading.slugs text)) := by
  simp only [slugs, unknown, read]

/-- A failure to read is not kept. -/
theorem slugs_of_fault {fault : ReadFault} (unknown : cache.find? p = none)
    (failed : Document.read disk p = .error fault) :
    cache.slugs disk p = (.error fault, cache) := by
  simp only [slugs, unknown, failed]

/-- With nothing kept, slugs are those of the document as it is read. -/
theorem slugs_empty : (empty.slugs disk p).1 = (Document.read disk p).map Heading.slugs := by
  have nothingKept : empty.find? p = none := rfl
  cases read : Document.read disk p with
  | ok text =>
    rw [slugs_of_read nothingKept read]
    rfl
  | error fault =>
    rw [slugs_of_fault nothingKept read]
    rfl

theorem find?_add (cache : AnchorCache) (p q : Path) (slugs : TextSet) :
    (cache.add p slugs).find? q =
      if p.components = q.components then some slugs else cache.find? q := by
  simp only [find?, add, List.lookup_cons]
  by_cases same : p.components = q.components
  · simp [same]
  · have other : (q.components == p.components) = false := by simpa using Ne.symm same
    simp [same, other]

end AnchorCache

end MarkdownLinks
