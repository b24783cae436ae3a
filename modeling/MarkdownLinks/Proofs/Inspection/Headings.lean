import Mathlib.Data.List.Basic
import MarkdownLinks.Proofs.Disk.Relative
import MarkdownLinks.Proofs.Document
import MarkdownLinks.Proofs.Inspection.Soundness
import MarkdownLinks.Proofs.Link.Title
import MarkdownLinks.Proofs.Link.Written
import MarkdownLinks.Proofs.Root
import MarkdownLinks.Proofs.Search.Documents
import MarkdownLinks.Proofs.Slug
import MarkdownLinks.Proofs.Url.Percent
import MarkdownLinks.Proofs.Url.Target

/-!
# Links to headings

Every heading can be linked to from every document: the relative path to its document, escaped, and
then its slug.  The scanner finds such a link as it is written, because neither the escaped path nor
the slug holds what ends a target, and the link is sound, because decoding gives the path back and
the path leads to the document.
-/

namespace MarkdownLinks

/-- The URL of a heading in one document as another document links to it. -/
def headingUrl (source target : Path) (anchor : Text) : Text :=
  Percent.escape (Path.relative source target).bytes ++ anchor

section Written

variable {bytes : Bytes} {heading : Text}

theorem not_mem_escape_append_slug {c : Char} (notOrdinary : Percent.isOrdinary c = false)
    (notWord : isWordChar c = false) (notHash : c ≠ '#') (notHyphen : c ≠ '-') :
    c ∉ Percent.escape bytes ++ Slug.ofHeading heading := by
  have notEscaped : c ∉ Percent.escape bytes := Percent.not_mem_escape notOrdinary
  have notInWords : c ∉ Slug.words heading := Slug.not_mem_words notWord notHyphen
  simp [Slug.ofHeading, notEscaped, notInWords, notHash]

theorem stripAll_escape_append_slug (bytesNe : bytes ≠ []) :
    Title.stripAll (Percent.escape bytes ++ Slug.ofHeading heading) =
      Percent.escape bytes ++ Slug.ofHeading heading := by
  have lastMem : ∀ c ∈ (Percent.escape bytes ++ Slug.ofHeading heading).getLast?,
      c = '#' ∨ c ∈ Slug.words heading := by
    intro c isLast
    simp only [Slug.ofHeading, List.getLast?_append_cons] at isLast
    exact List.mem_cons.1 (List.mem_of_getLast? isLast)
  apply Title.stripAll_eq_self
  · intro c isLast
    rcases lastMem c isLast with rfl | mem
    · decide
    · constructor
      · rintro rfl
        exact Slug.not_mem_words (not_isWordChar_of_mark (by decide)) (by decide) mem
      · rintro rfl
        exact Slug.not_mem_words (not_isWordChar_of_mark (by decide)) (by decide) mem
  · intro c isFirst
    simp only [List.head?_append_of_ne_nil _ (Percent.escape_ne_nil bytesNe)] at isFirst
    exact Percent.not_isBlank_of_mem_escape (List.mem_of_head? isFirst)
  · intro c isLast
    rcases lastMem c isLast with rfl | mem
    · decide
    · exact Slug.not_isBlank_of_mem_words mem

theorem scan_written_slug {text : Text} (textNe : text ≠ []) (noBracket : ']' ∉ text)
    (oneLine : '\n' ∉ text) (bytesNe : bytes ≠ []) :
    Link.scan (Link.written text (Percent.escape bytes ++ Slug.ofHeading heading)) =
      [⟨1, text, Percent.escape bytes ++ Slug.ofHeading heading⟩] := by
  have targetNe : Percent.escape bytes ++ Slug.ofHeading heading ≠ [] := by simp [Slug.ofHeading]
  have noParen : ')' ∉ Percent.escape bytes ++ Slug.ofHeading heading :=
    not_mem_escape_append_slug (by decide) (not_isWordChar_of_mark (by decide)) (by decide)
      (by decide)
  have noNewline : '\n' ∉ Percent.escape bytes ++ Slug.ofHeading heading :=
    not_mem_escape_append_slug (by decide) (not_isWordChar_of_mark (by decide)) (by decide)
      (by decide)
  simp only [Link.scan_written textNe noBracket oneLine targetNe noParen noNewline,
    stripAll_escape_append_slug bytesNe]

/-- An escaped path and a fragment are read as what they are. -/
theorem target_escape_append_fragment {path : Text} (pathNe : path ≠ []) (rest : Text) :
    Url.target (Percent.escape (Utf8.encode path) ++ '#' :: rest) =
      .file path (some ('#' :: rest)) := by
  have bytesNe : Utf8.encode path ≠ [] := Utf8.encode_ne_nil pathNe
  have noHash : '#' ∉ Percent.escape (Utf8.encode path) := Percent.not_mem_escape (by decide)
  have noColon : ':' ∉ Percent.escape (Utf8.encode path) := Percent.not_mem_escape (by decide)
  rw [Url.target_eq_file (Percent.escape_ne_nil bytesNe) noHash noColon, Percent.decode_escape]

/-- The URL of a heading is read as the path and the slug that it is made of. -/
theorem target_escape_append_slug {path : Text} (pathNe : path ≠ []) :
    Url.target (Percent.escape (Utf8.encode path) ++ Slug.ofHeading heading) =
      .file path (some (Slug.ofHeading heading)) :=
  target_escape_append_fragment pathNe (Slug.words heading)

end Written

namespace Inspector

variable {inspector : Inspector}

section Sibling

variable {outer names : List Name} {last : Name} {target : Path} {t : Text}

theorem notRooted_of_relative (relative : (Path.ofText t).isAbsolute = false) :
    t.head? ≠ some '/' := by
  intro isSlash
  rcases List.head?_eq_some_iff.1 isSlash with ⟨rooted, rfl⟩
  cases relative

theorem statedPath_of_relative (relative : (Path.ofText t).isAbsolute = false) :
    inspector.statedPath (.ofNames (outer ++ [last])) t =
      (Path.ofNames outer).join (.ofText t) := by
  rw [statedPath_of_notRooted (notRooted_of_relative relative), Path.parent?_ofNames,
    Option.getD_some]

theorem targetPath_of_canonical (relative : (Path.ofText t).isAbsolute = false)
    (canonical : inspector.disk.canonical ((Path.ofNames outer).join (.ofText t)) = .ok target) :
    inspector.targetPath (.ofNames (outer ++ [last])) t = target := by
  simp only [targetPath, statedPath_of_relative relative,
    if_neg (notRooted_of_relative relative), canonical]

/-- Without links, a link means the place that its path leads to, whether this is short enough to be
made canonical or not. -/
theorem targetPath_of_locate (linkFree : inspector.disk.LinkFree)
    (relative : (Path.ofText t).isAbsolute = false)
    (leads : inspector.disk.locate ((Path.ofNames outer).join (.ofText t)) = .ok names) :
    inspector.targetPath (.ofNames (outer ++ [last])) t = .ofNames names := by
  have absolute : ((Path.ofNames outer).join (.ofText t)).isAbsolute = true :=
    Path.isAbsolute_join (Path.isTidy_ofNames outer).isAbsolute
  have stated := @statedPath_of_relative inspector outer last t relative
  rw [targetPath_of_settled, if_neg (notRooted_of_relative relative), stated,
    Path.normalize_of_isAbsolute absolute, linkFree.locate_eq absolute leads]
  rw [stated]
  exact fun _ => linkFree.canonical_eq absolute

end Sibling

/-- A link to a document with a fragment asks for a heading there, whatever else it does. -/
theorem checkFile_eq_checkAnchor {source target : Path} {link : Link} {file : Text}
    (fileNe : file ≠ []) (means : inspector.targetPath source file = target)
    (isDocument : Search.isDocument inspector.disk inspector.settings target = true)
    (cache : AnchorCache) (fragment : Text) :
    inspector.checkFile source link cache file (some fragment) =
      inspector.checkAnchor source link cache target fragment
        ("Anchor ".toList ++ fragment ++ " not found in target file".toList) (some target) [] [] := by
  rcases Bool.and_eq_true_iff.1 isDocument with ⟨isDocumentName, isFile⟩
  have reached : inspector.reach target = .plain target :=
    reach_eq_plain_iff.2 ⟨rfl, Disk.contains_of_isFile isFile⟩
  have hasAnchors : inspector.hasAnchors target = true :=
    Bool.and_eq_true_iff.2 ⟨isFile, isDocumentName⟩
  have asked : (some fragment).filter (fun _ => inspector.hasAnchors target) = some fragment := by
    simp [hasAnchors]
  rw [checkFile, if_neg (by simpa using fileNe)]
  simp only [means, reached, checkFragment, asked, directoryAdvice_eq_nil_of_hasAnchors hasAnchors,
    List.append_nil]

theorem checkFile_eq_sound {source target : Path} {link : Link} {file fragment text : Text}
    (fileNe : file ≠ []) (means : inspector.targetPath source file = target)
    (isDocument : Search.isDocument inspector.disk inspector.settings target = true)
    (read : Document.read inspector.disk target = .ok text) (mem : fragment ∈ Heading.slugs text) :
    (inspector.checkFile source link .empty file (some fragment)).result = .ok .sound := by
  rw [checkFile_eq_checkAnchor fileNe means isDocument, checkAnchor_of_read read, if_pos mem]
  rfl

/-- Every heading of every document can be linked to from every document. -/
theorem check_headingUrl {disk : Disk} {settings : Settings} {given root source target : Path}
    {text : Text} (linkFree : disk.LinkFree) (textNames : disk.NamesAreText)
    (canonical : canonicalRoot disk given = .ok root)
    (sourceMem : source ∈ Search.documents disk settings root)
    (targetMem : target ∈ Search.documents disk settings root)
    (textNe : text ≠ []) (noBracket : ']' ∉ text) (oneLine : '\n' ∉ text) (probe : Option Probe) :
    ∀ content, Document.read disk target = .ok content →
      ∀ anchor ∈ Heading.slugs content,
        Link.scan (Link.written text (headingUrl source target anchor)) =
            [⟨1, text, headingUrl source target anchor⟩] ∧
          (check ⟨disk, settings, root, probe⟩ .empty source
            ⟨1, text, headingUrl source target anchor⟩).result = .ok .sound := by
  rcases exists_names_of_canonicalRoot canonical with ⟨base, entries, rfl, found⟩
  rcases Search.exists_names_of_mem_documents found sourceMem with
    ⟨below, belowNe, rfl, sourceIsDocument⟩
  rcases Search.exists_names_of_mem_documents found targetMem with ⟨_, -, rfl, targetIsDocument⟩
  rcases below.eq_nil_or_concat with rfl | ⟨above, last, rfl⟩
  · exact absurd rfl belowNe
  simp only [List.concat_eq_append, ← List.append_assoc] at *
  have isFile : ∀ {p}, Search.isDocument disk settings p = true → disk.isFile p = true :=
    fun isDocument => (Bool.and_eq_true_iff.1 isDocument).2
  rcases linkFree.exists_relative textNames (isFile sourceIsDocument) (isFile targetIsDocument) with
    ⟨path, pathNe, notAbsolute, written, leads⟩
  intro content read anchor anchorMem
  rcases Heading.exists_of_mem_slugs anchorMem with ⟨heading, rfl⟩
  simp only [headingUrl, written]
  constructor
  · exact scan_written_slug textNe noBracket oneLine (Utf8.encode_ne_nil pathNe)
  · have url : Url.target (Percent.escape (Utf8.encode path) ++ Slug.ofHeading heading) =
        .file path (some (Slug.ofHeading heading)) :=
      target_escape_append_slug pathNe
    simp only [check, Path.ofText, url]
    exact checkFile_eq_sound pathNe (targetPath_of_locate linkFree notAbsolute leads)
      targetIsDocument read anchorMem

example : headingUrl (.ofText "/r/d/c d.md".toList) (.ofText "/r/é/a#b.md".toList) "#x".toList =
    "../%C3%A9/a%23b.md#x".toList := by
  decide

theorem check_headingUrl_sample :
    Disk.sample.LinkFree ∧ Disk.sample.NamesAreText ∧
      canonicalRoot .sample (.ofText "/r/d/..".toList) = .ok (.ofText "/r".toList) ∧
      (∀ p ∈ [.ofText "/r/index.md".toList, .ofText "/r/d/c d.md".toList],
        p ∈ Search.documents .sample .default (.ofText "/r".toList)) ∧
      Document.read .sample (.ofText "/r/d/c d.md".toList) = .ok "# C\n".toList ∧
      "#c".toList ∈ Heading.slugs "# C\n".toList ∧
      Link.scan "[to C](d/c%20d.md#c)".toList =
        [⟨1, "to C".toList, "d/c%20d.md#c".toList⟩] ∧
      (check ⟨.sample, .default, .ofText "/r".toList, none⟩ .empty (.ofText "/r/index.md".toList)
        ⟨1, "to C".toList, "d/c%20d.md#c".toList⟩).result = .ok .sound := by
  have linkFree : Disk.sample.LinkFree := by decide
  have textNames : Disk.sample.NamesAreText :=
    ⟨⟨"r".toList, rfl⟩, ⟨⟨"d".toList, rfl⟩, ⟨⟨"c d.md".toList, rfl⟩, trivial⟩,
      ⟨"index.md".toList, rfl⟩, trivial⟩, trivial⟩
  have areDocuments : ∀ p ∈ [.ofText "/r/index.md".toList, .ofText "/r/d/c d.md".toList],
      p ∈ Search.documents .sample .default (.ofText "/r".toList) := by
    simp only [Disk.documents_sample]
    decide
  have read : Document.read .sample (.ofText "/r/d/c d.md".toList) = .ok "# C\n".toList := by
    rfl
  have anchorMem : "#c".toList ∈ Heading.slugs "# C\n".toList := by
    decide +kernel
  have url : headingUrl (.ofText "/r/index.md".toList) (.ofText "/r/d/c d.md".toList)
      "#c".toList = "d/c%20d.md#c".toList := by
    decide
  have textNe : "to C".toList ≠ [] := by decide
  have atAnchor := check_headingUrl linkFree textNames Disk.canonicalRoot_sample
    (areDocuments (.ofText "/r/index.md".toList) (by simp))
    (areDocuments (.ofText "/r/d/c d.md".toList) (by simp)) textNe (by decide) (by decide) none
    "# C\n".toList read "#c".toList anchorMem
  rw [url] at atAnchor
  exact ⟨linkFree, textNames, Disk.canonicalRoot_sample, areDocuments, read, anchorMem, atAnchor⟩

end Inspector

end MarkdownLinks
