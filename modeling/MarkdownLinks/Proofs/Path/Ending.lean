import MarkdownLinks.Proofs.Path.Names
import MarkdownLinks.Proofs.Text.Utf8
import MarkdownLinks.Settings.Basic

/-!
# The ends of paths

Whether a path is that of a document is decided at its end, once by the extension of the name there
and once by the end of its text.  A tidy path ends with its last component as it is written, so that
both tests look at that component alone, and an extension that is written after the path becomes a
part of it.  A slash that is written after a path is one move more, which stays.
-/

namespace MarkdownLinks

namespace Utf8

theorem slash_mem_encode {t : Text} (mem : '/' ∈ t) : slash ∈ encode t :=
  List.mem_flatMap.2 ⟨'/', mem, by decide⟩

theorem encode_dotted (ext : Text) : encode ('.' :: ext) = dot :: encode ext :=
  rfl

theorem slash_not_mem_encode_dotted {ext : Text} (noSlash : slash ∉ encode ext) :
    slash ∉ encode ('.' :: ext) := by
  rw [encode_dotted, List.mem_cons, not_or]
  exact ⟨by decide, noSlash⟩

end Utf8

/-- The name that a component is, if it is one. -/
def Component.name? : Component → Option Name
  | .name n => some n
  | _ => none

namespace Path

/-- Paths that differ only in their last components are written alike before these. -/
theorem exists_front (outer : List Component) :
    ∃ front : Bytes, (front = [] ∨ front.getLast? = some slash) ∧
      ∀ last : Component, (ofComponents (outer ++ [last])).bytes = front ++ last.bytes := by
  have joined (pieces : List Bytes) (last : Bytes) (nonempty : pieces ≠ []) :
      [slash].intercalate (pieces ++ [last]) = [slash].intercalate pieces ++ [slash] ++ last := by
    rw [intercalate_append_of_ne_nil nonempty (by simp), List.intercalate_singleton,
      List.append_cons]
  rcases outer with _ | ⟨first, rest⟩
  · refine ⟨[], .inl rfl, ?_⟩
    intro last
    cases last <;> simp [ofComponents, Component.bytes]
  · by_cases atRoot : first = .root ∧ rest = []
    · rcases atRoot with ⟨rfl, rfl⟩
      exact ⟨[slash], .inr rfl, fun last => by simp [ofComponents]⟩
    · refine ⟨(ofComponents (first :: rest)).bytes ++ [slash], .inr List.getLast?_concat, ?_⟩
      intro last
      cases first with
      | root =>
        have restNe : rest.map Component.bytes ≠ [] := by simpa using atRoot
        simp only [List.cons_append, ofComponents, List.map_append, List.map_cons, List.map_nil,
          joined _ last.bytes restNe]
      | _ =>
        simp only [List.cons_append, ofComponents, List.map_append, List.map_cons, List.map_nil]
        rw [← List.cons_append, joined _ last.bytes (List.cons_ne_nil _ _)]

/-- What is written after a path is written after its last component. -/
theorem append_ofComponents_concat {outer : List Component} {last : Component} {name : Name}
    {t : Text} (written : name.bytes = last.bytes ++ Utf8.encode t) :
    (ofComponents (outer ++ [last])).append t = ofComponents (outer ++ [.name name]) := by
  rcases exists_front outer with ⟨front, -, bytes⟩
  have longer : (Component.name name).bytes = last.bytes ++ Utf8.encode t := written
  apply congrArg Path.mk
  rw [bytes, List.append_assoc, ← longer]
  exact (bytes (.name name)).symm

/-- A tidy path stays tidy when an extension is written after it, as long as it has this extension
then. -/
theorem IsTidy.append_dotted {p : Path} {ext : Text} (tidy : p.IsTidy)
    (found : (p.append ('.' :: ext)).extension? = some (Utf8.encode ext)) :
    (p.append ('.' :: ext)).IsTidy := by
  have noSlash : slash ∉ Utf8.encode ext := slash_not_mem_of_extension? found
  rcases tidy with ⟨steps, areSteps, rfl⟩
  rcases steps.eq_nil_or_concat with rfl | ⟨outer, last, rfl⟩
  · -- Only the root is before the extension: the segment after it must itself be a name.
    rcases extension?_eq_some_iff.1 found with ⟨name, -, named, -, -, -⟩
    exact isTidy_cons_slash (Utf8.slash_not_mem_encode_dotted noSlash) named
  · rw [List.concat_eq_append] at areSteps ⊢
    rcases exists_name_dotted (areSteps last (by simp)) noSlash with ⟨name, written⟩
    rw [← List.cons_append, append_ofComponents_concat (t := '.' :: ext) written]
    exact ⟨outer ++ [.name name], Component.isStep_concat_name areSteps name, rfl⟩

theorem fileName?_ofComponents_concat {outer : List Component} {last : Component}
    (areSteps : ∀ c ∈ (outer ++ [last]).tail, c.IsStep) :
    (ofComponents (outer ++ [last])).fileName? = last.name? := by
  rw [fileName?, components_ofComponents_of_tail areSteps, List.getLast?_concat]
  cases last <;> rfl

theorem exists_concat_of_fileName? {p : Path} {name : Name} (named : p.fileName? = some name) :
    ∃ outer, p.components = outer ++ [.name name] := by
  unfold fileName? at named
  split at named
  · next last isLast =>
    cases named
    exact List.getLast?_eq_some_iff.1 isLast
  · cases named

/-- A text without slashes at the end of a path is at the end of its last component. -/
theorem endsWith_ofComponents_concat {outer : List Component} {last : Component} {t : Text}
    (noSlash : '/' ∉ t) :
    (ofComponents (outer ++ [last])).endsWith t = t.isSuffixOf (Utf8.decodeLossy last.bytes) := by
  rcases exists_front outer with ⟨front, rfl | endsWithSlash, bytes⟩
  · rw [endsWith, display, bytes, List.nil_append]
  rcases List.getLast?_eq_some_iff.1 endsWithSlash with ⟨before, rfl⟩
  have displayed : (ofComponents (outer ++ [last])).display =
      Utf8.decodeLossy before ++ '/' :: Utf8.decodeLossy last.bytes := by
    rw [display, bytes, List.append_assoc, List.singleton_append]
    exact Utf8.decodeLossy_append_ascii (by decide) before last.bytes
  rw [Bool.eq_iff_iff, endsWith, displayed, List.isSuffixOf_iff_suffix, List.isSuffixOf_iff_suffix]
  constructor
  · intro isSuffix
    rcases List.suffix_or_suffix_of_suffix isSuffix (List.suffix_append _ _) with inside | longer
    · rcases List.suffix_cons_iff.1 inside with rfl | isEnd
      · exact absurd List.mem_cons_self noSlash
      · exact isEnd
    · exact absurd (longer.subset List.mem_cons_self) noSlash
  · intro isSuffix
    exact (isSuffix.trans (List.suffix_cons _ _)).trans (List.suffix_append _ _)

theorem endsWith_of_bytes {p : Path} {front : Bytes} {ext : Text}
    (bytes : p.bytes = front ++ dot :: Utf8.encode ext) : p.endsWith ('.' :: ext) = true := by
  have displayed : p.display = Utf8.decodeLossy front ++ '.' :: ext := by
    simp only [display, bytes, Utf8.decodeLossy_append_ascii (b := dot) (by decide),
      Utf8.decodeLossy_encode]
    rfl
  rw [endsWith, displayed, List.isSuffixOf_iff_suffix]
  exact List.suffix_append _ _

theorem isAbsolute_append {p : Path} (absolute : p.isAbsolute = true) (t : Text) :
    (p.append t).isAbsolute = true := by
  rcases isAbsolute_iff.1 absolute with ⟨rest, written⟩
  apply isAbsolute_iff.2
  exact ⟨rest ++ Utf8.encode t, by rw [append, written, List.cons_append]⟩

section SlashAfter

variable {p : Path}

theorem ofText_append (t u : Text) : ofText (t ++ u) = (ofText t).append u := by
  rw [ofText, Utf8.encode_append, append, ofText]

theorem moves_append_slash (p : Path) : (p.append ['/']).moves = p.moves ++ [.stay] :=
  moves_append_cons_slash p.bytes []

theorem components_append_slash (absolute : p.isAbsolute = true) :
    (p.append ['/']).components = p.components := by
  rw [components_of_isAbsolute (isAbsolute_append absolute _), components_of_isAbsolute absolute,
    moves_append_slash, List.filterMap_append]
  simp [Component.ofMove?]

theorem normalize_append_slash (absolute : p.isAbsolute = true) :
    (p.append ['/']).normalize = p.normalize := by
  rw [normalize_of_isAbsolute (isAbsolute_append absolute _), normalize_of_isAbsolute absolute,
    moves_append_slash, Move.lexical_append]
  rfl

theorem isAbsolute_append_eq (nonempty : p.bytes ≠ []) (t : Text) :
    (p.append t).isAbsolute = p.isAbsolute := by
  rcases List.exists_cons_of_ne_nil nonempty with ⟨b, rest, written⟩
  simp [isAbsolute, append, written]

theorem join_append (p : Path) {q : Path} (nonempty : q.bytes ≠ []) (t : Text) :
    p.join (q.append t) = (p.join q).append t := by
  rw [join, join, isAbsolute_append_eq nonempty]
  split
  · rfl
  · split <;> simp [append]

end SlashAfter

end Path

namespace Settings

variable {settings : Settings} {p : Path}

theorem isDocumentName_iff :
    settings.isDocumentName p = true ↔ p.extension? = some (Utf8.encode settings.extension) := by
  simp [isDocumentName]

theorem slash_not_mem_extension (isDocument : settings.isDocumentName p = true) :
    slash ∉ Utf8.encode settings.extension :=
  Path.slash_not_mem_of_extension? (isDocumentName_iff.1 isDocument)

/-- A path with the extension of documents also ends with its text. -/
theorem endsAsDocument_of_isDocumentName (written : .ofComponents p.components = p)
    (isDocument : settings.isDocumentName p = true) : settings.endsAsDocument p = true := by
  rcases Path.extension?_eq_some_iff.1 (isDocumentName_iff.1 isDocument) with
    ⟨name, before, named, bytes, -, -⟩
  rcases Path.exists_concat_of_fileName? named with ⟨outer, components⟩
  rcases Path.exists_front outer with ⟨front, -, frontBytes⟩
  have ending : p.bytes = (front ++ before) ++ dot :: Utf8.encode settings.extension := by
    rw [← written, components, frontBytes, Component.bytes, bytes, List.append_assoc]
  exact Path.endsWith_of_bytes ending

end Settings

end MarkdownLinks
