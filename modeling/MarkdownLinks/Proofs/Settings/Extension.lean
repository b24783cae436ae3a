import MarkdownLinks.Proofs.Path.Ending
import MarkdownLinks.Proofs.Text.Decoding

/-!
# The extension of documents

Whether a path is that of a document is asked in two ways, of the extension of its name and of its
text as a whole.  On a path that is written as its components are written the answers agree, but for
a name that is nothing but the extension.  With the extension after it, such a path always passes
both tests.
-/

namespace MarkdownLinks

namespace Path

variable {outer : List Component} {last : Component} {p : Path} {name : Name}

/-- The name at the end of a path that is a text is one, too. -/
theorem isText_name (isText : Utf8.IsText p.bytes) (written : ofComponents p.components = p)
    (named : p.fileName? = some name) : Utf8.IsText name.bytes := by
  rcases exists_concat_of_fileName? named with ⟨outer, components⟩
  rcases exists_front outer with ⟨front, rfl | endsWithSlash, bytes⟩
  · rw [← written, components, bytes] at isText
    exact isText
  · rcases List.getLast?_eq_some_iff.1 endsWithSlash with ⟨before, rfl⟩
    rw [← written, components, bytes, List.append_assoc] at isText
    exact isText.of_append_cons (by decide)

/-- What is written after a path belongs to its last component. -/
theorem fileName?_append_of_concat {t : Text} (written : ofComponents p.components = p)
    (components : p.components = outer ++ [last])
    (longer : name.bytes = last.bytes ++ Utf8.encode t) :
    (p.append t).fileName? = some name := by
  have steps : ∀ c ∈ (outer ++ [Component.name name]).tail, c.IsStep := by
    have ownSteps := isStep_of_mem_tail_components p
    rw [components] at ownSteps
    cases outer with
    | nil => simp
    | cons first rest => exact Component.isStep_concat_name ownSteps name
  rw [← written, components, append_ofComponents_concat longer,
    fileName?_ofComponents_concat steps]
  rfl

end Path

namespace Settings

variable {settings : Settings} {p : Path} {name : Name}

/-- A path ends with the text of the extension if its name does. -/
theorem endsAsDocument_iff (noSlash : '/' ∉ settings.extension)
    (isText : Utf8.IsText p.bytes) (written : .ofComponents p.components = p)
    (named : p.fileName? = some name) :
    settings.endsAsDocument p = true ↔
      ∃ before, name.bytes = before ++ Utf8.encode settings.dottedExtension := by
  have dottedNoSlash : '/' ∉ settings.dottedExtension := by
    rw [dottedExtension, List.mem_cons, not_or]
    exact ⟨by decide, noSlash⟩
  rcases Path.exists_concat_of_fileName? named with ⟨outer, components⟩
  rcases Path.isText_name isText written named with ⟨t, inUtf8⟩
  have ending : p.endsWith settings.dottedExtension = settings.dottedExtension.isSuffixOf t := by
    rw [← written, components, Path.endsWith_ofComponents_concat dottedNoSlash, Component.bytes,
      inUtf8, Utf8.decodeLossy_encode]
  rw [endsAsDocument, ending, List.isSuffixOf_iff_suffix, inUtf8]
  constructor
  · rintro ⟨before, rfl⟩
    exact ⟨Utf8.encode before, Utf8.encode_append _ _⟩
  · rintro ⟨before, encoded⟩
    have decoded := Utf8.decodeLossy_encode t
    rw [encoded, dottedExtension, Utf8.encode_dotted, Utf8.decodeLossy_append_ascii (by decide),
      Utf8.decodeLossy_encode] at decoded
    exact ⟨_, decoded⟩

/-- The two tests agree, but for a name that is nothing but the extension. -/
theorem isDocumentName_iff_endsAsDocument (noDot : '.' ∉ settings.extension)
    (noSlash : '/' ∉ settings.extension) (isText : Utf8.IsText p.bytes)
    (written : .ofComponents p.components = p) (named : p.fileName? = some name) :
    settings.isDocumentName p = true ↔
      settings.endsAsDocument p = true ∧
        name.bytes ≠ Utf8.encode settings.dottedExtension := by
  rw [isDocumentName_iff, Path.extension?_eq_some_iff,
    endsAsDocument_iff noSlash isText written named]
  constructor
  · rintro ⟨other, before, otherNamed, bytes, beforeNe, -⟩
    obtain rfl : name = other := Option.some.inj (named.symm.trans otherNamed)
    refine ⟨⟨before, bytes⟩, ?_⟩
    rw [bytes, dottedExtension, Utf8.encode_dotted]
    simpa using beforeNe
  · rintro ⟨⟨before, bytes⟩, notOnly⟩
    refine ⟨name, before, named, bytes, ?_, mt (Utf8.mem_of_mem_encode (by decide)) noDot⟩
    rintro rfl
    exact notOnly bytes

/-- With the extension after it, a path has this extension if that makes a name of its end. -/
theorem isDocumentName_append (noDot : '.' ∉ settings.extension) {outer : List Component}
    {last : Component} (written : .ofComponents p.components = p)
    (components : p.components = outer ++ [last])
    (longer : name.bytes = last.bytes ++ Utf8.encode settings.dottedExtension) :
    settings.isDocumentName (p.append settings.dottedExtension) = true := by
  rw [isDocumentName_iff, Path.extension?_eq_some_iff]
  exact ⟨name, last.bytes, Path.fileName?_append_of_concat written components longer, longer,
    last.bytes_ne_nil, mt (Utf8.mem_of_mem_encode (by decide)) noDot⟩

theorem endsAsDocument_append (p : Path) :
    settings.endsAsDocument (p.append settings.dottedExtension) = true :=
  @Path.endsWith_of_bytes _ p.bytes _ rfl

end Settings

end MarkdownLinks
