import MarkdownLinks.Proofs.Path.Ending

/-!
# Paths below one root and another

Going on with the same components from the directory of one root or of another gives paths that
correspond to each other.  They end alike, and so do they with an extension after them.
-/

namespace MarkdownLinks

namespace Path

/-- The path that goes on with more components from the directory that some names lead to. -/
def under (base : List Name) (steps : List Component) : Path :=
  ofComponents (.root :: (base.map .name ++ steps))

/-- The path below another root that corresponds to a path below a root; any other path stays as it
is. -/
def rebase (p root other : Path) : Path :=
  if root.components.isPrefixOf p.components then
    ofComponents (other.components ++ p.components.drop root.components.length)
  else
    p

variable {base otherBase : List Name} {steps outer : List Component} {last : Component}

theorem ofNames_append (base names : List Name) :
    ofNames (base ++ names) = under base (names.map .name) := by
  rw [ofNames, under, List.map_append]

theorem under_nil (base : List Name) : under base [] = ofNames base := by
  rw [under, List.append_nil, ofNames]

theorem isStep_append (base : List Name) (areSteps : ∀ c ∈ steps, c.IsStep) :
    ∀ c ∈ base.map Component.name ++ steps, c.IsStep :=
  List.forall_mem_append.2 ⟨Component.isStep_names base, areSteps⟩

theorem components_under (areSteps : ∀ c ∈ steps, c.IsStep) :
    (under base steps).components = (ofNames base).components ++ steps := by
  rw [under, components_ofComponents (isStep_append base areSteps), components_ofNames,
    List.cons_append]

theorem rebase_under (areSteps : ∀ c ∈ steps, c.IsStep) :
    (under base steps).rebase (ofNames base) (ofNames otherBase) = under otherBase steps := by
  have isPrefix : (ofNames base).components.isPrefixOf (under base steps).components = true := by
    rw [components_under areSteps, List.isPrefixOf_iff_prefix]
    exact List.prefix_append _ _
  rw [rebase, if_pos isPrefix, components_under areSteps, List.drop_left, components_ofNames]
  rfl

theorem under_concat (base : List Name) (outer : List Component) (last : Component) :
    under base (outer ++ [last]) =
      ofComponents ((.root :: (base.map .name ++ outer)) ++ [last]) := by
  rw [under, List.cons_append, List.append_assoc]

theorem append_under {name : Name} {t : Text}
    (written : name.bytes = last.bytes ++ Utf8.encode t) :
    (under base (outer ++ [last])).append t = under base (outer ++ [.name name]) := by
  rw [under_concat, under_concat]
  exact append_ofComponents_concat written

theorem fileName?_under (base : List Name) (areSteps : ∀ c ∈ outer ++ [last], c.IsStep) :
    (under base (outer ++ [last])).fileName? = last.name? := by
  have allSteps := isStep_append base areSteps
  rw [← List.append_assoc] at allSteps
  rw [under_concat]
  exact fileName?_ofComponents_concat allSteps

end Path

namespace Settings

variable {settings : Settings} {outer : List Component} {last : Component}

theorem isDocumentName_under (base otherBase : List Name)
    (areSteps : ∀ c ∈ outer ++ [last], c.IsStep) :
    settings.isDocumentName (.under base (outer ++ [last])) =
      settings.isDocumentName (.under otherBase (outer ++ [last])) := by
  simp only [isDocumentName, Path.extension?, Path.fileName?_under _ areSteps]

theorem endsAsDocument_under (base otherBase : List Name) (noSlash : '/' ∉ settings.extension) :
    settings.endsAsDocument (.under base (outer ++ [last])) =
      settings.endsAsDocument (.under otherBase (outer ++ [last])) := by
  have dottedNoSlash : '/' ∉ settings.dottedExtension := by
    rw [dottedExtension, List.mem_cons, not_or]
    exact ⟨by decide, noSlash⟩
  simp only [endsAsDocument, Path.under_concat, Path.endsWith_ofComponents_concat dottedNoSlash]

end Settings

end MarkdownLinks
