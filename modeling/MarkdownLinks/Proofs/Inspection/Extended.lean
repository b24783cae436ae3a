import MarkdownLinks.Proofs.Disk.Written
import MarkdownLinks.Proofs.Inspection.Stated
import MarkdownLinks.Proofs.Path.Ending

/-!
# The extension after a link and after its path

The extension of documents can be written after the text of a link or after the path that the link
means.  Both give the same path if the text ends with the name of an entry.  If it ends with `.`,
`..` or a slash, the extension makes a name of its own in the text, whereas in the path it goes to
the name before.
-/

namespace MarkdownLinks

namespace Path

/-- Whether the last segment of a path is the name of an entry. -/
def endsWithName (p : Path) : Bool :=
  match p.moves.getLast? with
  | some (.into _) => true
  | _ => false

theorem endsWithName_iff {p : Path} {before : List Move} {last : Move}
    (moves : p.moves = before ++ [last]) :
    p.endsWithName = true ↔ ∃ name, last = .into name := by
  rw [endsWithName, moves, List.getLast?_concat]
  cases last <;> simp

/-- A text without slashes that is written after a path belongs to its last segment. -/
theorem exists_moves_append {tail : Text} (noSlash : slash ∉ Utf8.encode tail) (t : Text) :
    ∃ before segment, (ofText t).moves = before ++ [Move.ofSegment segment] ∧
      (ofText (t ++ tail)).moves =
        before ++ [Move.ofSegment (segment ++ Utf8.encode tail)] := by
  rcases exists_splitAtEach_append noSlash (Utf8.encode t) with ⟨pieces, last, alone, longer⟩
  refine ⟨pieces.map Move.ofSegment, last, ?_, ?_⟩
  · simp only [ofText, moves, segments, alone, List.map_append, List.map_singleton]
  · simp only [ofText, moves, segments, Utf8.encode_append, longer, List.map_append,
      List.map_singleton]

/-- An extension that is written after a path changes its last component and adds none. -/
theorem steps_of_append_dotted {steps others : List Component} {ext : Text}
    (areSteps : ∀ c ∈ steps, c.IsStep) (othersAre : ∀ c ∈ others, c.IsStep)
    (nonempty : steps ≠ []) (noSlash : slash ∉ Utf8.encode ext)
    (same : ofComponents (.root :: others) = (ofComponents (.root :: steps)).append ('.' :: ext)) :
    others.length = steps.length ∧ others ≠ steps := by
  rcases steps.eq_nil_or_concat with rfl | ⟨outer, last, rfl⟩
  · exact absurd rfl nonempty
  · rw [List.concat_eq_append] at areSteps same ⊢
    have lastIsStep : last.IsStep := areSteps last (by simp)
    rcases exists_name_dotted lastIsStep noSlash with ⟨name, written⟩
    rw [← List.cons_append, append_ofComponents_concat (t := '.' :: ext) written,
      List.cons_append] at same
    have components := congrArg Path.components same
    rw [components_ofComponents othersAre,
      components_ofComponents (Component.isStep_concat_name areSteps name)] at components
    obtain rfl : others = outer ++ [.name name] := (List.cons.inj components).2
    refine ⟨by simp, ?_⟩
    intro unchanged
    have lastSame : Component.name name = last := by simpa using unchanged
    have lengths : name.bytes.length = last.bytes.length := congrArg (·.bytes.length) lastSame
    rw [written, List.length_append, List.length_cons] at lengths
    omega

end Path

namespace Move

variable {rooted : Bool} {start : List Name} {before : List Move} {ext : Text}

theorem ofSegment_eq_up_iff {segment : Bytes} : ofSegment segment = .up ↔ segment = [dot, dot] := by
  constructor
  · intro isUp
    unfold ofSegment at isUp
    split at isUp
    · assumption
    · split at isUp <;> cases isUp
  · rintro rfl
    rfl

/-- A name with an extension in the text is that name with the extension in the path. -/
theorem ofComponents_meant_into {name longer : Name}
    (written : longer.bytes = name.bytes ++ Utf8.encode ('.' :: ext)) :
    Path.ofComponents (.root :: meant rooted start (before ++ [.into longer])) =
      (Path.ofComponents (.root :: meant rooted start (before ++ [.into name]))).append
        ('.' :: ext) := by
  rw [meant_concat_into, meant_concat_into]
  exact (@Path.append_ofComponents_concat (.root :: _) (.name name) longer _ written).symm

/-- Where the text stays in a directory, an extension after it does not go to the directory. -/
theorem ofComponents_meant_stay (noSlash : slash ∉ Utf8.encode ext)
    (nonempty : meant rooted start (before ++ [.stay]) ≠ []) (last : Move) :
    Path.ofComponents (.root :: meant rooted start (before ++ [last])) ≠
      (Path.ofComponents (.root :: meant rooted start (before ++ [.stay]))).append
        ('.' :: ext) := by
  intro same
  rcases Path.steps_of_append_dotted isStep_of_mem_meant isStep_of_mem_meant nonempty noSlash same
    with ⟨lengths, changed⟩
  rw [meant_concat_stay] at nonempty lengths changed
  have positive := List.length_pos_iff.2 nonempty
  cases last with
  | stay => exact changed meant_concat_stay
  | into name =>
    rw [meant_concat_into, List.length_append, List.length_singleton] at lengths
    omega
  | up =>
    rw [meant_concat_up] at lengths
    cases rooted with
    | true => simp at lengths
    | false =>
      simp only [Bool.false_eq_true, if_false, List.length_dropLast] at lengths
      omega

/-- Where the text goes up by names alone, an extension after it goes down instead. -/
theorem ofComponents_meant_up (noSlash : slash ∉ Utf8.encode ext)
    (nonempty : meant false start (before ++ [.up]) ≠ []) (name : Name) :
    Path.ofComponents (.root :: meant false start (before ++ [.into name])) ≠
      (Path.ofComponents (.root :: meant false start (before ++ [.up]))).append
        ('.' :: ext) := by
  intro same
  rcases Path.steps_of_append_dotted isStep_of_mem_meant isStep_of_mem_meant nonempty noSlash same
    with ⟨lengths, -⟩
  rw [meant_concat_up, meant_concat_into, List.length_append, List.length_singleton] at lengths
  simp only [Bool.false_eq_true, if_false, List.length_dropLast] at lengths
  omega

section Disk

variable {disk : Disk} {segment : Bytes}

/-- If a path exists with an extension only, then the extension in the text goes where the one in
the path goes exactly if the last segment is a name. -/
theorem ofComponents_meant_append_iff (linkFree : disk.LinkFree)
    (noSlash : slash ∉ Utf8.encode ext)
    (absent : disk.contains (.ofComponents
      (.root :: meant rooted start (before ++ [ofSegment segment]))) = false)
    (there : disk.contains ((Path.ofComponents
      (.root :: meant rooted start (before ++ [ofSegment segment]))).append ('.' :: ext)) = true) :
    Path.ofComponents (.root :: meant rooted start
        (before ++ [ofSegment (segment ++ Utf8.encode ('.' :: ext))])) =
      (Path.ofComponents (.root :: meant rooted start (before ++ [ofSegment segment]))).append
        ('.' :: ext) ↔
      ∃ name, ofSegment segment = .into name := by
  have nonempty : meant rooted start (before ++ [ofSegment segment]) ≠ [] := by
    intro alone
    rw [alone, Disk.contains_root] at absent
    cases absent
  cases move : ofSegment segment with
  | into name =>
    rw [ofSegment_eq_into_iff] at move
    rcases @Path.exists_name_dotted (.name name) trivial _ noSlash with ⟨longer, written⟩
    have longerMove : ofSegment (segment ++ Utf8.encode ('.' :: ext)) = .into longer := by
      rw [ofSegment_eq_into_iff, written, move]
      rfl
    rw [longerMove]
    exact iff_of_true (ofComponents_meant_into written) ⟨name, rfl⟩
  | stay =>
    rw [move] at nonempty
    apply iff_of_false
    · exact ofComponents_meant_stay noSlash nonempty _
    · simp
  | up =>
    rw [move] at nonempty absent there
    rw [ofSegment_eq_up_iff] at move
    rcases @Path.exists_name_dotted .parent trivial _ noSlash with ⟨longer, written⟩
    have longerMove : ofSegment (segment ++ Utf8.encode ('.' :: ext)) = .into longer := by
      rw [ofSegment_eq_into_iff, written, move]
      rfl
    rw [longerMove]
    apply iff_of_false
    · cases rooted with
      | true =>
        -- Where there is an entry, there is also the directory above its own.
        rw [meant_concat_up, if_pos rfl] at absent there
        rw [← List.cons_append, Path.append_ofComponents_concat (t := '.' :: ext) written,
          List.cons_append] at there
        have longEnough : 2 ≤ longer.bytes.length := by
          rw [written]
          simp [Component.bytes]
        rw [linkFree.contains_parent isStep_of_mem_meant longEnough there] at absent
        cases absent
      | false => exact ofComponents_meant_up noSlash nonempty longer
    · simp

end Disk

end Move

namespace Inspector

variable {inspector : Inspector} {base outer : List Name} {last : Name} {file ext : Text}

/-- If a link leads somewhere with an extension only, then the extension after its text leads there
exactly if the text ends with a name. -/
theorem targetPath_append_iff (linkFree : inspector.disk.LinkFree)
    (root : inspector.root = .ofNames base) (fileNe : file ≠ [])
    (noSlash : slash ∉ Utf8.encode ext)
    (absent : inspector.disk.contains
      (inspector.targetPath (.ofNames (outer ++ [last])) file) = false)
    (there : inspector.disk.contains
      ((inspector.targetPath (.ofNames (outer ++ [last])) file).append ('.' :: ext)) = true) :
    inspector.targetPath (.ofNames (outer ++ [last])) (file ++ '.' :: ext) =
        (inspector.targetPath (.ofNames (outer ++ [last])) file).append ('.' :: ext) ↔
      (Path.ofText file).endsWithName = true := by
  have head : (file ++ '.' :: ext).head? = file.head? := by
    rcases List.exists_cons_of_ne_nil fileNe with ⟨c, rest, rfl⟩
    rfl
  have kept : (file ++ '.' :: ext).dropWhile (· == '/') =
      file.dropWhile (· == '/') ++ '.' :: ext := by
    rw [List.dropWhile_append]
    split
    · next allSlashes =>
      rw [List.isEmpty_iff.1 allSlashes]
      rfl
    · rfl
  rcases Path.exists_moves_append (Utf8.slash_not_mem_encode_dotted noSlash)
    (file.dropWhile (· == '/')) with ⟨before, segment, moves, longerMoves⟩
  rcases Path.exists_moves_ofText file with ⟨count, fileMoves⟩
  rw [moves, ← List.append_assoc] at fileMoves
  have target := @targetPath_eq_meant inspector base outer last linkFree root file
  have longer := @targetPath_eq_meant inspector base outer last linkFree root (file ++ '.' :: ext)
  rw [moves] at target
  rw [kept, longerMoves, startOf, head, ← startOf] at longer
  rw [target] at absent there ⊢
  rw [longer, Path.endsWithName_iff fileMoves]
  exact Move.ofComponents_meant_append_iff linkFree noSlash absent there

end Inspector

end MarkdownLinks
