import MarkdownLinks.Proofs.Inspection.Target
import MarkdownLinks.Proofs.Path.Names
import MarkdownLinks.Proofs.Text.Utf8

/-!
# Stated and meant paths

A link to a file states a path by moves from a directory: from the root, if it is rooted, and from
the directory of its document otherwise.  Slashes at its beginning count no more than that.  The
path that the link means has the components that the moves give, either as they are written or
resolved by names alone.
-/

namespace MarkdownLinks

namespace Path

theorem isAbsolute_ofText_iff {t : Text} :
    (ofText t).isAbsolute = true ↔ t.head? = some '/' := by
  cases t with
  | nil => simp [ofText, Utf8.encode, isAbsolute]
  | cons c rest =>
    constructor
    · intro absolute
      rcases isAbsolute_iff.1 absolute with ⟨more, written⟩
      have decoded : Utf8.decode (slash :: more) = (c :: rest).map .scalar := by
        rw [← written]
        exact Utf8.decode_encode (c :: rest)
      rw [Utf8.decode, Utf8.decodeAfter_single (by decide)] at decoded
      simp only [List.map_cons, List.cons.injEq, Utf8.Piece.scalar.injEq] at decoded
      rw [List.head?_cons, ← decoded.1]
      rfl
    · intro isSlash
      cases isSlash
      rfl

theorem isAbsolute_ofText_dropWhile (t : Text) :
    (ofText (t.dropWhile (· == '/'))).isAbsolute = false := by
  apply Bool.eq_false_iff.2
  intro absolute
  have first := isAbsolute_ofText_iff.1 absolute
  have notSlash := List.head?_dropWhile_not (· == '/') t
  simp [first] at notSlash

/-- Slashes at the beginning of a path make no moves. -/
theorem exists_moves_ofText (t : Text) :
    ∃ count, (ofText t).moves =
      List.replicate count .stay ++ (ofText (t.dropWhile (· == '/'))).moves := by
  induction t with
  | nil => exact ⟨0, rfl⟩
  | cons c rest ih =>
    by_cases isSlash : c = '/'
    · subst isSlash
      rcases ih with ⟨count, moves⟩
      have first : (ofText ('/' :: rest)).moves = .stay :: (ofText rest).moves := by
        have written : ofText ('/' :: rest) = ⟨slash :: Utf8.encode rest⟩ := rfl
        rw [written, Path.moves, segments_of_slash]
        rfl
      refine ⟨count + 1, ?_⟩
      rw [first, moves]
      rfl
    · refine ⟨0, ?_⟩
      simp [isSlash]

end Path

namespace Move

/-- The components, after the root, of the path that moves from a directory mean. -/
def meant (rooted : Bool) (start : List Name) (moves : List Move) : List Component :=
  if rooted then start.map .name ++ moves.filterMap Component.ofMove?
  else (lexical start moves).map .name

section Meant

variable {rooted : Bool} {start : List Name} {moves : List Move}

theorem filterMap_into (names : List Name) :
    (names.map Move.into).filterMap Component.ofMove? = names.map .name := by
  rw [← Component.map_move_names, Component.filterMap_move (Component.isStep_names names)]

theorem isStep_of_mem_meant : ∀ c ∈ meant rooted start moves, c.IsStep := by
  intro c mem
  rw [meant] at mem
  split at mem
  · rcases List.mem_append.1 mem with isName | given
    · exact Component.isStep_names start c isName
    · rcases List.mem_filterMap.1 given with ⟨move, -, isComponent⟩
      exact Component.isStep_of_ofMove? isComponent
  · exact Component.isStep_names _ c mem

theorem meant_concat_into (name : Name) :
    meant rooted start (moves ++ [.into name]) = meant rooted start moves ++ [.name name] := by
  cases rooted with
  | true => simp [meant, Component.ofMove?]
  | false => simp [meant, lexical_append, lexical]

theorem meant_concat_stay :
    meant rooted start (moves ++ [.stay]) = meant rooted start moves := by
  cases rooted with
  | true => simp [meant, Component.ofMove?]
  | false => simp [meant, lexical_append, lexical]

theorem meant_concat_up :
    meant rooted start (moves ++ [.up]) =
      if rooted then meant rooted start moves ++ [.parent]
      else (meant rooted start moves).dropLast := by
  cases rooted with
  | true => simp [meant, Component.ofMove?]
  | false => simp [meant, lexical_append, lexical]

end Meant

end Move

namespace Inspector

section Stated

variable {inspector : Inspector} {base outer : List Name} {last : Name}

/-- The names of the directory from which a link's moves are made. -/
def startOf (base outer : List Name) (file : Text) : List Name :=
  if file.head? = some '/' then base else outer

theorem statedPath_ofNames (root : inspector.root = .ofNames base) (file : Text) :
    inspector.statedPath (.ofNames (outer ++ [last])) file =
      (Path.ofNames (startOf base outer file)).join (.ofText (file.dropWhile (· == '/'))) := by
  by_cases rooted : file.head? = some '/'
  · rcases List.head?_eq_some_iff.1 rooted with ⟨rest, rfl⟩
    rw [startOf, if_pos rooted, ← root]
    rfl
  · rw [statedPath_of_notRooted rooted, Path.parent?_ofNames, startOf, if_neg rooted,
      dropWhile_slash_of_notRooted rooted, Option.getD_some]

theorem moves_statedPath (root : inspector.root = .ofNames base) (file : Text) :
    (inspector.statedPath (.ofNames (outer ++ [last])) file).moves =
      .stay :: (startOf base outer file).map .into ++
        (Path.ofText (file.dropWhile (· == '/'))).moves := by
  rw [statedPath_ofNames root]
  exact Path.moves_join_ofNames _ (Path.isAbsolute_ofText_dropWhile file)

theorem isAbsolute_statedPath_ofNames (root : inspector.root = .ofNames base) (file : Text) :
    (inspector.statedPath (.ofNames (outer ++ [last])) file).isAbsolute = true :=
  isAbsolute_statedPath (root ▸ (Path.isTidy_ofNames base).isAbsolute)
    (Path.isTidy_ofNames _).isAbsolute file

/-- Where the disk does not matter, the path that a link means is that of its moves. -/
theorem targetPath_eq_meant_of_settled (root : inspector.root = .ofNames base) {file : Text}
    (settled : ∀ path,
      inspector.disk.canonical (inspector.statedPath (.ofNames (outer ++ [last])) file) = .ok path →
        path = (inspector.statedPath (.ofNames (outer ++ [last])) file).normalize) :
    inspector.targetPath (.ofNames (outer ++ [last])) file =
      .ofComponents (.root :: Move.meant (file.head? == some '/') (startOf base outer file)
        (Path.ofText (file.dropWhile (· == '/'))).moves) := by
  have stated := @isAbsolute_statedPath_ofNames inspector base outer last root file
  rw [targetPath_of_settled settled]
  split
  · next isRooted =>
    rw [Path.components_of_isAbsolute stated, moves_statedPath root, List.cons_append,
      List.filterMap_cons_none rfl, List.filterMap_append, Move.filterMap_into]
    simp [Move.meant, isRooted]
  · next notRooted =>
    rw [Path.normalize_of_isAbsolute stated, moves_statedPath root]
    simp [Move.meant, notRooted, Move.lexical, Move.lexical_append, Path.lexical_names,
      Path.ofNames]

theorem targetPath_eq_meant (linkFree : inspector.disk.LinkFree)
    (root : inspector.root = .ofNames base) (file : Text) :
    inspector.targetPath (.ofNames (outer ++ [last])) file =
      .ofComponents (.root :: Move.meant (file.head? == some '/') (startOf base outer file)
        (Path.ofText (file.dropWhile (· == '/'))).moves) := by
  apply targetPath_eq_meant_of_settled root
  intro path canonical
  exact linkFree.canonical_eq (isAbsolute_statedPath_ofNames root file) canonical

end Stated

end Inspector

end MarkdownLinks
