import MarkdownLinks.Proofs.Path.Tidy

/-!
# Positions

Reading a path by names alone, one is always below the root, or some directories up from where the
path starts and some names down from there.  Normalizing a path keeps this position on its stack and
writes it down at the end.  So paths to one position are normalized alike, and what comes after a
path counts from its position only.
-/

namespace MarkdownLinks

/-- Where one is while reading a path by names alone. -/
inductive Position where
  | fromRoot (down : List Name)
  /-- So many directories up from where the path starts, and down from there. -/
  | fromStart (up : Nat) (down : List Name)
  deriving DecidableEq

namespace Position

/-- Where one is before the first move of a path. -/
def before (absolute : Bool) : Position :=
  if absolute then .fromRoot [] else .fromStart 0 []

/-- Where a move leads.  The directory above the root is the root. -/
def after : Position → Move → Position
  | position, .stay => position
  | .fromRoot down, .up => .fromRoot down.dropLast
  | .fromRoot down, .into name => .fromRoot (down ++ [name])
  | .fromStart up down, .up =>
    if down = [] then .fromStart (up + 1) [] else .fromStart up down.dropLast
  | .fromStart up down, .into name => .fromStart up (down ++ [name])

/-- Some names further down. -/
def below : Position → List Name → Position
  | .fromRoot down, names => .fromRoot (down ++ names)
  | .fromStart up down, names => .fromStart up (down ++ names)

/-- The components that lead to a position. -/
def components : Position → List Component
  | .fromRoot down => .root :: down.map .name
  | .fromStart up down => List.replicate up .parent ++ down.map .name

def path (position : Position) : Path :=
  .ofComponents position.components

theorem here_not_mem_components (position : Position) : .here ∉ position.components := by
  cases position <;> simp [components]

theorem isStep_fromStart (up : Nat) (down : List Name) :
    ∀ c ∈ (fromStart up down).components, c.IsStep := by
  intro component mem
  rcases List.mem_append.1 mem with isParent | isName
  · rw [List.eq_of_mem_replicate isParent]
    trivial
  · exact Component.isStep_names down component isName

theorem components_path (position : Position) : position.path.components = position.components := by
  cases position with
  | fromRoot down => exact Path.components_ofComponents (Component.isStep_names down)
  | fromStart up down => exact Path.components_steps (isStep_fromStart up down)

section Stack

/-- The stack of components that stands for a position. -/
def stack (position : Position) : List Component :=
  position.components.reverse

theorem stack_fromRoot (down : List Name) :
    (fromRoot down).stack = (down.map .name).reverse ++ [.root] := by
  simp [stack, components]

theorem stack_fromStart (up : Nat) (down : List Name) :
    (fromStart up down).stack = (down.map .name).reverse ++ List.replicate up .parent := by
  simp [stack, components]

/-- Pushing the component that a move gives leads where the move leads. -/
theorem stack_after (position : Position) (move : Move) :
    (position.after move).stack =
      match Component.ofMove? move with
      | some component => Path.pushNormal position.stack component
      | none => position.stack := by
  cases position with
  | fromRoot down =>
    cases move with
    | stay => rfl
    | into name => simp [stack_fromRoot, after, Component.ofMove?, Path.pushNormal]
    | up =>
      rcases down.eq_nil_or_concat with rfl | ⟨outer, last, rfl⟩
      · rfl
      · simp [stack_fromRoot, after, Component.ofMove?, Path.pushNormal]
  | fromStart up down =>
    cases move with
    | stay => rfl
    | into name => simp [stack_fromStart, after, Component.ofMove?, Path.pushNormal]
    | up =>
      rcases down.eq_nil_or_concat with rfl | ⟨outer, last, rfl⟩
      · -- No name is left to be taken off, so that `..` stays on the stack.
        have alone (count : Nat) : (fromStart count []).stack = List.replicate count .parent := by
          simp [stack_fromStart]
        change (fromStart (up + 1) []).stack = Path.pushNormal (fromStart up []).stack .parent
        rw [alone, alone]
        cases up <;> rfl
      · simp [stack_fromStart, after, Component.ofMove?, Path.pushNormal]

theorem foldl_pushNormal (position : Position) (moves : List Move) :
    (moves.filterMap Component.ofMove?).foldl Path.pushNormal position.stack =
      (moves.foldl after position).stack := by
  induction moves generalizing position with
  | nil => rfl
  | cons move rest ih =>
    rw [List.foldl_cons, ← ih, stack_after]
    cases given : Component.ofMove? move with
    | none => rw [List.filterMap_cons_none given]
    | some component => rw [List.filterMap_cons_some given, List.foldl_cons]

end Stack

section Moves

theorem foldl_after_into (position : Position) (names : List Name) :
    (names.map .into).foldl after position = position.below names := by
  induction names generalizing position with
  | nil => cases position <;> simp [below]
  | cons name rest ih => cases position <;> simp [below, after, ih]

theorem foldl_after_up (up count : Nat) :
    (List.replicate count .up).foldl after (.fromStart up []) = .fromStart (up + count) [] := by
  induction count generalizing up with
  | zero => rfl
  | succ count ih => simp [List.replicate_succ, after, ih, Nat.add_assoc, Nat.add_comm 1 count]

/-- Moves that stay lead nowhere. -/
theorem foldl_after_eq (position : Position) (moves : List Move) :
    moves.foldl after position =
      ((moves.filterMap Component.ofMove?).map Component.move).foldl after position := by
  induction moves generalizing position with
  | nil => rfl
  | cons move rest ih =>
    cases move with
    | stay => exact ih position
    | up => exact ih (position.after .up)
    | into name => exact ih (position.after (.into name))

/-- Below the root, moves lead where they lead if every name on the way is that of a directory. -/
theorem foldl_after_fromRoot (down : List Name) (moves : List Move) :
    moves.foldl after (.fromRoot down) = .fromRoot (Move.lexical down moves) := by
  induction moves generalizing down with
  | nil => rfl
  | cons move rest ih => cases move <;> exact ih _

/-- A path that starts outside the root does not come to it. -/
theorem exists_foldl_after_fromStart (up : Nat) (down : List Name) (moves : List Move) :
    ∃ furtherUp furtherDown, moves.foldl after (.fromStart up down) =
      .fromStart furtherUp furtherDown := by
  induction moves generalizing up down with
  | nil => exact ⟨up, down, rfl⟩
  | cons move rest ih =>
    cases move with
    | stay => exact ih up down
    | into name => exact ih up (down ++ [name])
    | up =>
      by_cases noName : down = []
      · simp only [List.foldl_cons, after, if_pos noName]
        exact ih (up + 1) []
      · simp only [List.foldl_cons, after, if_neg noName]
        exact ih up down.dropLast

end Moves

end Position

namespace Path

variable {p q : Path}

/-- Where a path leads by names alone. -/
def position (p : Path) : Position :=
  p.moves.foldl Position.after (.before p.isAbsolute)

/-- Normalizing a path gives the path to its position. -/
theorem normalize_eq (p : Path) : p.normalize = p.position.path := by
  have stack : p.components.foldl pushNormal [] = p.position.stack := by
    rw [position, ← Position.foldl_pushNormal]
    cases absolute : p.isAbsolute with
    | true =>
      rw [components_of_isAbsolute absolute, List.foldl_cons]
      rfl
    | false =>
      rw [components_of_relative absolute, List.foldl_append]
      split <;> rfl
  rw [normalize, stack, Position.stack, List.reverse_reverse, Position.path]

/-- An absolute path is normalized to where its moves lead by the names alone. -/
theorem normalize_of_isAbsolute (absolute : p.isAbsolute = true) :
    p.normalize = ofNames (Move.lexical [] p.moves) := by
  rw [normalize_eq, position, absolute]
  exact congrArg Position.path (Position.foldl_after_fromRoot [] p.moves)

/-- The path to a position leads there. -/
theorem position_path (position : Position) : position.path.position = position := by
  cases position with
  | fromRoot down =>
    have areSteps := Component.isStep_names down
    rw [Path.position, Position.path, Position.components, isAbsolute_ofComponents,
      Position.foldl_after_eq, filterMap_moves_ofComponents areSteps, Component.map_move_names]
    exact Position.foldl_after_into (.fromRoot []) down
  | fromStart up down =>
    have areSteps := Position.isStep_fromStart up down
    have goneUp : (List.replicate up Component.parent.move).foldl Position.after (.before false) =
        .fromStart up [] := by
      have gone := Position.foldl_after_up 0 up
      rwa [Nat.zero_add] at gone
    rw [Path.position, Position.path, isAbsolute_steps areSteps, Position.foldl_after_eq,
      filterMap_moves_steps areSteps, Position.components, List.map_append, List.map_replicate,
      Component.map_move_names, List.foldl_append, goneUp]
    exact Position.foldl_after_into (.fromStart up []) down

theorem position_normalize (p : Path) : p.normalize.position = p.position := by
  rw [normalize_eq, position_path]

section Join

variable (p)

/-- A relative path that is joined to a path adds its moves, but for some that stay. -/
theorem filterMap_moves_join (relative : q.isAbsolute = false) :
    (p.join q).moves.filterMap Component.ofMove? =
      p.moves.filterMap Component.ofMove? ++ q.moves.filterMap Component.ofMove? := by
  rcases p with ⟨bytes⟩
  rw [join, if_neg (by simp [relative])]
  split
  · next needsNoSlash =>
    rcases needsNoSlash with rfl | endsWithSlash
    · rfl
    · rcases List.getLast?_eq_some_iff.1 endsWithSlash with ⟨front, rfl⟩
      have staysAtEnd : (⟨[]⟩ : Path).moves.filterMap Component.ofMove? = [] := rfl
      rw [List.append_assoc, List.singleton_append, moves_append_cons_slash,
        moves_append_cons_slash, List.filterMap_append, List.filterMap_append, staysAtEnd,
        List.append_nil]
  · rw [moves_append_cons_slash, List.filterMap_append]

theorem isAbsolute_join_of_relative (relative : q.isAbsolute = false) :
    (p.join q).isAbsolute = p.isAbsolute := by
  rw [join, if_neg (by simp [relative])]
  rcases p with ⟨_ | ⟨b, rest⟩⟩
  · exact relative
  · split <;> rfl

/-- What comes after a path is read from where the path leads. -/
theorem position_join (relative : q.isAbsolute = false) :
    (p.join q).position = q.moves.foldl Position.after p.position := by
  rw [position, isAbsolute_join_of_relative p relative, position, ← List.foldl_append,
    Position.foldl_after_eq, filterMap_moves_join p relative, ← List.filterMap_append,
    ← Position.foldl_after_eq]

end Join

/-- A path is normalized to the path that leads to the same position.  It has no `.`, and `..` only
at the beginning of a relative path; normalizing it again changes nothing, and it stands for the
path wherever a relative path is joined to it. -/
theorem normalize_exact (p : Path) :
    p.normalize = p.position.path ∧ .here ∉ p.normalize.components ∧
      (p.isAbsolute = true →
        ∃ down : List Name, p.normalize.components = .root :: down.map .name) ∧
      (p.isAbsolute = false → ∃ (up : Nat) (down : List Name),
        p.normalize.components = List.replicate up .parent ++ down.map .name) ∧
      p.normalize.normalize = p.normalize ∧
      ∀ q : Path, q.isAbsolute = false →
        (p.join q).normalize = (p.normalize.join q).normalize := by
  have components : p.normalize.components = p.position.components := by
    rw [normalize_eq, Position.components_path]
  refine ⟨normalize_eq p, ?_, ?_, ?_, ?_, ?_⟩
  · rw [components]
    exact Position.here_not_mem_components p.position
  · intro absolute
    rw [components, position, absolute]
    exact ⟨_, congrArg Position.components (Position.foldl_after_fromRoot [] p.moves)⟩
  · intro relative
    rcases Position.exists_foldl_after_fromStart 0 [] p.moves with ⟨up, down, position⟩
    rw [components, Path.position, relative]
    exact ⟨up, down, congrArg Position.components position⟩
  · rw [normalize_eq p.normalize, position_normalize, normalize_eq p]
  · intro q relative
    rw [normalize_eq (p.join q), normalize_eq (p.normalize.join q), position_join p relative,
      position_join p.normalize relative, position_normalize]

end Path

end MarkdownLinks
