import MarkdownLinks.Proofs.Text.Pieces
import MarkdownLinks.Path.Basic

/-!
# Tidy paths

Many texts have the same components.  A tidy path is absolute and written as its components are
written, so that among tidy paths the components determine the text.  Paths that were made
canonical, normalized or put together from components are tidy.
-/

namespace MarkdownLinks

namespace Name

theorem bytes_ne_nil (name : Name) : name.bytes ≠ [] := by
  have valid := name.valid
  simp only [isName, Bool.and_eq_true, bne_iff_ne] at valid
  exact valid.1.1.1

theorem bytes_ne_dot (name : Name) : name.bytes ≠ [dot] := by
  have valid := name.valid
  simp only [isName, Bool.and_eq_true, bne_iff_ne] at valid
  exact valid.1.1.2

theorem bytes_ne_dots (name : Name) : name.bytes ≠ [dot, dot] := by
  have valid := name.valid
  simp only [isName, Bool.and_eq_true, bne_iff_ne] at valid
  exact valid.1.2

theorem slash_not_mem (name : Name) : slash ∉ name.bytes := by
  have valid := name.valid
  simp only [isName, Bool.and_eq_true] at valid
  simpa using valid.2

theorem ofBytes?_eq_some_iff {bytes : Bytes} {name : Name} :
    ofBytes? bytes = some name ↔ bytes = name.bytes := by
  unfold ofBytes?
  split
  · next valid =>
    simp only [Option.some.injEq]
    constructor
    · rintro rfl
      rfl
    · rintro rfl
      rfl
  · next invalid =>
    constructor
    · intro impossible
      cases impossible
    · rintro rfl
      exact absurd name.valid invalid

end Name

namespace Move

@[simp]
theorem ofSegment_nil : ofSegment [] = .stay := rfl

@[simp]
theorem ofSegment_name (name : Name) : ofSegment name.bytes = .into name := by
  have valid : Name.ofBytes? name.bytes = some name := Name.ofBytes?_eq_some_iff.2 rfl
  simp only [ofSegment, if_neg name.bytes_ne_dots, valid]

theorem ofSegment_eq_into_iff {segment : Bytes} {name : Name} :
    ofSegment segment = .into name ↔ segment = name.bytes := by
  constructor
  · intro moves
    unfold ofSegment at moves
    split at moves
    · cases moves
    · split at moves
      · next found =>
        cases moves
        exact Name.ofBytes?_eq_some_iff.1 found
      · cases moves
  · rintro rfl
    exact ofSegment_name name

/-- Where moves lead from a directory if every name on the way is that of a directory. -/
def lexical (here : List Name) : List Move → List Name
  | [] => here
  | .stay :: rest => lexical here rest
  | .up :: rest => lexical here.dropLast rest
  | .into name :: rest => lexical (here ++ [name]) rest

end Move

namespace Component

/-- Whether a component can stand after the root. -/
def IsStep : Component → Prop
  | .root => False
  | .here => False
  | .parent => True
  | .name _ => True

/-- The move that a component makes. -/
def move : Component → Move
  | .root => .stay
  | .here => .stay
  | .parent => .up
  | .name n => .into n

theorem ofSegment_bytes {component : Component} (step : component.IsStep) :
    Move.ofSegment component.bytes = component.move := by
  cases component with
  | root => exact step.elim
  | here => exact step.elim
  | parent => rfl
  | name n => exact Move.ofSegment_name n

theorem ofMove?_move {component : Component} (step : component.IsStep) :
    ofMove? component.move = some component := by
  cases component with
  | root => exact step.elim
  | here => exact step.elim
  | parent => rfl
  | name n => rfl

theorem filterMap_move {steps : List Component} (areSteps : ∀ c ∈ steps, c.IsStep) :
    (steps.map move).filterMap ofMove? = steps := by
  induction steps with
  | nil => rfl
  | cons component rest ih =>
    rw [List.map_cons, List.filterMap_cons_some (ofMove?_move (areSteps _ List.mem_cons_self)),
      ih fun c mem => areSteps c (List.mem_cons_of_mem component mem)]

theorem isStep_of_ofMove? {move : Move} {component : Component}
    (given : ofMove? move = some component) : component.IsStep := by
  cases move <;> simp only [ofMove?, Option.some.injEq, reduceCtorEq] at given <;>
    subst given <;> trivial

theorem bytes_ne_nil (component : Component) : component.bytes ≠ [] := by
  cases component with
  | name n => exact n.bytes_ne_nil
  | _ => simp [bytes]

theorem bytes_ne_dot {component : Component} (step : component.IsStep) :
    component.bytes ≠ [dot] := by
  cases component with
  | root => exact step.elim
  | here => exact step.elim
  | parent => decide
  | name n => exact n.bytes_ne_dot

theorem slash_not_mem_bytes {component : Component} (step : component.IsStep) :
    slash ∉ component.bytes := by
  cases component with
  | root => exact step.elim
  | here => exact step.elim
  | parent => decide
  | name n => exact n.slash_not_mem

theorem isStep_names (names : List Name) : ∀ c ∈ names.map Component.name, c.IsStep := by
  intro component mem
  rcases List.mem_map.1 mem with ⟨name, -, rfl⟩
  trivial

theorem isStep_concat_name {outer : List Component} {last : Component}
    (areSteps : ∀ c ∈ outer ++ [last], c.IsStep) (name : Name) :
    ∀ c ∈ outer ++ [.name name], c.IsStep :=
  List.forall_mem_append.2 ⟨(List.forall_mem_append.1 areSteps).1, isStep_names [name]⟩

theorem map_move_names (names : List Name) :
    (names.map Component.name).map move = names.map .into := by
  rw [List.map_map]
  rfl

end Component

namespace Path

theorem isAbsolute_iff {p : Path} : p.isAbsolute = true ↔ ∃ rest, p.bytes = slash :: rest := by
  rcases p with ⟨bytes⟩
  cases bytes with
  | nil => simp [isAbsolute]
  | cons b rest => simp [isAbsolute]

theorem segments_of_slash (rest : Bytes) :
    segments ⟨slash :: rest⟩ = [] :: splitAtEach slash rest := by
  simp [segments, splitAtEach]

theorem moves_append_cons_slash (front rest : Bytes) :
    moves ⟨front ++ slash :: rest⟩ = moves ⟨front⟩ ++ moves ⟨rest⟩ := by
  simp only [moves, segments, splitAtEach_append, List.map_append]

/-- After the root, an absolute path has one component for each move that counts. -/
theorem components_of_isAbsolute {p : Path} (absolute : p.isAbsolute = true) :
    p.components = .root :: p.moves.filterMap Component.ofMove? := by
  rcases isAbsolute_iff.1 absolute with ⟨rest, written⟩
  rcases p with ⟨bytes⟩
  obtain rfl : bytes = slash :: rest := written
  simp only [components, pieces, moves, segments_of_slash, absolute, ↓reduceIte,
    List.filterMap_cons, List.filterMap_map, List.map_cons, Move.ofSegment_nil, Component.ofMove?]
  rfl

/-- A relative path has one component for each move that counts, and one for a `.` at the
beginning. -/
theorem components_of_relative {p : Path} (relative : p.isAbsolute = false) :
    p.components = (if p.segments.head? = some [dot] then [.here] else []) ++
      p.moves.filterMap Component.ofMove? := by
  have cut : ∃ first rest, p.segments = first :: rest :=
    List.exists_cons_of_ne_nil (splitAtEach_ne_nil p.bytes)
  rcases cut with ⟨first, rest, segments⟩
  have later : (rest.map fun segment =>
      (segment, Component.ofMove? (Move.ofSegment segment))).filterMap Prod.snd =
        (rest.map Move.ofSegment).filterMap Component.ofMove? := by
    rw [List.filterMap_map, List.filterMap_map]
    rfl
  simp only [components, pieces, moves, segments, relative, List.head?_cons]
  by_cases isDot : first = [dot]
  · have stays : Component.ofMove? (Move.ofSegment [dot]) = none := rfl
    simp [isDot, stays, later]
  · simp [isDot, List.filterMap_cons, later]

/-- After the root, an absolute path has only names and `..`. -/
theorem exists_steps {p : Path} (absolute : p.isAbsolute = true) :
    ∃ steps : List Component, (∀ c ∈ steps, c.IsStep) ∧ p.components = .root :: steps := by
  refine ⟨_, ?_, components_of_isAbsolute absolute⟩
  intro component mem
  rcases List.mem_filterMap.1 mem with ⟨move, -, given⟩
  exact Component.isStep_of_ofMove? given

/-- Only the first component of a path can be the root or `.`. -/
theorem isStep_of_mem_tail_components (p : Path) : ∀ c ∈ p.components.tail, c.IsStep := by
  intro component mem
  have given : component ∈ p.moves.filterMap Component.ofMove? := by
    cases absolute : p.isAbsolute with
    | true =>
      rw [components_of_isAbsolute absolute] at mem
      exact mem
    | false =>
      rw [components_of_relative absolute] at mem
      split at mem
      · exact mem
      · exact List.mem_of_mem_tail mem
  rcases List.mem_filterMap.1 given with ⟨move, -, isComponent⟩
  exact Component.isStep_of_ofMove? isComponent

theorem eq_nil_of_components_concat {p : Path} {outer : List Component} {last : Component}
    (components : p.components = outer ++ [last]) (notStep : ¬ last.IsStep) : outer = [] := by
  have tailSteps := isStep_of_mem_tail_components p
  rw [components] at tailSteps
  cases outer with
  | nil => rfl
  | cons first rest => exact absurd (tailSteps last (by simp)) notStep

section Written

variable {steps : List Component}

theorem isAbsolute_ofComponents (steps : List Component) :
    (ofComponents (.root :: steps)).isAbsolute = true :=
  isAbsolute_iff.2 ⟨_, rfl⟩

theorem splitAtEach_steps (areSteps : ∀ c ∈ steps, c.IsStep) (nonempty : steps ≠ []) :
    splitAtEach slash ([slash].intercalate (steps.map Component.bytes)) =
      steps.map Component.bytes := by
  apply splitAtEach_intercalate
  · simpa using nonempty
  · intro segment mem
    rcases List.mem_map.1 mem with ⟨component, componentMem, rfl⟩
    exact Component.slash_not_mem_bytes (areSteps component componentMem)

theorem map_ofSegment_steps (areSteps : ∀ c ∈ steps, c.IsStep) :
    (steps.map Component.bytes).map Move.ofSegment = steps.map Component.move := by
  simp only [List.map_map]
  apply List.map_congr_left
  intro component mem
  exact Component.ofSegment_bytes (areSteps component mem)

/-- The segments after the root are those of the steps; the root alone has one empty segment. -/
theorem segments_ofComponents (areSteps : ∀ c ∈ steps, c.IsStep) (nonempty : steps ≠ []) :
    (ofComponents (.root :: steps)).segments = [] :: steps.map Component.bytes := by
  simp only [ofComponents, segments_of_slash, splitAtEach_steps areSteps nonempty]

theorem moves_ofComponents (areSteps : ∀ c ∈ steps, c.IsStep) (nonempty : steps ≠ []) :
    (ofComponents (.root :: steps)).moves = .stay :: steps.map Component.move := by
  simp only [moves, segments_ofComponents areSteps nonempty, List.map_cons, Move.ofSegment_nil,
    map_ofSegment_steps areSteps]

theorem filterMap_moves_ofComponents (areSteps : ∀ c ∈ steps, c.IsStep) :
    (ofComponents (.root :: steps)).moves.filterMap Component.ofMove? = steps := by
  by_cases nonempty : steps = []
  · subst nonempty
    rfl
  · rw [moves_ofComponents areSteps nonempty, List.filterMap_cons_none rfl,
      Component.filterMap_move areSteps]

theorem components_ofComponents (areSteps : ∀ c ∈ steps, c.IsStep) :
    (ofComponents (.root :: steps)).components = .root :: steps := by
  rw [components_of_isAbsolute (isAbsolute_ofComponents steps),
    filterMap_moves_ofComponents areSteps]

theorem ofComponents_steps (areSteps : ∀ c ∈ steps, c.IsStep) :
    ofComponents steps = ⟨[slash].intercalate (steps.map Component.bytes)⟩ := by
  cases steps with
  | nil => rfl
  | cons first rest =>
    have firstStep : first.IsStep := areSteps first List.mem_cons_self
    cases first with
    | root => exact firstStep.elim
    | here => exact firstStep.elim
    | parent => rfl
    | name n => rfl

theorem isAbsolute_steps (areSteps : ∀ c ∈ steps, c.IsStep) :
    (ofComponents steps).isAbsolute = false := by
  simp only [ofComponents_steps areSteps]
  cases steps with
  | nil => rfl
  | cons first rest =>
    have firstStep : first.IsStep := areSteps first List.mem_cons_self
    rcases List.exists_cons_of_ne_nil (Component.bytes_ne_nil first) with ⟨b, more, written⟩
    have notSlash : b ≠ slash := by
      rintro rfl
      exact Component.slash_not_mem_bytes firstStep (written ▸ List.mem_cons_self)
    cases rest <;> simp [isAbsolute, written, notSlash]

theorem segments_steps (areSteps : ∀ c ∈ steps, c.IsStep) (nonempty : steps ≠ []) :
    (ofComponents steps).segments = steps.map Component.bytes := by
  simp only [ofComponents_steps areSteps, segments, splitAtEach_steps areSteps nonempty]

theorem moves_steps (areSteps : ∀ c ∈ steps, c.IsStep) (nonempty : steps ≠ []) :
    (ofComponents steps).moves = steps.map Component.move := by
  simp only [moves, segments_steps areSteps nonempty, map_ofSegment_steps areSteps]

theorem filterMap_moves_steps (areSteps : ∀ c ∈ steps, c.IsStep) :
    (ofComponents steps).moves.filterMap Component.ofMove? = steps := by
  by_cases nonempty : steps = []
  · subst nonempty
    rfl
  · rw [moves_steps areSteps nonempty, Component.filterMap_move areSteps]

theorem components_steps (areSteps : ∀ c ∈ steps, c.IsStep) :
    (ofComponents steps).components = steps := by
  rw [components_of_relative (isAbsolute_steps areSteps), filterMap_moves_steps areSteps]
  cases steps with
  | nil => rfl
  | cons first rest =>
    have notDot : first.bytes ≠ [dot] := Component.bytes_ne_dot (areSteps first List.mem_cons_self)
    simp [segments_steps areSteps, notDot]

/-- The components that a path was written with are read back from it. -/
theorem components_ofComponents_of_tail {components : List Component}
    (areSteps : ∀ c ∈ components.tail, c.IsStep) :
    (ofComponents components).components = components := by
  rcases components with _ | ⟨first, steps⟩
  · rfl
  rw [List.tail_cons] at areSteps
  cases first with
  | root => exact components_ofComponents areSteps
  | here =>
    have segments : (ofComponents (.here :: steps)).segments =
        [dot] :: steps.map Component.bytes := by
      apply splitAtEach_intercalate (List.cons_ne_nil _ _)
      rw [List.forall_mem_cons, List.forall_mem_map]
      exact ⟨by decide, fun c mem => Component.slash_not_mem_bytes (areSteps c mem)⟩
    have relative : (ofComponents (.here :: steps)).isAbsolute = false := by
      cases steps <;> rfl
    rw [components_of_relative relative, moves, segments, List.map_cons,
      map_ofSegment_steps areSteps, List.filterMap_cons_none rfl,
      Component.filterMap_move areSteps]
    rfl
  | parent => exact components_steps (List.forall_mem_cons.2 ⟨trivial, areSteps⟩)
  | name n => exact components_steps (List.forall_mem_cons.2 ⟨trivial, areSteps⟩)

theorem components_ofComponents_components (p : Path) :
    (ofComponents p.components).components = p.components :=
  components_ofComponents_of_tail (isStep_of_mem_tail_components p)

end Written

/-- Whether a path is absolute and written as its components are written. -/
def IsTidy (p : Path) : Prop :=
  ∃ steps : List Component, (∀ c ∈ steps, c.IsStep) ∧ p = ofComponents (.root :: steps)

namespace IsTidy

theorem isAbsolute {p : Path} (tidy : p.IsTidy) : p.isAbsolute = true := by
  rcases tidy with ⟨steps, -, rfl⟩
  exact isAbsolute_ofComponents steps

theorem ofComponents_components {p : Path} (tidy : p.IsTidy) :
    ofComponents p.components = p := by
  rcases tidy with ⟨steps, areSteps, rfl⟩
  simp only [components_ofComponents areSteps]

/-- Tidy paths with the same components are written in the same way. -/
theorem eq_of_components_eq {p q : Path} (pTidy : p.IsTidy) (qTidy : q.IsTidy)
    (same : p.components = q.components) : p = q := by
  rw [← pTidy.ofComponents_components, same, qTidy.ofComponents_components]

end IsTidy

theorem isTidy_ofComponents_components {p : Path} (absolute : p.isAbsolute = true) :
    (ofComponents p.components).IsTidy := by
  rcases exists_steps absolute with ⟨steps, areSteps, written⟩
  exact ⟨steps, areSteps, by rw [written]⟩

theorem isTidy_ofNames (names : List Name) : (ofNames names).IsTidy :=
  ⟨names.map .name, Component.isStep_names names, rfl⟩

/-- A segment after the root makes a tidy path if it is a name. -/
theorem isTidy_cons_slash {segment : Bytes} {name : Name} (noSlash : slash ∉ segment)
    (named : fileName? ⟨slash :: segment⟩ = some name) : IsTidy ⟨slash :: segment⟩ := by
  rw [fileName?, components_of_isAbsolute (isAbsolute_iff.2 ⟨_, rfl⟩), moves, segments_of_slash,
    splitAtEach_of_not_mem noSlash] at named
  cases moved : Move.ofSegment segment with
  | stay => simp [moved, List.filterMap_cons, Component.ofMove?] at named
  | up => simp [moved, List.filterMap_cons, Component.ofMove?] at named
  | into own =>
    refine ⟨[.name own], Component.isStep_names [own], ?_⟩
    rw [Move.ofSegment_eq_into_iff.1 moved]
    simp [ofComponents, Component.bytes]

theorem isAbsolute_join {p q : Path} (absolute : p.isAbsolute = true) :
    (p.join q).isAbsolute = true := by
  rcases isAbsolute_iff.1 absolute with ⟨rest, written⟩
  unfold join
  split
  · assumption
  · split <;> exact isAbsolute_iff.2 ⟨_, by rw [written, List.cons_append]⟩

section Extension

/-- The extension is what stands after the last full stop of the name, if something stands before
it. -/
theorem extension?_eq_some_iff {p : Path} {ext : Bytes} :
    p.extension? = some ext ↔ ∃ name before, p.fileName? = some name ∧
      name.bytes = before ++ dot :: ext ∧ before ≠ [] ∧ dot ∉ ext := by
  simp only [extension?, Option.bind_eq_bind, Option.bind_eq_some_iff]
  constructor
  · rintro ⟨name, named, ⟨after, before⟩, split, taken⟩
    rcases splitAtFirst?_eq_some_iff.1 split with ⟨reversed, absent⟩
    simp only [Option.ite_none_left_eq_some, Option.pure_def, Option.some.injEq,
      List.isEmpty_iff] at taken
    rcases taken with ⟨beforeNe, rfl⟩
    refine ⟨name, before.reverse, named, ?_, by simpa using beforeNe, by simpa using absent⟩
    have written := congrArg List.reverse reversed
    simpa using written
  · rintro ⟨name, before, named, written, beforeNe, absent⟩
    refine ⟨name, named, (ext.reverse, before.reverse), ?_, by simpa using beforeNe⟩
    exact splitAtFirst?_eq_some_iff.2 ⟨by simp [written], by simpa using absent⟩

theorem slash_not_mem_of_extension? {p : Path} {ext : Bytes} (found : p.extension? = some ext) :
    slash ∉ ext := by
  rcases extension?_eq_some_iff.1 found with ⟨name, before, -, written, -, -⟩
  intro mem
  apply name.slash_not_mem
  rw [written]
  exact List.mem_append_right before (List.mem_cons_of_mem dot mem)

/-- What stands at the end of a path, with a full stop and more bytes after it, is a name. -/
theorem exists_name_dotted {component : Component} (step : component.IsStep) {ext : Bytes}
    (noSlash : slash ∉ ext) : ∃ name : Name, name.bytes = component.bytes ++ dot :: ext := by
  refine ⟨⟨component.bytes ++ dot :: ext, ?_⟩, rfl⟩
  have own : slash ∉ component.bytes := Component.slash_not_mem_bytes step
  have notDot : slash ≠ dot := by decide
  have bytesNe : component.bytes ≠ [] ∧ component.bytes ≠ [dot] :=
    ⟨component.bytes_ne_nil, Component.bytes_ne_dot step⟩
  generalize component.bytes = bytes at own bytesNe
  match bytes with
  | [] => exact absurd rfl bytesNe.1
  | [b] => simp_all [isName]
  | b :: c :: rest => simp_all [isName]

end Extension

theorem isAbsolute_of_parent? {p parent : Path} (absolute : p.isAbsolute = true)
    (found : p.parent? = some parent) : parent.isAbsolute = true := by
  rcases exists_steps absolute with ⟨steps, -, written⟩
  simp only [parent?, written] at found
  cases steps with
  | nil => simp at found
  | cons step more =>
    simp only [List.getLast?_cons_cons] at found
    split at found
    · cases found
    · cases found
    · cases found
      simp only [List.dropLast_cons_cons]
      exact isAbsolute_ofComponents _

end Path

end MarkdownLinks
