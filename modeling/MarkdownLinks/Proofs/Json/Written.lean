import Mathlib.Tactic.SplitIfs
import MarkdownLinks.Proofs.Json.Reader

/-!
# Written JSON is read back

A value that was written is read back wherever it stands, if no number goes on after it.  A value
is read one level at a time, its elements being read already, and the induction is on the bound for
the depth, for which the length of the text is always enough.
-/

namespace MarkdownLinks

namespace Json

section Pretty

theorem prettyItems_eq (level : Nat) (items : List Json) :
    prettyItems level items =
      [','].intercalate (items.map fun item => newLine level ++ item.pretty level) := by
  induction items with
  | nil => rfl
  | cons item rest ih =>
    cases rest with
    | nil => simp [prettyItems, List.intercalate]
    | cons next more => simp [prettyItems, List.intercalate, ih]

/-- A member on a line of its own. -/
def writeMember (level : Nat) (member : Text × Json) : Text :=
  newLine level ++ quote member.1 ++ [':', ' '] ++ member.2.pretty level

theorem prettyMembers_eq (level : Nat) (members : List (Text × Json)) :
    prettyMembers level members = [','].intercalate (members.map (writeMember level)) := by
  induction members with
  | nil => rfl
  | cons member rest ih =>
    cases rest with
    | nil => simp [prettyMembers, List.intercalate, writeMember]
    | cons next more => simp [prettyMembers, List.intercalate, writeMember, ih]

theorem pretty_array_append (level : Nat) (item : Json) (others : List Json) (rest : Text) :
    (Json.array (item :: others)).pretty level ++ rest =
      '[' :: ([','].intercalate ((item :: others).map fun item =>
        newLine (level + 1) ++ item.pretty (level + 1)) ++ (newLine level ++ ']' :: rest)) := by
  simp [pretty, prettyItems_eq]

theorem pretty_object_append (level : Nat) (member : Text × Json) (others : List (Text × Json))
    (rest : Text) :
    (Json.object (member :: others)).pretty level ++ rest =
      '{' :: ([','].intercalate ((member :: others).map (writeMember (level + 1))) ++
        (newLine level ++ '}' :: rest)) := by
  simp [pretty, prettyMembers_eq]

end Pretty

namespace Reader

variable {t rest : Text} {c : Char}

section Blanks

theorem skipBlanks_of_not_blank (notBlank : isBlank c = false) :
    skipBlanks (c :: rest) = c :: rest := by
  simp [skipBlanks, notBlank]

theorem skipBlanks_newLine (level : Nat) (t : Text) :
    skipBlanks (newLine level ++ t) = skipBlanks t := by
  have blank : ∀ c ∈ newLine level, isBlank c = true := by
    intro c mem
    rcases List.mem_cons.1 mem with rfl | mem
    · rfl
    · rw [(List.mem_replicate.1 mem).2]
      rfl
  exact List.dropWhile_append_of_pos blank

end Blanks

section Strings

theorem codeUnit_control : ∀ n < 0x20,
    number? 16 ['0', '0', hexDigit (n / 16), hexDigit (n % 16)] = some n := by
  decide

theorem unicode_control (control : c.toNat < 0x20) (rest : Text) :
    unicode ('0' :: '0' :: hexDigit (c.toNat / 16) :: hexDigit (c.toNat % 16) :: rest) =
      some (c, rest) := by
  have low : isLow c.toNat = false := by
    simp only [isLow, Bool.and_eq_false_iff, decide_eq_false_iff_not]
    omega
  have high : isHigh c.toNat = false := by
    simp only [isHigh, Bool.and_eq_false_iff, decide_eq_false_iff_not]
    omega
  simp only [unicode, codeUnit, codeUnit_control _ control, Option.map_some, Option.bind_eq_bind,
    Option.bind_some, low, high, Char.ofNat_toNat]
  rfl

/-- A written character is read back. -/
theorem character_escapeChar (c : Char) (rest : Text) :
    character (escapeChar c ++ rest) = some (c, rest) := by
  rw [escapeChar]
  split_ifs with quote backslash backspace tab line feed back control
  · rw [quote]; rfl
  · rw [backslash]; rfl
  · rw [backspace]; rfl
  · rw [tab]; rfl
  · rw [line]; rfl
  · rw [feed]; rfl
  · rw [back]; rfl
  · exact unicode_control control rest
  · have plain : ¬ (c = '"' ∨ c = '\\' ∨ c.toNat < 0x20) := by
      rintro (same | same | small)
      · exact quote same
      · exact backslash same
      · exact control small
    rw [List.singleton_append, character, if_neg plain]
    · intro _ same
      exact absurd same backslash
    · intro _ _ same
      exact absurd same backslash

theorem characters_of_character {bound : Nat} {others after : Text}
    (first : character t = some (c, rest)) (later : characters bound rest = some (others, after)) :
    characters (bound + 1) t = some (c :: others, after) := by
  rw [characters, first]
  · simp only [Option.bind_eq_bind, Option.bind_some, later]
    rfl
  · rintro after rfl
    cases first

theorem characters_escaped {bound : Nat} (within : t.length < bound) (rest : Text) :
    characters bound (t.flatMap escapeChar ++ '"' :: rest) = some (t, rest) := by
  induction t generalizing bound with
  | nil =>
    cases bound with
    | zero => exact absurd within (Nat.not_lt_zero _)
    | succ bound => rfl
  | cons c others ih =>
    cases bound with
    | zero => exact absurd within (Nat.not_lt_zero _)
    | succ bound =>
      rw [List.flatMap_cons, List.append_assoc]
      exact characters_of_character (character_escapeChar c _) (ih (Nat.lt_of_succ_lt_succ within))

theorem length_le_length_escaped (t : Text) : t.length ≤ (t.flatMap escapeChar).length := by
  induction t with
  | nil => exact Nat.le_refl 0
  | cons c others ih =>
    have nonempty : 0 < (escapeChar c).length := by
      apply List.length_pos_iff.2
      intro empty
      have first := character_escapeChar c []
      rw [empty] at first
      cases first
    rw [List.flatMap_cons, List.length_append, List.length_cons]
    omega

/-- A written string is read back, whatever follows it. -/
theorem string_quote (t rest : Text) : string (quote t ++ rest) = some (t, rest) := by
  have written : quote t ++ rest = '"' :: (t.flatMap escapeChar ++ '"' :: rest) := by
    simp [quote]
  rw [written, string]
  apply characters_escaped
  have long := length_le_length_escaped t
  rw [List.length_append, List.length_cons]
  omega

end Strings

section Numbers

/-- Whether a number that stands before a text ends there. -/
def EndsNumber (t : Text) : Prop :=
  ∀ c ∈ t.head?, continuesNumber c = false

theorem endsNumber_cons (ends : continuesNumber c = false) : EndsNumber (c :: rest) := by
  intro d isHead
  cases isHead
  exact ends

theorem continuesNumber_of_isBlank (blank : isBlank c = true) : continuesNumber c = false := by
  simp only [isBlank, Bool.or_eq_true, beq_iff_eq] at blank
  rcases blank with ((rfl | rfl) | rfl) | rfl
  · rfl
  · rfl
  · rfl
  · rfl

theorem isBlank_of_isDigit (digit : isDigit c = true) : isBlank c = false := by
  cases blank : isBlank c with
  | false => rfl
  | true =>
    have ends := continuesNumber_of_isBlank blank
    rw [continuesNumber, digit] at ends
    cases ends

theorem natural_decimal (n : Nat) (ends : EndsNumber rest) :
    natural (decimal n ++ rest) = some (n, rest) := by
  have areDigits : ∀ c ∈ decimal n, isDigit c = true := fun c mem => isDigit_of_mem_decimal mem
  have notDigit : ∀ c ∈ rest.head?, isDigit c = false := by
    intro c isHead
    have goesOn := ends c isHead
    simp only [continuesNumber, Bool.or_eq_false_iff] at goesOn
    exact goesOn.1.1.1
  have digits : (decimal n ++ rest).takeWhile isDigit = decimal n := by
    rw [List.takeWhile_append_of_pos areDigits]
    cases rest with
    | nil => exact List.append_nil _
    | cons c rest => simp [notDigit c rfl]
  have after : (decimal n ++ rest).dropWhile isDigit = rest := by
    rw [List.dropWhile_append_of_pos areDigits]
    cases rest with
    | nil => rfl
    | cons c rest => simp [notDigit c rfl]
  have fits : ¬ (decimal n = [] ∨ ((decimal n).head? = some '0' ∧ decimal n ≠ ['0']) ∨
      rest.head?.any continuesNumber = true) := by
    rintro (empty | ⟨zero, more⟩ | goesOn)
    · exact decimal_ne_nil n empty
    · rw [decimal_of_head_zero zero] at more
      exact more rfl
    · rcases (Option.any_eq_true _ _).1 goesOn with ⟨c, isHead, continues⟩
      rw [ends c isHead] at continues
      cases continues
  simp only [natural, digits, after, if_neg fits, number?_decimal, Option.map_some]

end Numbers

section Lists

variable {α : Type} {element : Reader α} {write : α → Text} {elements : List α} {close : Char}
  {tail : Text}

/-- Whether an element is read back, after blanks, if no number goes on after it. -/
def ReadsBack (element : Reader α) (write : α → Text) (a : α) : Prop :=
  ∀ after, EndsNumber after → element (skipBlanks (write a ++ after)) = some (a, after)

theorem listed_singleton (a : α) :
    [','].intercalate ([a].map write) ++ tail = write a ++ tail := by
  simp [List.intercalate]

theorem listed_cons (a b : α) (more : List α) :
    [','].intercalate ((a :: b :: more).map write) ++ tail =
      write a ++ ',' :: ([','].intercalate ((b :: more).map write) ++ tail) := by
  simp [List.intercalate]

theorem length_le_length_listed (elements : List α) (nonempty : tail ≠ []) :
    elements.length ≤ ([','].intercalate (elements.map write) ++ tail).length := by
  have long : 0 < tail.length := List.length_pos_iff.2 nonempty
  induction elements with
  | nil => exact Nat.zero_le _
  | cons a others ih =>
    cases others with
    | nil =>
      rw [listed_singleton, List.length_append, List.length_singleton]
      omega
    | cons b more =>
      rw [listed_cons, List.length_append, List.length_cons, List.length_cons (a := ',')]
      omega

theorem length_le_of_mem_listed (write : α → Text) (tail : Text) {a : α} (mem : a ∈ elements) :
    (write a).length ≤ ([','].intercalate (elements.map write) ++ tail).length := by
  induction elements with
  | nil => cases mem
  | cons b others ih =>
    cases others with
    | nil =>
      rw [List.mem_singleton.1 mem, listed_singleton, List.length_append]
      exact Nat.le_add_right _ _
    | cons next more =>
      rw [listed_cons, List.length_append, List.length_cons]
      rcases List.mem_cons.1 mem with rfl | mem
      · exact Nat.le_add_right _ _
      · have later := ih mem
        omega

theorem separated_written {bound : Nat} (notComma : close ≠ ',') (nonempty : elements ≠ [])
    (readsBack : ∀ a ∈ elements, ReadsBack element write a)
    (closes : skipBlanks tail = close :: rest) (ends : EndsNumber tail)
    (within : elements.length ≤ bound) :
    separated element close bound ([','].intercalate (elements.map write) ++ tail) =
      some (elements, rest) := by
  induction elements generalizing bound with
  | nil => exact absurd rfl nonempty
  | cons a others ih =>
    cases bound with
    | zero => exact absurd within (Nat.not_succ_le_zero _)
    | succ bound =>
      cases others with
      | nil =>
        rw [listed_singleton, separated, readsBack a List.mem_cons_self tail ends]
        simp only [Option.bind_eq_bind, Option.bind_some, closes]
        rfl
      | cons b more =>
        have later := ih (List.cons_ne_nil b more)
          (fun other mem => readsBack other (List.mem_cons_of_mem a mem))
          (Nat.le_of_succ_le_succ within)
        rw [listed_cons, separated, readsBack a List.mem_cons_self _ (endsNumber_cons rfl)]
        have comma : skipBlanks (',' :: ([','].intercalate ((b :: more).map write) ++ tail)) =
            ',' :: ([','].intercalate ((b :: more).map write) ++ tail) :=
          skipBlanks_of_not_blank rfl
        simp only [Option.bind_eq_bind, Option.bind_some, comma, if_neg notComma.symm, if_pos,
          later]
        rfl

/-- A written list is read back, up to its closing bracket. -/
theorem list_written (notComma : close ≠ ',') (nonempty : elements ≠ [])
    (refuses : ∀ rest, element (close :: rest) = none)
    (readsBack : ∀ a ∈ elements, ReadsBack element write a)
    (closes : skipBlanks tail = close :: rest) (ends : EndsNumber tail) :
    list element close ([','].intercalate (elements.map write) ++ tail) =
      some (elements, rest) := by
  have tailNe : tail ≠ [] := by
    rintro rfl
    cases closes
  have opens : ∃ a ∈ elements, ∃ after, EndsNumber after ∧
      [','].intercalate (elements.map write) ++ tail = write a ++ after := by
    rcases elements with _ | ⟨a, _ | ⟨b, more⟩⟩
    · exact absurd rfl nonempty
    · exact ⟨a, List.mem_cons_self, tail, ends, listed_singleton a⟩
    · exact ⟨a, List.mem_cons_self, _, endsNumber_cons rfl, listed_cons a b more⟩
  -- No element starts with the closing bracket, so this is not the end of an empty list.
  have notClosed : ¬ (skipBlanks ([','].intercalate (elements.map write) ++ tail)).head? =
      some close := by
    intro closed
    rcases opens with ⟨a, mem, after, afterEnds, written⟩
    rcases List.head?_eq_some_iff.1 closed with ⟨others, begins⟩
    have first := readsBack a mem after afterEnds
    rw [← written, begins, refuses] at first
    cases first
  rw [list, if_neg notClosed]
  exact separated_written notComma nonempty readsBack closes ends
    (length_le_length_listed elements tailNe)

end Lists

section Values

theorem value_of_isDigit {depth : Nat} (digit : isDigit c = true) :
    value (depth + 1) (c :: rest) = (natural (c :: rest)).map (Prod.map .number id) := by
  rw [value]
  all_goals
    intro _ same
    cases same
    cases digit

theorem value_refuses_bracket (depth : Nat) (rest : Text) : value depth (']' :: rest) = none := by
  cases depth with
  | zero => rfl
  | succ depth => rfl

theorem member_refuses_brace (value : Reader Json) (rest : Text) :
    member value ('}' :: rest) = none :=
  rfl

variable {level depth : Nat} {json : Json}

/-- The text of a value starts with no blank. -/
theorem skipBlanks_pretty_append (level : Nat) (json : Json) (rest : Text) :
    skipBlanks (json.pretty level ++ rest) = json.pretty level ++ rest := by
  cases json with
  | null => rfl
  | bool b => cases b <;> rfl
  | number n =>
    rcases exists_decimal_cons n with ⟨c, others, digits, isDigit⟩
    rw [pretty, digits]
    exact skipBlanks_of_not_blank (isBlank_of_isDigit isDigit)
  | string t => rfl
  | array items => cases items <;> rfl
  | object members => cases members <;> rfl

theorem readsBack_pretty
    (readsBack : ∀ after, EndsNumber after →
      value depth (json.pretty level ++ after) = some (json, after)) :
    ReadsBack (value depth) (fun json => newLine level ++ json.pretty level) json := by
  intro after ends
  rw [List.append_assoc, skipBlanks_newLine, skipBlanks_pretty_append]
  exact readsBack after ends

theorem readsBack_writeMember {key : Text}
    (readsBack : ∀ after, EndsNumber after →
      value depth (json.pretty level ++ after) = some (json, after)) :
    ReadsBack (member (value depth)) (writeMember level) (key, json) := by
  intro after ends
  have written : writeMember level (key, json) ++ after =
      newLine level ++ (quote key ++ ':' :: ' ' :: (json.pretty level ++ after)) := by
    simp [writeMember]
  have opens : skipBlanks (quote key ++ ':' :: ' ' :: (json.pretty level ++ after)) =
      quote key ++ ':' :: ' ' :: (json.pretty level ++ after) :=
    rfl
  have colon : skipBlanks (':' :: ' ' :: (json.pretty level ++ after)) =
      ':' :: ' ' :: (json.pretty level ++ after) :=
    rfl
  have space : skipBlanks (' ' :: (json.pretty level ++ after)) =
      skipBlanks (json.pretty level ++ after) :=
    rfl
  rw [written, skipBlanks_newLine, opens, member, string_quote]
  simp only [Option.bind_eq_bind, Option.bind_some, colon, space, skipBlanks_pretty_append,
    readsBack after ends]
  rfl

theorem skipBlanks_ending {close : Char} (notBlank : isBlank close = false) :
    skipBlanks (newLine level ++ close :: rest) = close :: rest := by
  rw [skipBlanks_newLine, skipBlanks_of_not_blank notBlank]

theorem value_array {item : Json} {others : List Json}
    (readsBack : ∀ one ∈ item :: others, ReadsBack (value depth)
      (fun one => newLine (level + 1) ++ one.pretty (level + 1)) one) :
    value (depth + 1) ((Json.array (item :: others)).pretty level ++ rest) =
      some (.array (item :: others), rest) := by
  have closes : skipBlanks (newLine level ++ ']' :: rest) = ']' :: rest := skipBlanks_ending rfl
  have listed := list_written (by decide) (List.cons_ne_nil item others)
    (value_refuses_bracket depth) readsBack closes (endsNumber_cons rfl)
  rw [pretty_array_append, value, listed]
  rfl

theorem value_object {first : Text × Json} {others : List (Text × Json)}
    (readsBack : ∀ one ∈ first :: others,
      ReadsBack (member (value depth)) (writeMember (level + 1)) one) :
    value (depth + 1) ((Json.object (first :: others)).pretty level ++ rest) =
      some (.object (first :: others), rest) := by
  have closes : skipBlanks (newLine level ++ '}' :: rest) = '}' :: rest := skipBlanks_ending rfl
  have listed := list_written (by decide) (List.cons_ne_nil first others)
    (member_refuses_brace (value depth)) readsBack closes (endsNumber_cons rfl)
  rw [pretty_object_append, value, listed]
  rfl

theorem length_pretty_item_lt {item one : Json} {others : List Json} (mem : one ∈ item :: others) :
    (one.pretty (level + 1)).length < ((Json.array (item :: others)).pretty level).length := by
  have inside := length_le_of_mem_listed
    (fun one => newLine (level + 1) ++ Json.pretty (level + 1) one) (newLine level ++ [']']) mem
  have whole := pretty_array_append level item others []
  rw [List.append_nil] at whole
  rw [List.length_append] at inside
  rw [whole, List.length_cons]
  omega

theorem length_pretty_member_lt {first one : Text × Json} {others : List (Text × Json)}
    (mem : one ∈ first :: others) :
    (one.2.pretty (level + 1)).length < ((Json.object (first :: others)).pretty level).length := by
  have inside := length_le_of_mem_listed (writeMember (level + 1)) (newLine level ++ ['}']) mem
  have whole := pretty_object_append level first others []
  rw [List.append_nil] at whole
  rw [writeMember, List.length_append] at inside
  rw [whole, List.length_cons]
  omega

/-- A value is read back if the bound is larger than the length of its text. -/
theorem value_pretty (within : (json.pretty level).length < depth) (ends : EndsNumber rest) :
    value depth (json.pretty level ++ rest) = some (json, rest) := by
  induction depth generalizing level json rest with
  | zero => exact absurd within (Nat.not_lt_zero _)
  | succ depth ih =>
    cases json with
    | null => rfl
    | bool b => cases b <;> rfl
    | number n =>
      rcases exists_decimal_cons n with ⟨c, others, digits, isDigit⟩
      rw [pretty, digits, List.cons_append, value_of_isDigit isDigit, ← List.cons_append, ← digits,
        natural_decimal n ends]
      rfl
    | string t =>
      have opens : value (depth + 1) (quote t ++ rest) =
          (Reader.string (quote t ++ rest)).map (Prod.map .string id) :=
        rfl
      rw [pretty, opens, string_quote]
      rfl
    | array items =>
      cases items with
      | nil => rfl
      | cons item others =>
        -- Each element has a shorter text than the array, which is what the induction asks for.
        apply value_array
        intro one mem
        apply readsBack_pretty
        intro after afterEnds
        have shorter : (one.pretty (level + 1)).length < _ := length_pretty_item_lt mem
        exact ih (by omega) afterEnds
    | object members =>
      cases members with
      | nil => rfl
      | cons first others =>
        apply value_object
        rintro ⟨key, json⟩ mem
        apply readsBack_writeMember
        intro after afterEnds
        have shorter : (json.pretty (level + 1)).length < _ := length_pretty_member_lt mem
        exact ih (by omega) afterEnds

end Values

end Reader

/-- What is written is read back, with blanks after it or without. -/
theorem read_pretty (level : Nat) (json : Json) {after : Text}
    (blank : ∀ c ∈ after, Reader.isBlank c = true) :
    read (json.pretty level ++ after) = some json := by
  have ends : Reader.EndsNumber after := by
    intro c isHead
    exact Reader.continuesNumber_of_isBlank (blank c (List.mem_of_mem_head? isHead))
  have within : (json.pretty level).length < (json.pretty level ++ after).length + 1 := by
    rw [List.length_append]
    omega
  have nothingLeft : Reader.skipBlanks (after ++ []) = [] := List.dropWhile_append_of_pos blank
  rw [List.append_nil] at nothingLeft
  rw [read, Reader.skipBlanks_pretty_append, Reader.value_pretty within ends]
  simp only [Option.bind_eq_bind, Option.bind_some, nothingLeft, if_pos]

end Json

end MarkdownLinks
