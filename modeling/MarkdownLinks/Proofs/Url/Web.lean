import MarkdownLinks.Proofs.Text.Pieces
import MarkdownLinks.Url.Basic

/-!
# URLs of the web

A URL leads to the web if it starts with `http:` or `https:`, in any letter case.  These are the
URLs with a scheme that a probe can ask for.
-/

namespace MarkdownLinks

namespace Url

variable {url : Text}

/-- Whether a URL has a scheme that a probe can ask for. -/
def isWeb (url : Text) : Bool :=
  (scheme? url).any probedSchemes.contains

theorem isSchemeChar_of_isLetter {c : Char} (letter : isLetter c = true) :
    isSchemeChar c = true := by
  simp [isSchemeChar, letter]

/-- Lower case makes letters of letters only. -/
theorem isLetter_of_lowerAscii {c : Char} (letter : isLetter (lowerAscii c) = true) :
    isLetter c = true := by
  unfold lowerAscii at letter
  split at letter
  · next upper => simp [isLetter, upper]
  · exact letter

/-- A scheme is what stands before the first colon, if that is a letter and then letters, digits and
the like. -/
theorem scheme?_eq_some_iff {scheme : Text} :
    scheme? url = some scheme ↔
      ∃ written rest, url = written ++ ':' :: rest ∧ written.head?.any isLetter = true ∧
        written.all isSchemeChar = true ∧ scheme = written.map lowerAscii := by
  constructor
  · intro found
    cases split : splitAtFirst? ':' url with
    | none => simp [scheme?, split] at found
    | some parts =>
      rcases parts with ⟨written, rest⟩
      rcases splitAtFirst?_eq_some_iff.1 split with ⟨rfl, -⟩
      simp only [scheme?, split, Option.bind_eq_bind, Option.bind_some] at found
      cases written with
      | nil => cases found
      | cons first more =>
        simp only [List.head?_cons, Option.bind_some] at found
        split at found
        · next isScheme =>
          rw [Bool.and_eq_true] at isScheme
          exact ⟨first :: more, rest, rfl, isScheme.1, isScheme.2, (Option.some.inj found).symm⟩
        · cases found
  · rintro ⟨written, rest, rfl, isFirst, areChars, rfl⟩
    have noColon : ':' ∉ written := by
      intro mem
      exact absurd (List.all_eq_true.1 areChars ':' mem) (by decide)
    have split : splitAtFirst? ':' (written ++ ':' :: rest) = some (written, rest) :=
      splitAtFirst?_eq_some_iff.2 ⟨rfl, noColon⟩
    cases written with
    | nil => cases isFirst
    | cons first more =>
      have firstLetter : isLetter first = true := isFirst
      simp only [scheme?, split, Option.bind_eq_bind, Option.bind_some, List.head?_cons,
        firstLetter, areChars, Bool.and_true, if_true]
      rfl

theorem letters_of_mem_probedSchemes :
    ∀ scheme ∈ probedSchemes, scheme ≠ [] ∧ ∀ c ∈ scheme, isLetter c = true := by
  simp [probedSchemes, isLetter]

theorem isWeb_iff_scheme? :
    isWeb url = true ↔ scheme? url = some "http".toList ∨ scheme? url = some "https".toList := by
  unfold isWeb
  cases scheme? url with
  | none => simp
  | some scheme => simp [probedSchemes]

/-- Nothing has to be known of a URL but that it starts with `http:` or `https:`. -/
theorem isWeb_iff :
    isWeb url = true ↔
      ∃ written rest, url = written ++ ':' :: rest ∧ written.map lowerAscii ∈ probedSchemes := by
  unfold isWeb
  rw [Option.any_eq_true]
  constructor
  · rintro ⟨scheme, found, probed⟩
    rcases scheme?_eq_some_iff.1 found with ⟨written, rest, rfl, -, -, rfl⟩
    exact ⟨written, rest, rfl, List.contains_iff_mem.1 probed⟩
  · rintro ⟨written, rest, rfl, probed⟩
    rcases letters_of_mem_probedSchemes _ probed with ⟨nonempty, lowered⟩
    have letters : ∀ c ∈ written, isLetter c = true := by
      intro c mem
      exact isLetter_of_lowerAscii (lowered _ (List.mem_map_of_mem mem))
    have isFirst : written.head?.any isLetter = true := by
      cases written with
      | nil => exact absurd rfl nonempty
      | cons first more => exact letters first List.mem_cons_self
    have areChars : written.all isSchemeChar = true := by
      apply List.all_eq_true.2
      intro c mem
      exact isSchemeChar_of_isLetter (letters c mem)
    exact ⟨_, scheme?_eq_some_iff.2 ⟨written, rest, rfl, isFirst, areChars, rfl⟩,
      List.contains_iff_mem.2 probed⟩

/-- A URL of the web is external, with a scheme that a probe can ask for. -/
theorem exists_target_of_isWeb (web : isWeb url = true) :
    ∃ scheme ∈ probedSchemes, target url = .external scheme := by
  unfold isWeb at web
  rcases Option.any_eq_true _ _ |>.1 web with ⟨scheme, found, probed⟩
  have isProbed : scheme ∈ probedSchemes := List.contains_iff_mem.1 probed
  have isExternal : ∀ scheme ∈ probedSchemes, externalSchemes.contains scheme = true := by decide
  refine ⟨scheme, isProbed, ?_⟩
  rw [target, show scheme? url = some scheme from found, Option.filter_some,
    if_pos (isExternal scheme isProbed)]

/-- No other external URL has a scheme that a probe can ask for. -/
theorem not_mem_of_not_isWeb {scheme : Text} (notWeb : isWeb url = false)
    (external : target url = .external scheme) : scheme ∉ probedSchemes := by
  intro probed
  unfold target at external
  split at external
  · next other found =>
    cases external
    have isScheme : scheme? url = some scheme := (Option.filter_eq_some_iff.1 found).1
    rw [isWeb, isScheme] at notWeb
    exact absurd (List.contains_iff_mem.2 probed) (Bool.eq_false_iff.1 notWeb)
  · split at external <;> cases external

end Url

end MarkdownLinks
