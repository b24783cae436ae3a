import MarkdownLinks.Proofs.Text.Pieces
import MarkdownLinks.Url.Basic

/-!
# The path and the fragment of a URL

A URL without a colon has no scheme, and its fragment starts at the first `#`.
-/

namespace MarkdownLinks

namespace Url

theorem scheme?_eq_none {url : Text} (noColon : ':' ∉ url) : scheme? url = none := by
  simp only [scheme?, splitAtFirst?_eq_none_iff.2 noColon]
  rfl

theorem splitFragment_eq {file fragment : Text} (noHash : '#' ∉ file) :
    splitFragment (file ++ '#' :: fragment) = (file, some ('#' :: fragment)) := by
  have split : splitAtFirst? '#' (file ++ '#' :: fragment) = some (file, fragment) :=
    splitAtFirst?_eq_some_iff.2 ⟨rfl, noHash⟩
  simp only [splitFragment, split]

section Plain

variable {url path : Text} {fragment : Option Text}

theorem exists_of_target_eq_file (isFile : target url = .file path fragment) :
    ∀ anchor ∈ fragment, ∃ rest, anchor = '#' :: rest := by
  intro anchor isFragment
  simp only [target] at isFile
  split at isFile
  · cases isFile
  · split at isFile
    · cases isFile
    · cases isFile
      simp only [splitFragment] at isFragment
      split at isFragment
      · cases isFragment
        exact ⟨_, rfl⟩
      · cases isFragment

/-- A fragment after a path does not make a scheme of anything. -/
theorem scheme?_append_fragment (noHash : '#' ∉ path) (rest : Text) :
    scheme? (path ++ '#' :: rest) = scheme? path := by
  cases split : splitAtFirst? ':' path with
  | some parts =>
    rcases parts with ⟨before, after⟩
    rcases splitAtFirst?_eq_some_iff.1 split with ⟨rfl, absent⟩
    have longer : splitAtFirst? ':' ((before ++ ':' :: after) ++ '#' :: rest) =
        some (before, after ++ '#' :: rest) :=
      splitAtFirst?_eq_some_iff.2 ⟨by simp, absent⟩
    simp only [scheme?, split, longer]
    rfl
  | none =>
    have noColon : ':' ∉ path := splitAtFirst?_eq_none_iff.1 split
    rw [scheme?_eq_none noColon]
    cases longer : splitAtFirst? ':' (path ++ '#' :: rest) with
    | none => simp [scheme?, longer]
    | some parts =>
      rcases parts with ⟨before, after⟩
      rcases splitAtFirst?_eq_some_iff.1 longer with ⟨written, -⟩
      have hashMem : '#' ∈ before := by
        rcases List.append_eq_append_iff.1 written with ⟨more, rfl, tail⟩ | ⟨more, rfl, tail⟩
        · cases more with
          | nil => cases tail
          | cons c others =>
            cases tail
            simp
        · cases more with
          | nil => cases tail
          | cons c others =>
            cases tail
            simp at noColon
      have notScheme : before.all isSchemeChar = false := by
        apply Bool.eq_false_iff.2
        intro all
        exact absurd (List.all_eq_true.1 all '#' hashMem) (by decide)
      simp only [scheme?, longer, Option.bind_eq_bind, Option.bind_some, notScheme,
        Bool.and_false, Bool.false_eq_true, if_false]
      cases before.head? <;> rfl

theorem head?_append_ne_hash (pathNe : path ≠ []) (noHash : '#' ∉ path) (rest : Text) :
    (path ++ rest).head? ≠ some '#' := by
  rcases List.exists_cons_of_ne_nil pathNe with ⟨c, more, rfl⟩
  rw [List.cons_append, List.head?_cons, ne_eq, Option.some.injEq]
  rintro rfl
  exact noHash List.mem_cons_self

/-- A path and a fragment written one after the other are told apart again. -/
theorem target_eq_file (pathNe : path ≠ []) (noHash : '#' ∉ path) (noColon : ':' ∉ path)
    (rest : Text) :
    target (path ++ '#' :: rest) = .file (Percent.decode path) (some ('#' :: rest)) := by
  simp only [target, scheme?_append_fragment noHash, scheme?_eq_none noColon, Option.filter_none,
    if_neg (head?_append_ne_hash pathNe noHash _), splitFragment_eq noHash]

/-- Whether a path can be written into a URL as it is: nothing in it starts a fragment or is
decoded, and it has no scheme that leads off the file system. -/
structure IsPlain (path : Text) : Prop where
  noFragment : '#' ∉ path
  decode : Percent.decode path = path
  notExternal : (scheme? path).filter externalSchemes.contains = none

/-- A plain path is read back with any fragment after it. -/
theorem target_of_isPlain (plain : IsPlain path) (pathNe : path ≠ [])
    (isFragment : ∀ anchor ∈ fragment, ∃ rest, anchor = '#' :: rest) :
    target (path ++ fragment.getD []) = .file path fragment := by
  have first := head?_append_ne_hash pathNe plain.noFragment
  cases fragment with
  | none =>
    have split : splitFragment path = (path, none) := by
      simp only [splitFragment, splitAtFirst?_eq_none_iff.2 plain.noFragment]
    have pathFirst : path.head? ≠ some '#' := by simpa using first []
    simp only [Option.getD_none, List.append_nil, target, plain.notExternal, if_neg pathFirst,
      split, plain.decode]
  | some anchor =>
    rcases isFragment anchor rfl with ⟨rest, rfl⟩
    simp only [Option.getD_some, target, scheme?_append_fragment plain.noFragment,
      plain.notExternal, if_neg (first _), splitFragment_eq plain.noFragment, plain.decode]

end Plain

end Url

end MarkdownLinks
