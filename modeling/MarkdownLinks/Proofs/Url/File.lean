import Mathlib.Data.List.Basic
import Mathlib.Data.List.TakeWhile
import MarkdownLinks.Path.Basic
import MarkdownLinks.Proofs.Text.Decoding
import MarkdownLinks.Proofs.Url.Percent
import MarkdownLinks.Proofs.Url.Target

/-!
# URLs of files

A URL names a file unless it is empty, starts with `#`, or has a scheme that leads off the file
system.  The path of the file is what stands before the first `#`, decoded.  A slash before such a
URL, or after one without `#`, is a slash before or after the path.
-/

namespace MarkdownLinks

namespace Percent

theorem decodeBytes_ne_nil {bytes : Bytes} (nonempty : bytes ≠ []) : decodeBytes bytes ≠ [] := by
  fun_cases decodeBytes bytes <;> simp_all

theorem decode_ne_nil {t : Text} (nonempty : t ≠ []) : decode t ≠ [] :=
  Utf8.decodeLossy_ne_nil (decodeBytes_ne_nil (Utf8.encode_ne_nil nonempty))

theorem byte?_slash_right (high : UInt8) : byte? high slash = none := by
  have notDigit : digit? slash = none := rfl
  cases found : digit? high <;> simp [byte?, found, notDigit]

/-- A slash is no part of an escape, so that it completes none that is broken off before it. -/
theorem decodeBytes_append_slash (bytes : Bytes) :
    decodeBytes (bytes ++ [slash]) = decodeBytes bytes ++ [slash] := by
  fun_induction decodeBytes bytes with
  | case1 a b c rest byte escape ih => simp [decodeBytes, escape, ih]
  | case2 a b c rest noEscape ih =>
    simp only [List.cons_append] at ih ⊢
    simp only [decodeBytes, noEscape, ih]
  | case3 short isShort =>
    rcases short with _ | ⟨a, _ | ⟨b, _ | ⟨c, rest⟩⟩⟩
    · rfl
    · rfl
    · simp [decodeBytes, byte?_slash_right]
    · exact absurd rfl (isShort a b c rest)

theorem decode_cons_slash (t : Text) : decode ('/' :: t) = '/' :: decode t := by
  have first : decodeBytes (slash :: Utf8.encode t) = slash :: decodeBytes (Utf8.encode t) :=
    decodeBytes_cons_of_ne (by decide) _
  have encoded : Utf8.encode ('/' :: t) = slash :: Utf8.encode t := rfl
  rw [decode, encoded, first]
  exact Utf8.decodeLossy_append_ascii (by decide) [] _

theorem decode_append_slash (t : Text) : decode (t ++ ['/']) = decode t ++ ['/'] := by
  have encoded : Utf8.encode (t ++ ['/']) = Utf8.encode t ++ [slash] := Utf8.encode_append t ['/']
  rw [decode, encoded, decodeBytes_append_slash]
  exact Utf8.decodeLossy_append_ascii (by decide) _ []

end Percent

namespace Url

/-- Whether a URL names a file. -/
structure NamesFile (url : Text) : Prop where
  nonempty : url ≠ []
  notExternal : (scheme? url).filter externalSchemes.contains = none
  notFragment : url.head? ≠ some '#'

/-- The path of the file that a URL names. -/
def filePath (url : Text) : Text :=
  Percent.decode (url.takeWhile (· != '#'))

/-- What a URL says from the first `#` on, if it has one. -/
def fragment? (url : Text) : Option Text :=
  if '#' ∈ url then some (url.dropWhile (· != '#')) else none

variable {url : Text}

theorem splitFragment_eq_takeWhile (url : Text) :
    splitFragment url = (url.takeWhile (· != '#'), fragment? url) := by
  cases split : splitAtFirst? '#' url with
  | none =>
    have noHash : '#' ∉ url := splitAtFirst?_eq_none_iff.1 split
    have whole : url.takeWhile (· != '#') = url :=
      List.takeWhile_eq_self_iff.2 (bne_of_not_mem noHash)
    simp only [splitFragment, split, fragment?, if_neg noHash, whole]
  | some parts =>
    rcases parts with ⟨before, after⟩
    rcases splitAtFirst?_eq_some_iff.1 split with ⟨rfl, absent⟩
    have passes : ∀ c ∈ before, (c != '#') = true := bne_of_not_mem absent
    simp only [splitFragment, split, fragment?]
    rw [List.takeWhile_append_of_pos passes, List.dropWhile_append_of_pos passes]
    simp

theorem target_of_namesFile (names : NamesFile url) :
    target url = .file (filePath url) (fragment? url) := by
  simp only [target, names.notExternal, if_neg names.notFragment, splitFragment_eq_takeWhile]
  rfl

theorem namesFile_of_target {path : Text} {fragment : Option Text}
    (isFile : target url = .file path fragment) (pathNe : path ≠ []) :
    NamesFile url ∧ path = filePath url ∧ fragment = fragment? url := by
  rw [target] at isFile
  split at isFile
  · cases isFile
  · next notExternal =>
    split at isFile
    · cases isFile
    · next notFragment =>
      rw [splitFragment_eq_takeWhile] at isFile
      cases isFile
      refine ⟨⟨?_, notExternal, notFragment⟩, rfl, rfl⟩
      rintro rfl
      exact pathNe rfl

theorem NamesFile.filePath_ne_nil (names : NamesFile url) : filePath url ≠ [] := by
  rcases List.exists_cons_of_ne_nil names.nonempty with ⟨c, rest, rfl⟩
  have notHash : c ≠ '#' := by simpa using names.notFragment
  apply Percent.decode_ne_nil
  simp [notHash]

section SlashBefore

/-- A scheme starts with a letter. -/
theorem scheme?_cons {c : Char} (notLetter : isLetter c = false) (url : Text) :
    scheme? (c :: url) = none := by
  cases split : splitAtFirst? ':' (c :: url) with
  | none => simp [scheme?, split]
  | some parts =>
    rcases parts with ⟨before, after⟩
    rcases splitAtFirst?_eq_some_iff.1 split with ⟨written, -⟩
    cases before with
    | nil => simp [scheme?, split]
    | cons first rest =>
      have same : first = c := (List.cons.inj written).1.symm
      simp [scheme?, split, same, notLetter]

theorem namesFile_cons_slash (url : Text) : NamesFile ('/' :: url) where
  nonempty := List.cons_ne_nil '/' url
  notExternal := by rw [scheme?_cons (by decide), Option.filter_none]
  notFragment := by simp

theorem filePath_cons_slash (url : Text) : filePath ('/' :: url) = '/' :: filePath url := by
  rw [filePath, List.takeWhile_cons_of_pos (by decide), Percent.decode_cons_slash, filePath]

theorem fragment?_cons_slash (url : Text) : fragment? ('/' :: url) = fragment? url := by
  simp [fragment?]

end SlashBefore

section SlashAfter

theorem scheme?_append_slash (url : Text) : scheme? (url ++ ['/']) = scheme? url := by
  cases split : splitAtFirst? ':' url with
  | none =>
    have noColon : ':' ∉ url := splitAtFirst?_eq_none_iff.1 split
    rw [scheme?_eq_none noColon, scheme?_eq_none (by simp [noColon])]
  | some parts =>
    rcases parts with ⟨before, after⟩
    rcases splitAtFirst?_eq_some_iff.1 split with ⟨rfl, absent⟩
    have longer : splitAtFirst? ':' ((before ++ ':' :: after) ++ ['/']) =
        some (before, after ++ ['/']) :=
      splitAtFirst?_eq_some_iff.2 ⟨by simp, absent⟩
    simp only [scheme?, split, longer]
    rfl

theorem NamesFile.append_slash (names : NamesFile url) : NamesFile (url ++ ['/']) where
  nonempty := by simp
  notExternal := by rw [scheme?_append_slash, names.notExternal]
  notFragment := by rw [List.head?_append_of_ne_nil _ names.nonempty]; exact names.notFragment

/-- After a fragment, a slash is no part of the path. -/
theorem filePath_append_slash_of_mem (hash : '#' ∈ url) :
    filePath (url ++ ['/']) = filePath url := by
  rcases List.eq_append_cons_of_mem hash with ⟨before, after, rfl, absent⟩
  have passes : ∀ c ∈ before, (c != '#') = true := bne_of_not_mem absent
  rw [filePath, filePath, List.append_assoc, List.takeWhile_append_of_pos passes,
    List.takeWhile_append_of_pos passes]
  simp

variable (noHash : '#' ∉ url)

include noHash

theorem fragment?_eq_none : fragment? url = none :=
  if_neg noHash

theorem filePath_of_not_mem : filePath url = Percent.decode url := by
  have split := splitFragment_eq_takeWhile url
  simp only [splitFragment, splitAtFirst?_eq_none_iff.2 noHash, Prod.mk.injEq] at split
  rw [filePath, ← split.1]

theorem filePath_append_slash : filePath (url ++ ['/']) = filePath url ++ ['/'] := by
  rw [filePath_of_not_mem noHash, filePath_of_not_mem (by simp [noHash]),
    Percent.decode_append_slash]

end SlashAfter

end Url

end MarkdownLinks
