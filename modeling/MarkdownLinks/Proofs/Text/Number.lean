import MarkdownLinks.Text.Number

/-!
# Numbers in decimal

The decimal digits of a number are never empty, begin with a zero only for zero itself, and stand
for the number.
-/

namespace MarkdownLinks

theorem isDigit_iff {c : Char} : isDigit c = true ↔ c.isDigit = true := by
  simp only [isDigit, Char.isDigit, Bool.and_eq_true, decide_eq_true_iff, Char.le_def]

theorem isDigit_of_mem_decimal {n : Nat} {c : Char} (mem : c ∈ decimal n) : isDigit c = true :=
  isDigit_iff.2 (Nat.isDigit_of_mem_toDigits (by decide) (by decide) mem)

theorem decimal_ne_nil (n : Nat) : decimal n ≠ [] :=
  Nat.toDigits_ne_nil

theorem exists_decimal_cons (n : Nat) : ∃ c rest, decimal n = c :: rest ∧ isDigit c = true := by
  cases digits : decimal n with
  | nil => exact absurd digits (decimal_ne_nil n)
  | cons c rest =>
    refine ⟨c, rest, rfl, isDigit_of_mem_decimal (n := n) ?_⟩
    rw [digits]
    exact List.mem_cons_self

theorem digit?_of_isDigit {c : Char} (isDigit : isDigit c = true) :
    digit? c = some (c.toNat - '0'.toNat) ∧ c.toNat - '0'.toNat < 10 := by
  simp only [MarkdownLinks.isDigit, Bool.and_eq_true, decide_eq_true_iff] at isDigit
  constructor
  · rw [digit?, if_pos isDigit]
  · have last : c.toNat ≤ '9'.toNat := isDigit.2
    have zero : '0'.toNat = 48 := rfl
    have nine : '9'.toNat = 57 := rfl
    omega

theorem number?_of_isDigit {digits : Text} (areDigits : ∀ c ∈ digits, isDigit c = true) :
    number? 10 digits = some (Nat.ofDigitChars 10 digits 0) := by
  rw [number?]
  generalize 0 = value
  induction digits generalizing value with
  | nil => rfl
  | cons c rest ih =>
    rcases digit?_of_isDigit (areDigits c List.mem_cons_self) with ⟨digit, small⟩
    have later := ih (fun d mem => areDigits d (List.mem_cons_of_mem c mem))
      (10 * value + (c.toNat - '0'.toNat))
    simp only [Option.bind_eq_bind] at later
    simp only [List.foldlM_cons, digit, Option.bind_eq_bind, Option.bind_some, if_pos small]
    rw [Nat.mul_comm value 10, later, Nat.ofDigitChars_cons]

theorem number?_decimal (n : Nat) : number? 10 (decimal n) = some n := by
  have areDigits : ∀ c ∈ decimal n, isDigit c = true := fun c mem => isDigit_of_mem_decimal mem
  rw [number?_of_isDigit areDigits, decimal, Nat.ofDigitChars_toDigits (by decide) (by decide)]

theorem decimal_injective {n m : Nat} (same : decimal n = decimal m) : n = m := by
  apply Option.some.inj
  rw [← number?_decimal n, ← number?_decimal m, same]

theorem decimal_of_head_zero {n : Nat} (zero : (decimal n).head? = some '0') : n = 0 := by
  induction n using Nat.strongRecOn with
  | ind n ih =>
    rcases Nat.lt_or_ge n 10 with small | large
    · have alone : decimal n = [n.digitChar] := Nat.toDigits_of_lt_base small
      rw [alone] at zero
      apply decimal_injective (m := 0)
      rw [alone, Option.some.inj zero]
      rfl
    · have split : decimal n = decimal (n / 10) ++ [(n % 10).digitChar] :=
        Nat.toDigits_of_base_le (by decide) large
      have front : (decimal (n / 10)).head? = some '0' := by
        cases digits : decimal (n / 10) with
        | nil => exact absurd digits (decimal_ne_nil _)
        | cons first rest =>
          rw [split, digits] at zero
          exact zero
      have none : n / 10 = 0 := ih (n / 10) (by omega) front
      omega

end MarkdownLinks
