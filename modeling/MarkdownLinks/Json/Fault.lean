import MarkdownLinks.Text.Number

/-!
# Faults of JSON

Why a value cannot be written as JSON, or read from it, and where.  A position may also be told at
the end of the reason, and is taken from there.
-/

namespace MarkdownLinks

namespace Json

/-- A fault of JSON, with the line and the column at which it is; on line zero it has no place. -/
structure Fault where
  reason : Text
  line : Nat := 0
  column : Nat := 0
  deriving DecidableEq

namespace Fault

/-- What stands before the line of a position. -/
def lineMark : Text :=
  " at line ".toList

/-- What stands between the line and the column of a position. -/
def columnMark : Text :=
  " column ".toList

def message (fault : Fault) : Text :=
  if fault.line = 0 then
    fault.reason
  else
    fault.reason ++ lineMark ++ decimal fault.line ++ columnMark ++ decimal fault.column

/-- The smallest number that is too large for a line or a column. -/
def bound : Nat := 0x10000000000000000

/-- The line or the column that digits stand for. -/
def coordinate? (digits : Text) : Option Nat :=
  if digits.isEmpty then none else (number? 10 digits).filter (· < bound)

/-- The line and the column that a text consists of, after the mark of the line. -/
def position? (t : Text) : Option (Nat × Nat) := do
  let column ← columnMark.isPrefixOf? (t.dropWhile isDigit)
  return (← coordinate? (t.takeWhile isDigit), ← coordinate? column)

/-- The fault that is told with a reason.  Only the last mark of a line can start its position. -/
def ofReason (reason : Text) : Fault :=
  match splitAtLast? lineMark reason with
  | some (before, after) =>
    match position? after with
    | some (line, column) => ⟨before, line, column⟩
    | none => ⟨reason, 0, 0⟩
  | none => ⟨reason, 0, 0⟩

end Fault

end Json

end MarkdownLinks
