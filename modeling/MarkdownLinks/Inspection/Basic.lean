import MarkdownLinks.Document

/-!
# Inspections

An inspection reads documents through the cache of slugs and may ask a probe for external links.
Its value is what it gives, the cache after it, and the URLs that it gave to the probe, in order.
-/

namespace MarkdownLinks

inductive ProbeOutcome where
  | reachable
  | status (code : Nat)
  | unreachable (reason : Text)
  deriving DecidableEq

/-- A way to ask whether external URLs can be reached. -/
abbrev Probe := Text → ProbeOutcome

/-- What an inspection gives and leaves behind. -/
structure Inspection (α : Type) where
  result : Except ReadFault α
  cache : AnchorCache
  probed : List Text

namespace Inspection

variable {α β : Type}

/-- The inspection that gives a value and does nothing. -/
def pure (cache : AnchorCache) (a : α) : Inspection α :=
  ⟨.ok a, cache, []⟩

/-- The inspection with another value in place of the one that it gives. -/
def map (f : α → β) (inspection : Inspection α) : Inspection β :=
  ⟨inspection.result.map f, inspection.cache, inspection.probed⟩

/-- One inspection for each element of a list, in order, up to the first that fails. -/
def each (inspect : AnchorCache → α → Inspection β) (cache : AnchorCache) :
    List α → Inspection (List β)
  | [] => pure cache []
  | a :: rest =>
    let first := inspect cache a
    match first.result with
    | .error fault => ⟨.error fault, first.cache, first.probed⟩
    | .ok b =>
      let others := each inspect first.cache rest
      ⟨others.result.map (b :: ·), others.cache, first.probed ++ others.probed⟩

end Inspection

end MarkdownLinks
