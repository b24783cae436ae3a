import MarkdownLinks.Proofs.Link.Written

/-!
# Where the links of a line stand

The links of a line stand in its spans: places where a link is written, from left to right, without
overlap, and such that a link starts nowhere outside of them.  A line has only one such list of
spans.
-/

namespace MarkdownLinks

namespace Link

/-- A place in a line, with the link that is written there. -/
structure Span where
  start : Nat
  text : Text
  target : Text

namespace Span

/-- The place after the closing parenthesis. -/
def stop (span : Span) : Nat :=
  span.start + (written span.text span.target).length

/-- Whether a place is inside a span. -/
def Covers (span : Span) (place : Nat) : Prop :=
  span.start ≤ place ∧ place < span.stop

/-- The link that a span of a line stands for. -/
def link (line : Nat) (span : Span) : Link :=
  ⟨line, span.text, Title.stripAll span.target⟩

/-- Whether the link of a span is written in a line at its place. -/
structure StandsIn (span : Span) (t : Text) : Prop where
  writable : IsWritable span.text span.target
  found : written span.text span.target <+: t.drop span.start

/-- The span in a line with more text before it. -/
def after (count : Nat) (span : Span) : Span :=
  { span with start := count + span.start }

variable {span other : Span} {t : Text} {count : Nat}

theorem start_lt_stop (span : Span) : span.start < span.stop := by
  simp only [stop, written, List.length_append, List.length_cons]
  omega

theorem stop_after : (span.after count).stop = count + span.stop := by
  simp only [stop, after]
  omega

theorem covers_after {place : Nat} (covers : span.Covers place) :
    (span.after count).Covers (count + place) := by
  rw [Covers, stop_after]
  exact ⟨Nat.add_le_add_left covers.1 count, Nat.add_lt_add_left covers.2 count⟩

theorem standsIn_after_iff : (span.after count).StandsIn t ↔ span.StandsIn (t.drop count) := by
  constructor
  · rintro ⟨writable, found⟩
    refine ⟨writable, ?_⟩
    rw [List.drop_drop]
    exact found
  · rintro ⟨writable, found⟩
    refine ⟨writable, ?_⟩
    rw [List.drop_drop] at found
    exact found

theorem exists_eq_after (later : count ≤ span.start) :
    ∃ other : Span, span = other.after count := by
  refine ⟨{ span with start := span.start - count }, ?_⟩
  simp only [after, Nat.add_sub_cancel' later]

theorem exists_matchAt?_of_standsIn (stands : span.StandsIn t) :
    ∃ rest, matchAt? (t.drop span.start) = some ⟨span.text, span.target, rest⟩ := by
  rcases stands.found with ⟨rest, whole⟩
  refine ⟨rest, ?_⟩
  rw [← whole]
  exact matchAt?_written stands.writable rest

/-- Only one link is written at a place. -/
theorem eq_of_start_eq (stands : span.StandsIn t) (otherStands : other.StandsIn t)
    (same : span.start = other.start) : span = other := by
  rcases exists_matchAt?_of_standsIn stands with ⟨rest, hit⟩
  rcases exists_matchAt?_of_standsIn otherStands with ⟨otherRest, otherHit⟩
  rw [same, otherHit] at hit
  rcases span with ⟨start, text, target⟩
  rcases other with ⟨otherStart, otherText, otherTarget⟩
  cases hit
  cases same
  rfl

/-- The span of a link that is found at the beginning of a line. -/
theorem standsIn_of_matchAt? {found : Match} (hit : matchAt? t = some found) :
    (Span.mk 0 found.text found.target).StandsIn t := by
  rcases isWritable_of_matchAt? hit with ⟨writable, whole⟩
  exact ⟨writable, found.rest, whole.symm⟩

theorem start_pos_of_matchAt? (miss : matchAt? t = none) (stands : span.StandsIn t) :
    1 ≤ span.start := by
  rcases Nat.eq_zero_or_pos span.start with atBeginning | later
  · rcases exists_matchAt?_of_standsIn stands with ⟨rest, hit⟩
    rw [atBeginning, List.drop_zero, miss] at hit
    cases hit
  · exact later

end Span

/-- Whether spans are those of a line: links are written there, from left to right and without
overlap, and wherever a link starts is inside one of them. -/
structure AreSpansOf (spans : List Span) (t : Text) : Prop where
  stand : ∀ span ∈ spans, span.StandsIn t
  apart : spans.Pairwise fun span later => span.stop ≤ later.start
  covered : ∀ span : Span, span.StandsIn t → ∃ found ∈ spans, found.Covers span.start

namespace AreSpansOf

variable {spans others : List Span} {t : Text} {count : Nat}

theorem stand_after (rest : AreSpansOf spans (t.drop count)) :
    ∀ span ∈ spans.map (Span.after count), span.StandsIn t := by
  intro span mem
  rcases List.mem_map.1 mem with ⟨other, otherMem, rfl⟩
  exact Span.standsIn_after_iff.2 (rest.stand other otherMem)

theorem apart_after (rest : AreSpansOf spans (t.drop count)) :
    (spans.map (Span.after count)).Pairwise fun span later => span.stop ≤ later.start := by
  apply List.pairwise_map.2
  apply rest.apart.imp
  intro span later before
  rw [Span.stop_after]
  exact Nat.add_le_add_left before count

theorem covered_after (rest : AreSpansOf spans (t.drop count)) {span : Span}
    (stands : span.StandsIn t) (later : count ≤ span.start) :
    ∃ found ∈ spans.map (Span.after count), found.Covers span.start := by
  rcases Span.exists_eq_after later with ⟨other, rfl⟩
  rcases rest.covered other (Span.standsIn_after_iff.1 stands) with ⟨found, mem, covers⟩
  exact ⟨found.after count, List.mem_map_of_mem mem, Span.covers_after covers⟩

/-- The spans after a place before which no link starts are all spans. -/
theorem skip (rest : AreSpansOf spans (t.drop count))
    (noneBefore : ∀ span : Span, span.StandsIn t → count ≤ span.start) :
    AreSpansOf (spans.map (Span.after count)) t where
  stand := rest.stand_after
  apart := rest.apart_after
  covered span stands := rest.covered_after stands (noneBefore span stands)

/-- A span at the beginning, and the spans after it, are all spans. -/
theorem cons {first : Span} (atBeginning : first.start = 0) (stands : first.StandsIn t)
    (rest : AreSpansOf spans (t.drop first.stop)) :
    AreSpansOf (first :: spans.map (Span.after first.stop)) t where
  stand := by
    intro span mem
    rcases List.mem_cons.1 mem with rfl | later
    · exact stands
    · exact rest.stand_after span later
  apart := by
    refine .cons ?_ rest.apart_after
    intro span mem
    rcases List.mem_map.1 mem with ⟨other, -, rfl⟩
    exact Nat.le_add_right first.stop other.start
  covered := by
    intro span spanStands
    by_cases inside : span.start < first.stop
    · exact ⟨first, List.mem_cons_self, by omega, inside⟩
    · rcases rest.covered_after spanStands (Nat.le_of_not_lt inside) with ⟨found, mem, covers⟩
      exact ⟨found, List.mem_cons_of_mem first mem, covers⟩

/-- Spans that do not overlap start at different places. -/
theorem lt_start (areSpans : AreSpansOf spans t) :
    spans.Pairwise fun span later => span.start < later.start := by
  apply areSpans.apart.imp
  intro span later before
  exact Nat.lt_of_lt_of_le span.start_lt_stop before

/-- No span starts inside another one. -/
theorem start_eq_of_covers (areSpans : AreSpansOf spans t) {span other : Span}
    (mem : span ∈ spans) (otherMem : other ∈ spans) (covers : other.Covers span.start) :
    other.start = span.start := by
  rcases covers with ⟨notBefore, inside⟩
  have ordered := List.pairwise_iff_getElem.1 areSpans.apart
  rcases List.getElem_of_mem mem with ⟨i, iLt, rfl⟩
  rcases List.getElem_of_mem otherMem with ⟨j, jLt, rfl⟩
  rcases Nat.lt_trichotomy i j with less | same | more
  · have apart := ordered i j iLt jLt less
    have nonempty := spans[i].start_lt_stop
    omega
  · subst same
    rfl
  · have apart := ordered j i jLt iLt more
    omega

/-- A span of one list is one of another if whatever starts earlier in the other list is in the first:
a span that started earlier and covered its start would overlap it there. -/
theorem mem_of_earlier (areSpans : AreSpansOf spans t) (areOthers : AreSpansOf others t)
    {span : Span} (mem : span ∈ spans)
    (earlier : ∀ found ∈ others, found.start < span.start → found ∈ spans) : span ∈ others := by
  rcases areOthers.covered span (areSpans.stand span mem) with ⟨found, foundMem, covers⟩
  have same : found.start = span.start := by
    rcases Nat.lt_or_eq_of_le covers.1 with less | same
    · exact areSpans.start_eq_of_covers mem (earlier found foundMem less) covers
    · exact same
  rw [← Span.eq_of_start_eq (areOthers.stand found foundMem) (areSpans.stand span mem) same]
  exact foundMem

/-- Whatever starts at a place is a span of one list if it is one of another.  The induction is on
the place. -/
theorem mem_iff_mem (areSpans : AreSpansOf spans t) (areOthers : AreSpansOf others t)
    (place : Nat) : ∀ span : Span, span.start = place → (span ∈ spans ↔ span ∈ others) := by
  induction place using Nat.strongRecOn with
  | ind place ih =>
    rintro span rfl
    constructor
    · intro mem
      apply areSpans.mem_of_earlier areOthers mem
      intro found foundMem less
      exact (ih found.start less found rfl).2 foundMem
    · intro mem
      apply areOthers.mem_of_earlier areSpans mem
      intro found foundMem less
      exact (ih found.start less found rfl).1 foundMem

/-- A line has only one list of spans. -/
theorem unique (areSpans : AreSpansOf spans t) (areOthers : AreSpansOf others t) :
    spans = others := by
  have nodup : ∀ {spans : List Span}, AreSpansOf spans t → spans.Nodup := by
    intro spans areSpans
    apply areSpans.lt_start.imp
    rintro span _ less rfl
    exact Nat.lt_irrefl _ less
  have permutation : spans.Perm others := by
    apply (List.perm_ext_iff_of_nodup (nodup areSpans) (nodup areOthers)).2
    intro span
    exact areSpans.mem_iff_mem areOthers span.start span rfl
  apply permutation.eq_of_pairwise _ areSpans.lt_start areOthers.lt_start
  intro span other _ _ less more
  exact absurd (Nat.lt_trans less more) (Nat.lt_irrefl _)

end AreSpansOf

theorem map_link_after (spans : List Span) (count line : Nat) :
    (spans.map (Span.after count)).map (Span.link line) = spans.map (Span.link line) := by
  rw [List.map_map]
  rfl

/-- The links of a line are those of its spans, in order. -/
theorem exists_spans (t : Text) :
    ∃ spans, AreSpansOf spans t ∧ ∀ line, onLine line t = spans.map (Span.link line) := by
  induction t using matchesOn.induct with
  | case1 t found hit shorter ih =>
    rcases ih with ⟨spans, areSpans, links⟩
    let first : Span := ⟨0, found.text, found.target⟩
    have restEq : t.drop first.stop = found.rest := by
      rw [(isWritable_of_matchAt? hit).2, Span.stop, Nat.zero_add]
      exact List.drop_left
    refine ⟨first :: spans.map (Span.after first.stop), ?_, ?_⟩
    · apply AreSpansOf.cons rfl (Span.standsIn_of_matchAt? hit)
      rw [restEq]
      exact areSpans
    · intro line
      rw [List.map_cons, map_link_after, ← links, onLine, matchesOn_of_matchAt? hit]
      rfl
  | case2 miss =>
    refine ⟨[], ⟨by simp, .nil, ?_⟩, ?_⟩
    · intro span stands
      rcases Span.exists_matchAt?_of_standsIn stands with ⟨rest, hit⟩
      rw [List.drop_nil, miss] at hit
      cases hit
    · intro line
      rw [onLine, matchesOn_nil]
      rfl
  | case3 c rest miss ih =>
    rcases ih with ⟨spans, areSpans, links⟩
    refine ⟨spans.map (Span.after 1), ?_, ?_⟩
    · apply AreSpansOf.skip (by simpa using areSpans)
      intro span stands
      exact Span.start_pos_of_matchAt? miss stands
    · intro line
      rw [map_link_after, ← links, onLine, matchesOn_cons miss]
      rfl

/-- A line has exactly one list of spans, and its links are those of the spans, in order. -/
theorem scan_eq_spans {t : Text} (oneLine : '\n' ∉ t) :
    ∃ spans, AreSpansOf spans t ∧ (∀ others, AreSpansOf others t → others = spans) ∧
      scan t = spans.map (Span.link 1) := by
  rcases exists_spans t with ⟨spans, areSpans, links⟩
  refine ⟨spans, areSpans, ?_, ?_⟩
  · intro others areOthers
    exact areOthers.unique areSpans
  · rw [scan_of_not_mem oneLine]
    exact links 1

/-- A line with brackets in brackets, with things that are not quite links, and with a title. -/
def sampleLine : Text :=
  "[a [b](c [d](e) [](f) [g]() ](h) [i](j](k \"l\")".toList

theorem scan_eq_spans_sample :
    '\n' ∉ sampleLine ∧
      ∃ spans, AreSpansOf spans sampleLine ∧
        (∀ others, AreSpansOf others sampleLine → others = spans) ∧
        scan sampleLine = spans.map (Span.link 1) :=
  ⟨by decide, scan_eq_spans (by decide)⟩

end Link

end MarkdownLinks
